import RestQuery.Filter
import RestQuery.Proofs.Literal.Scan

/-! Full conditions: no combinator is empty, and every comparison meets a requirement that
each theory sets for itself. -/
namespace RestQuery

/-- A list stands exactly after the operators on lists, and it is not empty. -/
def Operand.Fits (operator : Operator) : Operand → Prop
  | .single _ => operator ≠ .oneOf ∧ operator ≠ .noneOf
  | .list literals => (operator = .oneOf ∨ operator = .noneOf) ∧ literals ≠ []

namespace Condition

inductive Full (fits : Column → Operator → Operand → Prop) : Condition → Prop
  | comparison {operand : Operand} : fits column operator operand →
      Full fits (.comparison column operator operand)
  | logical : children ≠ [] → (∀ child ∈ children, Full fits child) →
      Full fits (.logical connective children)

@[simp] theorem full_comparison_iff {operand : Operand} :
    (comparison column operator operand).Full fits ↔ fits column operator operand := by
  constructor
  · rintro ⟨fitting⟩
    exact fitting
  · exact .comparison

@[simp] theorem full_logical_iff : (logical connective children).Full fits ↔
    children ≠ [] ∧ ∀ child ∈ children, child.Full fits := by
  constructor
  · intro full
    cases full with
    | logical filled each => exact ⟨filled, each⟩
  · rintro ⟨filled, each⟩
    exact .logical filled each

theorem full_combine? {fits : Column → Operator → Operand → Prop} {children : List Condition}
    (made : combine? connective children = some condition)
    (each : ∀ child ∈ children, Full fits child) : Full fits condition := by
  cases children with
  | nil => simp [combine?] at made
  | cons child others =>
    obtain rfl := Option.some.inj made
    exact .logical (by simp) each

/-- What every comparison requires of its column holds of all columns compared. -/
theorem Full.columns (full : Full fits condition) :
    ∀ column ∈ condition.columns, ∃ operator operand, fits column operator operand := by
  induction full with
  | @comparison column operator operand fitting =>
    intro other member
    obtain rfl : other = column := by simpa [Condition.columns] using member
    exact ⟨operator, operand, fitting⟩
  | logical _ _ ih =>
    intro column member
    rw [Condition.columns, allColumns_eq] at member
    obtain ⟨child, present, member⟩ := List.mem_flatMap.mp member
    exact ih child present column member

end Condition

/-! Truth of conditions, where a comparison may also be unknown. A conjunction fails with
one of its parts, a disjunction holds with one; otherwise what is unknown stays so. -/

inductive Truth where
  | fails | unknown | holds
  deriving DecidableEq, Repr

namespace Truth

def and : Truth → Truth → Truth
  | fails, _ | _, fails => fails
  | holds, holds => holds
  | _, _ => unknown

def or : Truth → Truth → Truth
  | holds, _ | _, holds => holds
  | fails, fails => fails
  | _, _ => unknown

@[simp] theorem and_holds (truth : Truth) : truth.and holds = truth := by cases truth <;> rfl

@[simp] theorem or_fails (truth : Truth) : truth.or fails = truth := by cases truth <;> rfl

end Truth

def Connective.join : Connective → List Truth → Truth
  | and, truths => truths.foldr Truth.and .holds
  | or, truths => truths.foldr Truth.or .fails

@[simp] theorem Connective.join_singleton (connective : Connective) (truth : Truth) :
    connective.join [truth] = truth := by cases connective <;> simp [join]

namespace Condition

mutual

/-- The truth of the tree, where the text of a comparison decides its truth. -/
def truth (assign : Text → Truth) : Condition → Truth
  | comparison column operator operand => assign (comparisonToSql column operator operand)
  | logical connective children => connective.join (allTruths assign children)

def allTruths (assign : Text → Truth) : List Condition → List Truth
  | [] => []
  | child :: children => truth assign child :: allTruths assign children

end

theorem allTruths_eq (assign : Text → Truth) (children : List Condition) :
    allTruths assign children = children.map (truth assign) := by
  induction children with
  | nil => rfl
  | cons child children ih => simp [allTruths, ih]

end Condition

/-! Conditions without the text that a client wrote. What remains when every string is
emptied decides all of a condition's text but the contents of its quoted literals. -/

namespace Operand

def emptied : Operand → Operand
  | single literal => single literal.emptied
  | list literals => list (literals.map Literal.emptied)

def strings (operand : Operand) : List Text := operand.literals.flatMap Literal.strings

end Operand

namespace Condition

mutual

def emptied : Condition → Condition
  | comparison column operator operand => comparison column operator operand.emptied
  | logical connective children => logical connective (allEmptied children)

def allEmptied : List Condition → List Condition
  | [] => []
  | child :: children => emptied child :: allEmptied children

end

mutual

def strings : Condition → List Text
  | comparison _ _ operand => operand.strings
  | logical _ children => allStrings children

def allStrings : List Condition → List Text
  | [] => []
  | child :: children => strings child ++ allStrings children

end

theorem allEmptied_eq (children : List Condition) : allEmptied children = children.map emptied := by
  induction children with
  | nil => rfl
  | cons child children ih => simp [allEmptied, ih]

theorem allStrings_eq (children : List Condition) :
    allStrings children = children.flatMap strings := by
  induction children with
  | nil => rfl
  | cons child children ih => simp [allStrings, ih]

@[simp] theorem columns_emptied (condition : Condition) :
    condition.emptied.columns = condition.columns := by
  induction condition using induct with
  | comparison => rfl
  | logical connective children ih =>
    rw [emptied, columns, columns, allColumns_eq, allColumns_eq, allEmptied_eq, List.flatMap_map,
      List.flatMap_def, List.flatMap_def, List.map_congr_left ih]

@[simp] theorem isGroup_emptied (condition : Condition) :
    condition.emptied.isGroup = condition.isGroup := by
  cases condition <;> simp [emptied, isGroup, allEmptied_eq]

theorem scans_comparisonToSql {column : Column} (plain : Text.IsPlain column.toText)
    (operator : Operator) (operand : Operand) :
    Literal.Scans (comparisonToSql column operator operand)
      (comparisonToSql column operator operand.emptied) operand.strings := by
  have before {mark : Text} (marked : mark.IsPlain) :
      Text.IsPlain (column.toText ++ ' ' :: (operator.toSql ++ mark)) := by
    have spaced : Text.IsPlain (' ' :: operator.toSql) := by cases operator <;> decide
    exact List.not_mem_append plain (List.not_mem_append spaced marked)
  have space : Text.IsPlain [' '] := by decide
  have opening : Text.IsPlain [' ', '('] := by decide
  have closing : Text.IsPlain [')'] := by decide
  have comma : Text.IsPlain ", ".toList := by decide
  cases operand with
  | single literal =>
    have whole := Literal.Scans.plain_append (before space) (Literal.scans_toSql literal)
    simpa [comparisonToSql, Operand.emptied, Operand.strings, Operand.literals] using whole
  | list literals =>
    have inner := Literal.Scans.intercalate comma (by decide) fun literal (_ : literal ∈ literals) =>
      Literal.scans_toSql literal
    have whole := Literal.Scans.plain_append (before opening)
      (inner.append_plain closing)
    simpa [comparisonToSql, Operand.emptied, Operand.strings, Operand.literals,
      Function.comp_def] using whole

/-- By induction on the tree: parentheses and connectives stand between the literals. -/
theorem scans_toSql {condition : Condition}
    (plain : ∀ column ∈ condition.columns, Text.IsPlain column.toText) :
    Literal.Scans condition.toSql condition.emptied.toSql condition.strings := by
  induction condition using induct with
  | comparison column operator operand =>
    exact scans_comparisonToSql (plain column (by simp [columns])) operator operand
  | logical connective children ih =>
    have opening : Text.IsPlain ['('] := by decide
    have closing : Text.IsPlain [')'] := by decide
    have parts : ∀ child ∈ children, Literal.Scans
        (if child.isGroup then '(' :: (child.toSql ++ [')']) else child.toSql)
        (if child.isGroup then '(' :: (child.emptied.toSql ++ [')']) else child.emptied.toSql)
        child.strings := by
      intro child member
      have scans := ih child member fun column inside => plain column <| by
        rw [columns, allColumns_eq]
        exact List.mem_flatMap.mpr ⟨child, member, inside⟩
      split
      · exact Literal.Scans.plain_append opening (scans.append_plain closing)
      · exact scans
    have mark : Text.IsPlain (' ' :: (connective.toSql ++ [' '])) := by cases connective <;> decide
    have whole := Literal.Scans.intercalate mark (by simp) parts
    simpa [toSql, emptied, strings, allToSql_eq, allEmptied_eq, allStrings_eq,
      Function.comp_def] using whole

end Condition
end RestQuery
