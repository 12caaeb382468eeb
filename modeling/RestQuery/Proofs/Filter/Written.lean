import RestQuery.Proofs.Filter.Combinator
import RestQuery.Proofs.Filter.Condition
import RestQuery.Proofs.Literal.Classes
import RestQuery.Proofs.Schema.Accepted
import RestQuery.Proofs.Token.Exact

/-! Conditions that compile from their own text. Each stage of the compiler takes the text
apart where it was put together: at the parenthesis of a call, at the commas between
arguments and at the points of a path. -/
namespace RestQuery

/-- The schema has the column under the names that its handle shows. -/
def Schema.Finds (schema : Schema) (column : Column) : Prop :=
  schema.column? column.name = some column ∨
    (schema.column? column.name = none ∧ ∃ relation,
      schema.relation? column.table = some relation ∧ relation.column? column.name = some column)

namespace Condition

open Token

structure WritableIn (schema : Schema) (column : Column) (operator : Operator)
    (operand : Operand) : Prop where
  table : Text.IsIdentifier column.table
  name : Text.IsIdentifier column.name
  found : schema.Finds column
  fits : operand.Fits operator
  bare : ∀ literal ∈ operand.literals, literal.IsBare

mutual

def nesting : Condition → Nat
  | comparison .. => 0
  | logical _ children => greatestNesting children + 1

def greatestNesting : List Condition → Nat
  | [] => 0
  | child :: children => max (nesting child) (greatestNesting children)

end

theorem nesting_le_greatestNesting {children : List Condition} (member : child ∈ children) :
    child.nesting ≤ greatestNesting children := by
  induction children with
  | nil => contradiction
  | cons first others ih =>
    rw [greatestNesting]
    rcases List.mem_cons.mp member with rfl | member
    · omega
    · have := ih member
      omega

theorem nesting_le_of_combine? {children : List Condition}
    (made : combine? connective children = some condition)
    (each : ∀ child ∈ children, child.nesting ≤ levels) : condition.nesting ≤ levels + 1 := by
  have greatest : greatestNesting children ≤ levels := by
    clear made
    induction children with
    | nil => exact Nat.zero_le _
    | cons first others ih =>
      obtain ⟨low, each⟩ := List.forall_mem_cons.mp each
      exact Nat.max_le.mpr ⟨low, ih each⟩
  cases children with
  | nil => contradiction
  | cons first others =>
    obtain rfl := Option.some.inj made
    exact Nat.succ_le_succ greatest

def call : Condition → Call
  | comparison column operator operand =>
    ⟨[column.table, column.name, operator.name],
      [','].intercalate (operand.literals.map Literal.toSql)⟩
  | logical connective children => ⟨[connective.name], [','].intercalate (children.map toText)⟩

theorem toText_call (condition : Condition) : condition.call.toText = condition.toText := by
  cases condition with
  | comparison column operator operand =>
    simp [call, toText, Call.toText, Path.toText, Column.toText, List.intercalate_cons_cons]
  | logical connective children =>
    rw [call, Call.toText_single, toText, allTexts_eq]

theorem isIdentifier_operator (operator : Operator) : Text.IsIdentifier operator.name := by
  cases operator <;> decide

theorem isItem_literals {literals : List Literal} (bare : ∀ literal ∈ literals, literal.IsBare) :
    ∀ text ∈ literals.map Literal.toSql, IsItem text := by
  intro text member
  obtain ⟨literal, present, rfl⟩ := List.mem_map.mp member
  exact .bare (Literal.isBare_toSql (bare literal present))

/-- By induction on the tree: the texts of the children are items of a balanced list. -/
theorem isWritten_call {condition : Condition} (full : condition.Full (WritableIn schema)) : condition.call.IsWritten := by
  induction full with
  | @comparison column operator operand writable =>
    have operator := isIdentifier_operator operator
    exact ⟨by simp [call], by simp [call, writable.table, writable.name, operator],
      IsItem.balanced_intercalate (isItem_literals writable.bare)⟩
  | @logical children connective filled _ ih =>
    refine ⟨by simp [call], by simp [call, isIdentifier_connective], ?_⟩
    refine IsItem.balanced_intercalate fun text member => ?_
    obtain ⟨child, present, rfl⟩ := List.mem_map.mp member
    rw [← toText_call]
    exact (ih child present).isItem_toText

theorem resolve_of_finds (found : Schema.Finds schema column) :
    resolve schema [column.table, column.name] = .ok column := by
  rcases found with own | ⟨absent, relation, present, related⟩
  · simp [resolve, own]
  · simp [resolve, absent, present, related]

theorem operand_readValues {values : Operand} (fits : values.Fits operator)
    (bare : ∀ literal ∈ values.literals, literal.IsBare) :
    operand operator (readValues ([','].intercalate (values.literals.map Literal.toSql))) = values := by
  have filled : values.literals.map Literal.toSql ≠ [] := by
    cases values with
    | single literal => simp [Operand.literals]
    | list literals => simpa [Operand.literals] using fits.2
  have each : (values.literals.map Literal.toSql).map Literal.ofToken = values.literals := by
    rw [List.map_map]
    exact (List.map_congr_left fun literal member => Literal.ofToken_toSql (bare literal member)).trans
      (List.map_id _)
  rw [readValues, IsItem.segments_intercalate filled (isItem_literals bare), each]
  cases values with
  | single literal =>
    obtain ⟨notIn, notOut⟩ := fits
    cases operator <;> simp_all [operand, Operator.takesList, Operand.literals]
  | list literals =>
    obtain ⟨listing, _⟩ := fits
    rcases listing with rfl | rfl <;> simp [operand, Operator.takesList, Operand.literals]

theorem compileComparison_written {column : Column} {values : Operand}
    (writable : WritableIn schema column operator values) :
    compileComparison schema [column.table, column.name] operator.name
      ([','].intercalate (values.literals.map Literal.toSql)) =
        .ok (comparison column operator values) := by
  simp [compileComparison, resolve_of_finds writable.found, Operator.ofName?_name,
    operand_readValues writable.fits writable.bare]

theorem items_children {children : List Condition} (filled : children ≠ [])
    (each : ∀ child ∈ children, child.call.IsWritten) :
    items ([','].intercalate (children.map toText)) = children.map toText := by
  have calls : children.map toText = (children.map call).map Call.toText := by
    simp [Function.comp_def, toText_call]
  rw [calls]
  refine items_intercalate (by simpa using filled) ?_ ?_
  · intro text member
    obtain ⟨_, listed, rfl⟩ := List.mem_map.mp member
    obtain ⟨child, present, rfl⟩ := List.mem_map.mp listed
    exact (each child present).isItem_toText
  · intro text member
    obtain ⟨_, listed, rfl⟩ := List.mem_map.mp member
    obtain ⟨child, present, rfl⟩ := List.mem_map.mp listed
    exact ⟨by simp [Call.toText], (each child present).trim_toText⟩

/-- By induction on the tree: there is a level left for each combinator and for what it holds. -/
theorem compileWithin_toText {condition : Condition} (full : condition.Full (WritableIn schema))
    (enough : condition.nesting < levels) :
    compileWithin schema levels condition.toText = ⟨some condition, []⟩ := by
  induction full generalizing levels with
  | @comparison column operator values writable =>
    obtain ⟨levels, rfl⟩ : ∃ less, levels = less + 1 := ⟨levels - 1, by omega⟩
    have written := isWritten_call (.comparison writable)
    rw [← toText_call]
    simp only [compileWithin, written.trim_toText, written.read?_toText]
    simp [call, compileComparison_written writable, Report.ofExcept]
  | @logical children connective filled each ih =>
    obtain ⟨levels, rfl⟩ : ∃ less, levels = less + 1 := ⟨levels - 1, by omega⟩
    have written := isWritten_call (.logical filled each : (logical connective children).Full _)
    have listed := items_children filled fun child member => isWritten_call (each child member)
    have compiled : Report.present ((children.map toText).map (compileWithin schema levels)) =
        ⟨children, []⟩ := by
      have accepted : ∀ child ∈ children,
          compileWithin schema levels child.toText = ⟨some child, []⟩ := by
        intro child member
        have inner := nesting_le_greatestNesting member
        rw [nesting] at enough
        exact ih child member (by omega)
      rw [List.map_map]
      exact (Report.present_of_accepted accepted).trans (by rw [List.map_id'])
    rw [← toText_call]
    simp only [compileWithin, written.trim_toText, written.read?_toText]
    simp only [call, Connective.ofName?_name, listed]
    cases children with
    | nil => contradiction
    | cons child others =>
      simp only [List.map_cons] at compiled ⊢
      rw [compiled]
      rfl

/-- Parsing undoes writing: the condition comes back whole, and nothing is rejected. -/
theorem compile_toText {condition : Condition} (full : condition.Full (WritableIn schema))
    (bounded : condition.nesting ≤ greatestDepth) :
    compile schema condition.toText = ⟨some condition, []⟩ :=
  compileWithin_toText full (Nat.lt_succ_of_le bounded)

/-- A column of the entity and one of a relation, with values that only quotes hold together. -/
def ofBoth : Condition :=
  .logical .or [
    .comparison ⟨"subjects".toList, "id".toList⟩ .noneOf (.list [.int (-1), .bool true]),
    .logical .and [
      .comparison ⟨"department".toList, "title".toList⟩ .like (.single (.string " a.b ".toList))]]

theorem compile_ofBoth : ofBoth.Full (WritableIn .subjects) ∧ ofBoth.nesting ≤ greatestDepth ∧
    compile .subjects ofBoth.toText = ⟨some ofBoth, []⟩ := by
  have full : ofBoth.Full (WritableIn .subjects) := by
    simp only [ofBoth, full_logical_iff, full_comparison_iff, List.forall_mem_cons,
      List.not_mem_nil, false_implies, implies_true, ne_eq, reduceCtorEq, not_false_eq_true,
      true_and, and_true]
    constructor
    · exact ⟨by decide, by decide, .inl rfl, by simp [Operand.Fits],
        by simp [Operand.literals, Literal.IsBare, Number.InRange]⟩
    · exact ⟨by decide, by decide, .inr ⟨rfl, _, rfl, rfl⟩, by simp [Operand.Fits],
        by simp [Operand.literals, Literal.IsBare, Token.IsBare]⟩
  have bounded : ofBoth.nesting ≤ greatestDepth := by decide
  exact ⟨full, bounded, compile_toText full bounded⟩

end Condition
end RestQuery
