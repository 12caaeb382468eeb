import Mathlib.Tactic.Choose
import RestQuery.Proofs.Filter.Condition
import RestQuery.Proofs.Statement.Reading

/-! The text of a condition means what the condition means. Parentheses stand only around
groups of two or more, so a combinator of one child leaves no trace in the text. What is
read has the truth of the tree all the same. -/
namespace RestQuery

/-- A comparison of columns that have identifiers for names with exact literals. -/
structure Condition.Legible (column : Column) (operator : Operator) (operand : Operand) : Prop where
  table : Text.IsIdentifier column.table
  name : Text.IsIdentifier column.name
  filled : operand.literals ≠ []
  exact : ∀ literal ∈ operand.literals, literal.IsExact

def Condition.partToSql (condition : Condition) : Text :=
  if condition.isGroup then '(' :: (condition.toSql ++ [')']) else condition.toSql

namespace Search

/-- What was read has the truth of the condition under every assignment. -/
def Means (search : Search) (condition : Condition) : Prop :=
  ∀ assign, search.truth assign = condition.truth assign

def Closes : Text → Prop
  | [] => True
  | c :: _ => c = ')'

def EndsConjunction (rest : Text) : Prop := Closes rest ∨ ∃ text, rest = " OR ".toList ++ text

theorem ends_of_closes (closes : Closes rest) : Ends rest := by
  cases rest with
  | nil => trivial
  | cons c cs => exact .inr (.inr closes)

theorem keyword?_of_closes (keyword : String) (closes : Closes rest) :
    keyword? keyword rest = none := by
  cases rest with
  | nil => rfl
  | cons c cs =>
    obtain rfl : c = ')' := closes
    rfl

theorem reads_conjunction {inner : Text → Option (Search × Text)} {conditions : List Condition}
    {value : Condition → Search} (filled : conditions ≠ [])
    (each : ∀ condition ∈ conditions,
      Reads (primary? inner) Ends condition.partToSql (value condition)) :
    Reads (joined? .and "AND" (primary? inner)) EndsConjunction
      (" AND ".toList.intercalate (conditions.map Condition.partToSql))
      (joined .and (conditions.map value)) := by
  have parts : Reads (separated (keyword? "AND") (primary? inner)) EndsConjunction
      (" AND ".toList.intercalate (conditions.map Condition.partToSql)) (conditions.map value) := by
    refine reads_separated filled each ⟨by decide, fun text => ⟨.inl rfl, rfl⟩⟩ ?_
    rintro rest (closes | ⟨text, rfl⟩)
    · exact ⟨ends_of_closes closes, keyword?_of_closes _ closes⟩
    · exact ⟨.inl rfl, rfl⟩
  intro blanks rest blank ends
  simp only [joined?, parts blanks rest blank ends, Option.map_some]

/-- Every text is a disjunction of conjunctions, if only of a single one. -/
theorem reads_disjunction {groups : List (List Condition)} {value : Condition → Search}
    (filled : groups ≠ []) (members : ∀ group ∈ groups, group ≠ [])
    (each : ∀ group ∈ groups, ∀ condition ∈ group,
      Reads (primary? (within? depth)) Ends condition.partToSql (value condition)) :
    Reads (within? (depth + 1)) Closes
      (" OR ".toList.intercalate (groups.map fun group =>
        " AND ".toList.intercalate (group.map Condition.partToSql)))
      (joined .or (groups.map fun group => joined .and (group.map value))) := by
  have parts : Reads (separated (keyword? "OR") (joined? .and "AND" (primary? (within? depth))))
      Closes
      (" OR ".toList.intercalate (groups.map fun group =>
        " AND ".toList.intercalate (group.map Condition.partToSql)))
      (groups.map fun group => joined .and (group.map value)) := by
    refine reads_separated filled
      (fun group member => reads_conjunction (members group member) (each group member))
      ⟨by decide, fun text => ⟨.inr ⟨text, rfl⟩, rfl⟩⟩ ?_
    intro rest closes
    exact ⟨.inl closes, keyword?_of_closes _ closes⟩
  intro blanks rest blank ends
  simp only [within?, joined?, parts blanks rest blank ends, Option.map_some]

def ReadsWhole (depth : Nat) (condition : Condition) : Prop :=
  ∃ search, Means search condition ∧ Reads (within? (depth + 1)) Closes condition.toSql search

def ReadsPart (depth : Nat) (condition : Condition) : Prop :=
  ∃ search, Means search condition ∧
    Reads (primary? (within? depth)) Ends condition.partToSql search

theorem readsPart_comparison {column : Column} {operator : Operator} {operand : Operand}
    (legible : Condition.Legible column operator operand) (depth : Nat) :
    ReadsPart depth (.comparison column operator operand) := by
  refine ⟨.comparison (Condition.comparisonToSql column operator operand), fun _ => rfl, ?_⟩
  intro blanks rest blank ends
  have read := reads_comparison operator legible.table legible.name legible.filled legible.exact
    blanks rest blank ends
  have unopened : mark? '(' (blanks ++ (Condition.comparisonToSql column operator operand ++ rest)) =
      none := by
    simp only [Condition.comparisonToSql, Column.toText, List.append_assoc]
    exact mark?_identifier blank legible.table (by decide)
  simp only [Condition.partToSql, Condition.isGroup, Condition.toSql, primary?, unopened,
    Bool.false_eq_true, if_false]
  exact read

/-- The groups of a condition decide what its whole text is read as. -/
theorem readsWhole_of_groups {groups : List (List Condition)} (filled : groups ≠ [])
    (members : ∀ group ∈ groups, group ≠ [])
    (parts : ∀ group ∈ groups, ∀ part ∈ group, ReadsPart depth part)
    (written : condition.toSql = " OR ".toList.intercalate (groups.map fun group =>
      " AND ".toList.intercalate (group.map Condition.partToSql)))
    (truth : ∀ assign, condition.truth assign = Connective.or.join (groups.map fun group =>
      Connective.and.join (group.map (Condition.truth assign)))) :
    ReadsWhole depth condition := by
  have single : ∀ part ∈ groups.flatten, ReadsPart depth part := by
    intro part member
    obtain ⟨group, present, member⟩ := List.mem_flatten.mp member
    exact parts group present part member
  choose! value means reads using single
  refine ⟨joined .or (groups.map fun group => joined .and (group.map value)), ?_, ?_⟩
  · intro assign
    rw [truth, Search.truth, allTruths_eq, List.map_map]
    congr 1
    refine List.map_congr_left fun group present => ?_
    rw [Function.comp_apply, Search.truth, allTruths_eq, List.map_map]
    congr 1
    exact List.map_congr_left fun part member =>
      means part (List.mem_flatten.mpr ⟨group, present, member⟩) assign
  · rw [written]
    exact reads_disjunction filled members fun group present part member =>
      reads part (List.mem_flatten.mpr ⟨group, present, member⟩)

theorem readsWhole_comparison {column : Column} {operator : Operator} {operand : Operand}
    (legible : Condition.Legible column operator operand) (depth : Nat) :
    ReadsWhole depth (.comparison column operator operand) := by
  have filled : [[Condition.comparison column operator operand]] ≠ [] := by simp
  refine readsWhole_of_groups filled (by simp) ?_ ?_ ?_
  · intro group present part member
    obtain rfl := List.mem_singleton.mp present
    obtain rfl := List.mem_singleton.mp member
    exact readsPart_comparison legible depth
  · simp [Condition.partToSql, Condition.isGroup]
  · simp

/-- A conjunction is one group of all its children, a disjunction one group for each. -/
theorem readsWhole_logical (connective : Connective) {children : List Condition}
    (filled : children ≠ []) (parts : ∀ child ∈ children, ReadsPart depth child) :
    ReadsWhole depth (.logical connective children) := by
  have texts : Condition.allToSql children = children.map Condition.partToSql :=
    Condition.allToSql_eq children
  cases connective with
  | and =>
    have groups : [children] ≠ [] := by simp
    have mark : ' ' :: (Connective.and.toSql ++ [' ']) = " AND ".toList := rfl
    refine readsWhole_of_groups groups (by simpa using filled) (by simpa using parts) ?_ ?_
    · rw [Condition.toSql, texts, mark, List.map_singleton, List.intercalate_singleton]
    · simp [Condition.truth, Condition.allTruths_eq]
  | or =>
    have groups : children.map (fun child => [child]) ≠ [] := by simpa using filled
    have mark : ' ' :: (Connective.or.toSql ++ [' ']) = " OR ".toList := rfl
    refine readsWhole_of_groups groups (by simp) (by simpa using parts) ?_ ?_
    · rw [Condition.toSql, texts, mark]
      simp [Function.comp_def]
    · simp [Condition.truth, Condition.allTruths_eq, Function.comp_def]

theorem readsPart_group (group : condition.isGroup = true) (whole : ReadsWhole depth condition) :
    ReadsPart (depth + 1) condition := by
  obtain ⟨search, means, reads⟩ := whole
  refine ⟨search, means, ?_⟩
  intro blanks rest blank ends
  have inner := reads [] (')' :: rest) rfl rfl
  have opened : mark? '(' (blanks ++ '(' :: (condition.toSql ++ ')' :: rest)) = some _ :=
    mark?_self blank (by decide)
  have closed : mark? ')' (')' :: rest) = some rest := mark?_self Text.isBlank_nil (by decide)
  rw [List.nil_append] at inner
  simp [Condition.partToSql, group, primary?, opened, inner, closed]

/-- A combinator of one child is written and read as the child itself. -/
theorem readsPart_single (connective : Connective) (part : ReadsPart depth child) :
    ReadsPart depth (.logical connective [child]) := by
  obtain ⟨search, means, reads⟩ := part
  refine ⟨search, ?_, ?_⟩
  · intro assign
    simp [Condition.truth, Condition.allTruths, means assign]
  · have same : (Condition.logical connective [child]).partToSql = child.partToSql := by
      simp [Condition.partToSql, Condition.isGroup, Condition.toSql, Condition.allToSql]
    rwa [same]

/-- By induction on the tree: no part needs parentheses deeper than its text is long. -/
theorem readsPart_of_full (full : condition.Full Condition.Legible)
    (depth : Nat) (enough : condition.partToSql.length ≤ depth) : ReadsPart depth condition := by
  induction full generalizing depth with
  | comparison legible => exact readsPart_comparison legible depth
  | @logical children connective filled _ ih =>
    rcases children with _ | ⟨child, _ | ⟨second, others⟩⟩
    · contradiction
    · refine readsPart_single connective (ih child (by simp) depth ?_)
      simpa [Condition.partToSql, Condition.isGroup, Condition.toSql, Condition.allToSql] using enough
    · have group : (Condition.logical connective (child :: second :: others)).isGroup = true := by
        simp [Condition.isGroup]
      simp only [Condition.partToSql, group, if_true, List.length_cons, List.length_append] at enough
      obtain ⟨less, rfl⟩ : ∃ less, depth = less + 1 := ⟨depth - 1, by omega⟩
      refine readsPart_group group (readsWhole_logical connective filled fun part member => ?_)
      refine ih part member less (Nat.le_trans ?_ (Nat.le_of_succ_le_succ (Nat.le_of_succ_le enough)))
      rw [Condition.toSql, Condition.allToSql_eq]
      exact (Text.sublist_intercalate _ (List.mem_map_of_mem member)).length_le

end Search

namespace Condition

open Search

/-- The whole text of a condition is read as a search condition that has the truth of the
tree, whatever is true of the comparisons. -/
theorem means_read?_toSql {condition : Condition} (full : condition.Full Legible) :
    ∃ search, Search.read? condition.toSql = some search ∧
      ∀ assign, search.truth assign = condition.truth assign := by
  have whole : ReadsWhole condition.toSql.length condition := by
    cases full with
    | comparison legible => exact readsWhole_comparison legible _
    | @logical children connective filled each =>
      refine readsWhole_logical connective filled fun part member => ?_
      refine readsPart_of_full (each part member) _ ?_
      rw [toSql, allToSql_eq]
      exact (Text.sublist_intercalate _ (List.mem_map_of_mem member)).length_le
  obtain ⟨search, means, reads⟩ := whole
  have read := reads [] [] rfl trivial
  rw [List.nil_append, List.append_nil] at read
  exact ⟨search, by simp [Search.read?, read, Text.isBlank], means⟩

/-- Combinators of one child around a group, and a text that looks like more of the condition. -/
def nestedSingles : Condition :=
  let name : Column := ⟨"users".toList, "name".toList⟩
  let age : Column := ⟨"users".toList, "age".toList⟩
  .logical .and [
    .logical .or [.logical .and [.logical .or [
      .comparison name .eq (.single (.string "it's) OR (x AND ".toList)),
      .comparison age .oneOf (.list [.int (-3), .null, .bool true])]]],
    .comparison name .is (.single .null)]

theorem means_read?_nestedSingles : nestedSingles.Full Legible ∧
    ∃ search, Search.read? nestedSingles.toSql = some search ∧
      ∀ assign, search.truth assign = nestedSingles.truth assign := by
  have full : nestedSingles.Full Legible := by
    simp only [nestedSingles, full_logical_iff, full_comparison_iff, List.forall_mem_cons,
      List.not_mem_nil, false_implies, implies_true, ne_eq, reduceCtorEq, not_false_eq_true,
      true_and, and_true]
    refine ⟨⟨?_, ?_⟩, ?_⟩
    all_goals exact ⟨by decide, by decide, by simp [Operand.literals],
      by simp [Operand.literals, Literal.IsExact]⟩
  exact ⟨full, means_read?_toSql full⟩

end Condition
end RestQuery
