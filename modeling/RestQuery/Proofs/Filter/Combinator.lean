import RestQuery.Filter
import RestQuery.Proofs.Token.Exact

/-! One level of a filter. A text is a combinator with the items it holds, or it is compiled
alone; what compiles below a combinator is compiled from its items and from nothing else. -/
namespace RestQuery

theorem Connective.ofName?_eq_some_iff {connective : Connective} :
    ofName? text = some connective ↔ text = connective.name := by
  constructor
  · intro found
    unfold ofName? at found
    split at found
    · next same =>
      obtain rfl := Option.some.inj found
      exact same
    · split at found
      · next same =>
        obtain rfl := Option.some.inj found
        exact same
      · contradiction
  · rintro rfl
    exact ofName?_name connective

namespace Condition

open Token

theorem isIdentifier_connective (connective : Connective) : Text.IsIdentifier connective.name := by
  cases connective <;> decide

/-- The combinator that the text is, with its items, of which there is at least one. -/
def combinator? (text : Text) : Option (Connective × List Text) :=
  match Call.read? text.trim with
  | some ⟨[name], args⟩ =>
    match Connective.ofName? name, items args with
    | some connective, item :: others => some (connective, item :: others)
    | _, _ => none
  | _ => none

/-- What a text compiles to that is no combinator. -/
def compileAlone (schema : Schema) (text : Text) : Except Rejection Condition :=
  match Call.read? text.trim with
  | none => .error (.malformed text.trim)
  | some call =>
    match call.path with
    | [_] => .error (.malformed text.trim)
    | path => compileComparison schema path.dropLast (path.getLastD []) call.args

/-- A combinator is its name and, in parentheses, balanced arguments with an item in them. -/
theorem combinator?_eq_some_iff : combinator? text = some (connective, parts) ↔
    ∃ args, IsBalanced args ∧ text.trim = connective.name ++ '(' :: (args ++ [')']) ∧
      items args = parts ∧ parts ≠ [] := by
  constructor
  · intro found
    unfold combinator? at found
    split at found
    · next name args read =>
      obtain ⟨written, same⟩ := Call.read?_eq_some_iff.mp read
      split at found
      · next known listed =>
        obtain ⟨rfl, rfl⟩ := Prod.mk.inj (Option.some.inj found)
        obtain rfl := Connective.ofName?_eq_some_iff.mp known
        rw [Text.trim_trim, Call.toText_single] at same
        exact ⟨args, written.balanced, same, listed, by simp⟩
      · contradiction
    · contradiction
  · rintro ⟨args, balanced, same, rfl, filled⟩
    have identifier := isIdentifier_connective connective
    have read : Call.read? text.trim = some ⟨[connective.name], args⟩ := by
      refine Call.read?_eq_some_iff.mpr ⟨⟨by simp, by simpa using identifier, balanced⟩, ?_⟩
      rw [Text.trim_trim, same, Call.toText_single]
    cases listed : items args with
    | nil => contradiction
    | cons item others =>
      simp only [combinator?, read, Connective.ofName?_name, listed]

/-- An item lies inside of the parentheses of its combinator. -/
theorem sublist_of_combinator? (found : combinator? text = some (connective, parts))
    (member : part ∈ parts) : ('(' :: part).Sublist text := by
  obtain ⟨args, _, same, rfl, _⟩ := combinator?_eq_some_iff.mp found
  have inside : part.Sublist (args ++ [')']) :=
    (sublist_of_mem_items member).trans (List.sublist_append_left args _)
  have opened : ('(' :: part).Sublist text.trim := by
    rw [same]
    exact (inside.cons_cons '(').trans (List.sublist_append_right _ _)
  exact opened.trans (Text.trim_sublist text)

/-- One level of the compiler: the items of a combinator are compiled with a level less. -/
theorem compileWithin_succ (schema : Schema) (levels : Nat) (text : Text) :
    compileWithin schema (levels + 1) text =
      match combinator? text with
      | some (connective, parts) =>
        (Report.present (parts.map (compileWithin schema levels))).map (combine? connective)
      | none => .ofExcept (compileAlone schema text) := by
  simp only [compileWithin, combinator?, compileAlone]
  cases Call.read? text.trim with
  | none => rfl
  | some call =>
    obtain ⟨path, args⟩ := call
    cases path with
    | nil => rfl
    | cons name later =>
      cases later with
      | cons => rfl
      | nil =>
        cases known : Connective.ofName? name with
        | none => simp only [known, Report.ofExcept]
        | some connective =>
          cases listed : items args with
          | nil => simp only [known, listed, Report.ofExcept]
          | cons item others => simp only [known, listed]

/-- Induction on the levels that are left: a text lies too deep, is compiled alone, or is a
combinator of items with a level less. -/
@[elab_as_elim]
theorem inductWithin {motive : Nat → Text → Prop} (deep : ∀ text, motive 0 text)
    (alone : ∀ levels text, combinator? text = none → motive (levels + 1) text)
    (combinator : ∀ levels text connective parts, combinator? text = some (connective, parts) →
      (∀ part ∈ parts, motive levels part) → motive (levels + 1) text) :
    ∀ levels text, motive levels text := by
  intro levels
  induction levels with
  | zero => exact deep
  | succ levels ih =>
    intro text
    cases found : combinator? text with
    | none => exact alone levels text found
    | some held =>
      obtain ⟨connective, parts⟩ := held
      exact combinator levels text connective parts found fun part _ => ih part

/-- Alone, a text gives a comparison if it gives a condition. -/
theorem exists_comparison_of_compileAlone (made : compileAlone schema text = .ok condition) :
    ∃ column operator operand, condition = comparison column operator operand := by
  unfold compileAlone at made
  split at made
  · contradiction
  · split at made
    · contradiction
    · unfold compileComparison at made
      split at made
      · contradiction
      · split at made
        · contradiction
        · obtain rfl := Except.ok.inj made
          exact ⟨_, _, _, rfl⟩

/-- White space around a filter says nothing. -/
theorem compileWithin_trim (schema : Schema) (levels : Nat) (text : Text) :
    compileWithin schema levels text.trim = compileWithin schema levels text := by
  cases levels with
  | zero => simp only [compileWithin, Text.trim_trim]
  | succ levels => simp only [compileWithin, Text.trim_trim]

/-- Items lie inside of the parentheses of their call. -/
theorem length_lt_of_mem_items {text : Text} (read : Call.read? text.trim = some call)
    (member : item ∈ items call.args) : item.length < text.length := by
  obtain ⟨_, same⟩ := Call.read?_eq_some_iff.mp read
  have inside := (sublist_of_mem_items member).length_le
  have whole := (Text.trim_sublist text).length_le
  rw [← Text.trim_trim, same] at whole
  simp only [Call.toText, List.length_append, List.length_cons, List.length_nil] at whole
  omega

end Condition
end RestQuery
