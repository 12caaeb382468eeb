import RestQuery.Proofs.Token.Exact

/-! Texts cut at their commas. The segments of a text are the only way to cut it at commas that
stand outside of its parentheses. In the arguments of a call no parenthesis closes too many, so
that counting depth strictly makes no difference there. -/
namespace RestQuery.Token

/-- Every comma of the text stands inside of parentheses. -/
def Encloses (text : Text) : Prop :=
  ∀ before after, text = before ++ ',' :: after → ¬ IsClosed before

/-- The parts make up the text with commas between them. None of these commas stands inside of
parentheses, and every comma of a part does. -/
structure IsCut (text : Text) (parts : List Text) : Prop where
  filled : parts ≠ []
  joined : [','].intercalate parts = text
  encloses : ∀ part ∈ parts, Encloses part
  closed : ∀ part ∈ parts.dropLast, IsClosed part

/-- Either no comma separates, or the first one that does is found, and what follows it is cut from
there. By induction on the text, with the depth at which it starts. -/
theorem segmentsFrom_cases (depth : Nat) (text : Text) :
    (segmentsFrom depth text = (text, []) ∧
      ∀ before after, text = before ++ ',' :: after → before.foldl depthAfter depth ≠ 0) ∨
    ∃ first rest, text = first ++ ',' :: rest ∧
      segmentsFrom depth text = (first, segments rest) ∧ first.foldl depthAfter depth = 0 ∧
      ∀ before after, first = before ++ ',' :: after → before.foldl depthAfter depth ≠ 0 := by
  induction text generalizing depth with
  | nil =>
    refine .inl ⟨rfl, fun before after same => ?_⟩
    exact absurd same (by simp)
  | cons c cs ih =>
    by_cases mark : c = ',' ∧ depth = 0
    · obtain ⟨rfl, rfl⟩ := mark
      refine .inr ⟨[], cs, rfl, rfl, rfl, fun before after same => ?_⟩
      exact absurd same (by simp)
    · -- A comma further on is met at the depth after this character.
      have later (text : Text) (inside : ∀ before after, text = before ++ ',' :: after →
          before.foldl depthAfter (depthAfter depth c) ≠ 0) (before after : Text)
          (same : c :: text = before ++ ',' :: after) : before.foldl depthAfter depth ≠ 0 := by
        cases before with
        | nil =>
          rintro rfl
          exact mark ⟨(List.cons.inj same).1, rfl⟩
        | cons d ds =>
          obtain ⟨rfl, rest⟩ := List.cons.inj same
          exact inside ds after rest
      rcases ih (depthAfter depth c) with ⟨whole, inside⟩ | ⟨first, rest, rfl, cut, closed, inside⟩
      · exact .inl ⟨by rw [segmentsFrom, if_neg mark, whole], later cs inside⟩
      · exact .inr ⟨c :: first, rest, rfl, by rw [segmentsFrom, if_neg mark, cut], closed,
          later first inside⟩

theorem segments_cases (text : Text) :
    (segments text = [text] ∧ Encloses text) ∨
    ∃ first rest, text = first ++ ',' :: rest ∧ segments text = first :: segments rest ∧
      IsClosed first ∧ Encloses first := by
  unfold segments
  rcases segmentsFrom_cases 0 text with ⟨whole, inside⟩ | ⟨first, rest, same, cut, closed, inside⟩
  · exact .inl ⟨by rw [whole], inside⟩
  · exact .inr ⟨first, rest, same, by rw [cut]; rfl, closed, inside⟩

/-- Texts by the segments that they have: one, or a first one before a comma and a text. -/
theorem inductSegments {motive : Text → Prop}
    (one : ∀ text, segments text = [text] → Encloses text → motive text)
    (more : ∀ first rest, segments (first ++ ',' :: rest) = first :: segments rest →
      IsClosed first → Encloses first → motive rest → motive (first ++ ',' :: rest))
    (text : Text) : motive text := by
  rcases segments_cases text with ⟨whole, inside⟩ | ⟨first, rest, same, cut, closed, inside⟩
  · exact one text whole inside
  · rw [same] at cut ⊢
    exact more first rest cut closed inside (inductSegments one more rest)
termination_by text.length
decreasing_by
  simp only [same, List.length_append, List.length_cons]
  omega

theorem segments_of_encloses (encloses : Encloses text) : segments text = [text] := by
  rcases segments_cases text with ⟨whole, _⟩ | ⟨first, rest, same, _, closed, _⟩
  · exact whole
  · exact absurd closed (encloses first rest same)

theorem isCut_segments (text : Text) : IsCut text (segments text) := by
  refine ⟨segments_ne_nil text, intercalate_segments text, ?_, ?_⟩
  · induction text using inductSegments with
    | one text whole encloses =>
      rw [whole]
      exact List.forall_mem_singleton.mpr encloses
    | more first rest cut _ encloses ih =>
      rw [cut]
      exact List.forall_mem_cons.mpr ⟨encloses, ih⟩
  · induction text using inductSegments with
    | one text whole _ =>
      rw [whole]
      intro part member
      contradiction
    | more first rest cut closed _ ih =>
      rw [cut, List.dropLast_cons_of_ne_nil (segments_ne_nil rest)]
      exact List.forall_mem_cons.mpr ⟨closed, ih⟩

/-- The parts of a cut are its segments, as each of them has no other segment than itself. -/
theorem IsCut.segments_eq (cut : IsCut text parts) : segments text = parts := by
  have alone : parts.map segments = parts.map fun part => [part] :=
    List.map_congr_left fun part member => segments_of_encloses (cut.encloses part member)
  rw [← cut.joined, segments_joined cut.filled cut.closed, List.flatMap_def, alone,
    ← List.flatMap_def, List.flatMap_singleton']

/-! ### Items -/

/-- The text lists these items, in this order: what its parts are without blanks around them, where
anything is left of them. -/
def Lists (text : Text) (listed : List Text) : Prop :=
  ∃ parts, IsCut text parts ∧ listed = (parts.map Text.trim).filter (· ≠ [])

def IsListed (text item : Text) : Prop := ∃ listed, Lists text listed ∧ item ∈ listed

theorem items_eq_iff_lists : items text = listed ↔ Lists text listed := by
  constructor
  · rintro rfl
    exact ⟨segments text, isCut_segments text, rfl⟩
  · rintro ⟨parts, cut, rfl⟩
    rw [items, cut.segments_eq]

theorem isListed_iff : IsListed text item ↔ item ∈ items text := by
  constructor
  · rintro ⟨listed, lists, member⟩
    exact items_eq_iff_lists.mpr lists ▸ member
  · intro member
    exact ⟨items text, items_eq_iff_lists.mp rfl, member⟩

/-! ### Balanced texts -/

theorem IsBalanced.exists_depth? (balanced : IsBalanced (before ++ after)) :
    ∃ depth, depth? 0 before = some depth ∧ depth? depth after = some 0 := by
  rw [IsBalanced, depth?_append] at balanced
  exact Option.bind_eq_some_iff.mp balanced

/-- Where a balanced text is cut, the two sides are balanced. -/
theorem IsBalanced.sides (balanced : IsBalanced (first ++ ',' :: rest)) (closed : IsClosed first) :
    IsBalanced first ∧ IsBalanced rest := by
  obtain ⟨depth, walk, after⟩ := balanced.exists_depth?
  obtain rfl : depth = 0 := (foldl_depthAfter_of_depth? walk).symm.trans closed
  exact ⟨walk, after⟩

theorem isBalanced_of_mem_segments (balanced : IsBalanced text) :
    ∀ segment ∈ segments text, IsBalanced segment := by
  induction text using inductSegments with
  | one text whole _ =>
    rw [whole]
    exact List.forall_mem_singleton.mpr balanced
  | more first rest cut closed _ ih =>
    obtain ⟨start, later⟩ := balanced.sides closed
    rw [cut]
    exact List.forall_mem_cons.mpr ⟨start, ih later⟩

/-- No part from the start of a balanced text closes too many parentheses. -/
theorem IsBalanced.depth?_eq (balanced : IsBalanced text) (start : before <+: text) :
    depth? 0 before = some (before.foldl depthAfter 0) := by
  obtain ⟨after, rfl⟩ := start
  obtain ⟨depth, walk, _⟩ := balanced.exists_depth?
  rw [walk, foldl_depthAfter_of_depth? walk]

/-- The segments of a text are the one cut of it. Those of a call's arguments have parentheses that
pair up, and the strict depth in them is the depth everywhere. -/
theorem segments_eq_iff_isCut (text : Text) :
    (∀ parts, segments text = parts ↔ IsCut text parts) ∧
    ∀ token call, Call.read? token = some call → call.args = text → ∀ segment ∈ segments text,
      Paired segment ∧
        ∀ before, before <+: segment → depth? 0 before = some (before.foldl depthAfter 0) := by
  constructor
  · intro parts
    constructor
    · rintro rfl
      exact isCut_segments text
    · exact IsCut.segments_eq
  · rintro token call read rfl segment member
    have written := (Call.read?_eq_some_iff.mp read).1
    have balanced := isBalanced_of_mem_segments written.balanced segment member
    exact ⟨isBalanced_iff_paired.mp balanced, fun before start => balanced.depth?_eq start⟩

theorem segments_eq_iff_isCut_nested :
    let text := "a,or(b,c)".toList
    let parts := ["a".toList, "or(b,c)".toList]
    Call.read? "and(a,or(b,c))".toList = some ⟨["and".toList], text⟩ ∧ IsCut text parts ∧
      ∀ segment ∈ parts, Paired segment ∧
        ∀ before, before <+: segment → depth? 0 before = some (before.foldl depthAfter 0) := by
  intro text parts
  have read : Call.read? "and(a,or(b,c))".toList = some ⟨["and".toList], text⟩ := by decide
  obtain ⟨cuts, inside⟩ := segments_eq_iff_isCut text
  have cut : segments text = parts := by decide
  exact ⟨read, (cuts parts).mp cut, cut ▸ inside _ _ read rfl⟩

end RestQuery.Token
