import RestQuery.Proofs.Text
import RestQuery.Token

/-! Balanced texts as arguments and as items of comma lists. A call ends where its
parenthesis closes, and a comma inside of parentheses separates nothing. -/
namespace RestQuery.Token

/-- The depth of parentheses after the text, if each that closes in it was open. -/
def depth? : Nat → Text → Option Nat
  | depth, [] => some depth
  | depth, c :: cs =>
    if c = ')' then
      match depth with
      | 0 => none
      | depth + 1 => depth? depth cs
    else depth? (if c = '(' then depth + 1 else depth) cs

def IsBalanced (text : Text) : Prop := depth? 0 text = some 0

def IsBare (text : Text) : Prop := ∀ c ∈ text, c ≠ '(' ∧ c ≠ ')' ∧ c ≠ ','

instance : DecidablePred IsBare :=
  List.decidableBAll fun c => c ≠ '(' ∧ c ≠ ')' ∧ c ≠ ','

theorem depth?_append (depth : Nat) (a b : Text) :
    depth? depth (a ++ b) = (depth? depth a).bind (depth? · b) := by
  induction a generalizing depth with
  | nil => rfl
  | cons c cs ih =>
    by_cases closes : c = ')'
    · cases depth with
      | zero => simp [depth?, closes]
      | succ depth => simp [depth?, closes, ih]
    · simp [depth?, closes, ih]

/-- A first character either closes what was open or leaves it so. -/
theorem depth?_cons (walk : depth? depth (c :: cs) = some after) :
    (∃ less, c = ')' ∧ depth = less + 1 ∧ depth? less cs = some after) ∨
      (c ≠ ')' ∧ depth? (if c = '(' then depth + 1 else depth) cs = some after) := by
  by_cases closes : c = ')'
  · cases depth with
    | zero => simp [depth?, closes] at walk
    | succ less => exact .inl ⟨less, closes, rfl, by simpa [depth?, closes] using walk⟩
  · exact .inr ⟨closes, by simpa [depth?, closes] using walk⟩

theorem depth?_cons_iff : depth? depth (c :: cs) = some after ↔
    (c = ')' → depth ≠ 0) ∧ depth? (depthAfter depth c) cs = some after := by
  by_cases closes : c = ')'
  · subst closes
    cases depth with
    | zero => simp [depth?]
    | succ less => simp [depth?, depthAfter]
  · simp [depth?, depthAfter, closes]

/-- What a character does to the depth it does to the counts. -/
theorem depthAfter_add_count (able : c = ')' → depth ≠ 0) (rest : Text) :
    depthAfter depth c + rest.count '(' + (c :: rest).count ')' =
      depth + (c :: rest).count '(' + rest.count ')' := by
  by_cases opens : c = '('
  · subst opens
    simp [depthAfter]
    omega
  · by_cases closes : c = ')'
    · subst closes
      have positive := able rfl
      simp [depthAfter]
      omega
    · simp [depthAfter, opens, closes]

/-- The depth is told by counts: no part from the start closes more than was open before it and
opened in it. By induction on the text, with the depth at which it starts. -/
theorem depth?_eq_some_iff : depth? depth text = some after ↔
    (∀ before, before <+: text → before.count ')' ≤ depth + before.count '(') ∧
      depth + text.count '(' = after + text.count ')' := by
  induction text generalizing depth with
  | nil =>
    rw [depth?, Option.some.injEq]
    simp
  | cons c cs ih =>
    rw [depth?_cons_iff, ih]
    constructor
    · rintro ⟨able, bound, total⟩
      refine ⟨fun before start => ?_, ?_⟩
      · rcases List.prefix_cons_iff.mp start with rfl | ⟨rest, rfl, inside⟩
        · simp
        · have step := depthAfter_add_count able rest
          have later := bound rest inside
          omega
      · have step := depthAfter_add_count able cs
        omega
    · rintro ⟨bound, total⟩
      have able : c = ')' → depth ≠ 0 := by
        rintro rfl
        have first := bound [')'] ⟨cs, rfl⟩
        simp at first
        omega
      refine ⟨able, fun rest inside => ?_, ?_⟩
      · have step := depthAfter_add_count able rest
        have later := bound (c :: rest) ((List.prefix_cons_inj c).mpr inside)
        omega
      · have step := depthAfter_add_count able cs
        omega

/-- Parentheses that pair up: nowhere have more been closed than opened, and in the end as many. -/
structure Paired (text : Text) : Prop where
  opened : ∀ before, before <+: text → before.count ')' ≤ before.count '('
  closed : text.count '(' = text.count ')'

theorem isBalanced_iff_paired : IsBalanced text ↔ Paired text := by
  rw [IsBalanced, depth?_eq_some_iff]
  simp only [Nat.zero_add]
  exact ⟨fun both => ⟨both.1, both.2⟩, fun paired => ⟨paired.opened, paired.closed⟩⟩

/-- What was open before stays open. -/
theorem depth?_add (walk : depth? depth text = some after) (more : Nat) :
    depth? (depth + more) text = some (after + more) := by
  obtain ⟨bound, total⟩ := depth?_eq_some_iff.mp walk
  refine depth?_eq_some_iff.mpr ⟨fun before start => ?_, by omega⟩
  have less := bound before start
  omega

theorem depth?_of_isBare (bare : IsBare text) (depth : Nat) : depth? depth text = some depth := by
  induction text with
  | nil => rfl
  | cons c cs ih =>
    obtain ⟨⟨opens, closes, _⟩, bare⟩ := List.forall_mem_cons.mp bare
    simp [depth?, opens, closes, ih bare]

namespace IsBalanced

theorem nil : IsBalanced [] := rfl

theorem append (first : IsBalanced a) (second : IsBalanced b) : IsBalanced (a ++ b) := by
  rw [IsBalanced, depth?_append, first]
  exact second

theorem intercalate {mark : Text} {texts : List Text} (marked : IsBalanced mark)
    (each : ∀ text ∈ texts, IsBalanced text) : IsBalanced (mark.intercalate texts) := by
  induction texts with
  | nil => exact nil
  | cons first others ih =>
    have start := each first (by simp)
    have later := ih fun text member => each text (List.mem_cons_of_mem _ member)
    cases others with
    | nil => simpa using start
    | cons second rest =>
      rw [List.intercalate_cons_cons]
      exact (start.append marked).append later

end IsBalanced

theorem isBalanced_of_isBare (bare : IsBare text) : IsBalanced text := depth?_of_isBare bare 0

/-- By induction on the arguments, with the depth at which they are entered. -/
theorem untilClosed_of_depth? (walk : depth? depth args = some 0) (rest : Text) :
    Call.untilClosed depth (args ++ ')' :: rest) = some (args, rest) := by
  induction args generalizing depth with
  | nil =>
    obtain rfl := Option.some.inj walk
    simp [Call.untilClosed]
  | cons c cs ih =>
    rcases depth?_cons walk with ⟨less, rfl, rfl, walk⟩ | ⟨closes, walk⟩
    · simp [Call.untilClosed, ih walk]
    · simp [Call.untilClosed, closes, ih walk]

/-- The text takes the depth from one to the other, and no comma in it separates segments. -/
def Passes (before : Nat) (text : Text) (after : Nat) : Prop :=
  ∀ rest, segmentsFrom before (text ++ rest) =
    (text ++ (segmentsFrom after rest).1, (segmentsFrom after rest).2)

namespace Passes

theorem append (first : Passes before a between) (second : Passes between b after) :
    Passes before (a ++ b) after := by
  intro rest
  rw [List.append_assoc, first, second, List.append_assoc]

theorem bare (bare : IsBare text) (depth : Nat) : Passes depth text depth := by
  intro rest
  induction text with
  | nil => rfl
  | cons c cs ih =>
    obtain ⟨⟨opens, closes, apart⟩, bare⟩ := List.forall_mem_cons.mp bare
    have same : depthAfter depth c = depth := by simp [depthAfter, opens, closes]
    simp [segmentsFrom, apart, same, ih bare]

theorem opening (depth : Nat) : Passes depth ['('] (depth + 1) := fun _ => rfl

theorem closing (depth : Nat) : Passes (depth + 1) [')'] depth := fun _ => rfl

/-- Inside of parentheses a text passes as a whole. -/
theorem enclosed (walk : depth? depth text = some after) :
    Passes (depth + 1) text (after + 1) := by
  intro rest
  induction text generalizing depth with
  | nil =>
    obtain rfl := Option.some.inj walk
    rfl
  | cons c cs ih =>
    rcases depth?_cons walk with ⟨less, rfl, rfl, walk⟩ | ⟨closes, walk⟩
    · have lower : depthAfter (less + 1 + 1) ')' = less + 1 := rfl
      simp [segmentsFrom, lower, ih walk]
    · have same : depthAfter (depth + 1) c = (if c = '(' then depth + 1 else depth) + 1 := by
        unfold depthAfter
        rw [if_neg closes]
        split <;> rfl
      simp [segmentsFrom, same, ih walk]

end Passes

/-- A balanced text without a comma outside of parentheses. -/
structure IsItem (text : Text) : Prop where
  balanced : IsBalanced text
  passes : Passes 0 text 0

namespace IsItem

theorem bare (bare : IsBare text) : IsItem text := ⟨isBalanced_of_isBare bare, .bare bare 0⟩

theorem append (first : IsItem a) (second : IsItem b) : IsItem (a ++ b) :=
  ⟨first.balanced.append second.balanced, first.passes.append second.passes⟩

theorem call (bare : IsBare name) (balanced : IsBalanced args) :
    IsItem (name ++ '(' :: (args ++ [')'])) := by
  constructor
  · have inside : depth? 1 args = some 1 := depth?_add balanced 1
    have closed : depth? 1 (args ++ [')']) = some 0 := by simp [depth?_append, inside, depth?]
    rw [IsBalanced, depth?_append, depth?_of_isBare bare]
    exact closed
  · have inside : Passes 1 args 1 := .enclosed balanced
    exact (Passes.bare bare 0).append <| (Passes.opening 0).append <|
      inside.append (Passes.closing 0)

theorem balanced_intercalate {texts : List Text} (each : ∀ text ∈ texts, IsItem text) :
    IsBalanced ([','].intercalate texts) := by
  have comma : IsBalanced [','] := rfl
  exact comma.intercalate fun text member => (each text member).balanced

end IsItem

/-! Comma lists joined from parts. Where the depth of parentheses is back at zero after a part,
the comma that follows it separates, so the items of the whole are those of its parts. -/

/-- The depth is back at zero at the end, where closing parentheses too many do not count. -/
def IsClosed (text : Text) : Prop := text.foldl depthAfter 0 = 0

instance : DecidablePred IsClosed := fun text => decEq (text.foldl depthAfter 0) 0

/-- By induction on the text, with the depth at which it starts. -/
theorem segmentsFrom_append_comma (closed : text.foldl depthAfter depth = 0) (rest : Text) :
    segmentsFrom depth (text ++ ',' :: rest) =
      ((segmentsFrom depth text).1, (segmentsFrom depth text).2 ++ segments rest) := by
  induction text generalizing depth with
  | nil =>
    obtain rfl : depth = 0 := closed
    rfl
  | cons c cs ih =>
    have later := ih closed
    by_cases mark : c = ',' ∧ depth = 0
    · obtain ⟨rfl, rfl⟩ := mark
      have same : depthAfter 0 ',' = 0 := rfl
      rw [same] at later
      simp [segmentsFrom, later]
    · simp [segmentsFrom, mark, later]

theorem segments_append_comma (closed : IsClosed text) (rest : Text) :
    segments (text ++ ',' :: rest) = segments text ++ segments rest := by
  simp [segments, segmentsFrom_append_comma closed rest]

/-- By induction on the parts: each but the last is closed before the comma after it. -/
theorem segments_joined {parts : List Text} (filled : parts ≠ [])
    (closed : ∀ part ∈ parts.dropLast, IsClosed part) :
    segments ([','].intercalate parts) = parts.flatMap segments := by
  induction parts with
  | nil => contradiction
  | cons first others ih =>
    cases others with
    | nil => simp
    | cons second rest =>
      rw [List.dropLast_cons_cons] at closed
      obtain ⟨closed, others⟩ := List.forall_mem_cons.mp closed
      rw [List.intercalate_cons_cons, List.append_assoc, List.singleton_append,
        segments_append_comma closed, ih (by simp) others, ← List.flatMap_cons]

theorem items_joined {parts : List Text} (closed : ∀ part ∈ parts.dropLast, IsClosed part) :
    items ([','].intercalate parts) = parts.flatMap items := by
  cases parts with
  | nil => rfl
  | cons first others =>
    rw [items, segments_joined (by simp) closed, List.map_flatMap, List.filter_flatMap]
    rfl

/-- A balanced text in which every comma stands inside of parentheses. -/
structure IsFragment (text : Text) : Prop where
  balanced : IsBalanced text
  enclosed : ∀ before after, text = before ++ ',' :: after → depth? 0 before ≠ some 0

theorem Passes.character (apart : ¬(c = ',' ∧ depth = 0)) :
    Passes depth [c] (depthAfter depth c) := by
  intro rest
  rw [List.singleton_append, segmentsFrom, if_neg apart]
  rfl

/-- By induction on the text, with the depth at which it starts. -/
theorem passes_of_enclosed (walk : depth? depth text = some after)
    (enclosed : ∀ before rest, text = before ++ ',' :: rest → depth? depth before ≠ some 0) :
    Passes depth text after := by
  induction text generalizing depth with
  | nil =>
    obtain rfl := Option.some.inj walk
    exact fun _ => rfl
  | cons c cs ih =>
    have apart : ¬(c = ',' ∧ depth = 0) := by
      rintro ⟨rfl, rfl⟩
      exact enclosed [] cs rfl rfl
    obtain ⟨able, walk⟩ := depth?_cons_iff.mp walk
    refine (Passes.character apart).append (b := cs) (ih walk fun before rest same inside => ?_)
    refine enclosed (c :: before) rest (by rw [same]; rfl) ?_
    exact depth?_cons_iff.mpr ⟨able, inside⟩

theorem IsFragment.isItem (fragment : IsFragment text) : IsItem text :=
  ⟨fragment.balanced, passes_of_enclosed fragment.balanced fragment.enclosed⟩

/-- The strict depth is the depth, where there is one. -/
theorem foldl_depthAfter_of_depth? (walk : depth? depth text = some after) :
    text.foldl depthAfter depth = after := by
  induction text generalizing depth with
  | nil => exact Option.some.inj walk
  | cons c cs ih =>
    obtain ⟨_, walk⟩ := depth?_cons_iff.mp walk
    exact ih walk

theorem IsBalanced.isClosed (balanced : IsBalanced text) : IsClosed text :=
  foldl_depthAfter_of_depth? balanced

/-- Items are closed, so joining them keeps what they hold. -/
theorem IsItem.items_joined {parts : List Text} (each : ∀ part ∈ parts, IsItem part) :
    items ([','].intercalate parts) = parts.flatMap items :=
  Token.items_joined fun part member =>
    (each part (List.dropLast_subset parts member)).balanced.isClosed

theorem isBare_of_isBlank (blank : Text.isBlank text = true) : IsBare text := by
  intro c member
  have white := List.all_eq_true.mp blank c member
  refine ⟨?_, ?_, ?_⟩ <;> rintro rfl <;> contradiction

theorem IsItem.segments_eq (item : IsItem text) : segments text = [text] := by
  have passed := item.passes []
  rw [List.append_nil] at passed
  simp [segments, passed, segmentsFrom]

theorem IsItem.segments_intercalate {texts : List Text} (filled : texts ≠ [])
    (each : ∀ text ∈ texts, IsItem text) : segments ([','].intercalate texts) = texts := by
  have closed : ∀ text ∈ texts.dropLast, IsClosed text := fun text member =>
    (each text (List.dropLast_subset texts member)).balanced.isClosed
  have alone : texts.map segments = texts.map fun text => [text] :=
    List.map_congr_left fun text member => (each text member).segments_eq
  rw [segments_joined filled closed, List.flatMap_def, alone, ← List.flatMap_def,
    List.flatMap_singleton']

/-- An item without blanks around it, or none. -/
theorem IsItem.items_eq (item : IsItem text) : items text = [text.trim].filter (· ≠ []) := by
  rw [items, item.segments_eq]
  rfl

/-- A comma outside of parentheses would make two segments of the text. -/
theorem isFragment_iff : IsFragment text ↔ IsBalanced text ∧ segments text = [text] := by
  constructor
  · intro fragment
    exact ⟨fragment.balanced, fragment.isItem.segments_eq⟩
  · rintro ⟨balanced, alone⟩
    refine ⟨balanced, fun before after same outside => ?_⟩
    have closed : IsClosed before := foldl_depthAfter_of_depth? outside
    rw [same, segments_append_comma closed after] at alone
    have count := congrArg List.length alone
    have one := List.length_pos_iff.mpr (segments_ne_nil before)
    have two := List.length_pos_iff.mpr (segments_ne_nil after)
    simp only [List.length_append, List.length_singleton] at count
    omega

instance : DecidablePred IsBalanced := fun text => decEq (depth? 0 text) (some 0)

instance : DecidablePred IsFragment := fun _ => decidable_of_iff _ isFragment_iff.symm

end RestQuery.Token
