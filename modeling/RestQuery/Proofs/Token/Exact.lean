import RestQuery.Proofs.Text
import RestQuery.Proofs.Token.Balanced

/-! Tokens read back as they were written: dotted paths, calls and comma lists. -/
namespace RestQuery.Token

namespace Path

theorem scan_words_append (words : ∀ c ∈ name, Text.isWord c = true) (rest : Text) :
    scan (name ++ rest) = (name ++ (scan rest).1, (scan rest).2) := by
  induction name with
  | nil => rfl
  | cons c cs ih =>
    obtain ⟨word, words⟩ := List.forall_mem_cons.mp words
    simp [scan, word, ih words]

/-- By induction on the path: a point is passed because an identifier follows it. -/
theorem scan_toText {others : Path} (first : Text.IsIdentifier name)
    (identifiers : ∀ other ∈ others, Text.IsIdentifier other) (stops : scan rest = ([], [], rest)) :
    scan (toText (name :: others) ++ rest) = (name, others, rest) := by
  induction others generalizing name with
  | nil => simp [toText, scan_words_append first.2, stops]
  | cons second others ih =>
    obtain ⟨identifier, identifiers⟩ := List.forall_mem_cons.mp identifiers
    have later := ih identifier identifiers
    have point : scan ('.' :: (toText (second :: others) ++ rest)) = ([], second :: others, rest) := by
      have apart : Text.isWord '.' = false := by decide
      obtain ⟨filled, _⟩ := identifier
      cases second with
      | nil => contradiction
      | cons c cs => simp [scan, apart, later]
    have whole : toText (name :: second :: others) ++ rest =
        name ++ '.' :: (toText (second :: others) ++ rest) := by
      simp [toText, List.intercalate_cons_cons]
    simp [whole, scan_words_append first.2, point]

theorem leading?_toText {path : Path} (filled : path ≠ [])
    (identifiers : ∀ name ∈ path, Text.IsIdentifier name) (stops : scan rest = ([], [], rest)) :
    leading? (path.toText ++ rest) = some (path, rest) := by
  cases path with
  | nil => contradiction
  | cons name others =>
    obtain ⟨identifier, identifiers⟩ := List.forall_mem_cons.mp identifiers
    have read := scan_toText identifier identifiers stops
    obtain ⟨apart, _⟩ := identifier
    cases name with
    | nil => contradiction
    | cons c cs => simp [leading?, read]

/-- A path starts with a character of a word. -/
theorem start_toText {path : Path} (filled : path ≠ [])
    (identifiers : ∀ name ∈ path, Text.IsIdentifier name) :
    ∃ c rest, path.toText = c :: rest ∧ Text.isWord c = true := by
  cases path with
  | nil => contradiction
  | cons name others =>
    obtain ⟨apart, words⟩ := identifiers name (by simp)
    cases name with
    | nil => contradiction
    | cons c cs =>
      have word := words c (by simp)
      cases others with
      | nil => exact ⟨c, cs, by simp [toText], word⟩
      | cons second rest =>
        exact ⟨c, cs ++ '.' :: toText (second :: rest), by simp [toText, List.intercalate_cons_cons],
          word⟩

theorem isBare_toText {path : Path} (identifiers : ∀ name ∈ path, Text.IsIdentifier name) :
    IsBare path.toText := by
  intro c member
  rcases Text.mem_of_mem_intercalate member with point | ⟨name, present, member⟩
  · obtain rfl := List.mem_singleton.mp point
    decide
  · have word := (identifiers name present).2 c member
    refine ⟨?_, ?_, ?_⟩ <;> rintro rfl <;> contradiction

end Path

namespace Call

/-- A call that reads back: its path is one of identifiers and its arguments are balanced. -/
structure IsWritten (call : Call) : Prop where
  filled : call.path ≠ []
  identifiers : ∀ name ∈ call.path, Text.IsIdentifier name
  balanced : IsBalanced call.args

theorem IsWritten.trim_toText {call : Call} (written : call.IsWritten) :
    Text.trim call.toText = call.toText := by
  obtain ⟨c, rest, start, word⟩ := Path.start_toText written.filled written.identifiers
  apply Text.trim_eq_self
  · intro d member
    obtain rfl : c = d := by simpa [toText, start] using member
    exact Text.isWhiteSpace_eq_false_of_isWord word
  · intro d member
    have last : call.toText.getLast? = some ')' := by
      have whole : call.toText = (call.path.toText ++ '(' :: call.args) ++ [')'] := by simp [toText]
      rw [whole, List.getLast?_concat]
    obtain rfl : ')' = d := by simpa [last] using member
    decide

theorem IsWritten.read?_toText {call : Call} (written : call.IsWritten) :
    read? call.toText = some call := by
  have stops : Path.scan ('(' :: (call.args ++ [')'])) = ([], [], '(' :: (call.args ++ [')'])) := by
    have apart : Text.isWord '(' = false := by decide
    simp [Path.scan, apart]
  have path := Path.leading?_toText written.filled written.identifiers stops
  have args : untilClosed 0 (call.args ++ [')']) = some (call.args, []) :=
    untilClosed_of_depth? written.balanced []
  have leading : leading? call.toText = some (call, []) := by
    simp [leading?, toText, path, args]
  simp [read?, written.trim_toText, leading]

theorem IsWritten.isItem_toText {call : Call} (written : call.IsWritten) : IsItem call.toText :=
  .call (Path.isBare_toText written.identifiers) written.balanced

end Call

theorem items_intercalate {texts : List Text} (filled : texts ≠ [])
    (each : ∀ text ∈ texts, IsItem text) (trimmed : ∀ text ∈ texts, text ≠ [] ∧ text.trim = text) :
    items ([','].intercalate texts) = texts := by
  have same : texts.map Text.trim = texts :=
    (List.map_congr_left fun text member => (trimmed text member).2).trans (List.map_id _)
  rw [items, IsItem.segments_intercalate filled each, same, List.filter_eq_self]
  intro text member
  simpa using (trimmed text member).1

/-! Tokens read exactly. A token is read as a path if it is one of identifiers, as a call if
such a path and balanced arguments make it up, and never as both. -/

/-- By induction on the text, with the depth at which the arguments are entered. -/
theorem depth?_of_untilClosed (closed : Call.untilClosed depth text = some (args, rest)) :
    depth? depth args = some 0 := by
  induction text generalizing depth args with
  | nil => simp [Call.untilClosed] at closed
  | cons c cs ih =>
    by_cases closes : c = ')'
    · cases depth with
      | zero =>
        simp only [Call.untilClosed, closes, if_true, Option.some.injEq, Prod.mk.injEq] at closed
        simp [← closed.1, depth?]
      | succ depth =>
        simp only [Call.untilClosed, closes, if_true, Option.map_eq_some_iff, Prod.exists,
          Prod.mk.injEq] at closed
        obtain ⟨inner, tail, found, rfl, rfl⟩ := closed
        simpa [depth?] using ih found
    · simp only [Call.untilClosed, closes, if_false, Option.map_eq_some_iff, Prod.exists,
        Prod.mk.injEq] at closed
      obtain ⟨inner, tail, found, rfl, rfl⟩ := closed
      simpa [depth?, closes] using ih found

namespace Path

/-- A name that is read on consists of words, and those after points are identifiers. -/
theorem identifiers_scan (text : Text) : (∀ c ∈ (scan text).1, Text.isWord c = true) ∧
    ∀ name ∈ (scan text).2.1, Text.IsIdentifier name := by
  induction text with
  | nil => simp [scan]
  | cons c cs ih =>
    by_cases word : Text.isWord c
    · simpa [scan, word] using ih
    · by_cases point : c = '.'
      · have apart : Text.isWord '.' = false := by decide
        rcases split : scan cs with ⟨_ | ⟨d, name⟩, names, rest⟩
        · simp [scan, point, split, apart]
        · rw [split] at ih
          have identifier : Text.IsIdentifier (d :: name) := ⟨by simp, ih.1⟩
          simpa [scan, point, split, apart, identifier] using ih.2
      · simp [scan, word, point]

theorem identifiers_leading? (read : leading? text = some (path, rest)) :
    path ≠ [] ∧ ∀ name ∈ path, Text.IsIdentifier name := by
  have parts := identifiers_scan text
  unfold leading? at read
  split at read
  · contradiction
  · next split =>
    obtain ⟨rfl, rfl⟩ := Prod.mk.inj (Option.some.inj read)
    rw [split] at parts
    refine ⟨by simp, fun other member => ?_⟩
    rcases List.mem_cons.mp member with rfl | member
    · exact ⟨by assumption, parts.1⟩
    · exact parts.2 other member

structure IsWritten (path : Path) : Prop where
  filled : path ≠ []
  identifiers : ∀ name ∈ path, Text.IsIdentifier name

theorem read?_eq_some_iff : read? token = some path ↔ path.IsWritten ∧ token.trim = path.toText := by
  constructor
  · intro read
    unfold read? at read
    split at read
    · next found =>
      obtain rfl := Option.some.inj read
      obtain ⟨filled, identifiers⟩ := identifiers_leading? found
      exact ⟨⟨filled, identifiers⟩, by simpa using (leading?_append found).symm⟩
    · contradiction
  · rintro ⟨⟨filled, identifiers⟩, same⟩
    have leading : leading? (path.toText ++ []) = some (path, []) :=
      leading?_toText filled identifiers rfl
    rw [List.append_nil] at leading
    rw [read?, same, leading]

/-- No white space stands in a path. -/
theorem IsWritten.trim_toText {path : Path} (written : path.IsWritten) :
    Text.trim path.toText = path.toText := by
  apply Text.trim_of_bound
  intro c member
  rcases Text.mem_of_mem_intercalate member with point | ⟨name, present, member⟩
  · obtain rfl := List.mem_singleton.mp point
    decide
  · exact Text.isWhiteSpace_eq_false_of_isWord ((written.identifiers name present).2 c member)

theorem IsWritten.read?_toText {path : Path} (written : path.IsWritten) :
    read? path.toText = some path :=
  read?_eq_some_iff.mpr ⟨written, written.trim_toText⟩

end Path

namespace Call

theorem isWritten_of_leading? (read : leading? text = some (call, rest)) : call.IsWritten := by
  unfold leading? at read
  split at read
  · next path inner found =>
    obtain ⟨⟨args, tail⟩, closed, same⟩ := Option.map_eq_some_iff.mp read
    obtain ⟨rfl, rfl⟩ := Prod.mk.inj same
    obtain ⟨filled, identifiers⟩ := Path.identifiers_leading? found
    exact ⟨filled, identifiers, depth?_of_untilClosed closed⟩
  · contradiction

theorem read?_eq_some_iff : read? token = some call ↔ call.IsWritten ∧ token.trim = call.toText := by
  constructor
  · intro read
    unfold read? at read
    split at read
    · next found =>
      obtain rfl := Option.some.inj read
      exact ⟨isWritten_of_leading? found, by simpa using (leading?_append found).symm⟩
    · contradiction
  · rintro ⟨written, same⟩
    have read := written.read?_toText
    rw [read?, written.trim_toText] at read
    rw [read?, same, read]

/-- A call has a parenthesis, and a path has none. -/
theorem read?_of_path {path : Path} (read : Path.read? token = some path) :
    Call.read? token = none := by
  obtain ⟨written, text⟩ := Path.read?_eq_some_iff.mp read
  refine Option.eq_none_iff_forall_ne_some.mpr fun call found => ?_
  obtain ⟨_, same⟩ := read?_eq_some_iff.mp found
  have opens : '(' ∈ token.trim := by simp [same, toText]
  rw [text] at opens
  exact (Path.isBare_toText written.identifiers _ opens).1 rfl

end Call

/-- Apart from blanks around it, the token is identifiers with points between them. -/
structure Path.Spells (token : Text) (path : Path) : Prop where
  written : path.IsWritten
  text : token.trim = path.toText

/-- Apart from blanks around it, the token is a path of identifiers and, in parentheses, arguments
whose own parentheses pair up. -/
structure Call.Spells (token : Text) (call : Call) : Prop where
  written : call.path.IsWritten
  paired : Paired call.args
  text : token.trim = call.path.toText ++ '(' :: (call.args ++ [')'])

theorem Path.read?_eq_some_iff_spells {path : Path} :
    Path.read? token = some path ↔ Path.Spells token path := by
  rw [Path.read?_eq_some_iff]
  exact ⟨fun both => ⟨both.1, both.2⟩, fun spells => ⟨spells.written, spells.text⟩⟩

theorem Call.read?_eq_some_iff_spells {call : Call} :
    Call.read? token = some call ↔ Call.Spells token call := by
  rw [Call.read?_eq_some_iff]
  constructor
  · rintro ⟨⟨filled, identifiers, balanced⟩, text⟩
    exact ⟨⟨filled, identifiers⟩, isBalanced_iff_paired.mp balanced, text⟩
  · rintro ⟨⟨filled, identifiers⟩, paired, text⟩
    exact ⟨⟨filled, identifiers, isBalanced_iff_paired.mpr paired⟩, text⟩

/-- A token is read as the call that it spells, of which there is at most one, and as the path that
it spells. None spells both. -/
theorem read?_iff_spells (token : Text) :
    (∀ call, Call.read? token = some call ↔ Call.Spells token call) ∧
    (∀ first second, Call.Spells token first → Call.Spells token second → first = second) ∧
    (∀ path, Path.read? token = some path ↔ Path.Spells token path) ∧
    ∀ call path, ¬ (Call.Spells token call ∧ Path.Spells token path) := by
  refine ⟨fun _ => Call.read?_eq_some_iff_spells, ?_, fun _ => Path.read?_eq_some_iff_spells, ?_⟩
  · intro first second one other
    have read := Call.read?_eq_some_iff_spells.mpr one
    rw [Call.read?_eq_some_iff_spells.mpr other] at read
    exact (Option.some.inj read).symm
  · rintro call path ⟨asCall, asPath⟩
    have noCall := Call.read?_of_path (Path.read?_eq_some_iff_spells.mpr asPath)
    rw [Call.read?_eq_some_iff_spells.mpr asCall] at noCall
    contradiction

theorem read?_iff_spells_nested :
    let token := " r.f(a,(b)) ".toList
    let call : Call := ⟨["r".toList, "f".toList], "a,(b)".toList⟩
    Call.Spells token call ∧ (∀ other, Call.Spells token other → other = call) ∧
      Path.read? token = none := by
  intro token call
  obtain ⟨reads, unique, paths, apart⟩ := read?_iff_spells token
  have spells : Call.Spells token call := (reads call).mp (by decide)
  refine ⟨spells, fun other also => unique other call also spells, ?_⟩
  refine Option.eq_none_iff_forall_ne_some.mpr fun path found => ?_
  exact apart call path ⟨spells, (paths path).mp found⟩

/-- An item has lost characters of the text around it. -/
theorem sublist_of_mem_items (member : item ∈ items text) : item.Sublist text := by
  obtain ⟨segment, listed, rfl⟩ := List.mem_map.mp (List.mem_filter.mp member).1
  have inside := Text.sublist_intercalate [','] listed
  rw [intercalate_segments] at inside
  exact (Text.trim_sublist segment).trans inside

theorem trim_of_mem_items (member : item ∈ items text) : item.trim = item := by
  obtain ⟨segment, _, rfl⟩ := List.mem_map.mp (List.mem_filter.mp member).1
  exact Text.trim_trim segment

end RestQuery.Token
