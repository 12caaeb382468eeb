import RestQuery.Text.Basic
import RestQuery.Text.WhiteSpace
import RestQuery.Text.Word

/-! Texts joined by a mark: their length, their number and their characters. -/
namespace RestQuery.Text

theorem sublist_intercalate {texts : List Text} (mark : Text) (member : text ∈ texts) :
    text.Sublist (mark.intercalate texts) := by
  induction texts with
  | nil => contradiction
  | cons first others ih =>
    cases others with
    | nil =>
      obtain rfl := List.mem_singleton.mp member
      simp
    | cons second rest =>
      rw [List.intercalate_cons_cons]
      rcases List.mem_cons.mp member with rfl | member
      · rw [List.append_assoc]
        exact List.sublist_append_left _ _
      · exact (ih member).trans (List.sublist_append_right _ _)

/-- Between each two texts there is a mark, which is at least one character. -/
theorem count_le_intercalate {mark : Text} (marked : mark ≠ []) (texts : List Text) :
    texts.length ≤ (mark.intercalate texts).length + 1 := by
  have marked : 0 < mark.length := List.length_pos_iff.mpr marked
  induction texts with
  | nil => simp
  | cons first others ih =>
    cases others with
    | nil => simp
    | cons second rest =>
      rw [List.intercalate_cons_cons]
      simp only [List.length_append, List.length_cons] at *
      omega

theorem mem_of_mem_intercalate {mark : Text} {texts : List Text}
    (member : c ∈ mark.intercalate texts) : c ∈ mark ∨ ∃ text ∈ texts, c ∈ text := by
  induction texts with
  | nil => contradiction
  | cons first others ih =>
    cases others with
    | nil => exact .inr ⟨first, by simp, by simpa using member⟩
    | cons second rest =>
      rw [List.intercalate_cons_cons] at member
      rcases List.mem_append.mp member with member | later
      · rcases List.mem_append.mp member with member | member
        · exact .inr ⟨first, by simp, member⟩
        · exact .inl member
      · rcases ih later with marked | ⟨text, present, member⟩
        · exact .inl marked
        · exact .inr ⟨text, List.mem_cons_of_mem _ present, member⟩

/-! Words and blanks in longer texts. No character is both part of a word and white space,
so reading a word and skipping blanks never take from each other. -/

/-- White space is the few ranges of the property, and each of them lies between words. -/
theorem isWord_eq_false_of_isWhiteSpace (blank : isWhiteSpace c = true) : isWord c = false := by
  have table : ∀ n ∈ [9, 10, 11, 12, 13, 0x20, 0x85, 0xA0, 0x1680, 0x2000, 0x2001, 0x2002, 0x2003,
      0x2004, 0x2005, 0x2006, 0x2007, 0x2008, 0x2009, 0x200A, 0x2028, 0x2029, 0x202F, 0x205F,
      0x3000], isWord (Char.ofNat n) = false := by decide +kernel
  rw [← Char.ofNat_toNat c]
  apply table
  simp only [isWhiteSpace, Bool.or_eq_true, Bool.and_eq_true, decide_eq_true_eq, beq_iff_eq] at blank
  simp only [List.mem_cons, List.not_mem_nil, or_false]
  omega

theorem isWhiteSpace_eq_false_of_isWord (word : isWord c = true) : isWhiteSpace c = false := by
  cases blank : isWhiteSpace c with
  | false => rfl
  | true => simp [isWord_eq_false_of_isWhiteSpace blank] at word

theorem isBlank_nil : isBlank [] = true := rfl

theorem isBlank_space : isBlank [' '] = true := rfl

@[simp] theorem trimStart_blanks_append (blank : isBlank blanks = true) (text : Text) :
    trimStart (blanks ++ text) = trimStart text := by
  unfold trimStart
  rw [List.dropWhile_append_of_pos]
  exact List.all_eq_true.mp blank

theorem trimStart_cons (bound : isWhiteSpace c = false) (cs : Text) :
    trimStart (c :: cs) = c :: cs := by simp [trimStart, bound]

theorem trimEnd_eq_self (last : ∀ c ∈ text.getLast?, isWhiteSpace c = false) :
    trimEnd text = text := by
  induction text with
  | nil => rfl
  | cons c cs ih =>
    cases cs with
    | nil => simp [trimEnd, last c rfl]
    | cons d ds =>
      have inner := ih fun e member => last e (by simpa using member)
      rw [trimEnd, inner]

/-- Nothing is trimmed from a text that neither starts nor ends with white space. -/
theorem trim_eq_self (first : ∀ c ∈ text.head?, isWhiteSpace c = false)
    (last : ∀ c ∈ text.getLast?, isWhiteSpace c = false) : trim text = text := by
  have start : trimStart text = text := by
    cases text with
    | nil => rfl
    | cons c cs => exact trimStart_cons (first c rfl) cs
  rw [trim, start, trimEnd_eq_self last]

theorem head?_trimEnd (first : c ∈ (trimEnd text).head?) : c ∈ text.head? := by
  cases text with
  | nil => exact first
  | cons d ds =>
    rw [trimEnd] at first
    split at first
    · split at first
      · contradiction
      · exact first
    · exact first

theorem getLast?_trimEnd (last : c ∈ (trimEnd text).getLast?) : isWhiteSpace c = false := by
  induction text with
  | nil => contradiction
  | cons d ds ih =>
    rw [trimEnd] at last
    cases kept : trimEnd ds with
    | nil =>
      rw [kept] at last
      by_cases blank : isWhiteSpace d
      · simp [blank] at last
      · obtain rfl : d = c := by simpa [blank] using last
        simpa using blank
    | cons e es =>
      rw [kept] at last ih
      exact ih (by simpa using last)

/-- What is trimmed already stays as it is. -/
theorem trim_trim (text : Text) : trim (trim text) = trim text := by
  refine trim_eq_self (fun c first => ?_) fun c last => getLast?_trimEnd last
  have start : c ∈ (text.dropWhile isWhiteSpace).head? := head?_trimEnd first
  simpa [Option.mem_def.mp start] using List.head?_dropWhile_not isWhiteSpace text

theorem trimEnd_append_blanks (blank : isBlank blanks = true) (text : Text) :
    trimEnd (text ++ blanks) = trimEnd text := by
  induction text with
  | nil => exact trimEnd_eq_nil_iff.mpr blank
  | cons c cs ih => rw [List.cons_append, trimEnd, trimEnd, ih]

/-- Blanks around a text are trimmed with its own. -/
theorem trim_around (lead : isBlank before = true) (trail : isBlank after = true) (text : Text) :
    trim (before ++ (text ++ after)) = trim text := by
  have blank : trimStart after = [] := by
    have alone := trimStart_blanks_append trail []
    rwa [List.append_nil] at alone
  have start : trimStart (text ++ after) =
      if (trimStart text).isEmpty then trimStart after else trimStart text ++ after :=
    List.dropWhile_append
  rw [trim, trim, trimStart_blanks_append lead, start]
  cases kept : trimStart text with
  | nil => simp [blank]
  | cons c cs => exact trimEnd_append_blanks trail (c :: cs)

theorem trimEnd_sublist (text : Text) : (trimEnd text).Sublist text := by
  induction text with
  | nil => exact .slnil
  | cons c cs ih =>
    rw [trimEnd]
    split
    · split
      · exact List.nil_sublist _
      · exact (List.nil_sublist cs).cons_cons c
    · next kept => exact ih.cons_cons c

/-- Trimming takes characters away and adds none. -/
theorem trim_sublist (text : Text) : (trim text).Sublist text :=
  (trimEnd_sublist _).trans (List.dropWhile_sublist _)

/-- A trimmed text ends with no white space. -/
theorem last_of_trim (trimmed : trim text = text) :
    ∀ c ∈ text.getLast?, isWhiteSpace c = false := by
  intro c last
  rw [← trimmed] at last
  exact getLast?_trimEnd last

/-- Where no white space is at the end, all that is trimmed stands at the start. -/
theorem exists_lead (last : ∀ c ∈ text.getLast?, isWhiteSpace c = false) :
    ∃ blanks, isBlank blanks = true ∧ text = blanks ++ trim text := by
  have split : text.takeWhile isWhiteSpace ++ trimStart text = text :=
    List.takeWhile_append_dropWhile
  refine ⟨text.takeWhile isWhiteSpace, List.all_takeWhile, ?_⟩
  have kept : trim text = trimStart text := by
    apply trimEnd_eq_self
    intro c member
    apply last
    rw [← split, List.getLast?_append, Option.mem_def.mp member]
    rfl
  rw [kept, split]

theorem trim_of_bound (bound : ∀ c ∈ text, isWhiteSpace c = false) : trim text = text :=
  trim_eq_self (fun _ member => bound _ (List.mem_of_head? member))
    fun _ member => bound _ (List.mem_of_getLast? member)

theorem isWord_of_isDigit (digit : c.isDigit = true) : isWord c = true := by
  simp [isWord, isNumeric_of_isDigit digit]

theorem trimStart_identifier_append (identifier : IsIdentifier name) (rest : Text) :
    trimStart (name ++ rest) = name ++ rest := by
  obtain ⟨_, words⟩ := identifier
  cases name with
  | nil => contradiction
  | cons c cs => exact trimStart_cons (isWhiteSpace_eq_false_of_isWord (words c (by simp))) _

def startsWord : Text → Bool
  | [] => false
  | c :: _ => isWord c

/-- An identifier is read as far as it goes. -/
theorem leadingIdentifier?_of_isIdentifier (identifier : IsIdentifier name)
    (apart : startsWord rest = false) : leadingIdentifier? (name ++ rest) = some (name, rest) := by
  have stops : ∀ c ∈ rest.head?, isWord c = false := by
    cases rest <;> simp_all [startsWord]
  obtain ⟨taken, left⟩ := span_append identifier.2 stops
  unfold leadingIdentifier?
  rw [taken, left]
  split
  · exact absurd rfl identifier.1
  · rfl

end RestQuery.Text
