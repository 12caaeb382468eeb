import RestQuery.Number.Layout

/-! The characters of numbers as text: digits, signs, a point and the mark of an exponent,
unless the layout has a name for the value. -/
namespace RestQuery.Number

def IsNumeral (c : Char) : Prop := c.isDigit = true ∨ c = '-' ∨ c = '+' ∨ c = '.' ∨ c = 'e'

theorem isNumeral_of_mem_ofNat (member : c ∈ ofNat n) : IsNumeral c :=
  .inl (isDigit_of_mem_ofNat member)

theorem isNumeral_of_mem_ofInt {n : Int} (member : c ∈ ofInt n) : IsNumeral c := by
  cases n with
  | ofNat n => exact isNumeral_of_mem_ofNat member
  | negSucc n =>
    rcases List.mem_cons.mp member with rfl | member
    · exact .inr (.inl rfl)
    · exact isNumeral_of_mem_ofNat member

namespace Layout

theorem isNumeral_of_mem_significant (digits : ∀ c ∈ text, IsNumeral c)
    (member : c ∈ significant text) : IsNumeral c := by
  unfold significant at member
  split at member
  · obtain rfl := List.mem_singleton.mp member
    exact .inl rfl
  · have kept := (List.dropWhile_sublist _).subset (List.mem_reverse.mp member)
    exact digits c (List.mem_reverse.mp kept)

theorem isNumeral_of_mem_zeros {count : Int} (member : c ∈ zeros count) : IsNumeral c := by
  obtain rfl := List.eq_of_mem_replicate member
  exact .inl rfl

theorem isNumeral_of_mem_writePositional {keeps : Bool} {digits : Text}
    (each : ∀ c ∈ digits, IsNumeral c) (member : c ∈ writePositional keeps digits lead) :
    IsNumeral c := by
  have point : IsNumeral '.' := .inr (.inr (.inr (.inl rfl)))
  have zero : IsNumeral '0' := .inl rfl
  unfold writePositional at member
  split at member
  · simp only [List.mem_cons, List.mem_append] at member
    rcases member with rfl | rfl | member | member
    · exact zero
    · exact point
    · exact isNumeral_of_mem_zeros member
    · exact each c member
  · simp only at member
    cases fraction : digits.drop (lead + 1).toNat with
    | nil =>
      simp only [fraction, List.mem_append] at member
      rcases member with (member | member) | member
      · exact each c member
      · exact isNumeral_of_mem_zeros member
      · cases keeps with
        | false => contradiction
        | true =>
          have member : c = '.' ∨ c = '0' := by simpa using member
          rcases member with rfl | rfl
          · exact point
          · exact zero
    | cons first others =>
      simp only [fraction, List.mem_append, List.mem_cons (b := '.')] at member
      rcases member with member | rfl | member
      · exact each c (List.mem_of_mem_take member)
      · exact point
      · exact each c (List.mem_of_mem_drop (fraction ▸ member))

theorem isNumeral_of_mem_writePower {digits : Text} (each : ∀ c ∈ digits, IsNumeral c)
    (member : c ∈ writePower digits lead) : IsNumeral c := by
  have power : ∀ c ∈ (if lead < 0 then ofInt lead else '+' :: ofInt lead), IsNumeral c := by
    intro c member
    split at member
    · exact isNumeral_of_mem_ofInt member
    · rcases List.mem_cons.mp member with rfl | member
      · exact .inr (.inr (.inl rfl))
      · exact isNumeral_of_mem_ofInt member
  unfold writePower at member
  rcases List.mem_append.mp member with member | member
  · split at member
    · simp only [List.mem_cons] at member each
      rcases member with rfl | rfl | member
      · exact each _ (.inl rfl)
      · exact .inr (.inr (.inr (.inl rfl)))
      · exact each _ (.inr member)
    · exact each c member
  · rcases List.mem_cons.mp member with rfl | member
    · exact .inr (.inr (.inr (.inr rfl)))
    · exact power c member

/-- A finite number is written with the characters of numerals only, whatever the layout. -/
theorem isNumeral_of_mem_write (layout : Layout)
    (member : c ∈ layout.write (.finite negative significand exponent)) : IsNumeral c := by
  simp only [write] at member
  generalize (if significand = 0 then (0, 0) else shortest layout.tie significand exponent) = parts
    at member
  have digits : ∀ c ∈ significant (ofNat parts.1), IsNumeral c :=
    fun _ => isNumeral_of_mem_significant fun _ => isNumeral_of_mem_ofNat
  have unsigned : ∀ lead, ∀ c ∈ (if layout.positional lead then
      writePositional layout.keepsFraction (significant (ofNat parts.1)) lead
      else writePower (significant (ofNat parts.1)) lead), IsNumeral c := by
    intro lead c member
    split at member
    · exact isNumeral_of_mem_writePositional digits member
    · exact isNumeral_of_mem_writePower digits member
  unfold signed at member
  split at member
  · rcases List.mem_cons.mp member with rfl | member
    · exact .inr (.inl rfl)
    · exact unsigned _ c member
  · exact unsigned _ c member

end Layout
end RestQuery.Number
