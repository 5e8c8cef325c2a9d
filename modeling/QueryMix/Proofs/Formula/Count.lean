import QueryMix.Formula.Count
import QueryMix.Proofs.Bracket.Split
import QueryMix.Proofs.Text.Width

/-!
# `QueryMix.Proofs.Formula.Count`: the digits of a count

Digits are letters and digits of ASCII, so folding and trimming leave them alone and they
hold neither brackets nor separators. Digits that are written with an `N` are read back
(`digits?_append_N`), and whatever is read as a count is digits and one more letter
(`digits?_eq_some_iff`).
-/

set_option autoImplicit false

namespace QueryMix.Count

open QueryMix.Bracket

/-- Digits are one character at least, and each of their characters is a digit. -/
theorem isDigits_iff {t : Text} :
    isDigits t = true ↔ t ≠ [] ∧ ∀ c ∈ t, c.isDigit = true := by
  simp [isDigits]

/-- A digit is alphanumeric. -/
theorem isAlphanum_of_isDigit {c : Char} (h : c.isDigit = true) : c.isAlphanum = true := by
  rw [Char.isAlphanum, h, Bool.or_true]

section Digits

variable {d : Text} (h : isDigits d = true)

include h

/-- Digits are not empty. -/
theorem ne_nil_of_isDigits : d ≠ [] := (isDigits_iff.mp h).1

/-- All characters of digits are alphanumeric. -/
theorem isAlphanum_of_mem {c : Char} (hc : c ∈ d) : c.isAlphanum = true :=
  isAlphanum_of_isDigit ((isDigits_iff.mp h).2 c hc)

/-- A character that is no digit does not occur in digits. -/
theorem not_mem_of_isDigits {c : Char} (hc : c.isDigit = false) : c ∉ d := fun hmem => by
  rw [(isDigits_iff.mp h).2 c hmem] at hc
  cases hc

/-- Trimming leaves digits alone. -/
theorem trim_of_isDigits : Text.trim d = d :=
  Text.trim_eq_self_iff.mpr
    ⟨fun _ hc => Text.isBlank_of_isAlphanum (isAlphanum_of_mem h (List.mem_of_mem_head? hc)),
      fun _ hc => Text.isBlank_of_isAlphanum (isAlphanum_of_mem h (List.mem_of_getLast? hc))⟩

/-- Folding leaves digits alone. -/
theorem toHalfWidth_of_isDigits : Text.toHalfWidth d = d :=
  Text.toHalfWidth_eq_self_iff.mpr
    fun _ hc => Text.halfWidthChar_of_isAlphanum (isAlphanum_of_mem h hc)

/-- Digits hold no brackets. -/
theorem roleOf_of_mem_isDigits {c : Char} (hc : c ∈ d) : roleOf c = .plain :=
  Text.roleOf_of_isAlphanum (isAlphanum_of_mem h hc)

/-- Trimming leaves a written count alone. -/
theorem trim_append_N : Text.trim (d ++ ['N']) = d ++ ['N'] :=
  Text.trim_append (trim_of_isDigits h) rfl (ne_nil_of_isDigits h) (by simp)

end Digits

/-- What is read as a count is its digits and an `N` in either case, with blanks around them or
not. -/
theorem digits?_eq_some_iff {t d : Text} :
    digits? t = some d ↔
      isDigits d = true ∧ ∃ n, (n = 'N' ∨ n = 'n') ∧ Text.trim t = d ++ [n] := by
  dsimp only [digits?]
  constructor
  · intro h
    split at h
    · cases h
    · next last hlast =>
      split at h
      · next hcond =>
        rw [Bool.and_eq_true, Bool.or_eq_true, beq_iff_eq, beq_iff_eq] at hcond
        obtain ⟨ys, hys⟩ := List.getLast?_eq_some_iff.mp hlast
        rw [hys, List.dropLast_concat] at hcond h
        rw [Option.some.injEq] at h
        exact ⟨h ▸ hcond.2, last, hcond.1, by rw [hys, h]⟩
      · cases h
  · rintro ⟨hd, n, hn, ht⟩
    have hletter : (n == 'N' || n == 'n') = true := by simpa using hn
    simp [ht, hletter, hd]

/-- A written count is read back. -/
theorem digits?_append_N {d : Text} (h : isDigits d = true) : digits? (d ++ ['N']) = some d :=
  digits?_eq_some_iff.mpr ⟨h, 'N', .inl rfl, trim_append_N h⟩

/-- Blanks around a count make no difference. -/
theorem digits?_trim (t : Text) : digits? (Text.trim t) = digits? t := by
  rw [digits?, Text.trim_trim, digits?]

/-- What is read as a count is balanced. -/
theorem isBalanced_of_digits? {t d : Text} (h : digits? t = some d) : isBalanced t = true := by
  obtain ⟨hd, n, hn, htrim⟩ := digits?_eq_some_iff.mp h
  have hletter : roleOf n = .plain := by rcases hn with rfl | rfl <;> decide
  rw [← isBalanced_trim, htrim]
  refine isBalanced_of_plain fun c hc => ?_
  rcases List.mem_append.mp hc with hc | hc
  · exact roleOf_of_mem_isDigits hd hc
  · rw [List.mem_singleton.mp hc, hletter]

/-- What is read as a count holds no comma. -/
theorem comma_not_mem_of_digits? {t d : Text} (h : digits? t = some d) : ',' ∉ t := by
  obtain ⟨hd, n, hn, htrim⟩ := digits?_eq_some_iff.mp h
  obtain ⟨l, r, ht, hl, hr⟩ := Text.eq_blanks_trim_blanks t
  rw [ht, htrim]
  intro hmem
  simp only [List.mem_append, List.mem_singleton] at hmem
  rcases hmem with (hmem | hmem | hmem) | hmem
  · exact absurd (hl _ hmem) (by decide)
  · exact not_mem_of_isDigits hd (by decide) hmem
  · rcases hn with rfl | rfl <;> exact absurd hmem (by decide)
  · exact absurd (hr _ hmem) (by decide)

end QueryMix.Count
