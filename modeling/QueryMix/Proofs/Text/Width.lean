import QueryMix.Proofs.Bracket.Balance
import QueryMix.Text.Width

/-!
# `QueryMix.Proofs.Text.Width`: folding to half width

Folding twice is folding once (`toHalfWidth_toHalfWidth`), and folding undoes widening
(`toHalfWidth_toFullWidth`). Blanks stay blanks in both directions
(`isBlank_halfWidthChar`), so folding and trimming may be done in either order
(`trim_toHalfWidth`). ASCII letters and digits are left alone by folding, and neither
they nor their full-width twins are brackets (`roleOf_of_isAlphanum`,
`roleOf_fullWidthChar_of_isAlphanum`).

Full-width brackets become brackets when they are folded. `KeepsRoles` sets apart the texts
without such characters; their balance is not changed by folding (`isBalanced_toHalfWidth`).
-/

set_option autoImplicit false

namespace QueryMix.Text

open QueryMix.Bracket

/-- A number that is the code of a character is the code of the character it makes. -/
theorem toNat_ofNat {n : Nat} (h : n.isValidChar) : (Char.ofNat n).toNat = n := by
  rw [Char.ofNat, dif_pos h]
  rfl

/-- The code of the wide space. -/
theorem toNat_wideSpace : wideSpace.toNat = 0x3000 := toNat_ofNat (by decide)

/-- The code of a folded full-width form. -/
theorem toNat_halfWidthChar_of_wide {c : Char} (h : 0xFF01 ≤ c.toNat ∧ c.toNat ≤ 0xFF5E) :
    (halfWidthChar c).toNat = c.toNat - 0xFEE0 := by
  rw [halfWidthChar, if_pos h]
  exact toNat_ofNat (.inl (by simp only [widthGap]; omega))

/-- A character that is no full-width form is left alone. -/
theorem halfWidthChar_of_lt {c : Char} (h : c.toNat < 0x3000) : halfWidthChar c = c := by
  have hne : c ≠ wideSpace := by
    rintro rfl
    rw [toNat_wideSpace] at h
    omega
  rw [halfWidthChar, if_neg (by omega), if_neg hne]

/-- What folding makes of a character is no full-width form. -/
theorem halfWidthChar_halfWidthChar (c : Char) :
    halfWidthChar (halfWidthChar c) = halfWidthChar c := by
  by_cases hwide : 0xFF01 ≤ c.toNat ∧ c.toNat ≤ 0xFF5E
  · exact halfWidthChar_of_lt (by rw [toNat_halfWidthChar_of_wide hwide]; omega)
  · by_cases hspace : c = wideSpace
    · rw [hspace]
      decide
    · have hself : halfWidthChar c = c := by
        rw [halfWidthChar, if_neg hwide, if_neg hspace]
      rw [hself, hself]

/-- Folding takes a full-width form and its ASCII twin to the same character. -/
theorem halfWidthChar_fullWidthChar (c : Char) :
    halfWidthChar (fullWidthChar c) = halfWidthChar c := by
  by_cases hascii : 0x21 ≤ c.toNat ∧ c.toNat ≤ 0x7E
  · have hfull : (fullWidthChar c).toNat = c.toNat + 0xFEE0 := by
      rw [fullWidthChar, if_pos hascii]
      exact toNat_ofNat (.inr (by simp only [widthGap]; omega))
    have hhalf : (halfWidthChar (fullWidthChar c)).toNat = c.toNat := by
      rw [toNat_halfWidthChar_of_wide (by omega)]
      omega
    calc halfWidthChar (fullWidthChar c)
        = Char.ofNat (halfWidthChar (fullWidthChar c)).toNat := (Char.ofNat_toNat _).symm
      _ = c := by rw [hhalf, Char.ofNat_toNat]
      _ = halfWidthChar c := (halfWidthChar_of_lt (by omega)).symm
  · by_cases hspace : c = ' '
    · rw [hspace]
      decide
    · rw [fullWidthChar, if_neg hascii, if_neg hspace]

/-- Folding turns no blank into another character, and no other character into a blank. -/
theorem isBlank_halfWidthChar (c : Char) : isBlank (halfWidthChar c) = isBlank c := by
  by_cases hwide : 0xFF01 ≤ c.toNat ∧ c.toNat ≤ 0xFF5E
  · have hhalf := toNat_halfWidthChar_of_wide hwide
    rw [Bool.eq_iff_iff]
    simp only [isBlank, hhalf, Bool.or_eq_true, Bool.and_eq_true, decide_eq_true_eq, beq_iff_eq]
    omega
  · by_cases hspace : c = wideSpace
    · rw [hspace]
      decide
    · rw [halfWidthChar, if_neg hwide, if_neg hspace]

@[simp] theorem toHalfWidth_nil : toHalfWidth [] = [] := rfl

/-- A text is folded character by character. -/
theorem toHalfWidth_cons (c : Char) (t : Text) :
    toHalfWidth (c :: t) = halfWidthChar c :: toHalfWidth t := rfl

/-- Two texts in a row are folded one by one. -/
theorem toHalfWidth_append (s t : Text) :
    toHalfWidth (s ++ t) = toHalfWidth s ++ toHalfWidth t := List.map_append

/-- Folding a text that was folded changes nothing. -/
@[simp] theorem toHalfWidth_toHalfWidth (t : Text) :
    toHalfWidth (toHalfWidth t) = toHalfWidth t := by
  rw [toHalfWidth, toHalfWidth, List.map_map]
  exact List.map_congr_left fun c _ => halfWidthChar_halfWidthChar c

/-- Folding undoes widening. -/
@[simp] theorem toHalfWidth_toFullWidth (t : Text) :
    toHalfWidth (toFullWidth t) = toHalfWidth t := by
  rw [toHalfWidth, toFullWidth, List.map_map]
  exact List.map_congr_left fun c _ => halfWidthChar_fullWidthChar c

/-- Folding and trimming may be done in either order. -/
theorem trim_toHalfWidth (t : Text) : trim (toHalfWidth t) = toHalfWidth (trim t) := by
  have hblank : isBlank ∘ halfWidthChar = isBlank := funext isBlank_halfWidthChar
  simp only [trim, trimEnd, trimStart, toHalfWidth, List.dropWhile_map, ← List.map_reverse, hblank]

/-- What is blank stays so, and nothing else becomes blank. -/
theorem allBlank_toHalfWidth (t : Text) : allBlank (toHalfWidth t) = allBlank t := by
  rw [allBlank, allBlank, trim_toHalfWidth, toHalfWidth, List.isEmpty_map]

/-- A text is left alone by folding exactly when each of its characters is. -/
theorem toHalfWidth_eq_self_iff {t : Text} :
    toHalfWidth t = t ↔ ∀ c ∈ t, halfWidthChar c = c := by
  simpa [toHalfWidth] using List.map_inj_left (l := t) (f := halfWidthChar) (g := id)

/-- A part of a folded text is left alone by folding. -/
theorem toHalfWidth_of_subset {s t : Text} (h : s ⊆ toHalfWidth t) : toHalfWidth s = s :=
  toHalfWidth_eq_self_iff.mpr fun c hc =>
    toHalfWidth_eq_self_iff.mp (toHalfWidth_toHalfWidth t) c (h hc)

/-! ### Folding and brackets -/

/-- Folding turns no bracket of the text into another character, and no other character into
a bracket. A full-width bracket is a character that this fails for. -/
def KeepsRoles (t : Text) : Prop := ∀ c ∈ t, roleOf (halfWidthChar c) = roleOf c

/-- Folding keeps the roles in any part of a text in which it keeps them. -/
theorem KeepsRoles.subset {s t : Text} (ht : KeepsRoles t) (h : s ⊆ t) : KeepsRoles s :=
  fun c hc => ht c (h hc)

/-- It keeps them in two texts in a row if it does in each. -/
theorem KeepsRoles.append {s t : Text} (hs : KeepsRoles s) (ht : KeepsRoles t) :
    KeepsRoles (s ++ t) := fun c hc => (List.mem_append.mp hc).elim (hs c) (ht c)

/-- Folding leaves ASCII characters alone, brackets among them. -/
theorem keepsRoles_of_lt {t : Text} (h : ∀ c ∈ t, c.toNat < 0x3000) : KeepsRoles t :=
  fun c hc => by rw [halfWidthChar_of_lt (h c hc)]

/-- The balance of such a text is that of the folded text. -/
theorem isBalanced_toHalfWidth {t : Text} (h : KeepsRoles t) :
    isBalanced (toHalfWidth t) = isBalanced t := isBalanced_map h

/-- Folding spoils the balance of a text only by making a bracket of a character that is
none. -/
theorem exists_of_unbalanced_toHalfWidth {t : Text} (h : isBalanced t = true)
    (hfold : isBalanced (toHalfWidth t) = false) :
    ∃ c ∈ t, roleOf (halfWidthChar c) ≠ roleOf c := by
  by_contra hnone
  have hroles : KeepsRoles t := fun c hc => by
    by_contra hrole
    exact hnone ⟨c, hc, hrole⟩
  rw [isBalanced_toHalfWidth hroles, h] at hfold
  cases hfold

/-! ### Letters and digits -/

/-- ASCII letters and digits lie between `0` and `z`. -/
theorem toNat_of_isAlphanum {c : Char} (h : c.isAlphanum = true) :
    0x30 ≤ c.toNat ∧ c.toNat ≤ 0x7A := by
  -- The three ranges, capitals first.
  change ((decide ('A'.val ≤ c.val ∧ c.val ≤ 'Z'.val) || ('a'.val ≤ c.val && c.val ≤ 'z'.val)) ||
    ('0'.val ≤ c.val && c.val ≤ '9'.val)) = true at h
  simp only [Bool.or_eq_true, Bool.and_eq_true, decide_eq_true_eq, UInt32.le_iff_toNat_le] at h
  have hc : c.toNat = c.val.toNat := rfl
  have hA : ('A'.val).toNat = 0x41 := rfl
  have hZ : ('Z'.val).toNat = 0x5A := rfl
  have ha : ('a'.val).toNat = 0x61 := rfl
  have hz : ('z'.val).toNat = 0x7A := rfl
  have h0 : ('0'.val).toNat = 0x30 := rfl
  have h9 : ('9'.val).toNat = 0x39 := rfl
  omega

/-- Folding leaves ASCII letters and digits alone. -/
theorem halfWidthChar_of_isAlphanum {c : Char} (h : c.isAlphanum = true) :
    halfWidthChar c = c := halfWidthChar_of_lt (by have := toNat_of_isAlphanum h; omega)

/-- ASCII letters and digits are no blanks. -/
theorem isBlank_of_isAlphanum {c : Char} (h : c.isAlphanum = true) : isBlank c = false := by
  have hc := toNat_of_isAlphanum h
  rw [Bool.eq_false_iff, ne_eq]
  simp only [isBlank, Bool.or_eq_true, Bool.and_eq_true, decide_eq_true_eq, beq_iff_eq]
  omega

/-- ASCII letters and digits are no brackets. -/
theorem roleOf_of_isAlphanum {c : Char} (h : c.isAlphanum = true) : roleOf c = .plain :=
  roleOf_eq_plain_of (fun b => by cases b <;> decide) h

/-- The code of the full-width form of an ASCII letter or digit. -/
theorem toNat_fullWidthChar_of_isAlphanum {c : Char} (h : c.isAlphanum = true) :
    (fullWidthChar c).toNat = c.toNat + 0xFEE0 := by
  have hc := toNat_of_isAlphanum h
  rw [fullWidthChar, if_pos (by omega)]
  exact toNat_ofNat (.inr (by simp only [widthGap]; omega))

/-- The full-width forms of ASCII letters and digits are no brackets. -/
theorem roleOf_fullWidthChar_of_isAlphanum {c : Char} (h : c.isAlphanum = true) :
    roleOf (fullWidthChar c) = .plain := by
  -- Every bracket is an ASCII character.
  have hbeyond : decide (0x7F < (fullWidthChar c).toNat) = true := by
    rw [toNat_fullWidthChar_of_isAlphanum h]
    exact decide_eq_true (by omega)
  exact roleOf_eq_plain_of (p := fun d => decide (0x7F < d.toNat))
    (fun b => by cases b <;> decide) hbeyond

/-- The full-width forms of ASCII letters and digits are no blanks. -/
theorem isBlank_fullWidthChar_of_isAlphanum {c : Char} (h : c.isAlphanum = true) :
    isBlank (fullWidthChar c) = false := by
  have hc := toNat_fullWidthChar_of_isAlphanum h
  have hlo := toNat_of_isAlphanum h
  rw [Bool.eq_false_iff, ne_eq]
  simp only [isBlank, hc, Bool.or_eq_true, Bool.and_eq_true, decide_eq_true_eq, beq_iff_eq]
  omega

end QueryMix.Text
