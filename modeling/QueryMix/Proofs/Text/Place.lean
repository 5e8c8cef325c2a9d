import QueryMix.Text.Place

/-!
# `QueryMix.Proofs.Text.Place`: characters and slices by their places

A text is cut in one way only at each of its places (`append_inj_of_size`). So a character or a
slice that is given by byte offsets is the same thing as a text taken apart before and after it
(`charAt?_eq_some_iff`, `slice?_eq_some_iff`), where the offsets are the sizes of what precedes.
-/

set_option autoImplicit false

namespace QueryMix.Text

/-- The character that stands at a place, unless the text ends there. -/
def charAt? (t : Text) (offset : Nat) : Option Char :=
  (cutAt? t offset).bind fun (_, rest) => rest.head?

/-- The text between two places; there is none if the second comes before the first. -/
def slice? (t : Text) (start stop : Nat) : Option Text :=
  (cutAt? t stop).bind fun (upto, _) => (cutAt? upto start).map Prod.snd

/-- Every character takes a byte at least. -/
theorem size_eq_zero_iff {t : Text} : size t = 0 ↔ t = [] := by
  cases t with
  | nil => simp
  | cons c t =>
    have hc : 0 < c.utf8Size := Char.utf8Size_pos c
    simp only [size_cons, reduceCtorEq, iff_false]
    omega

/-- Leaving characters out makes a text no larger. -/
theorem size_le_of_sublist {s t : Text} (h : s.Sublist t) : size s ≤ size t := by
  induction h with
  | slnil => exact Nat.le_refl _
  | cons c _ ih => exact Nat.le_trans ih (Nat.le_add_left _ _)
  | cons_cons c _ ih => exact Nat.add_le_add_left ih _

/-- A text that is made of two is cut between them at the size of the first. -/
theorem cutAt?_append (before after : Text) :
    cutAt? (before ++ after) (size before) = some (before, after) :=
  cutAt?_eq_some_iff.mpr ⟨rfl, rfl⟩

/-- A text is cut in one way at a place. -/
theorem append_inj_of_size {s t s' t' : Text} (h : s ++ t = s' ++ t') (hsize : size s = size s') :
    s = s' ∧ t = t' := by
  have hcut : cutAt? (s ++ t) (size s) = some (s', t') :=
    cutAt?_eq_some_iff.mpr ⟨h, hsize.symm⟩
  rw [cutAt?_append] at hcut
  exact Prod.mk.inj (Option.some.inj hcut)

/-- The character at an offset is the one that has as many bytes before it. -/
theorem charAt?_eq_some_iff {t : Text} {offset : Nat} {c : Char} :
    charAt? t offset = some c ↔
      ∃ before after : Text, t = before ++ c :: after ∧ size before = offset := by
  constructor
  · intro h
    obtain ⟨⟨before, rest⟩, hcut, hhead⟩ := Option.bind_eq_some_iff.mp h
    obtain ⟨after, rfl⟩ := List.head?_eq_some_iff.mp hhead
    exact ⟨before, after, cutAt?_eq_some_iff.mp hcut⟩
  · rintro ⟨before, after, rfl, rfl⟩
    rw [charAt?, cutAt?_append]
    rfl

/-- A slice between two offsets stands where the first one says and ends where the second one
does. -/
theorem slice?_eq_some_iff {t u : Text} {start stop : Nat} :
    slice? t start stop = some u ↔
      ∃ before after : Text, t = before ++ (u ++ after) ∧ size before = start ∧
        start + size u = stop := by
  constructor
  · intro h
    obtain ⟨⟨upto, after⟩, hstop, hstart⟩ := Option.bind_eq_some_iff.mp h
    obtain ⟨⟨before, u'⟩, hcut, rfl⟩ := Option.map_eq_some_iff.mp hstart
    obtain ⟨rfl, hupto⟩ := cutAt?_eq_some_iff.mp hstop
    obtain ⟨rfl, hbefore⟩ := cutAt?_eq_some_iff.mp hcut
    refine ⟨before, after, List.append_assoc _ _ _, hbefore, ?_⟩
    rw [← hbefore, ← hupto, size_append]
  · rintro ⟨before, after, rfl, rfl, rfl⟩
    rw [slice?, ← List.append_assoc, ← size_append, cutAt?_append]
    show (cutAt? (before ++ u) (size before)).map Prod.snd = _
    rw [cutAt?_append]
    rfl

end QueryMix.Text
