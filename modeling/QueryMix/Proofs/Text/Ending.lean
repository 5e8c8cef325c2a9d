import QueryMix.Proofs.Text.Trim
import QueryMix.Text.Ending

/-!
# `QueryMix.Proofs.Text.Ending`: endings that are put on and dropped

A text that was put before an ending has that ending (`hasEnding_append`), and two endings of
one length are both there only if they are one ending up to the case of ASCII letters
(`foldCase_eq_of_hasEnding`). What is dropped is the ending in some case of letters, with the
blanks around it (`dropEnding?_eq_some_iff`). So an ending that was put after a trimmed text is
dropped again (`dropEnding?_append`).
-/

set_option autoImplicit false

namespace QueryMix.Text

/-- Two texts in a row are folded one by one. -/
theorem foldCase_append (s t : Text) : foldCase (s ++ t) = foldCase s ++ foldCase t :=
  List.map_append

/-- A text has an ending when it ends in it once both are folded. -/
theorem hasEnding_iff {t ending : Text} :
    hasEnding t ending = true ↔ foldCase ending <:+ foldCase t := List.isSuffixOf_iff_suffix

/-- A text has the ending that was put after it. -/
theorem hasEnding_append (s ending : Text) : hasEnding (s ++ ending) ending = true := by
  rw [hasEnding_iff, foldCase_append]
  exact List.suffix_append _ _

/-- A text that was put before an ending has another ending of the same length only if the
two differ in the case of ASCII letters alone. -/
theorem foldCase_eq_of_hasEnding {s ending other : Text} (hlen : other.length = ending.length)
    (h : hasEnding (s ++ ending) other = true) : foldCase other = foldCase ending := by
  rw [hasEnding_iff, foldCase_append] at h
  have hlen' : (foldCase other).length = (foldCase ending).length := by
    simpa [foldCase] using hlen
  have hsuffix : foldCase other <:+ foldCase ending :=
    List.suffix_of_suffix_length_le h (List.suffix_append _ _) (Nat.le_of_eq hlen')
  exact hsuffix.eq_of_length hlen'

/-- A text has an ending when it is some text with the ending after it, in some case of
letters. -/
theorem hasEnding_iff_append {t ending : Text} :
    hasEnding t ending = true ↔ ∃ s e : Text, t = s ++ e ∧ foldCase e = foldCase ending := by
  constructor
  · intro h
    have hlen : ending.length ≤ t.length := by
      simpa [foldCase] using (hasEnding_iff.mp h).length_le
    let n := t.length - ending.length
    have hsplit : t = t.take n ++ t.drop n := (List.take_append_drop n t).symm
    have hdrop : ending.length = (t.drop n).length := by
      rw [List.length_drop]
      omega
    refine ⟨t.take n, t.drop n, hsplit, ?_⟩
    rw [hsplit] at h
    exact (foldCase_eq_of_hasEnding hdrop h).symm
  · rintro ⟨s, e, rfl, he⟩
    rw [hasEnding_iff, foldCase_append, he]
    exact List.suffix_append _ _

/-- An ending that does not hold `c` is there exactly when what follows a `c` has it. -/
theorem hasEnding_append_cons {c : Char} {ending : Text}
    (hc : ∀ e : Text, foldCase e = foldCase ending → c ∉ e) (s t : Text) :
    hasEnding (s ++ c :: t) ending = hasEnding t ending := by
  rw [Bool.eq_iff_iff, hasEnding_iff_append, hasEnding_iff_append]
  constructor
  · rintro ⟨u, e, h, he⟩
    rcases List.append_eq_append_iff.mp h with ⟨w, -, hw⟩ | ⟨w, -, rfl⟩
    · -- The ending begins at `c` or after it, and it does not hold `c`.
      cases w with
      | nil =>
        rw [List.nil_append] at hw
        exact absurd (hw ▸ List.mem_cons_self) (hc e he)
      | cons d w => exact ⟨w, e, (List.cons.inj hw).2, he⟩
    · exact absurd (by simp) (hc _ he)
  · rintro ⟨u, e, rfl, he⟩
    exact ⟨s ++ c :: u, e, by simp, he⟩

/-- What is left when an ending is dropped, and the characters that are dropped with it. -/
theorem dropEnding?_eq_some_iff {t ending core : Text} :
    dropEnding? t ending = some core ↔
      ∃ s e : Text, trim t = s ++ e ∧ core = trim s ∧ foldCase e = foldCase ending := by
  -- Folded texts are as long as the texts, so the right number of characters is dropped.
  have htake {s e : Text} (he : foldCase e = foldCase ending) :
      (s ++ e).take ((s ++ e).length - ending.length) = s := by
    have hlen : e.length = ending.length := by
      simpa [foldCase] using congrArg List.length he
    rw [List.length_append, hlen, Nat.add_sub_cancel, List.take_left]
  dsimp only [dropEnding?]
  constructor
  · intro h
    split at h
    · next hend =>
      obtain ⟨s, e, ht, he⟩ := hasEnding_iff_append.mp hend
      rw [ht, htake he] at h
      exact ⟨s, e, ht, (Option.some.inj h).symm, he⟩
    · cases h
  · rintro ⟨s, e, ht, rfl, he⟩
    rw [ht, if_pos (hasEnding_iff_append.mpr ⟨s, e, rfl, he⟩), htake he]

/-- Blanks around a text make no difference to what is left of it. -/
theorem dropEnding?_congr {s t : Text} (h : trim s = trim t) (ending : Text) :
    dropEnding? s ending = dropEnding? t ending := by
  rw [dropEnding?, h, dropEnding?]

/-- An ending that was put after a trimmed text is dropped again. -/
theorem dropEnding?_append {core ending : Text} (hcore : trim core = core) (hne : core ≠ [])
    (hending : trim ending = ending) (hendne : ending ≠ []) :
    dropEnding? (core ++ ending) ending = some core :=
  dropEnding?_eq_some_iff.mpr
    ⟨core, ending, trim_append hcore hending hne hendne, hcore.symm, rfl⟩

/-- What is left when an ending is dropped leaves characters out and keeps the order of the
others. -/
theorem sublist_of_dropEnding? {t ending core : Text} (h : dropEnding? t ending = some core) :
    core.Sublist t := by
  obtain ⟨s, e, ht, rfl, -⟩ := dropEnding?_eq_some_iff.mp h
  have hs : s.Sublist (trim t) := by
    rw [ht]
    exact List.sublist_append_left s e
  exact (trim_sublist s).trans (hs.trans (trim_sublist t))

end QueryMix.Text
