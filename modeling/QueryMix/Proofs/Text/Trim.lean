import Mathlib.Data.List.TakeWhile
import QueryMix.Text.Blank

/-!
# `QueryMix.Proofs.Text.Trim`: what trimming leaves

A text is what trimming leaves of it with blanks on both sides (`eq_blanks_trim_blanks`). It
is left alone exactly when its first and its last character are no blanks
(`trim_eq_self_iff`), so what is left is left alone by a second trimming (`trim_trim`), and
texts that trimming leaves alone can be put one after the other (`trim_append_append`) or
joined (`trim_intercalate`). Of a text with visible ends, trimming works on these ends only
(`trim_of_visible_ends`), and further blanks around a text make no difference
(`trim_blanks_append`, `trim_append_blanks`).
-/

set_option autoImplicit false

namespace QueryMix.Text

/-- The text that `trimStart` leaves begins with no blank. -/
theorem isBlank_of_mem_head?_trimStart {t : Text} {c : Char} (h : c ∈ (trimStart t).head?) :
    isBlank c = false := by
  have hnot := List.head?_dropWhile_not isBlank t
  rw [show (t.dropWhile isBlank).head? = some c from h] at hnot
  exact hnot

/-- The text that `trimEnd` leaves ends with no blank. -/
theorem isBlank_of_mem_getLast?_trimEnd {t : Text} {c : Char} (h : c ∈ (trimEnd t).getLast?) :
    isBlank c = false := by
  rw [trimEnd, List.getLast?_reverse] at h
  exact isBlank_of_mem_head?_trimStart h

/-- A text that begins with no blank is left alone at its start. -/
theorem trimStart_eq_self {t : Text} (h : ∀ c ∈ t.head?, isBlank c = false) :
    trimStart t = t := by
  cases t with
  | nil => rfl
  | cons c rest => rw [trimStart, List.dropWhile_cons_of_neg (by simp [h c rfl])]

/-- A text that ends with no blank is left alone at its end. -/
theorem trimEnd_eq_self {t : Text} (h : ∀ c ∈ t.getLast?, isBlank c = false) :
    trimEnd t = t := by
  have hrev : trimStart t.reverse = t.reverse :=
    trimStart_eq_self fun c hc => h c (by rwa [List.head?_reverse] at hc)
  rw [trimEnd, show t.reverse.dropWhile isBlank = t.reverse from hrev, List.reverse_reverse]

/-- What trimming leaves begins with no blank. -/
theorem isBlank_of_mem_head?_trim {t : Text} {c : Char} (h : c ∈ (trim t).head?) :
    isBlank c = false := by
  obtain ⟨r, hr⟩ := trimEnd_isPrefix (trimStart t)
  apply isBlank_of_mem_head?_trimStart (t := t)
  have hc : (trimEnd (trimStart t)).head? = some c := h
  rw [← hr, List.head?_append, hc]
  rfl

/-- What trimming leaves ends with no blank. -/
theorem isBlank_of_mem_getLast?_trim {t : Text} {c : Char} (h : c ∈ (trim t).getLast?) :
    isBlank c = false := isBlank_of_mem_getLast?_trimEnd h

/-- A text is left alone exactly when neither its first nor its last character is a blank. -/
theorem trim_eq_self_iff {t : Text} :
    trim t = t ↔
      (∀ c ∈ t.head?, isBlank c = false) ∧ ∀ c ∈ t.getLast?, isBlank c = false := by
  constructor
  · intro h
    exact ⟨fun c hc => isBlank_of_mem_head?_trim (t := t) (by rwa [h]),
      fun c hc => isBlank_of_mem_getLast?_trim (t := t) (by rwa [h])⟩
  · rintro ⟨hhead, hlast⟩
    rw [trim, trimStart_eq_self hhead, trimEnd_eq_self hlast]

/-- A second trimming changes nothing. -/
@[simp] theorem trim_trim (t : Text) : trim (trim t) = trim t :=
  trim_eq_self_iff.mpr
    ⟨fun _ hc => isBlank_of_mem_head?_trim hc, fun _ hc => isBlank_of_mem_getLast?_trim hc⟩

@[simp] theorem trim_nil : trim [] = [] := rfl

/-- Trimming the start of a text goes no further than the first part that is not blank. -/
theorem trimStart_append {s : Text} (hs : trim s ≠ []) (t : Text) :
    trimStart (s ++ t) = trimStart s ++ t := by
  rw [trimStart, List.dropWhile_append]
  split
  · next hnone => exact absurd (congrArg trimEnd (List.isEmpty_iff.mp hnone)) hs
  · rfl

/-- Trimming the end of a text goes no further than the last part that is not blank. -/
theorem trimEnd_append {t : Text} (ht : trim t ≠ []) (s : Text) :
    trimEnd (s ++ t) = s ++ trimEnd t := by
  rw [trimEnd, List.reverse_append, List.dropWhile_append]
  split
  · next hnone =>
    -- All characters of `t` would be blanks.
    have hblank : ∀ c ∈ t, isBlank c = true := fun c hc =>
      List.dropWhile_eq_nil_iff.mp (List.isEmpty_iff.mp hnone) c (List.mem_reverse.mpr hc)
    exact absurd (congrArg trimEnd (List.dropWhile_eq_nil_iff.mpr hblank)) ht
  · rw [List.reverse_append, List.reverse_reverse]
    rfl

/-- Whatever stands between two texts that are not blank, trimming works on these two only. -/
theorem trim_of_visible_ends {s t : Text} (hs : trim s ≠ []) (ht : trim t ≠ []) (m : Text) :
    trim (s ++ m ++ t) = trimStart s ++ m ++ trimEnd t := by
  rw [trim, List.append_assoc, trimStart_append hs, ← List.append_assoc, trimEnd_append ht]

/-- Whatever stands between two texts that trimming leaves alone, the whole is left alone. -/
theorem trim_append_append {s m t : Text} (hs : trim s = s) (ht : trim t = t)
    (hsne : s ≠ []) (htne : t ≠ []) : trim (s ++ m ++ t) = s ++ m ++ t := by
  rw [trim_of_visible_ends (hs.symm ▸ hsne) (ht.symm ▸ htne),
    trimStart_eq_self (trim_eq_self_iff.mp hs).1, trimEnd_eq_self (trim_eq_self_iff.mp ht).2]

/-- Two texts that trimming leaves alone make up a third. -/
theorem trim_append {s t : Text} (hs : trim s = s) (ht : trim t = t)
    (hsne : s ≠ []) (htne : t ≠ []) : trim (s ++ t) = s ++ t := by
  have h := trim_append_append (m := []) hs ht hsne htne
  rwa [List.append_nil] at h

/-- Blanks before a text make no difference to what trimming leaves. -/
theorem trim_blanks_append {l : Text} (hl : ∀ c ∈ l, isBlank c = true) (t : Text) :
    trim (l ++ t) = trim t := by
  rw [trim, trimStart, List.dropWhile_append_of_pos hl]
  rfl

/-- Blanks after a text make no difference to what is left when its end is trimmed. -/
theorem trimEnd_append_blanks {r : Text} (hr : ∀ c ∈ r, isBlank c = true) (t : Text) :
    trimEnd (t ++ r) = trimEnd t := by
  have hrev : ∀ c ∈ r.reverse, isBlank c = true := fun c hc => hr c (List.mem_reverse.mp hc)
  rw [trimEnd, List.reverse_append, List.dropWhile_append_of_pos hrev]
  rfl

/-- Blanks after a text make no difference either. -/
theorem trim_append_blanks {r : Text} (hr : ∀ c ∈ r, isBlank c = true) (t : Text) :
    trim (t ++ r) = trim t := by
  rw [trim, trim, trimStart, trimStart, List.dropWhile_append]
  split
  · next hblank =>
    -- Nothing is left of `t` at its start, and nothing of the blanks after it.
    have hnone : r.dropWhile isBlank = [] := List.dropWhile_eq_nil_iff.mpr hr
    rw [List.isEmpty_iff.mp hblank, hnone]
  · exact trimEnd_append_blanks hr _

/-- Trimming the start first makes no difference to what trimming leaves. -/
@[simp] theorem trim_trimStart (t : Text) : trim (trimStart t) = trim t :=
  congrArg trimEnd (trimStart_eq_self fun _ hc => isBlank_of_mem_head?_trimStart hc)

/-- A text is what `trimEnd` leaves of it and the blanks that it ends with. -/
theorem trimEnd_append_takeWhile (t : Text) :
    trimEnd t ++ (t.reverse.takeWhile isBlank).reverse = t := by
  rw [trimEnd, ← List.reverse_append, List.takeWhile_append_dropWhile, List.reverse_reverse]

/-- Trimming the end first makes no difference either. -/
@[simp] theorem trim_trimEnd (t : Text) : trim (trimEnd t) = trim t := by
  have hblank : ∀ c ∈ (t.reverse.takeWhile isBlank).reverse, isBlank c = true :=
    fun c hc => List.mem_takeWhile_imp (List.mem_reverse.mp hc)
  rw [← trim_append_blanks hblank (trimEnd t), trimEnd_append_takeWhile]

/-- Before a text that trimming leaves alone, trimming works at the start only. -/
theorem trim_append_of_trimmed {t : Text} (ht : trim t = t) (hne : t ≠ []) (s : Text) :
    trim (s ++ t) = trimStart s ++ t := by
  obtain ⟨hhead, hlast⟩ := trim_eq_self_iff.mp ht
  have hstart : trimStart (s ++ t) = trimStart s ++ t := by
    rw [trimStart, List.dropWhile_append]
    split
    · next hblank =>
      rw [trimStart, List.isEmpty_iff.mp hblank]
      exact trimStart_eq_self hhead
    · rfl
  rw [trim, hstart]
  refine trimEnd_eq_self fun c hc => hlast c ?_
  have hd : t.getLast? = some (t.getLast hne) := List.getLast?_eq_some_getLast hne
  rw [List.getLast?_append, hd] at hc
  rw [hd]
  exact hc

/-- A joined text is not empty if the first of the texts is not. -/
theorem intercalate_ne_nil {sep : Char} {t : Text} {ts : List Text} (h : t ≠ []) :
    [sep].intercalate (t :: ts) ≠ [] := by
  cases ts with
  | nil => simpa [List.intercalate] using h
  | cons u us => simp [List.intercalate_cons_cons]

/-- Trimming leaves a joined text alone when it leaves alone each text that was joined. -/
theorem trim_intercalate {sep : Char} {ts : List Text} (h : ∀ t ∈ ts, t ≠ [] ∧ trim t = t) :
    trim ([sep].intercalate ts) = [sep].intercalate ts := by
  match ts with
  | [] => rfl
  | [t] => simpa [List.intercalate] using (h t List.mem_cons_self).2
  | t :: u :: us =>
    have hrest : ∀ v ∈ u :: us, v ≠ [] ∧ trim v = v :=
      fun v hv => h v (List.mem_cons_of_mem _ hv)
    obtain ⟨htne, ht⟩ := h t List.mem_cons_self
    rw [List.intercalate_cons_cons]
    exact trim_append_append ht (trim_intercalate hrest) htne
      (intercalate_ne_nil (hrest u List.mem_cons_self).1)

/-- A text is what trimming leaves of it, with blanks before and after. -/
theorem eq_blanks_trim_blanks (t : Text) :
    ∃ l r : Text, t = l ++ trim t ++ r ∧ (∀ c ∈ l, isBlank c = true) ∧
      ∀ c ∈ r, isBlank c = true := by
  let u := trimStart t
  refine ⟨t.takeWhile isBlank, (u.reverse.takeWhile isBlank).reverse, ?_, ?_, ?_⟩
  · have hu : trim t ++ (u.reverse.takeWhile isBlank).reverse = u := trimEnd_append_takeWhile u
    rw [List.append_assoc, hu]
    exact (List.takeWhile_append_dropWhile ..).symm
  · exact fun c hc => List.mem_takeWhile_imp hc
  · exact fun c hc => List.mem_takeWhile_imp (List.mem_reverse.mp hc)

/-- Nothing is left exactly when all the characters are blanks. -/
theorem trim_eq_nil_iff {t : Text} : trim t = [] ↔ ∀ c ∈ t, isBlank c = true := by
  constructor
  · intro h c hc
    obtain ⟨l, r, ht, hl, hr⟩ := eq_blanks_trim_blanks t
    rw [h, List.append_nil] at ht
    rw [ht] at hc
    rcases List.mem_append.mp hc with hc | hc
    · exact hl c hc
    · exact hr c hc
  · intro h
    -- A first character that is left would be a blank of the text and no blank.
    cases hh : (trim t).head? with
    | none => exact List.head?_eq_none_iff.mp hh
    | some c =>
      have hmem : c ∈ t := (trim_sublist t).subset (List.mem_of_mem_head? hh)
      exact absurd (h c hmem) (by simp [isBlank_of_mem_head?_trim hh])

end QueryMix.Text
