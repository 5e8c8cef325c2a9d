import Mathlib.Data.List.Destutter
import Mathlib.Data.List.Perm.Basic
import QueryMix.Text.Order

/-!
# `QueryMix.Proofs.Text.Order`: sorted sets of tokens

The order of tokens is total, and only equal tokens compare as equal
(`longestFirst_eq_iff`). So `sortedSet` lists the members of its argument
(`mem_sortedSet`) in strictly ascending order (`pairwise_sortedSet`), and there is only one
such list: lists with the same members have the same sorted set (`sortedSet_congr`).

Sorting a list and then dropping every text that repeats the one before it gives that list too
(`destutter_sorted`). Repeats that do not stand side by side would be kept, but sorting puts
them side by side, because they compare as equal and nothing else does.
-/

set_option autoImplicit false

namespace QueryMix.Text

instance : Std.TransCmp longestFirst :=
  inferInstanceAs (Std.TransCmp (compareLex
    (fun s t : Text => compareOn List.length t s) (compare : Text → Text → Ordering)))

instance : Std.LawfulEqCmp longestFirst where
  eq_of_compare {s t} h := by
    rw [longestFirst, Ordering.then_eq_eq] at h
    exact Std.LawfulEqCmp.eq_of_compare h.2

/-- Only equal tokens compare as equal. -/
theorem longestFirst_eq_iff {s t : Text} : longestFirst s t = .eq ↔ s = t :=
  Std.LawfulEqCmp.compare_eq_iff_eq

/-- The members after an insertion. -/
theorem mem_insertSorted {u t : Text} {us : List Text} :
    u ∈ insertSorted t us ↔ u = t ∨ u ∈ us := by
  induction us with
  | nil => simp [insertSorted]
  | cons v us ih =>
    rw [insertSorted]
    split
    · simp
    · next h =>
      rw [longestFirst_eq_iff.mp h]
      simp
    · rw [List.mem_cons, ih, List.mem_cons]
      tauto

/-- A sorted set has the members of the list that it was made from. -/
@[simp] theorem mem_sortedSet {u : Text} {ts : List Text} : u ∈ sortedSet ts ↔ u ∈ ts := by
  induction ts with
  | nil => simp [sortedSet]
  | cons t ts ih =>
    rw [show sortedSet (t :: ts) = insertSorted t (sortedSet ts) from rfl, mem_insertSorted, ih,
      List.mem_cons]

/-- An insertion keeps a list strictly ascending. -/
theorem pairwise_insertSorted (t : Text) {us : List Text}
    (h : us.Pairwise (longestFirst · · = .lt)) :
    (insertSorted t us).Pairwise (longestFirst · · = .lt) := by
  induction us with
  | nil => simp [insertSorted]
  | cons v us ih =>
    obtain ⟨hv, hus⟩ := List.pairwise_cons.mp h
    rw [insertSorted]
    -- The text goes to the front, is there already, or goes further back.
    split
    · next hlt =>
      refine List.pairwise_cons.mpr ⟨fun u hu => ?_, h⟩
      rcases List.mem_cons.mp hu with rfl | hu
      · exact hlt
      · exact Std.TransCmp.lt_trans hlt (hv u hu)
    · exact h
    · next hgt =>
      refine List.pairwise_cons.mpr ⟨fun u hu => ?_, ih hus⟩
      rcases mem_insertSorted.mp hu with rfl | hu
      · exact Std.OrientedCmp.gt_iff_lt.mp hgt
      · exact hv u hu

/-- A sorted set is strictly ascending. -/
theorem pairwise_sortedSet (ts : List Text) :
    (sortedSet ts).Pairwise (longestFirst · · = .lt) := by
  induction ts with
  | nil => exact List.Pairwise.nil
  | cons t ts ih => exact pairwise_insertSorted t ih

/-- A strictly ascending list repeats nothing. -/
theorem nodup_of_pairwise {ts : List Text} (h : ts.Pairwise (longestFirst · · = .lt)) :
    ts.Nodup :=
  h.imp fun {s t} hlt heq => by
    rw [heq, longestFirst_eq_iff.mpr rfl] at hlt
    cases hlt

/-- Strictly ascending lists with the same members are equal. -/
theorem eq_of_pairwise_of_mem_iff {ts us : List Text}
    (hts : ts.Pairwise (longestFirst · · = .lt)) (hus : us.Pairwise (longestFirst · · = .lt))
    (h : ∀ u, u ∈ ts ↔ u ∈ us) : ts = us := by
  have hperm : ts.Perm us :=
    (List.perm_ext_iff_of_nodup (nodup_of_pairwise hts) (nodup_of_pairwise hus)).mpr h
  refine hperm.eq_of_pairwise (fun s t _ _ hst hts => ?_) hts hus
  -- No two tokens stand each before the other.
  rw [Std.OrientedCmp.gt_iff_lt.mpr hst] at hts
  cases hts

/-- Lists with the same members have the same sorted set. -/
theorem sortedSet_congr {ts us : List Text} (h : ∀ u, u ∈ ts ↔ u ∈ us) :
    sortedSet ts = sortedSet us :=
  eq_of_pairwise_of_mem_iff (pairwise_sortedSet ts) (pairwise_sortedSet us)
    fun u => by rw [mem_sortedSet, mem_sortedSet, h]

/-! ### Sorting, then dropping adjacent repeats -/

/-- The texts of a list, sorted longest first, repeats included. -/
def sorted (ts : List Text) : List Text := ts.mergeSort fun s t => (longestFirst s t).isLE

/-- Sorting keeps the members. -/
@[simp] theorem mem_sorted {u : Text} {ts : List Text} : u ∈ sorted ts ↔ u ∈ ts :=
  List.mem_mergeSort

/-- In a sorted list, each text is equal to the later ones or comes before them. -/
theorem pairwise_sorted (ts : List Text) :
    (sorted ts).Pairwise fun s t => (longestFirst s t).isLE = true := by
  refine List.pairwise_mergeSort (fun _ _ _ => Std.TransCmp.isLE_trans) (fun s t => ?_) ts
  -- Of two texts, one does not come after the other.
  have hswap : longestFirst t s = (longestFirst s t).swap := Std.OrientedCmp.eq_swap
  rw [hswap]
  cases longestFirst s t <;> rfl

/-- Dropping adjacent repeats keeps the members. -/
theorem mem_destutter' {u t : Text} {ts : List Text} :
    u ∈ ts.destutter' (· ≠ ·) t ↔ u = t ∨ u ∈ ts := by
  induction ts generalizing t with
  | nil => simp
  | cons v vs ih =>
    by_cases h : t = v
    · rw [List.destutter'_cons_neg _ (not_not_intro h), ih, List.mem_cons, h]
      tauto
    · rw [List.destutter'_cons_pos _ h, List.mem_cons, ih, List.mem_cons]

/-- Dropping adjacent repeats makes a sorted list strictly ascending. -/
theorem pairwise_destutter' {t : Text} {ts : List Text}
    (h : (t :: ts).Pairwise fun s t => (longestFirst s t).isLE = true) :
    (ts.destutter' (· ≠ ·) t).Pairwise (longestFirst · · = .lt) := by
  induction ts generalizing t with
  | nil => exact List.pairwise_singleton ..
  | cons v vs ih =>
    obtain ⟨ht, hvs⟩ := List.pairwise_cons.mp h
    by_cases heq : t = v
    · rw [List.destutter'_cons_neg _ (not_not_intro heq), heq]
      exact ih hvs
    · -- The texts after `t` do not come before `v`, and `t` does.
      have hlt : longestFirst t v = .lt :=
        (Ordering.isLE_iff_eq_lt_or_eq_eq.mp (ht v List.mem_cons_self)).resolve_right
          (mt longestFirst_eq_iff.mp heq)
      rw [List.destutter'_cons_pos _ heq]
      refine List.pairwise_cons.mpr ⟨fun u hu => ?_, ih hvs⟩
      rcases mem_destutter'.mp hu with rfl | hu
      · exact hlt
      · exact Std.TransCmp.lt_of_lt_of_isLE hlt ((List.pairwise_cons.mp hvs).1 u hu)

/-- Sorting and then dropping adjacent repeats lists each text once. -/
theorem destutter_sorted (ts : List Text) : (sorted ts).destutter (· ≠ ·) = sortedSet ts := by
  have hsorted := pairwise_sorted ts
  have hmem (u : Text) : u ∈ sorted ts ↔ u ∈ sortedSet ts := by rw [mem_sorted, mem_sortedSet]
  match hts : sorted ts with
  | [] =>
    rw [hts] at hmem
    exact (List.eq_nil_iff_forall_not_mem.mpr fun u hu => List.not_mem_nil ((hmem u).mpr hu)).symm
  | t :: us =>
    rw [hts] at hsorted hmem
    refine eq_of_pairwise_of_mem_iff (pairwise_destutter' hsorted) (pairwise_sortedSet ts)
      fun u => ?_
    rw [List.destutter_cons', mem_destutter', ← hmem, List.mem_cons]

end QueryMix.Text
