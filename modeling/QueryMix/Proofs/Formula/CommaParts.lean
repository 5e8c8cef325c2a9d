import QueryMix.Formula.Decode
import QueryMix.Proofs.Bracket.Split
import QueryMix.Proofs.Formula.Count

/-!
# `QueryMix.Proofs.Formula.CommaParts`: the parts of a formula between its commas

A comma after a part that ends at top level separates (`commaParts_append_comma`), so the parts
of balanced texts that were joined with commas are the parts of these texts
(`commaParts_intercalate`). Blanks around a text do not change its parts (`commaParts_trim`).

A text that was joined from slots falls into as many parts as there are slots exactly when no
slot shows a comma at top level (`commaParts_intercalate_eq_iff`). All that is proved about
reading formulas back rests on this.
-/

set_option autoImplicit false

namespace QueryMix.Formula

open QueryMix.Bracket QueryMix.Nesting

/-- A text that can stand in a slot, between the commas of a formula. -/
structure IsSlot (t : Text) : Prop where
  ne_nil : t ≠ []
  trimmed : Text.trim t = t
  balanced : isBalanced t = true

/-- The comma is no bracket. -/
theorem roleOf_comma : roleOf ',' = .plain := by decide

/-- A written count can stand in a slot. -/
theorem isSlot_count {d : Text} (h : Count.isDigits d = true) : IsSlot (d ++ ['N']) where
  ne_nil := by simp
  trimmed := Count.trim_append_N h
  balanced := Count.isBalanced_of_digits? (Count.digits?_append_N h)

/-- Slots that were joined with commas make up a slot. -/
theorem isSlot_intercalate {ts : List Text} (hne : ts ≠ []) (h : ∀ t ∈ ts, IsSlot t) :
    IsSlot ([','].intercalate ts) where
  ne_nil := by
    obtain ⟨t, us, rfl⟩ := List.exists_cons_of_ne_nil hne
    exact Text.intercalate_ne_nil (h t List.mem_cons_self).ne_nil
  trimmed := Text.trim_intercalate fun t ht => ⟨(h t ht).ne_nil, (h t ht).trimmed⟩
  balanced := isBalanced_intercalate roleOf_comma fun t ht => (h t ht).balanced

/-- A written count shows no comma. -/
theorem containsTop_comma_count {d : Text} (h : Count.isDigits d = true) :
    containsTop ',' (d ++ ['N']) = false :=
  containsTop_eq_false_iff.mpr
    (splitFrom_of_not_mem (Count.comma_not_mem_of_digits? (Count.digits?_append_N h)) [])

/-- There are as many comma parts as the splitter finds; trimming drops none. -/
theorem length_commaParts (t : Text) : (commaParts t).length = (splitTop ',' t).length :=
  List.length_map _

/-- A text has one comma part at least. -/
theorem commaParts_ne_nil (t : Text) : commaParts t ≠ [] := by
  rw [commaParts, ne_eq, List.map_eq_nil_iff]
  exact splitFrom_ne_nil ',' [] t

/-- A text that shows no comma is its only part, trimmed. -/
theorem commaParts_of_uncut {t : Text} (h : containsTop ',' t = false) :
    commaParts t = [Text.trim t] := by
  rw [commaParts, containsTop_eq_false_iff.mp h]
  rfl

/-- A text is a single part exactly when it shows no comma at top level. -/
theorem length_commaParts_eq_one_iff {t : Text} :
    (commaParts t).length = 1 ↔ containsTop ',' t = false := by
  constructor
  · intro h
    rw [length_commaParts] at h
    rw [containsTop, h]
    rfl
  · intro h
    rw [commaParts_of_uncut h]
    rfl

/-- A comma after a part that ends at top level separates. -/
theorem commaParts_append_comma {s : Text} (h : after [] s = []) (t : Text) :
    commaParts (s ++ ',' :: t) = commaParts s ++ commaParts t := by
  rw [commaParts, splitTop_append_sep roleOf_comma h, List.map_append]
  rfl

/-- The parts of a text are those of the trimmed text. -/
theorem commaParts_trim (t : Text) : commaParts (Text.trim t) = commaParts t :=
  map_trim_splitTop_trim roleOf_comma (by decide) t

/-- The parts of a balanced text are balanced. -/
theorem isBalanced_of_mem_commaParts {t p : Text} (h : isBalanced t = true)
    (hp : p ∈ commaParts t) : isBalanced p = true := by
  obtain ⟨part, hpart, rfl⟩ := List.mem_map.mp hp
  rw [isBalanced_trim]
  exact (isBalanced_iff_forall_mem_splitTop roleOf_comma t).mp h part hpart

/-- The parts of balanced texts that were joined with commas are the parts of the texts. -/
theorem commaParts_intercalate {ts : List Text} (hne : ts ≠ [])
    (h : ∀ t ∈ ts, isBalanced t = true) :
    commaParts ([','].intercalate ts) = ts.flatMap commaParts := by
  match ts, hne with
  | [t], _ => simp [List.intercalate]
  | t :: u :: us, _ =>
    have ih : commaParts ([','].intercalate (u :: us)) = (u :: us).flatMap commaParts :=
      commaParts_intercalate (List.cons_ne_nil u us)
        fun v hv => h v (List.mem_cons_of_mem _ hv)
    have hafter : after [] t = [] := after_of_isBalanced (h t List.mem_cons_self) []
    rw [List.intercalate_cons_cons, List.append_assoc, List.singleton_append,
      commaParts_append_comma hafter, ih]
    rfl

/-- Together, texts have at least as many comma parts as there are texts. -/
theorem length_le_flatMap_commaParts (ts : List Text) :
    ts.length ≤ (ts.flatMap commaParts).length := by
  induction ts with
  | nil => exact Nat.le_refl 0
  | cons t ts ih =>
    have hpos : 0 < (commaParts t).length := List.length_pos_iff.mpr (commaParts_ne_nil t)
    rw [List.flatMap_cons, List.length_append, List.length_cons]
    omega

/-- Texts fall into as many parts as there are texts only if no text shows a comma. -/
theorem uncut_of_length_flatMap {ts : List Text}
    (h : (ts.flatMap commaParts).length = ts.length) :
    ∀ t ∈ ts, containsTop ',' t = false := by
  induction ts with
  | nil => simp
  | cons t ts ih =>
    -- Each text has a part at least, so none of them can have two.
    have hpos : 0 < (commaParts t).length := List.length_pos_iff.mpr (commaParts_ne_nil t)
    have hle := length_le_flatMap_commaParts ts
    rw [List.flatMap_cons, List.length_append, List.length_cons] at h
    have hone : (commaParts t).length = 1 := by omega
    have hrest : (ts.flatMap commaParts).length = ts.length := by omega
    exact List.forall_mem_cons.mpr ⟨length_commaParts_eq_one_iff.mp hone, ih hrest⟩

/-- Trimmed texts that show no comma are all the comma parts that they have. -/
theorem flatMap_commaParts_of_uncut {ts : List Text}
    (h : ∀ t ∈ ts, containsTop ',' t = false ∧ Text.trim t = t) :
    ts.flatMap commaParts = ts := by
  induction ts with
  | nil => rfl
  | cons t ts ih =>
    obtain ⟨huncut, htrim⟩ := h t List.mem_cons_self
    rw [List.flatMap_cons, commaParts_of_uncut huncut, htrim,
      ih fun u hu => h u (List.mem_cons_of_mem _ hu)]
    rfl

/-- Slots that were joined with commas fall into as many parts as there are slots exactly when
no slot shows a comma at top level, and then the parts are the slots. -/
theorem commaParts_intercalate_eq_iff {ts xs : List Text} (hne : ts ≠ [])
    (h : ∀ t ∈ ts, IsSlot t) (hlen : xs.length = ts.length) :
    commaParts ([','].intercalate ts) = xs ↔
      (∀ t ∈ ts, containsTop ',' t = false) ∧ xs = ts := by
  rw [commaParts_intercalate hne fun t ht => (h t ht).balanced]
  constructor
  · intro hxs
    have huncut := uncut_of_length_flatMap ((congrArg List.length hxs).trans hlen)
    refine ⟨huncut, hxs.symm.trans ?_⟩
    exact flatMap_commaParts_of_uncut fun t ht => ⟨huncut t ht, (h t ht).trimmed⟩
  · rintro ⟨huncut, rfl⟩
    exact flatMap_commaParts_of_uncut fun t ht => ⟨huncut t ht, (h t ht).trimmed⟩

/-- Slots that were joined have as many parts as there are slots, or more. -/
theorem length_le_commaParts_intercalate {ts : List Text} (hne : ts ≠ [])
    (h : ∀ t ∈ ts, IsSlot t) : ts.length ≤ (commaParts ([','].intercalate ts)).length := by
  rw [commaParts_intercalate hne fun t ht => (h t ht).balanced]
  exact length_le_flatMap_commaParts ts

end QueryMix.Formula
