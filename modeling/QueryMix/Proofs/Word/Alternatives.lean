import QueryMix.Proofs.Bracket.Region
import QueryMix.Word

/-!
# `QueryMix.Proofs.Word.Alternatives`: the alternatives of a word

The alternatives of a text are those of its parts at top level, where a part that shows a `+`
once its round brackets are off contributes its own alternatives, an empty one nothing, and
any other one itself (`alternatives_eq`). Each alternative is a token: not empty, trimmed, not
enclosed in round brackets, and without a `+` at top level (`isToken_of_mem_alternatives`).

A text is balanced exactly when all its alternatives are
(`isBalanced_iff_forall_mem_alternatives`), and balanced tokens that were joined with `+` are
the alternatives of what they make up (`alternatives_intercalate`).

Round brackets and blanks around a text make no difference to its alternatives
(`alternatives_unwrap`, `alternatives_trim`), and texts with a `+` between them have theirs one
after the other (`alternatives_append_plus`).
-/

set_option autoImplicit false

namespace QueryMix.Word

open QueryMix.Bracket QueryMix.Nesting

/-- A text that can be an alternative of a word. -/
structure IsToken (t : Text) : Prop where
  ne_nil : t ≠ []
  trimmed : Text.trim t = t
  bare : enclosed? round t = none
  uncut : splitTop '+' t = [t]

/-- The `+` is no bracket. -/
theorem roleOf_plus : roleOf '+' = .plain := by decide

/-- The pieces of a text, part by part. -/
theorem pieces_eq (t : Text) :
    pieces t = (splitTop '+' t).flatMap fun part =>
      if containsTop '+' (unwrap part) = true then unwrap part :: pieces (unwrap part)
      else [unwrap part] := by
  rw [pieces]
  simp only [dite_eq_ite]
  rw [List.flatMap_subtype (g := fun part =>
    if containsTop '+' (unwrap part) = true then unwrap part :: pieces (unwrap part)
    else [unwrap part]) (fun _ _ => rfl), List.unattach_attach]

/-- The alternatives of a text, part by part. -/
theorem alternatives_eq (t : Text) :
    alternatives t = (splitTop '+' t).flatMap fun part =>
      if containsTop '+' (unwrap part) = true then alternatives (unwrap part)
      else if unwrap part = [] then [] else [unwrap part] := by
  rw [alternatives, pieces_eq, List.filter_flatMap]
  congr 1
  funext part
  by_cases htop : containsTop '+' (unwrap part) = true
  · rw [if_pos htop, if_pos htop, List.filter_cons_of_neg (by simp [isAlternative, htop])]
    rfl
  · rw [if_neg htop, if_neg htop]
    by_cases hnil : unwrap part = []
    · simp [hnil, isAlternative]
    · rw [if_neg hnil, List.filter_cons_of_pos (by simp [isAlternative, hnil, htop])]
      rfl

/-- Each alternative of a text comes from one of its parts. -/
theorem mem_alternatives {a t : Text} (h : a ∈ alternatives t) :
    ∃ part ∈ splitTop '+' t,
      (containsTop '+' (unwrap part) = true ∧ a ∈ alternatives (unwrap part)) ∨
        (containsTop '+' (unwrap part) = false ∧ unwrap part ≠ [] ∧ a = unwrap part) := by
  rw [alternatives_eq, List.mem_flatMap] at h
  obtain ⟨part, hpart, ha⟩ := h
  refine ⟨part, hpart, ?_⟩
  split at ha
  · next htop => exact .inl ⟨htop, ha⟩
  · next htop =>
    split at ha
    · cases ha
    · next hnil =>
      exact .inr ⟨Bool.eq_false_iff.mpr htop, hnil, List.mem_singleton.mp ha⟩

/-- Each alternative is a token. -/
theorem isToken_of_mem_alternatives {a t : Text} (h : a ∈ alternatives t) : IsToken a := by
  obtain ⟨part, hpart, ⟨htop, ha⟩ | ⟨htop, hnil, rfl⟩⟩ := mem_alternatives h
  · -- The part was split again, and it is shorter than the text.
    have := length_lt_of_containsTop_unwrap hpart htop
    exact isToken_of_mem_alternatives ha
  · exact ⟨hnil, trim_unwrap part, enclosed?_unwrap part, containsTop_eq_false_iff.mp htop⟩
termination_by t.length

/-- An alternative leaves characters out and keeps the order of the others. -/
theorem sublist_of_mem_alternatives {a t : Text} (h : a ∈ alternatives t) : a.Sublist t := by
  obtain ⟨part, hpart, ⟨htop, ha⟩ | ⟨-, -, rfl⟩⟩ := mem_alternatives h
  · have := length_lt_of_containsTop_unwrap hpart htop
    exact (sublist_of_mem_alternatives ha).trans
      ((unwrap_sublist part).trans (sublist_of_mem_splitTop hpart))
  · exact (unwrap_sublist part).trans (sublist_of_mem_splitTop hpart)
termination_by t.length

/-- A text is balanced exactly when all its alternatives are. -/
theorem isBalanced_iff_forall_mem_alternatives (t : Text) :
    isBalanced t = true ↔ ∀ a ∈ alternatives t, isBalanced a = true := by
  rw [isBalanced_iff_forall_mem_splitTop roleOf_plus, alternatives_eq]
  simp only [List.mem_flatMap, forall_exists_index, and_imp]
  rw [forall_comm]
  refine forall_congr' fun part => ?_
  rw [forall_comm]
  refine forall_congr' fun hpart => ?_
  -- A part is as balanced as what is left of it, and that is what contributes alternatives.
  rw [← isBalanced_unwrap part]
  by_cases htop : containsTop '+' (unwrap part) = true
  · have := length_lt_of_containsTop_unwrap hpart htop
    rw [if_pos htop]
    exact isBalanced_iff_forall_mem_alternatives (unwrap part)
  · rw [if_neg htop]
    by_cases hnil : unwrap part = []
    · simp [hnil]
    · simp [hnil]
termination_by t.length

/-- A text is balanced if it has no alternatives but those of a balanced text. -/
theorem isBalanced_of_alternatives_subset {s t : Text} (ht : isBalanced t = true)
    (h : ∀ a ∈ alternatives s, a ∈ alternatives t) : isBalanced s = true := by
  rw [isBalanced_iff_forall_mem_alternatives]
  intro a ha
  exact (isBalanced_iff_forall_mem_alternatives t).mp ht a (h a ha)

/-- A text of blanks has no alternative. -/
theorem alternatives_of_blanks {t : Text} (h : ∀ c ∈ t, Text.isBlank c = true) :
    alternatives t = [] := by
  have hnot : '+' ∉ t := fun hmem => absurd (h '+' hmem) (by decide)
  have hunwrap : unwrap t = [] := by
    have htrim : Text.trim t = [] := Text.trim_eq_nil_iff.mpr h
    rw [unwrap_of_none (by rw [htrim]; rfl), htrim]
  rw [alternatives_eq, splitTop, splitFrom_of_not_mem hnot, List.flatMap_singleton, hunwrap]
  rfl

/-- The empty text has no alternative. -/
@[simp] theorem alternatives_nil : alternatives [] = [] := alternatives_of_blanks (by simp)

/-! ### Texts with the same alternatives -/

/-- Blanks around a text make no difference to its alternatives. -/
theorem alternatives_trim (t : Text) : alternatives (Text.trim t) = alternatives t := by
  -- What a part contributes depends on the trimmed part only.
  have hparts (s : Text) : alternatives s = ((splitTop '+' s).map Text.trim).flatMap fun part =>
      if containsTop '+' (unwrap part) = true then alternatives (unwrap part)
      else if unwrap part = [] then [] else [unwrap part] := by
    rw [alternatives_eq, List.flatMap_map]
    simp only [unwrap_trim]
  rw [hparts, map_trim_splitTop_trim roleOf_plus (by decide), ← hparts]

/-- A text without a `+` at top level has the alternatives of what is left when its round
brackets are off. -/
theorem alternatives_unwrap_of_uncut {t : Text} (h : splitTop '+' t = [t]) :
    alternatives (unwrap t) = alternatives t := by
  rw [alternatives_eq t, h, List.flatMap_singleton]
  by_cases htop : containsTop '+' (unwrap t) = true
  · rw [if_pos htop]
  · -- What is left is a single part as well, and has no brackets to lose.
    have hleft : splitTop '+' (unwrap t) = [unwrap t] :=
      containsTop_eq_false_iff.mp (Bool.eq_false_iff.mpr htop)
    have hagain : unwrap (unwrap t) = unwrap t :=
      unwrap_eq_self (trim_unwrap t) (enclosed?_unwrap t)
    rw [alternatives_eq, hleft, List.flatMap_singleton, hagain, if_neg htop, if_neg htop]

/-- Round brackets around a text make no difference to its alternatives. -/
@[simp] theorem alternatives_unwrap (t : Text) : alternatives (unwrap t) = alternatives t := by
  cases htop : containsTop '+' t with
  | false => exact alternatives_unwrap_of_uncut (containsTop_eq_false_iff.mp htop)
  | true =>
    -- A text with a `+` at top level is not enclosed, so it is only trimmed.
    have htrim : containsTop '+' (Text.trim t) = true := by
      rw [containsTop_trim (by decide), htop]
    rw [unwrap_of_none (enclosed?_eq_none_of_containsTop htrim round), alternatives_trim]

/-- A text in round brackets has the alternatives of the text. -/
theorem alternatives_enclosed {inside : Text} (h : isBalanced inside = true) :
    alternatives ('(' :: (inside ++ [')'])) = alternatives inside := by
  rw [← alternatives_unwrap, unwrap_enclosed h, alternatives_unwrap]

/-- Two texts with a `+` between them have the alternatives of the first and then those of the
second, if the first ends at top level. -/
theorem alternatives_append_plus {s : Text} (h : after [] s = []) (t : Text) :
    alternatives (s ++ '+' :: t) = alternatives s ++ alternatives t := by
  rw [alternatives_eq, splitTop_append_sep roleOf_plus h, List.flatMap_append,
    ← alternatives_eq, ← alternatives_eq]

/-- Balanced tokens that were joined are recovered. -/
theorem alternatives_intercalate {ts : List Text}
    (h : ∀ t ∈ ts, IsToken t ∧ isBalanced t = true) :
    alternatives (['+'].intercalate ts) = ts := by
  by_cases hne : ts = []
  · rw [hne]
    exact alternatives_nil
  · rw [alternatives_eq, splitTop_intercalate roleOf_plus hne
      fun t ht => ⟨after_of_isBalanced (h t ht).2 [], (h t ht).1.uncut⟩]
    calc ts.flatMap _ = ts.flatMap fun t => [t] := by
          rw [List.flatMap_def, List.flatMap_def]
          refine congrArg List.flatten (List.map_congr_left fun t ht => ?_)
          obtain ⟨htok, -⟩ := h t ht
          rw [unwrap_eq_self htok.trimmed htok.bare,
            if_neg (by simp [containsTop_eq_false_iff.mpr htok.uncut]), if_neg htok.ne_nil]
      _ = ts := List.flatMap_singleton' ts

end QueryMix.Word
