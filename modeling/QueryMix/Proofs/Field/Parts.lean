import QueryMix.Proofs.Field

/-!
# `QueryMix.Proofs.Field.Parts`: the cut after a suffix is one of the cuts at `+`

`splitTop` collects all parts of a text between the `+` at top level. `splitAfter?` looks for one of
these `+` only and stops there, and what it asks of it is that all that precedes it, from the start
of the text, has the suffix. The two agree (`splitAfter?_eq_parts`): the cut is made after the first
part that has the suffix, the last part not counted, since no `+` follows that one.

A part may be looked at alone because a suffix holds no `+`. So the suffix before a `+` cannot begin
in an earlier part (`hasEnding_append_plus`), and a part without it is passed over as a whole
(`splitAfter?_part`).
-/

set_option autoImplicit false

namespace QueryMix.Field

open QueryMix.Bracket QueryMix.Nesting

variable (field : Field)

/-- A suffix does not begin before a `+`. -/
theorem hasEnding_append_plus (s t : Text) :
    Text.hasEnding (s ++ '+' :: t) field.suffix = Text.hasEnding t field.suffix :=
  Text.hasEnding_append_cons (fun _ => plus_not_mem_of_foldCase) s t

/-- What was seen before a `+` makes no difference to where the text after it is cut. -/
theorem splitAfterFrom_seen_plus (nest : Nesting) (seen s t : Text) :
    splitAfterFrom field nest (seen ++ '+' :: s.reverse) t =
      (splitAfterFrom field nest seen t).map fun (l, r) => (s ++ '+' :: l, r) := by
  -- At every place the test for the suffix gives the same answer with `s` in front and without.
  induction t generalizing nest seen with
  | nil => rfl
  | cons c t ih =>
    have hseen : (seen ++ '+' :: s.reverse).reverse = s ++ '+' :: seen.reverse := by simp
    rw [splitAfterFrom, splitAfterFrom, hseen, hasEnding_append_plus]
    split
    · rfl
    · exact ih (nest.step c) (c :: seen)

/-- A text without a `+` at top level is passed over. -/
theorem splitAfterFrom_append_of_uncut {nest : Nesting} {s : Text}
    (h : splitFrom '+' nest s = [s]) (seen t : Text) :
    splitAfterFrom field nest seen (s ++ t) =
      splitAfterFrom field (after nest s) (s.reverse ++ seen) t := by
  induction s generalizing nest seen with
  | nil => rfl
  | cons c s ih =>
    obtain ⟨hc, hs⟩ := uncut_cons h
    -- A `+` at top level would be a cut, with the suffix before it or without.
    have htest :
        ¬(c == '+' && nest.isEmpty && Text.hasEnding seen.reverse field.suffix) = true := by
      intro htest
      rw [Bool.and_eq_true, Bool.and_eq_true, beq_iff_eq, List.isEmpty_iff] at htest
      obtain ⟨⟨rfl, hnest⟩, -⟩ := htest
      exact hc ⟨rfl, hnest, rfl⟩
    rw [List.cons_append, splitAfterFrom, if_neg htest, ih hs]
    simp

/-- The text is cut after its first part, if that has the suffix, and where the text after that part
is cut, if it does not. -/
theorem splitAfter?_part {s : Text} (hs : splitTop '+' s = [s]) (hafter : after [] s = [])
    (r : Text) :
    field.splitAfter? (s ++ '+' :: r) =
      if Text.hasEnding s field.suffix then some (s, r)
      else (field.splitAfter? r).map fun (l, r) => (s ++ '+' :: l, r) := by
  have hseen := splitAfterFrom_seen_plus field [] [] s r
  rw [splitAfter?, splitAfterFrom_append_of_uncut field hs, hafter, List.append_nil,
    splitAfterFrom, List.reverse_reverse]
  simp only [beq_self_eq_true, List.isEmpty_nil, Bool.true_and]
  split
  · rfl
  · exact hseen

/-- The text is cut after the first of its parts between `+` that has the suffix, the last part
excepted. The parts on the two sides are joined again. If no part but the last has the suffix,
nothing is found. -/
theorem splitAfter?_eq_parts (t : Text) :
    field.splitAfter? t =
      ((splitTop '+' t).dropLast.findIdx? (Text.hasEnding · field.suffix)).map fun k =>
        (['+'].intercalate ((splitTop '+' t).take (k + 1)),
          ['+'].intercalate ((splitTop '+' t).drop (k + 1))) := by
  rcases splitTop_cases '+' t with huncut | ⟨s, r, rfl, hparts, hafter, hs⟩
  · have hnone : field.splitAfter? t = none := by
      have hpass := splitAfterFrom_append_of_uncut field huncut [] []
      rw [List.append_nil] at hpass
      exact hpass
    rw [huncut, hnone]
    rfl
  · -- The first part is `s`, and the parts of `r`, which is shorter, are the others.
    have hlt : r.length < (s ++ '+' :: r).length := by
      rw [List.length_append, List.length_cons]
      omega
    have hne : splitTop '+' r ≠ [] := splitFrom_ne_nil '+' [] r
    rw [splitAfter?_part field hs hafter, hparts, List.dropLast_cons_of_ne_nil hne,
      List.findIdx?_cons]
    split
    · rw [Option.map_some, List.take_succ_cons, List.take_zero, List.intercalate_singleton,
        List.drop_succ_cons, List.drop_zero, intercalate_splitTop]
    · -- The parts of `r` count from 0, those of the text from 1.
      rw [splitAfter?_eq_parts r, Option.map_map, Option.map_map]
      refine congrArg (Option.map · _) (funext fun k => ?_)
      have htake : (splitTop '+' r).take (k + 1) ≠ [] := by
        simp [hne]
      simp only [Function.comp_apply, List.take_succ_cons, List.drop_succ_cons,
        List.intercalate_cons_of_ne_nil htake, List.append_assoc, List.singleton_append]
termination_by t.length

/-- A closer without its opener changes nothing, and a `+` inside brackets is none of the cuts. -/
example : fullText.splitAfter? "a)+[b/TX+c]/tx+d/TX+e".toList =
    some ("a)+[b/TX+c]/tx".toList, "d/TX+e".toList) := by decide

end QueryMix.Field
