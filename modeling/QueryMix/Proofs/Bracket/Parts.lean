import QueryMix.Proofs.Bracket.Split

/-!
# `QueryMix.Proofs.Bracket.Parts`: what the parts of a text are

`splitTop` walks through a text once and keeps count of the open brackets. `PartsOf` says what it
finds without such a walk, and looks at each part on its own: joined, the parts are the text; no
part shows the separator at top level; and all parts but the last close what they open, as far as
the tolerant reading goes. There is one list like that for every text, whatever is wrong with its
brackets (`partsOf_iff`).

The second condition keeps the parts from being too long, the third keeps them from being too
short: a part that leaves a bracket open has to go on over the next separator. The last part has
no separator after it, and so it may leave open what it likes.
-/

set_option autoImplicit false

namespace QueryMix.Bracket

open Nesting

/-- The texts are the parts of `t` between its separators at top level:

- `joined`: with a separator between each two of them they are `t`;
- `uncut`: where a separator stands in one of them, a bracket is open that was opened in that
  part;
- `closed`: there is a last one, and none before it leaves a bracket open. (No texts at all would
  join to the empty text too.) -/
structure PartsOf (sep : Char) (t : Text) (parts : List Text) : Prop where
  joined : [sep].intercalate parts = t
  uncut : ∀ p ∈ parts, ∀ before after : Text, p = before ++ sep :: after →
    Nesting.after [] before ≠ []
  closed : ∃ front last, parts = front ++ [last] ∧ ∀ p ∈ front, Nesting.after [] p = []

variable {sep : Char} {t : Text} {parts : List Text}

section Plain

variable (hsep : roleOf sep = .plain)

include hsep

/-- What the splitter finds are the parts of the text. -/
theorem partsOf_splitTop (t : Text) : PartsOf sep t (splitTop sep t) where
  joined := intercalate_splitTop sep t
  uncut _ hp := (splitTop_eq_singleton_iff hsep).mp (splitTop_of_mem_splitTop hp)
  closed := exists_last_splitTop sep t

/-- The splitter finds the parts of the text, if they are given. -/
theorem PartsOf.eq_splitTop (h : PartsOf sep t parts) : parts = splitTop sep t := by
  obtain ⟨front, last, rfl, hfront⟩ := h.closed
  have huncut : ∀ p ∈ front ++ [last], splitTop sep p = [p] := fun p hp =>
    (splitTop_eq_singleton_iff hsep).mpr (h.uncut p hp)
  have hclosed : ∀ p ∈ front, after [] p = [] ∧ splitTop sep p = [p] := fun p hp =>
    ⟨hfront p hp, huncut p (List.mem_append_left _ hp)⟩
  rw [← h.joined, splitTop_intercalate_append hsep hclosed (huncut last (by simp))]

/-- A list holds the parts of the text exactly when it is what the splitter finds. -/
theorem partsOf_iff : PartsOf sep t parts ↔ parts = splitTop sep t := by
  constructor
  · exact PartsOf.eq_splitTop hsep
  · rintro rfl
    exact partsOf_splitTop hsep t

/-- For a separator that is no bracket there is one list of parts of every text, and it is found.
If the text is balanced, so is every part. -/
theorem splitTop_unique_parts (t : Text) :
    (∀ parts, PartsOf sep t parts ↔ parts = splitTop sep t) ∧
      (isBalanced t = true → ∀ p ∈ splitTop sep t, isBalanced p = true) :=
  ⟨fun _ => partsOf_iff hsep, (isBalanced_iff_forall_mem_splitTop hsep t).mp⟩

end Plain

/-- A closer without its opener closes nothing, and an opener without its closer keeps all that
follows together, also the wide separator. -/
theorem splitTop_unique_parts_malformed :
    roleOf '＋' = .plain ∧
      splitTop '＋' "a)＋[b)]＋(c＋]d".toList =
        ["a)".toList, "[b)]".toList, "(c＋]d".toList] ∧
      PartsOf '＋' "a)＋[b)]＋(c＋]d".toList ["a)".toList, "[b)]".toList, "(c＋]d".toList] ∧
      isBalanced "(a＋b)＋＋c".toList = true ∧
      ∀ p ∈ splitTop '＋' "(a＋b)＋＋c".toList, isBalanced p = true := by
  have hsep : roleOf '＋' = .plain := by decide
  have hparts : splitTop '＋' "a)＋[b)]＋(c＋]d".toList =
      ["a)".toList, "[b)]".toList, "(c＋]d".toList] := by decide
  exact ⟨hsep, hparts, ((splitTop_unique_parts hsep _).1 _).mpr hparts.symm, by decide,
    (splitTop_unique_parts hsep _).2 (by decide)⟩

end QueryMix.Bracket
