import Mathlib
import QueryMix.Proofs.Word.NormalForm

/-!
# `QueryMix.Proofs.Word.Canonical`: the normal form of a set of alternatives

`IsNormalForm` says what a normal form looks like, in terms of the tokens it shows and of the
alternatives it is made for. The tokens ascend strictly in the order of tokens, so none is
repeated. They are the alternatives, with the full-width form of every ASCII alphanumeric one
where that is asked for. They are laid out as a word by `LaidOut`: none as the empty text, one
as it is, several in round brackets with `+` between them.

There is one such text for a set of alternatives (`IsNormalForm.unique`), and the tokens can be
read off it again (`IsNormalForm.splitTop_unwrap`). For a word with balanced brackets it is what
`normalize` gives (`isNormalForm_normalize`). Hence two such words have the same normal form
exactly when they have the same alternatives (`normalize_eq_normalize_iff`).
-/

set_option autoImplicit false

namespace QueryMix.Word

open QueryMix.Bracket QueryMix.Nesting

/-- How tokens are laid out as a word. -/
inductive LaidOut : List Text → Text → Prop where
  /-- Without tokens the word is empty. -/
  | empty : LaidOut [] []
  /-- A single token stands alone. -/
  | alone (token : Text) : LaidOut [token] token
  /-- Several tokens stand in round brackets, with `+` between them. -/
  | group {ts : List Text} (several : 2 ≤ ts.length) :
      LaidOut ts ('(' :: (['+'].intercalate ts ++ [')']))

/-- Tokens are laid out in one way. -/
theorem laidOut_iff {ts : List Text} {word : Text} : LaidOut ts word ↔ word = join ts := by
  constructor
  · intro h
    cases h with
    | empty => rfl
    | alone token => rfl
    | group several => exact (join_of_two_le several).symm
  · rintro rfl
    match ts with
    | [] => exact .empty
    | [token] => exact .alone token
    | t :: u :: us =>
      have several : 2 ≤ (t :: u :: us).length := by simp
      rw [join_of_two_le several]
      exact .group several

/-- The text `word` shows the tokens `ts`, and these are the normal form of a word with the
alternatives `alts`:

- `laidOut`: the word is the tokens, laid out;
- `ascending`: each token stands before the later ones in the order of tokens;
- `token`: each of them is a balanced token;
- `mem_iff`: they are the alternatives and, if variants are asked for, the full-width forms of
  the ASCII alphanumeric ones. -/
structure IsNormalForm (variants : Bool) (alts ts : List Text) (word : Text) : Prop where
  laidOut : LaidOut ts word
  ascending : ts.Pairwise (Text.longestFirst · · = .lt)
  token : ∀ t ∈ ts, IsToken t ∧ isBalanced t = true
  mem_iff : ∀ u, u ∈ ts ↔ u ∈ alts ∨
    (variants = true ∧ ∃ a ∈ alts, Text.isAlphanumeric a = true ∧ u = Text.toFullWidth a)

namespace IsNormalForm

variable {variants : Bool} {alts ts : List Text} {word : Text}

/-- The word of a normal form is its tokens, joined. -/
theorem eq_join (h : IsNormalForm variants alts ts word) : word = join ts :=
  laidOut_iff.mp h.laidOut

/-- The word of a normal form is balanced. -/
theorem isBalanced_word (h : IsNormalForm variants alts ts word) : isBalanced word = true := by
  rw [h.eq_join]
  exact isBalanced_join h.token

/-- The word is empty exactly when there is no alternative. -/
theorem eq_nil_iff (h : IsNormalForm variants alts ts word) : word = [] ↔ alts = [] := by
  constructor
  · intro hword
    have hnone : ts = [] := by
      have hlaid := h.laidOut
      rw [hword] at hlaid
      cases hlaid with
      | empty => rfl
      | alone => exact absurd rfl (h.token [] List.mem_cons_self).1.ne_nil
    -- An alternative would be a token.
    refine List.eq_nil_iff_forall_not_mem.mpr fun a ha => ?_
    have hmem : a ∈ ts := (h.mem_iff a).mpr (.inl ha)
    rw [hnone] at hmem
    cases hmem
  · intro halts
    have hnone : ts = [] := by
      refine List.eq_nil_iff_forall_not_mem.mpr fun u hu => ?_
      rcases (h.mem_iff u).mp hu with ha | ⟨-, a, ha, -⟩
      · rw [halts] at ha
        cases ha
      · rw [halts] at ha
        cases ha
    rw [h.eq_join, hnone]
    rfl

/-- The tokens of a word that is not empty are its parts when its round brackets are off. -/
theorem splitTop_unwrap (h : IsNormalForm variants alts ts word) (hne : word ≠ []) :
    splitTop '+' (unwrap word) = ts := by
  have hts : ts ≠ [] := by
    rintro rfl
    exact hne h.eq_join
  rw [h.eq_join, unwrap_join h.token]
  exact splitTop_intercalate roleOf_plus hts fun t ht =>
    ⟨after_of_isBalanced (h.token t ht).2 [], (h.token t ht).1.uncut⟩

/-- A set of alternatives has one normal form. -/
theorem unique {ts' : List Text} {word' : Text} (h : IsNormalForm variants alts ts word)
    (h' : IsNormalForm variants alts ts' word') : ts' = ts ∧ word' = word := by
  have hts : ts' = ts := Text.eq_of_pairwise_of_mem_iff h'.ascending h.ascending
    fun u => (h'.mem_iff u).trans (h.mem_iff u).symm
  exact ⟨hts, by rw [h'.eq_join, h.eq_join, hts]⟩

end IsNormalForm

/-- The tokens of a word with balanced brackets are laid out as its normal form. -/
theorem isNormalForm_tokens {raw : Text} (hbal : isBalanced (Text.toHalfWidth raw) = true)
    (variants : Bool) :
    IsNormalForm variants (alternatives (Text.toHalfWidth raw)) (tokens variants raw)
      (normalize variants raw) where
  laidOut := laidOut_iff.mpr rfl
  ascending := Text.pairwise_sortedSet _
  token := tokens_balanced hbal variants
  mem_iff u := by
    rw [mem_tokens]
    simp only [mem_widths]
    constructor
    · rintro ⟨a, ha, rfl | ⟨hvariants, halnum, rfl⟩⟩
      · exact .inl ha
      · exact .inr ⟨hvariants, a, ha, halnum, rfl⟩
    · rintro (hu | ⟨hvariants, a, ha, halnum, rfl⟩)
      · exact ⟨u, hu, .inl rfl⟩
      · exact ⟨a, ha, .inr ⟨hvariants, halnum, rfl⟩⟩

/-- What `normalize` makes of a word with balanced brackets is the normal form of the
alternatives of the word, and no other text is. It is balanced, it is empty exactly when the
word has no alternative, and otherwise its parts without the round brackets are its tokens. -/
theorem isNormalForm_normalize {raw : Text} (hbal : isBalanced (Text.toHalfWidth raw) = true)
    (variants : Bool) :
    ∃ ts, IsNormalForm variants (alternatives (Text.toHalfWidth raw)) ts
        (normalize variants raw) ∧
      isBalanced (normalize variants raw) = true ∧
      (normalize variants raw = [] ↔ alternatives (Text.toHalfWidth raw) = []) ∧
      (normalize variants raw ≠ [] → splitTop '+' (unwrap (normalize variants raw)) = ts) ∧
      ∀ ts' word, IsNormalForm variants (alternatives (Text.toHalfWidth raw)) ts' word →
        ts' = ts ∧ word = normalize variants raw := by
  have hform := isNormalForm_tokens hbal variants
  exact ⟨tokens variants raw, hform, hform.isBalanced_word, hform.eq_nil_iff, hform.splitTop_unwrap,
    fun _ _ h' => hform.unique h'⟩

/-- A word that is typed in both widths, brackets and `+` included. -/
theorem isNormalForm_bothWidths :
    IsNormalForm true ["b".toList, "a".toList, "日本".toList, "b".toList]
      ["日本".toList, "a".toList, "b".toList, "ａ".toList, "ｂ".toList]
      "(日本+a+b+ａ+ｂ)".toList := by
  have hbal : isBalanced (Text.toHalfWidth "ｂ+（ a＋日本 ）+b".toList) = true := by decide
  have halts : alternatives (Text.toHalfWidth "ｂ+（ a＋日本 ）+b".toList) =
      ["b".toList, "a".toList, "日本".toList, "b".toList] := by cbv
  have hnormal : normalize true "ｂ+（ a＋日本 ）+b".toList = "(日本+a+b+ａ+ｂ)".toList := by cbv
  obtain ⟨ts, hform, -, -, hparts, -⟩ := isNormalForm_normalize hbal true
  rw [hnormal] at hform hparts
  have hts : ts = ["日本".toList, "a".toList, "b".toList, "ａ".toList, "ｂ".toList] :=
    (hparts (by decide)).symm.trans (by cbv)
  rw [halts, hts] at hform
  exact hform

/-- Two words with balanced brackets have the same normal form exactly when they have the same
alternatives, in whichever order and however often. -/
theorem normalize_eq_normalize_iff {u v : Text} (hu : isBalanced (Text.toHalfWidth u) = true)
    (hv : isBalanced (Text.toHalfWidth v) = true) (variants : Bool) :
    normalize variants u = normalize variants v ↔
      ∀ a, a ∈ alternatives (Text.toHalfWidth u) ↔ a ∈ alternatives (Text.toHalfWidth v) := by
  constructor
  · intro h a
    -- A normal form has the alternatives of every word that it was made from.
    have hmem : a ∈ alternatives (Text.toHalfWidth (normalize variants u)) ↔
        a ∈ alternatives (Text.toHalfWidth v) := by
      rw [h, mem_alternatives_normalize hv]
    exact (mem_alternatives_normalize hu).symm.trans hmem
  · exact normalize_congr

/-- Another order, a repeat, more brackets and other widths make no difference; an alternative
more does. -/
theorem normalize_eq_normalize_respelled :
    normalize true "b+（(Ａ-x)+ｂ）".toList = normalize true "(A-x+b)".toList ∧
      normalize true "b+（(Ａ-x)+ｂ）".toList ≠ normalize true "(A-x+b+A)".toList := by
  have hsame : alternatives (Text.toHalfWidth "b+（(Ａ-x)+ｂ）".toList) =
      ["b".toList, "A-x".toList, "b".toList] := by cbv
  have hother : alternatives (Text.toHalfWidth "(A-x+b)".toList) =
      ["A-x".toList, "b".toList] := by cbv
  have hmore : alternatives (Text.toHalfWidth "(A-x+b+A)".toList) =
      ["A-x".toList, "b".toList, "A".toList] := by cbv
  constructor
  · refine (normalize_eq_normalize_iff (by decide) (by decide) true).mpr fun a => ?_
    rw [hsame, hother]
    simp only [List.mem_cons, List.not_mem_nil, or_false]
    tauto
  · intro h
    have hiff := (normalize_eq_normalize_iff (by decide) (by decide) true).mp h "A".toList
    rw [hsame, hmore] at hiff
    exact absurd (hiff.mpr (by simp)) (by decide)

end QueryMix.Word
