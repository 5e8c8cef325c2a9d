import Mathlib
import QueryMix.Proofs.Word.NormalForm

/-!
# `QueryMix.Proofs.Word.Groups`: words that are put together

Words can be typed beside each other, with a `+` between them, and they can be enclosed in
round brackets, again and again. A `Grouping` is such a way to put words together. If the
brackets of the words are balanced, the text that comes of it has the alternatives of the
words, in their order (`Grouping.alternatives_text`).

The normal form depends on the set of alternatives only (`normalize_congr`). So it does not
matter how words are grouped, in which order they stand and how often
(`Grouping.normalize_text_eq`). A normal form has the alternatives of the word that it was
made from (`mem_alternatives_normalize`), so normalizing absorbs an earlier normalizing
(`normalize_absorbs`), and a normal form can stand for its word beside another one
(`normalize_dissolves`).
-/

set_option autoImplicit false

namespace QueryMix.Word

open QueryMix.Bracket QueryMix.Nesting

/-! ### A normal form in place of its word -/

/-- Normalizing a normal form, with or without its round brackets, gives what normalizing the
word gives, whichever widths were asked for before. -/
theorem normalize_absorbs {raw : Text} (hbal : isBalanced (Text.toHalfWidth raw) = true)
    (first second : Bool) :
    normalize second (normalize first raw) = normalize second raw ∧
      normalize second (unwrap (normalize first raw)) = normalize second raw := by
  constructor
  · exact normalize_congr fun a => mem_alternatives_normalize hbal
  · exact normalize_unwrap_normalize hbal first second

/-- The full-width forms that a first normalizing adds are folded by a second one. -/
theorem normalize_absorbs_widths :
    normalize true "[x+y]+((b)+Ａ)".toList = "([x+y]+A+b+Ａ+ｂ)".toList ∧
      normalize false "([x+y]+A+b+Ａ+ｂ)".toList = "([x+y]+A+b)".toList ∧
      normalize false "[x+y]+A+b+Ａ+ｂ".toList = "([x+y]+A+b)".toList := by
  have hbal : isBalanced (Text.toHalfWidth "[x+y]+((b)+Ａ)".toList) = true := by decide
  have hfirst : normalize true "[x+y]+((b)+Ａ)".toList = "([x+y]+A+b+Ａ+ｂ)".toList := by cbv
  have hsecond : normalize false "[x+y]+((b)+Ａ)".toList = "([x+y]+A+b)".toList := by cbv
  have hunwrap : unwrap "([x+y]+A+b+Ａ+ｂ)".toList = "[x+y]+A+b+Ａ+ｂ".toList := by cbv
  obtain ⟨hinner, houter⟩ := normalize_absorbs hbal true false
  rw [hfirst, hsecond] at hinner
  rw [hfirst, hsecond, hunwrap] at houter
  exact ⟨hfirst, hinner, houter⟩

/-- The brackets have to be balanced: two stray ones are alternatives of a word, and in its
normal form they enclose a `+`. -/
example : normalize false ")+(".toList = "((+))".toList ∧
    normalize false "((+))".toList = [] := by
  constructor <;> cbv

/-! ### Groups -/

/-- A way to put words together. -/
inductive Grouping where
  /-- A word as it is. -/
  | word (t : Text)
  /-- A group in round brackets. -/
  | group (inside : Grouping)
  /-- Two groups with a `+` between them. -/
  | beside (left right : Grouping)

namespace Grouping

/-- The text that comes of it. -/
def text : Grouping → Text
  | word t => t
  | group inside => '(' :: (inside.text ++ [')'])
  | beside left right => left.text ++ '+' :: right.text

/-- The words that are put together, from left to right. -/
def words : Grouping → List Text
  | word t => [t]
  | group inside => inside.words
  | beside left right => left.words ++ right.words

/-- The brackets of all the words are balanced when the words are folded. -/
def Balanced (g : Grouping) : Prop := ∀ t ∈ g.words, isBalanced (Text.toHalfWidth t) = true

/-- Words with balanced brackets are put together as a text with balanced brackets, and its
alternatives are those of the words. -/
theorem isBalanced_and_alternatives_text {g : Grouping} (h : g.Balanced) :
    isBalanced (Text.toHalfWidth g.text) = true ∧
      alternatives (Text.toHalfWidth g.text) =
        g.words.flatMap fun t => alternatives (Text.toHalfWidth t) := by
  -- The balance goes along, because a `+` separates and brackets enclose only if what stands
  -- before it and between them is balanced.
  induction g with
  | word t =>
    refine ⟨h t (List.mem_singleton_self t), ?_⟩
    rw [words, List.flatMap_singleton, text]
  | group inside ih =>
    obtain ⟨hbal, halts⟩ := ih h
    rw [text, toHalfWidth_enclosed]
    refine ⟨isBalanced_enclosed round hbal, ?_⟩
    rw [alternatives_enclosed hbal, halts, words]
  | beside left right ihl ihr =>
    obtain ⟨hlbal, hlalts⟩ := ihl fun t ht => h t (List.mem_append_left _ ht)
    obtain ⟨hrbal, hralts⟩ := ihr fun t ht => h t (List.mem_append_right _ ht)
    rw [text, toHalfWidth_append_plus]
    constructor
    · rw [isBalanced_append_left hlbal, isBalanced_cons_plain roleOf_plus, hrbal]
    · rw [alternatives_append_plus (after_of_isBalanced hlbal []), hlalts, hralts, words,
        List.flatMap_append]

/-- The alternatives of balanced words are found in any grouping of them. -/
theorem alternatives_text {g : Grouping} (h : g.Balanced) :
    alternatives (Text.toHalfWidth g.text) =
      g.words.flatMap fun t => alternatives (Text.toHalfWidth t) :=
  (isBalanced_and_alternatives_text h).2

/-- Groupings of words with the same alternatives have the same normal form. -/
theorem normalize_text_congr (g g' : Grouping) (h : g.Balanced) (h' : g'.Balanced)
    (hsame : ∀ a, (∃ t ∈ g.words, a ∈ alternatives (Text.toHalfWidth t)) ↔
      ∃ t ∈ g'.words, a ∈ alternatives (Text.toHalfWidth t)) (variants : Bool) :
    normalize variants g.text = normalize variants g'.text := by
  refine normalize_congr fun a => ?_
  rw [alternatives_text h, alternatives_text h', List.mem_flatMap, List.mem_flatMap]
  exact hsame a

/-- It makes no difference to the normal form how words are grouped, in which order they stand
and how often. -/
theorem normalize_text_eq (g g' : Grouping) (h : g.Balanced)
    (hwords : ∀ t, t ∈ g.words ↔ t ∈ g'.words) (variants : Bool) :
    normalize variants g.text = normalize variants g'.text := by
  have h' : g'.Balanced := fun t ht => h t ((hwords t).mpr ht)
  exact normalize_text_congr g g' h h' (fun a => by simp only [hwords]) variants

end Grouping

/-- The order of two words and repeats of a word make no difference. Round brackets around a
word make none, alone or beside another word. And a normal form can stand for its word. -/
theorem normalize_dissolves {u v : Text} (hu : isBalanced (Text.toHalfWidth u) = true)
    (hv : isBalanced (Text.toHalfWidth v) = true) (variants : Bool) :
    normalize variants (u ++ '+' :: v) = normalize variants (v ++ '+' :: u) ∧
      normalize variants (u ++ '+' :: u) = normalize variants u ∧
      normalize variants ('(' :: (u ++ [')'])) = normalize variants u ∧
      normalize variants ('(' :: (u ++ [')']) ++ '+' :: v) =
        normalize variants (u ++ '+' :: v) ∧
      normalize variants (u ++ '+' :: '(' :: (v ++ [')'])) =
        normalize variants (u ++ '+' :: v) ∧
      ∀ first, normalize variants (normalize first u ++ '+' :: v) =
        normalize variants (u ++ '+' :: v) := by
  have hbal (g : Grouping) (h : ∀ t ∈ g.words, t = u ∨ t = v) : g.Balanced := by
    intro t ht
    rcases h t ht with rfl | rfl
    · exact hu
    · exact hv
  -- The first five laws put the words `u` and `v` together in two ways.
  have hsame (g g' : Grouping) (h : ∀ t ∈ g.words, t = u ∨ t = v)
      (hwords : ∀ t, t ∈ g.words ↔ t ∈ g'.words) :
      normalize variants g.text = normalize variants g'.text :=
    g.normalize_text_eq g' (hbal g h) hwords variants
  refine ⟨?_, ?_, ?_, ?_, ?_, ?_⟩
  · exact hsame (.beside (.word u) (.word v)) (.beside (.word v) (.word u))
      (by simp [Grouping.words]) (by simp [Grouping.words, or_comm])
  · exact hsame (.beside (.word u) (.word u)) (.word u)
      (by simp [Grouping.words]) (by simp [Grouping.words])
  · exact hsame (.group (.word u)) (.word u)
      (by simp [Grouping.words]) (by simp [Grouping.words])
  · exact hsame (.beside (.group (.word u)) (.word v)) (.beside (.word u) (.word v))
      (by simp [Grouping.words]) (by simp [Grouping.words])
  · exact hsame (.beside (.word u) (.group (.word v))) (.beside (.word u) (.word v))
      (by simp [Grouping.words]) (by simp [Grouping.words])
  · intro first
    -- The normal form of `u` is another word, but it has the alternatives of `u`.
    have hfirst : (Grouping.beside (.word (normalize first u)) (.word v)).Balanced := by
      simp [Grouping.Balanced, Grouping.words, isBalanced_toHalfWidth_normalize hu, hv]
    refine Grouping.normalize_text_congr (.beside (.word (normalize first u)) (.word v))
      (.beside (.word u) (.word v)) hfirst (hbal _ (by simp [Grouping.words])) (fun a => ?_) variants
    simp [Grouping.words, mem_alternatives_normalize hu]

/-- Words that hold groups of their own, a region of another kind and an empty group. -/
theorem normalize_dissolves_nested :
    normalize true "(b+((Ａ)+{x+y}))+()".toList = normalize true "()+(b+((Ａ)+{x+y}))".toList ∧
      normalize true "((b+((Ａ)+{x+y})))".toList = "({x+y}+A+b+Ａ+ｂ)".toList ∧
      normalize true "({x+y}+A+b+Ａ+ｂ)+()".toList = "({x+y}+A+b+Ａ+ｂ)".toList := by
  have hu : isBalanced (Text.toHalfWidth "(b+((Ａ)+{x+y}))".toList) = true := by decide
  have hv : isBalanced (Text.toHalfWidth "()".toList) = true := by decide
  have hnormal : normalize true "(b+((Ａ)+{x+y}))".toList = "({x+y}+A+b+Ａ+ｂ)".toList := by cbv
  have hempty : normalize true "(b+((Ａ)+{x+y}))+()".toList = "({x+y}+A+b+Ａ+ｂ)".toList := by cbv
  have hleft : "(b+((Ａ)+{x+y}))+()".toList =
      "(b+((Ａ)+{x+y}))".toList ++ '+' :: "()".toList := by decide
  have hright : "()+(b+((Ａ)+{x+y}))".toList =
      "()".toList ++ '+' :: "(b+((Ａ)+{x+y}))".toList := by decide
  have henclosed : "((b+((Ａ)+{x+y})))".toList =
      '(' :: ("(b+((Ａ)+{x+y}))".toList ++ [')']) := by decide
  have hbeside : "({x+y}+A+b+Ａ+ｂ)+()".toList =
      "({x+y}+A+b+Ａ+ｂ)".toList ++ '+' :: "()".toList := by decide
  obtain ⟨hcomm, -, hgroup, -, -, hplace⟩ := normalize_dissolves hu hv true
  have hplace' := hplace true
  rw [← hleft, ← hright] at hcomm
  rw [← henclosed, hnormal] at hgroup
  rw [hnormal, ← hbeside, ← hleft, hempty] at hplace'
  exact ⟨hcomm, hgroup, hplace'⟩

end QueryMix.Word
