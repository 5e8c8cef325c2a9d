import Mathlib
import QueryMix.Proofs.Formula.Encode

/-!
# `QueryMix.Proofs.Formula.BracketCheck`: the bracket check and the words that were typed

The encoder checks the brackets of normal forms. For a classification that is as good as a
check of the words that were typed (`isBalanced_normalWord_iff`). In the other modes the
check passes a word with unbalanced brackets when its alternatives, in the order of the
normal form, happen to balance each other (`Word.Mended`): `)+(` is such a word. A word with
balanced brackets always passes.

So the slot that is reported is that of the first word with unbalanced brackets exactly when
that word is not mended (`reportsTyped_iff`).
-/

set_option autoImplicit false

namespace QueryMix.Formula

open QueryMix.Bracket

/-- The slot of the first word that was typed with unbalanced brackets. -/
def firstUnbalanced? (words : List Text) : Option Nat :=
  words.findIdx? fun w => !isBalanced (Text.toHalfWidth w)

/-- The check is about the words that were typed: the first one with unbalanced brackets is
reported, and words with balanced brackets are written. -/
def ReportsTyped (config : Config) (mode : Mode) (words counts : List Text) : Prop :=
  (∀ slot, firstUnbalanced? words = some slot →
    encode config mode words counts = .error (.unbalancedBrackets slot)) ∧
  ((∀ w ∈ words, isBalanced (Text.toHalfWidth w) = true) →
    ∃ text, encode config mode words counts = .ok text)

/-- The normal form of a word has balanced brackets if the word has, or if its alternatives
mend each other. The latter cannot happen in a classification. -/
theorem isBalanced_normalWord_iff {config : Config} {mode : Mode} {raw : Text} :
    isBalanced (normalWord config mode raw) = true ↔
      isBalanced (Text.toHalfWidth raw) = true ∨
        mode ≠ .classification ∧ Word.Mended config.widthVariants raw := by
  have hmix : isBalanced (Word.normalize config.widthVariants raw) = true ↔
      isBalanced (Text.toHalfWidth raw) = true ∨ Word.Mended config.widthVariants raw :=
    Word.isBalanced_normalize_iff _ raw
  cases mode with
  | classification =>
    have hcode : isBalanced (Word.normalizeCode raw) = isBalanced (Text.toHalfWidth raw) :=
      isBalanced_trim _
    simp [normalWord, hcode]
  | _ => simpa [normalWord] using hmix

/-- Unbalanced brackets are reported only of a word that was typed with them. -/
theorem unbalanced_of_encode {config : Config} {mode : Mode} {words counts : List Text}
    {slot : Nat} (h : encode config mode words counts = .error (.unbalancedBrackets slot)) :
    ∃ w, words[slot]? = some w ∧ isBalanced (Text.toHalfWidth w) = false := by
  rcases encode_eq_error h with ⟨-, hfault⟩ | ⟨slot', w, hw, hfault⟩ | hdigits
  · cases hfault
  · rcases wordFault?_cases hfault with ⟨hfault, -⟩ | ⟨hfault, -⟩ | ⟨hfault, hbal⟩
    · cases hfault
    · cases hfault
    · cases hfault
      refine ⟨w, hw, Bool.eq_false_iff.mpr fun htyped => ?_⟩
      rw [isBalanced_normalWord_iff.mpr (.inl htyped)] at hbal
      cases hbal
  · -- The faults of the count are of another kind.
    rw [modeDigits] at hdigits
    split at hdigits
    · cases hdigits
    · obtain ⟨given, hfault⟩ := countDigits_eq_error hdigits
      cases hfault

/-- The slot of the first normal form with unbalanced brackets. -/
def firstFault? (config : Config) (mode : Mode) (words : List Text) : Option Nat :=
  words.findIdx? fun w => !isBalanced (normalWord config mode w)

/-- The word in the slot of the first fault is not mended. -/
theorem not_mended_of_firstFault? {config : Config} {mode : Mode} {words : List Text}
    {slot : Nat} {raw : Text} (hmode : mode ≠ .classification)
    (hfault : firstFault? config mode words = some slot) (hraw : words[slot]? = some raw) :
    ¬Word.Mended config.widthVariants raw := by
  intro hmended
  obtain ⟨hlt, hnot, -⟩ := List.findIdx?_eq_some_iff_getElem.mp hfault
  rw [List.getElem?_eq_getElem hlt, Option.some.injEq] at hraw
  have hbal := isBalanced_normalWord_iff.mpr (.inr ⟨hmode, hmended⟩)
  rw [hraw, hbal] at hnot
  cases hnot

/-- A first word with unbalanced brackets that is not mended is the first fault: the words
before it are balanced as they were typed, and so in normal form. -/
theorem firstFault?_of_firstUnbalanced? {config : Config} {mode : Mode} {words : List Text}
    {slot : Nat} (hfirst : firstUnbalanced? words = some slot)
    (hnot : mode = .classification ∨
      ∀ raw, words[slot]? = some raw → ¬Word.Mended config.widthVariants raw) :
    firstFault? config mode words = some slot := by
  obtain ⟨hlt, htyped, hbefore⟩ := List.findIdx?_eq_some_iff_getElem.mp hfirst
  refine List.findIdx?_eq_some_iff_getElem.mpr ⟨hlt, ?_, fun j hj => ?_⟩
  · rw [Bool.not_eq_true', Bool.eq_false_iff, ne_eq, isBalanced_normalWord_iff]
    rintro (hbal | ⟨hmode, hmended⟩)
    · rw [hbal] at htyped
      cases htyped
    · rcases hnot with hclass | hall
      · exact hmode hclass
      · exact hall _ (List.getElem?_eq_getElem hlt) hmended
  · have hbal := hbefore j hj
    simp only [Bool.not_eq_true', Bool.not_eq_false] at hbal ⊢
    exact isBalanced_normalWord_iff.mpr (.inl hbal)

/-- Words with balanced brackets have no fault. -/
theorem firstFault?_eq_none {config : Config} {mode : Mode} {words : List Text}
    (hbal : ∀ w ∈ words, isBalanced (Text.toHalfWidth w) = true) :
    firstFault? config mode words = none := by
  rw [firstFault?, List.findIdx?_eq_none_iff]
  intro w hw
  rw [Bool.not_eq_false', isBalanced_normalWord_iff]
  exact .inl (hbal w hw)

section Clean

variable {config : Config} {mode : Mode} {words counts : List Text} {digits : Text}
  (hlen : words.length = mode.wordSlots)
  (hclean : ∀ w ∈ words, normalWord config mode w ≠ [] ∧
    outputSeparator ∉ normalWord config mode w)
  (hdigits : modeDigits config mode counts = .ok digits)

include hlen hclean hdigits

/-- Where nothing but brackets can be wrong, the first normal form with unbalanced brackets is
reported, and without one the formula is written. -/
theorem encode_of_clean :
    encode config mode words counts =
      match firstFault? config mode words with
      | some slot => .error (.unbalancedBrackets slot)
      | none => .ok (mode.fill ((words.map (normalWord config mode)).map (slotText mode))
          digits) := by
  rw [encode, if_neg (by simpa using hlen),
    findIdx?_allBlank_eq_none fun w hw => (hclean w hw).1]
  simp only [normalWords_of_clean hclean, hdigits, firstFault?]
  cases words.findIdx? fun w => !isBalanced (normalWord config mode w) with
  | none => rfl
  | some slot =>
    simp only [Nat.zero_add]
    rfl

/-- Where nothing but brackets can be wrong, the check is about the words that were typed
exactly when the first of them with unbalanced brackets is not mended. -/
theorem reportsTyped_iff :
    ReportsTyped config mode words counts ↔
      mode = .classification ∨
        ∀ slot raw, firstUnbalanced? words = some slot → words[slot]? = some raw →
          ¬Word.Mended config.widthVariants raw := by
  rw [ReportsTyped, encode_of_clean hlen hclean hdigits]
  constructor
  · rintro ⟨hreported, -⟩
    by_cases hmode : mode = .classification
    · exact .inl hmode
    · refine .inr fun slot raw hfirst hraw => ?_
      have herror := hreported slot hfirst
      -- The slot that is reported is that of the first fault.
      cases hfault : firstFault? config mode words with
      | none =>
        rw [hfault] at herror
        cases herror
      | some k =>
        rw [hfault] at herror
        cases herror
        exact not_mended_of_firstFault? hmode hfault hraw
  · intro hcond
    refine ⟨fun slot hfirst => ?_, fun hbal => ?_⟩
    · have hnot : mode = .classification ∨
          ∀ raw, words[slot]? = some raw → ¬Word.Mended config.widthVariants raw :=
        hcond.imp_right fun hall raw => hall slot raw hfirst
      rw [firstFault?_of_firstUnbalanced? hfirst hnot]
    · rw [firstFault?_eq_none hbal]
      exact ⟨_, rfl⟩

end Clean

/-- An opener that is not closed is reported. -/
theorem reportsTyped_unclosed :
    ReportsTyped Config.canonical .pair ["A".toList, "(B".toList] ["3".toList] := by
  have hA : normalWord Config.canonical .pair "A".toList = "(A+Ａ)".toList := by cbv
  have hB : normalWord Config.canonical .pair "(B".toList = "(B".toList := by cbv
  have hclean : ∀ w ∈ ["A".toList, "(B".toList], normalWord Config.canonical .pair w ≠ [] ∧
      outputSeparator ∉ normalWord Config.canonical .pair w := by
    intro w hw
    simp only [List.mem_cons, List.not_mem_nil, or_false] at hw
    rcases hw with rfl | rfl
    · rw [hA]
      decide
    · rw [hB]
      decide
  have hdigits : modeDigits Config.canonical .pair ["3".toList] = .ok "3".toList := by cbv
  refine (reportsTyped_iff rfl hclean hdigits).mpr (.inr fun slot raw hfirst hraw hmended => ?_)
  have hslot : firstUnbalanced? ["A".toList, "(B".toList] = some 1 := by decide
  cases hslot.symm.trans hfirst
  cases Option.some.inj hraw
  -- A single token has no other one to be mended by.
  have htokens : Word.tokens Config.canonical.widthVariants "(B".toList = ["(B".toList] := by cbv
  exact absurd hmended.1 (by rw [htokens]; decide)

/-- Two alternatives that balance each other are not: the text is written. -/
theorem not_reportsTyped_mended :
    encode Config.literal .single [")+(".toList] [] = .ok "((+))/TX".toList ∧
      ¬ReportsTyped Config.literal .single [")+(".toList] [] := by
  have h : encode Config.literal .single [")+(".toList] [] = .ok "((+))/TX".toList := by cbv
  refine ⟨h, fun hreports => ?_⟩
  have herror := hreports.1 0 (by decide)
  rw [h] at herror
  cases herror

end QueryMix.Formula
