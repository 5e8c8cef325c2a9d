import Mathlib
import QueryMix.Proofs.Formula.Encode

/-!
# `QueryMix.Proofs.Formula.DefaultCount`: a count that is left blank

Where a count is missing or blank, the count that the configuration proposes is used. This ought
to be as good as typing the proposed count, and it is, unless the proposed count holds
full-width forms. A count that is typed is folded and trimmed before anything else; the
proposed one is only trimmed. So its full-width digits are refused where it is used for a blank
count, and folded where it is typed.

`encode_leftBlank_eq_iff` says exactly when the two agree. They agree on every proposed count
that folding leaves alone, on words for which nothing is written whatever the count, and in the
modes without a count; and nowhere else.
-/

set_option autoImplicit false

namespace QueryMix.Formula

/-- No count is given, or the first one, which is the one that is used, is blank. -/
def LeftBlank (counts : List Text) : Prop := ∀ raw ∈ counts.head?, Text.allBlank raw = true

section Digits

variable {config : Config}

/-- For a blank count the proposed one is looked at, trimmed and not folded. -/
theorem countDigits_of_blank {raw : Option Text} (h : ∀ t ∈ raw, Text.allBlank t = true) :
    countDigits config raw =
      if Count.isDigits (Text.trim config.defaultCount) then .ok (Text.trim config.defaultCount)
      else .error (.invalidCount (Text.trim config.defaultCount)) := by
  have hgiven : (Text.trim (Text.toHalfWidth (raw.getD []))).isEmpty = true := by
    cases raw with
    | none => rfl
    | some t => exact (Text.allBlank_toHalfWidth t).trans (h t rfl)
  simp only [countDigits, hgiven, if_true]

/-- Any other count is looked at itself, trimmed and folded. -/
theorem countDigits_of_visible {t : Text} (h : Text.allBlank t = false) :
    countDigits config (some t) =
      if Count.isDigits (Text.toHalfWidth (Text.trim t)) then .ok (Text.toHalfWidth (Text.trim t))
      else .error (.invalidCount (Text.toHalfWidth (Text.trim t))) := by
  have hgiven : (Text.toHalfWidth (Text.trim t)).isEmpty = false := by
    rw [← Text.trim_toHalfWidth]
    exact (Text.allBlank_toHalfWidth t).trans h
  simp only [countDigits, Option.getD_some, Text.trim_toHalfWidth, hgiven, Bool.false_eq_true,
    if_false]

/-- A blank count comes to the same as the proposed count that is typed, if folding leaves the
proposed count alone. -/
theorem countDigits_of_folded {raw : Option Text} (h : ∀ t ∈ raw, Text.allBlank t = true)
    (hfold : Text.toHalfWidth (Text.trim config.defaultCount) = Text.trim config.defaultCount) :
    countDigits config raw = countDigits config (some config.defaultCount) := by
  cases hblank : Text.allBlank config.defaultCount with
  | true => rw [countDigits_of_blank h, countDigits_of_blank (by simpa using hblank)]
  | false => rw [countDigits_of_blank h, countDigits_of_visible hblank, hfold]

/-- Otherwise the proposed count is refused as it stands, since folding leaves digits alone, and
this is not what is said of it when it is typed. -/
theorem countDigits_of_wide {raw : Option Text} (h : ∀ t ∈ raw, Text.allBlank t = true)
    (hwide : Text.toHalfWidth (Text.trim config.defaultCount) ≠ Text.trim config.defaultCount) :
    countDigits config raw = .error (.invalidCount (Text.trim config.defaultCount)) ∧
      countDigits config (some config.defaultCount) ≠
        .error (.invalidCount (Text.trim config.defaultCount)) := by
  have hdigits : ¬Count.isDigits (Text.trim config.defaultCount) = true :=
    fun hd => hwide (Count.toHalfWidth_of_isDigits hd)
  have hvisible : Text.allBlank config.defaultCount = false := by
    rw [Bool.eq_false_iff]
    intro hblank
    -- Nothing would be left of the proposed count, and folding leaves that alone.
    rw [List.isEmpty_iff.mp hblank] at hwide
    exact hwide rfl
  rw [countDigits_of_blank h, countDigits_of_visible hvisible, if_neg hdigits]
  refine ⟨rfl, fun heq => ?_⟩
  split at heq
  · cases heq
  · exact hwide (EncodeError.invalidCount.inj (Except.error.inj heq))

end Digits

/-- If the words can be written, what comes of writing hangs on the count alone. -/
theorem encode_of_writable {config : Config} {mode : Mode} {words : List Text}
    (hlen : words.length = mode.wordSlots)
    (hwords : ∀ w ∈ words, Writable (normalWord config mode w)) (counts : List Text) :
    encode config mode words counts = (modeDigits config mode counts).map
      (mode.fill ((words.map (normalWord config mode)).map (slotText mode))) := by
  have hvisible : words.findIdx? Text.allBlank = none :=
    findIdx?_allBlank_eq_none fun w hw => (hwords w hw).ne_nil
  rw [encode, if_neg (not_not_intro hlen), hvisible, normalWords_eq_ok_iff.mpr ⟨hwords, rfl⟩]
  cases modeDigits config mode counts with
  | error fault => rfl
  | ok digits => rfl

/-- If they cannot, it does not depend on the count at all. -/
theorem encode_eq_encode_of_not_writable {config : Config} {mode : Mode} {words : List Text}
    (h : ¬(words.length = mode.wordSlots ∧ ∀ w ∈ words, Writable (normalWord config mode w)))
    (counts counts' : List Text) :
    encode config mode words counts = encode config mode words counts' := by
  rw [encode, encode]
  split
  · rfl
  · next hlen =>
    split
    · rfl
    · cases hnormal : normalWords config mode 0 words with
      | error fault => rfl
      | ok normal =>
        exact absurd ⟨not_not.mp hlen, (normalWords_eq_ok_iff.mp hnormal).1⟩ h

/-- Leaving the count blank is the same as typing the proposed count, text and error alike,
exactly when folding leaves the proposed count alone, blanks around it aside. That is asked for
only where the count is looked at: in a mode with a count, and for words that can be written. -/
theorem encode_leftBlank_eq_iff (config : Config) (mode : Mode) (words : List Text)
    {counts : List Text} (hblank : LeftBlank counts) :
    encode config mode words counts = encode config mode words [config.defaultCount] ↔
      (mode.countSlots ≠ 0 → words.length = mode.wordSlots →
        (∀ w ∈ words, Writable (normalWord config mode w)) →
          Text.toHalfWidth (Text.trim config.defaultCount) = Text.trim config.defaultCount) := by
  constructor
  · intro heq hslots hlen hwords
    by_contra hwide
    obtain ⟨hrefused, htyped⟩ := countDigits_of_wide hblank hwide
    rw [encode_of_writable hlen hwords, encode_of_writable hlen hwords, modeDigits, modeDigits,
      if_neg hslots, if_neg hslots, List.head?_cons, hrefused] at heq
    -- The other side would have to be refused in the same words.
    cases hdigits : countDigits config (some config.defaultCount) with
    | error fault =>
      rw [hdigits] at heq htyped
      exact htyped (congrArg Except.error (Except.error.inj heq).symm)
    | ok digits =>
      rw [hdigits] at heq
      cases heq
  · intro hfold
    by_cases hwords : words.length = mode.wordSlots ∧
        ∀ w ∈ words, Writable (normalWord config mode w)
    · refine encode_congr rfl rfl ?_
      by_cases hslots : mode.countSlots = 0
      · rw [modeDigits, modeDigits, if_pos hslots, if_pos hslots]
      · rw [modeDigits, modeDigits, if_neg hslots, if_neg hslots]
        exact countDigits_of_folded hblank (hfold hslots hwords.1 hwords.2)
    · exact encode_eq_encode_of_not_writable hwords _ _

/-- A proposed count with blanks around it serves as well as if it were typed. -/
theorem encode_leftBlank_padded :
    encode ⟨true, " 30\t".toList⟩ .pair ["A".toList, "(b)".toList] ["　".toList, "7".toList] =
      encode ⟨true, " 30\t".toList⟩ .pair ["A".toList, "(b)".toList] [" 30\t".toList] := by
  refine (encode_leftBlank_eq_iff _ _ _ ?_).mpr fun _ _ _ => ?_
  · simp only [LeftBlank, List.head?_cons, Option.mem_some_iff]
    rintro raw rfl
    decide
  · decide

/-- A proposed count in full-width digits is refused, and folded if it is typed. -/
theorem not_encode_leftBlank_wide :
    LeftBlank [] ∧
      encode ⟨false, "３".toList⟩ .pair ["A".toList, "B".toList] [] =
        .error (.invalidCount "３".toList) ∧
      encode ⟨false, "３".toList⟩ .pair ["A".toList, "B".toList] ["３".toList] =
        .ok "A,3N,B/TX".toList := by
  refine ⟨fun _ h => (nomatch h), ?_, ?_⟩
  · cbv
  · cbv

end QueryMix.Formula
