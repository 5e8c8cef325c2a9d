import QueryMix.Proofs.Formula.Encode

/-!
# `QueryMix.Proofs.Formula.Width`: the width of the characters that are typed

Words and counts may be typed in half-width or in full-width characters, or in a mixture. What
comes of writing them is the same, text and error alike: everything that the encoder looks at
is folded before it is used or, like blanks, is not changed by folding
(`encode_toHalfWidth`). So words and counts that fold to the same texts are written alike, and
folding undoes widening (`encode_of_same_folds`).

Only what is typed is meant. The count that a configuration proposes is not folded.
-/

set_option autoImplicit false

namespace QueryMix.Formula

section Folding

variable {config : Config} {mode : Mode}

/-- A word and its folded form have one normal form in every mode. -/
theorem normalWord_toHalfWidth (raw : Text) :
    normalWord config mode (Text.toHalfWidth raw) = normalWord config mode raw := by
  cases mode with
  | classification => exact Word.normalizeCode_toHalfWidth raw
  | _ => exact Word.normalize_toHalfWidth config.widthVariants raw

/-- A missing count stays missing, and one that is given is folded before it is read. -/
theorem countDigits_map_toHalfWidth (raw : Option Text) :
    countDigits config (raw.map Text.toHalfWidth) = countDigits config raw := by
  cases raw with
  | none => rfl
  | some given =>
    simp only [countDigits, Option.map_some, Option.getD_some, Text.toHalfWidth_toHalfWidth]

/-- Counts are folded before they are read, so folding them first changes nothing. -/
theorem modeDigits_map_toHalfWidth (counts : List Text) :
    modeDigits config mode (counts.map Text.toHalfWidth) = modeDigits config mode counts := by
  rw [modeDigits, modeDigits, List.head?_map, countDigits_map_toHalfWidth]

/-- The early test finds blank words in the same slots. -/
theorem findIdx?_allBlank_map_toHalfWidth (words : List Text) :
    (words.map Text.toHalfWidth).findIdx? Text.allBlank = words.findIdx? Text.allBlank := by
  rw [List.findIdx?_map]
  exact congrArg (words.findIdx? ·) (funext Text.allBlank_toHalfWidth)

/-- Words and counts are written like their folded forms. -/
theorem encode_toHalfWidth (words counts : List Text) :
    encode config mode (words.map Text.toHalfWidth) (counts.map Text.toHalfWidth) =
      encode config mode words counts := by
  refine encode_congr ?_ (findIdx?_allBlank_map_toHalfWidth words)
    (modeDigits_map_toHalfWidth counts)
  rw [List.map_map]
  exact List.map_congr_left fun w _ => normalWord_toHalfWidth w

end Folding

/-- Words and counts that fold to the same texts, slot by slot, are written as the same text or
refused with the same error, under every configuration and in every mode. Their full-width
forms and their half-width forms are such words and counts. -/
theorem encode_of_same_folds (config : Config) (mode : Mode) (words counts : List Text) :
    encode config mode (words.map Text.toFullWidth) (counts.map Text.toFullWidth) =
        encode config mode words counts ∧
      encode config mode (words.map Text.toHalfWidth) (counts.map Text.toHalfWidth) =
        encode config mode words counts ∧
      ∀ words' counts' : List Text,
        words'.map Text.toHalfWidth = words.map Text.toHalfWidth →
        counts'.map Text.toHalfWidth = counts.map Text.toHalfWidth →
        encode config mode words' counts' = encode config mode words counts := by
  have hfolds : ∀ words' counts' : List Text,
      words'.map Text.toHalfWidth = words.map Text.toHalfWidth →
      counts'.map Text.toHalfWidth = counts.map Text.toHalfWidth →
      encode config mode words' counts' = encode config mode words counts := by
    intro words' counts' hwords hcounts
    calc encode config mode words' counts'
        = encode config mode (words'.map Text.toHalfWidth) (counts'.map Text.toHalfWidth) :=
          (encode_toHalfWidth words' counts').symm
      _ = encode config mode (words.map Text.toHalfWidth) (counts.map Text.toHalfWidth) := by
          rw [hwords, hcounts]
      _ = encode config mode words counts := encode_toHalfWidth words counts
  have hwide (ts : List Text) :
      (ts.map Text.toFullWidth).map Text.toHalfWidth = ts.map Text.toHalfWidth := by
    rw [List.map_map]
    exact List.map_congr_left fun t _ => Text.toHalfWidth_toFullWidth t
  exact ⟨hfolds _ _ (hwide words) (hwide counts), encode_toHalfWidth words counts, hfolds⟩

/-- A pair that is typed half in one width and half in the other. -/
theorem encode_mixedWidths :
    encode Config.canonical .pair ["Ａ+B".toList, "（ｘ-".toList] ["　１5".toList] =
      encode Config.canonical .pair ["A＋Ｂ".toList, "(x－".toList] [" 1５".toList] := by
  refine (encode_of_same_folds Config.canonical .pair ["A＋Ｂ".toList, "(x－".toList]
    [" 1５".toList]).2.2 _ _ ?_ ?_
  · decide
  · decide

end QueryMix.Formula
