import QueryMix.Proofs.Formula.RoundTrip

/-!
# `QueryMix.Proofs.Formula.Written`: what every written formula looks like

Whatever the mode, the words and the configuration, a text that is written is not empty, has
no blanks at its ends, is balanced, and does not hold the character that separates formulas
in an output text (`isSlot_of_encode`, `separator_not_mem_of_encode`). The first three say
that it could itself stand in a slot.

Both facts are about the shapes. A shape that is filled with slots is a slot again
(`isSlot_fill`), and it holds no characters but its own and those of the words and digits
(`not_mem_fill`). Of the words the encoder asks the rest.
-/

set_option autoImplicit false

namespace QueryMix.Formula

open QueryMix.Bracket

/-- A text that is written for some words, in some mode and under some configuration. -/
def IsWritten (t : Text) : Prop :=
  ∃ config mode words counts, encode config mode words counts = .ok t

/-! ### Filled shapes -/

section Slots

variable {a b : Text} (ha : IsSlot a)

include ha

/-- A text that can stand in a slot can do so with a suffix after it. -/
theorem isSlot_append_suffix (field : Field) : IsSlot (a ++ field.suffix) where
  ne_nil := List.append_ne_nil_of_left_ne_nil ha.ne_nil _
  trimmed := Text.trim_append ha.trimmed (Field.trim_suffix field) ha.ne_nil
    (Field.suffix_ne_nil field)
  balanced := isBalanced_append_suffix ha field

/-- It can do so in brackets of any kind. -/
theorem isSlot_region (bracket : Bracket) :
    IsSlot (bracket.opener :: (a ++ [bracket.closer])) where
  ne_nil := List.cons_ne_nil _ _
  trimmed := trim_enclosed bracket a
  balanced := isBalanced_enclosed bracket ha.balanced

/-- Two such texts can do so as two sides. -/
theorem isSlot_twoSides (hb : IsSlot b) (field field' : Field) :
    IsSlot (twoSides a b field field') where
  ne_nil := List.append_ne_nil_of_left_ne_nil (isSlot_append_suffix ha field).ne_nil _
  trimmed := trim_twoSides ha b field field'
  balanced := isBalanced_twoSides ha hb field field'

end Slots

/-- What stands between the brackets and the suffix of a collection, brackets included. -/
theorem isSlot_collection {inside d : Text} (hinside : IsSlot inside)
    (hd : Count.isDigits d = true) :
    IsSlot ('{' :: (inside ++ '}' :: ',' :: (d ++ ['N']))) := by
  have hregion : IsSlot ('{' :: (inside ++ ['}'])) := isSlot_region hinside .curly
  have hparts : IsSlot ([','].intercalate ['{' :: (inside ++ ['}']), d ++ ['N']]) :=
    isSlot_intercalate (by simp) (by simp [hregion, isSlot_count hd])
  simpa [List.intercalate] using hparts

/-- A shape that is filled with slots is a slot. -/
theorem isSlot_fill {mode : Mode} {slots : List Text} {d : Text}
    (hlen : slots.length = mode.wordSlots) (hslots : ∀ t ∈ slots, IsSlot t)
    (hd : mode.countSlots ≠ 0 → Count.isDigits d = true) : IsSlot (mode.fill slots d) := by
  -- Words and counts are slots, and the shape joins slots, encloses them, or puts a suffix after
  -- them.
  cases mode with
  | single =>
    match slots, hlen with
    | [a], _ =>
      rw [fill_single]
      exact isSlot_append_suffix (hslots a (by simp)) _
  | pair =>
    match slots, hlen with
    | [a, b], _ =>
      have hcount := isSlot_count (hd (by decide))
      rw [fill_pair]
      exact isSlot_append_suffix (isSlot_intercalate (by simp) (by simp_all)) _
  | serial =>
    match slots, hlen with
    | [a, b, c], _ =>
      have hcount := isSlot_count (hd (by decide))
      rw [fill_serial]
      exact isSlot_append_suffix
        (isSlot_region (isSlot_intercalate (by simp) (by simp_all)) .curly) _
  | collection =>
    match slots, hlen with
    | [a, b, c], _ =>
      rw [fill_collection]
      exact isSlot_append_suffix
        (isSlot_collection (isSlot_intercalate (by simp) hslots) (hd (by decide))) _
  | parallel =>
    match slots, hlen with
    | [a, b, c], _ =>
      have hcount := isSlot_count (hd (by decide))
      rw [fill_parallel]
      exact isSlot_region (isSlot_twoSides (hslots a (by simp))
        (isSlot_intercalate (by simp) (by simp_all)) _ _) .square
  | classification =>
    match slots, hlen with
    | [a], _ =>
      have ha := hslots a (by simp)
      rw [fill_classification]
      exact isSlot_region (isSlot_twoSides ha ha _ _) .square

/-- A character that stands in no word, not in the digits, and not among the characters of the
shape, is not in the filled shape. -/
theorem not_mem_fill {mode : Mode} {slots : List Text} {d : Text} {c : Char}
    (hshape : ∀ t, .fixed t ∈ mode.shape → c ∉ t) (hslots : ∀ t ∈ slots, c ∉ t) (hd : c ∉ d) :
    c ∉ mode.fill slots d := by
  rw [Mode.fill, List.mem_flatMap]
  rintro ⟨piece, hpiece, hc⟩
  cases piece with
  | fixed t => exact hshape t hpiece hc
  | word slot =>
    -- A slot that there is no word for is filled with nothing.
    rw [ShapePiece.fill, List.getD_eq_getElem?_getD] at hc
    cases hword : slots[slot]? with
    | none => simp [hword] at hc
    | some t =>
      rw [hword] at hc
      exact hslots t (List.mem_of_getElem? hword) hc
  | count => exact hd hc

/-- The fixed pieces of the shapes do not hold the separator of outputs. -/
theorem separator_not_mem_shape (mode : Mode) :
    ∀ t, .fixed t ∈ mode.shape → outputSeparator ∉ t := by
  cases mode <;> simp [Mode.shape, Field.suffix, outputSeparator]

/-! ### Written texts -/

section Slot

variable {config : Config} {mode : Mode} {raw : Text}
  (h : Writable (normalWord config mode raw))

include h

/-- A normal form that can be written can stand in its slot. -/
theorem isSlot_slotText_normalWord : IsSlot (slotText mode (normalWord config mode raw)) := by
  by_cases hmode : mode = .classification
  · rw [hmode] at h ⊢
    exact isSlot_slotText (isSlot_normalizeCode h)
  · rw [slotText_of_ne hmode]
    exact isSlot_normalWord hmode h

/-- The round brackets of a slot are no separators. -/
theorem separator_not_mem_slotText :
    outputSeparator ∉ slotText mode (normalWord config mode raw) := by
  have hsep := h.no_separator
  by_cases hmode : mode = .classification
  · rw [hmode] at hsep ⊢
    rw [slotText]
    split
    · have hround : outputSeparator ≠ '(' ∧ outputSeparator ≠ ')' := by decide
      simp [hround, hsep]
    · exact hsep
  · rwa [slotText_of_ne hmode]

end Slot

section Encode

variable {config : Config} {mode : Mode} {words counts : List Text} {text : Text}
  (h : encode config mode words counts = .ok text)

include h

/-- A text that is written could itself stand in a slot: it is not empty, it has no blanks at
its ends, and it is balanced. -/
theorem isSlot_of_encode : IsSlot text := by
  obtain ⟨hlen, hwritable, digits, hdigits, rfl⟩ := encode_eq_ok_iff.mp h
  refine isSlot_fill (by rw [List.length_map, List.length_map, hlen]) (fun t ht => ?_)
    (isDigits_of_modeDigits hdigits)
  rw [List.map_map] at ht
  obtain ⟨w, hw, rfl⟩ := List.mem_map.mp ht
  exact isSlot_slotText_normalWord (hwritable w hw)

/-- A text that is written holds no separator. -/
theorem separator_not_mem_of_encode : outputSeparator ∉ text := by
  obtain ⟨-, hwritable, digits, hdigits, rfl⟩ := encode_eq_ok_iff.mp h
  refine not_mem_fill (separator_not_mem_shape mode) (fun t ht => ?_) ?_
  · rw [List.map_map] at ht
    obtain ⟨w, hw, rfl⟩ := List.mem_map.mp ht
    exact separator_not_mem_slotText (hwritable w hw)
  · by_cases hslots : mode.countSlots = 0
    · rw [modeDigits, if_pos hslots] at hdigits
      cases hdigits
      exact List.not_mem_nil
    · exact Count.not_mem_of_isDigits (isDigits_of_modeDigits hdigits hslots) (by decide)

end Encode

end QueryMix.Formula
