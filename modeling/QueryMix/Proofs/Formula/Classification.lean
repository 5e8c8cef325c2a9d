import Mathlib
import QueryMix.Proofs.Formula.ReadBack

/-!
# `QueryMix.Proofs.Formula.Classification`: one code in two fields

A classification writes its code twice, in a pair of round brackets when it shows a `+` at
top level, and the decoder takes one pair of round brackets off again. The text is never
taken for a parallel formula: the only `+` at top level is the one between the two fields,
and what precedes it has the wrong suffix (`parallel?_eq_none_of_classBases?`). So a
classification is always read back as one (`decode_fill_classification`), and the code comes
back without the outermost pair of round brackets, whoever put it there
(`unwrapOnce_slotText`).
-/

set_option autoImplicit false

namespace QueryMix.Formula

open QueryMix.Bracket QueryMix.Nesting

/-! ### The code in its slot -/

/-- A code that shows a `+` at top level is never enclosed, so the second test of `needsWrap`
decides nothing. -/
theorem needsWrap_eq (code : Text) : needsWrap code = containsTop '+' code := by
  rw [needsWrap, isEnclosed_round]
  cases htop : containsTop '+' code with
  | false => rfl
  | true =>
    rw [enclosed?_eq_none_of_containsTop htop round]
    rfl

/-- A code that shows a `+` at top level is put in round brackets. -/
theorem slotText_of_containsTop {code : Text} (h : containsTop '+' code = true) :
    slotText .classification code = '(' :: (code ++ [')']) := by
  rw [slotText, if_pos (by rw [needsWrap_eq, h])]

/-- Any other code stands in its slot as it is. -/
theorem slotText_of_uncut {code : Text} (h : containsTop '+' code = false) :
    slotText .classification code = code := by
  rw [slotText, if_neg (by rw [needsWrap_eq, h]; simp)]

section Slot

variable {code : Text} (h : IsSlot code)

include h

/-- In its brackets or without them, the code can stand in a slot. -/
theorem isSlot_slotText : IsSlot (slotText .classification code) := by
  cases htop : containsTop '+' code with
  | false => rwa [slotText_of_uncut htop]
  | true =>
    rw [slotText_of_containsTop htop]
    exact ⟨List.cons_ne_nil _ _, trim_enclosed round code, isBalanced_enclosed round h.balanced⟩

/-- In its slot a code shows no `+` at top level. -/
theorem splitTop_slotText :
    splitTop '+' (slotText .classification code) = [slotText .classification code] := by
  cases htop : containsTop '+' code with
  | false =>
    rw [slotText_of_uncut htop]
    exact containsTop_eq_false_iff.mp htop
  | true =>
    rw [slotText_of_containsTop htop]
    exact splitTop_enclosed '+' round h.balanced

/-- The brackets that the slot adds are the ones that come off, so what comes off in the end
depends on the code alone. -/
theorem unwrapOnce_slotText : unwrapOnce (slotText .classification code) = unwrapOnce code := by
  cases htop : containsTop '+' code with
  | false => rw [slotText_of_uncut htop]
  | true =>
    have hslot := isSlot_slotText h
    rw [slotText_of_containsTop htop] at hslot ⊢
    have hadded : enclosed? round ('(' :: (code ++ [')'])) = some code :=
      enclosed?_enclosed h.balanced
    rw [unwrapOnce_of_trim hslot.trimmed, hadded, unwrapOnce_of_trim h.trimmed,
      enclosed?_eq_none_of_containsTop htop round]
    exact h.trimmed

end Slot

/-! ### The two fields -/

section Fields

variable {code : Text} (h : IsSlot code) (hplus : splitTop '+' code = [code])

include h hplus

/-- In the text that is written for a classification, both fields are found with the code. -/
theorem classBases?_classes :
    classBases? (twoSides code code .fTerm .cpc) = some (code, code) :=
  classBases?_append_plus (after_of_isBalanced (isBalanced_append_suffix h _) [])
    (Field.splitTop_append_suffix hplus _) (Field.splitTop_append_suffix hplus _)
    (dropEnding?_append_suffix h _) (dropEnding?_append_suffix h _)

/-- A classification is always read back as one. -/
theorem decode_fill_classification (d : Text) :
    decode (Mode.fill .classification [code] d) =
      .ok ⟨.classification, [unwrapOnce code], []⟩ := by
  rw [fill_classification]
  refine decode_square_of_classBases? (trim_square _) ?_ h.ne_nil
  rw [trim_twoSides h code .fTerm .cpc]
  exact classBases?_classes h hplus

end Fields

/-- Two codes that fill the shape to the same text are the same code. -/
theorem fill_classification_inj {code code' d d' : Text}
    (h : Mode.fill .classification [code] d = Mode.fill .classification [code'] d') :
    code = code' := by
  rw [fill_classification, fill_classification] at h
  -- The text is as long as two codes and eight characters, so the codes are equally long.
  have hlen : code.length = code'.length := by
    have hlength := congrArg List.length h
    simp only [twoSides, List.length_cons, List.length_append] at hlength
    omega
  simp only [List.cons.injEq, true_and, twoSides, List.append_assoc] at h
  exact (List.append_inj h hlen).1

/-! ### Writing and reading a code -/

/-- The normal form of a code that can be written is a slot text. -/
theorem isSlot_normalizeCode {raw : Text} (h : Writable (Word.normalizeCode raw)) :
    IsSlot (Word.normalizeCode raw) := ⟨h.ne_nil, Text.trim_trim _, h.balanced⟩

/-- What comes off a normal form, trimmed, is a normal form again. -/
theorem normalizeCode_of_subset {raw word : Text} (htrim : Text.trim word = word)
    (hsub : word ⊆ Word.normalizeCode raw) : Word.normalizeCode word = word := by
  have hfold : Text.toHalfWidth word = word :=
    Text.toHalfWidth_of_subset
      fun _ hc => (Text.trim_sublist (Text.toHalfWidth raw)).subset (hsub hc)
  rw [Word.normalizeCode, hfold, htrim]

/-- The code that is read from the text of a classification is the normal form of the code
that was written, without the outermost pair of round brackets around it. -/
theorem decode_of_encode_classification {config : Config} {words counts : List Text}
    {text : Text} (h : encode config .classification words counts = .ok text) :
    ∃ raw, words = [raw] ∧ IsSlot (Word.normalizeCode raw) ∧
      text = Mode.fill .classification [slotText .classification (Word.normalizeCode raw)] [] ∧
      decode text = .ok ⟨.classification, [unwrapOnce (Word.normalizeCode raw)], []⟩ := by
  obtain ⟨hlen, hwritable, digits, hdigits, rfl⟩ := encode_eq_ok_iff.mp h
  match words, hlen with
  | [raw], _ =>
    have hslot := isSlot_normalizeCode (hwritable raw (List.mem_singleton_self raw))
    have hnil : digits = [] := (Except.ok.inj hdigits).symm
    refine ⟨raw, rfl, hslot, by rw [hnil]; rfl, ?_⟩
    show decode (Mode.fill .classification
      [slotText .classification (Word.normalizeCode raw)] digits) = _
    rw [decode_fill_classification (isSlot_slotText hslot) (splitTop_slotText hslot),
      unwrapOnce_slotText hslot]

/-- A code is written as the same text as another one exactly when it can be written and
stands in its slot in the same way. -/
theorem encode_classification_eq_iff {config : Config} {word code : Text}
    (hword : Word.normalizeCode word = word) :
    encode config .classification [word] [] =
        .ok (Mode.fill .classification [slotText .classification code] []) ↔
      Writable word ∧ slotText .classification word = slotText .classification code := by
  rw [encode_eq_ok_iff]
  constructor
  · rintro ⟨-, hwritable, digits, -, htext⟩
    have hw := hwritable word (List.mem_singleton_self word)
    rw [show normalWord config .classification word = Word.normalizeCode word from rfl,
      hword] at hw
    refine ⟨hw, ?_⟩
    -- Around the slot both texts are the same, so what stands in it is.
    have hslots := fill_classification_inj htext
    rw [show normalWord config .classification word = Word.normalizeCode word from rfl,
      hword] at hslots
    exact hslots.symm
  · rintro ⟨hw, hslots⟩
    refine ⟨rfl, fun w hmem => ?_, [], rfl, ?_⟩
    · rw [List.mem_singleton.mp hmem]
      show Writable (Word.normalizeCode word)
      rwa [hword]
    · show _ = Mode.fill .classification [slotText .classification (Word.normalizeCode word)] []
      rw [hword, hslots]

/-- The inside of round brackets, trimmed, can be written and gets the same brackets exactly
when there was nothing to trim and it shows a `+` at top level. -/
theorem slotText_trim_eq_iff {inside : Text} (hbal : isBalanced inside = true)
    (hsep : outputSeparator ∉ Text.trim inside) :
    Writable (Text.trim inside) ∧
        slotText .classification (Text.trim inside) =
          round.opener :: (inside ++ [round.closer]) ↔
      Text.trim inside = inside ∧ containsTop '+' inside = true := by
  have htop : containsTop '+' (Text.trim inside) = containsTop '+' inside :=
    containsTop_trim (by decide) inside
  cases hplus : containsTop '+' inside with
  | false =>
    -- No brackets are put on, so the text has become shorter.
    rw [slotText_of_uncut (htop.trans hplus)]
    refine iff_of_false (fun hsame => ?_) (by simp)
    have hlen := congrArg List.length hsame.2
    have hle := Text.length_trim_le inside
    rw [List.length_cons, List.length_append, List.length_singleton] at hlen
    omega
  | true =>
    have hne : Text.trim inside ≠ [] := by
      intro hnil
      rw [hnil, hplus] at htop
      cases htop
    have hwritable : Writable (Text.trim inside) := ⟨hne, hsep, by rw [isBalanced_trim, hbal]⟩
    rw [slotText_of_containsTop (htop.trans hplus)]
    constructor
    · rintro ⟨-, hsame⟩
      exact ⟨List.append_cancel_right (List.cons.inj hsame).2, rfl⟩
    · rintro ⟨htrim, -⟩
      exact ⟨hwritable, by rw [htrim]; rfl⟩

/-- A classification is always read back as one, without counts. Its code is the normal form
of the code that was written if that is not enclosed in round brackets, and the trimmed inside
of it if it is. Written again, under any configuration, the formula gives the same text
exactly when the normal form is not enclosed, or when its inside has no blanks at its ends
and shows a `+` at top level, so that the encoder puts the same brackets back. -/
theorem decode_encode_classification {config : Config} {raw text : Text} {counts : List Text}
    (h : encode config .classification [raw] counts = .ok text) :
    ∃ word, decode text = .ok ⟨.classification, [word], []⟩ ∧
      (enclosed? round (Word.normalizeCode raw) = none → word = Word.normalizeCode raw) ∧
      (∀ inside, enclosed? round (Word.normalizeCode raw) = some inside →
        word = Text.trim inside) ∧
      ∀ config', encodeWith config' ⟨.classification, [word], []⟩ = .ok text ↔
        enclosed? round (Word.normalizeCode raw) = none ∨
          ∃ inside, enclosed? round (Word.normalizeCode raw) = some inside ∧
            Text.trim inside = inside ∧ containsTop '+' inside = true := by
  obtain ⟨raw', hraw, hslot, rfl, hdecode⟩ := decode_of_encode_classification h
  cases hraw
  have hwritable : Writable (Word.normalizeCode raw) :=
    (encode_eq_ok_iff.mp h).2.1 raw (List.mem_singleton_self raw)
  rw [unwrapOnce_of_trim hslot.trimmed] at hdecode
  cases hbare : enclosed? round (Word.normalizeCode raw) with
  | none =>
    rw [hbare] at hdecode
    refine ⟨Word.normalizeCode raw, hdecode, fun _ => rfl, by simp, fun config' => ?_⟩
    have hword := normalizeCode_of_subset hslot.trimmed (List.Subset.refl _)
    exact iff_of_true ((encode_classification_eq_iff hword).mpr ⟨hwritable, rfl⟩) (.inl rfl)
  | some inside =>
    rw [hbare] at hdecode
    obtain ⟨hcode, hbal⟩ := enclosed?_eq_some_iff.mp hbare
    have hsub : Text.trim inside ⊆ Word.normalizeCode raw := by
      rw [hcode]
      exact fun c hc => List.mem_cons_of_mem _
        (List.mem_append_left _ ((Text.trim_sublist inside).subset hc))
    have huncut : containsTop '+' (Word.normalizeCode raw) = false :=
      containsTop_eq_false_iff.mpr (splitTop_of_enclosed? hbare '+')
    have hsep : outputSeparator ∉ Text.trim inside := fun hmem =>
      hwritable.no_separator (hsub hmem)
    refine ⟨Text.trim inside, hdecode, by simp, by simp, fun config' => ?_⟩
    rw [encodeWith, encode_classification_eq_iff
      (normalizeCode_of_subset (Text.trim_trim inside) hsub), slotText_of_uncut huncut, hcode,
      slotText_trim_eq_iff hbal hsep]
    simp

/-- Brackets that were typed around a joined code come off and are put back. -/
theorem decode_enclosed_classification :
    ∃ word, decode "[(A+B)/FT+(A+B)/CP]".toList = .ok ⟨.classification, [word], []⟩ ∧
      ∀ config', encodeWith config' ⟨.classification, [word], []⟩ =
        .ok "[(A+B)/FT+(A+B)/CP]".toList := by
  have h : encode Config.canonical .classification ["(A+B)".toList] [] =
      .ok "[(A+B)/FT+(A+B)/CP]".toList := by cbv
  obtain ⟨word, hdecode, -, -, hagain⟩ := decode_encode_classification h
  have hinside : enclosed? round (Word.normalizeCode "(A+B)".toList) = some "A+B".toList := by
    decide
  exact ⟨word, hdecode, fun config' =>
    (hagain config').mpr (.inr ⟨"A+B".toList, hinside, by decide, by decide⟩)⟩

end QueryMix.Formula
