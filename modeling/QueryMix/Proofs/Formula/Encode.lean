import QueryMix.Formula.Encode
import QueryMix.Proofs.Formula.Count
import QueryMix.Proofs.Word.NormalForm

/-!
# `QueryMix.Proofs.Formula.Encode`: when a formula is written, and what is written

A formula is written exactly when the mode has a slot for each word, every normal form can
stand in a formula (`Writable`), and the count is digits (`encode_eq_ok_iff`). The early test
for blank words adds nothing to this, since a blank word has the empty normal form.

Otherwise it is refused for one of these three reasons (`encode_eq_error`). What comes of
writing depends on the normal forms and the digits alone (`encode_congr`).
-/

set_option autoImplicit false

namespace QueryMix.Formula

open QueryMix.Bracket

/-- A normal form that can stand in a formula. -/
structure Writable (word : Text) : Prop where
  ne_nil : word ≠ []
  no_separator : outputSeparator ∉ word
  balanced : isBalanced word = true

/-- The checks find no fault with a normal form exactly when it can stand in a formula. -/
theorem wordFault?_eq_none_iff {slot : Nat} {word : Text} :
    wordFault? slot word = none ↔ Writable word := by
  unfold wordFault?
  constructor
  · intro h
    split at h
    · cases h
    · next hne =>
      split at h
      · cases h
      · next hsep =>
        split at h
        · cases h
        · next hbal => exact ⟨by simpa using hne, by simpa using hsep, by simpa using hbal⟩
  · rintro ⟨hne, hsep, hbal⟩
    simp [hne, hsep, hbal]

/-- The only thing wrong with a word can be its brackets, if it is not empty and holds no
separator. -/
theorem wordFault?_of_clean {slot : Nat} {word : Text} (hne : word ≠ [])
    (hsep : outputSeparator ∉ word) :
    wordFault? slot word =
      if isBalanced word = true then none else some (.unbalancedBrackets slot) := by
  unfold wordFault?
  cases isBalanced word <;> simp [hne, hsep]

/-- What is said to be wrong with a word is wrong with it, and said of its own slot. -/
theorem wordFault?_cases {slot : Nat} {word : Text} {fault : EncodeError}
    (h : wordFault? slot word = some fault) :
    (fault = .emptyWord slot ∧ word = []) ∨
      (fault = .forbiddenSeparator slot ∧ outputSeparator ∈ word) ∨
      (fault = .unbalancedBrackets slot ∧ isBalanced word = false) := by
  unfold wordFault? at h
  split at h
  · next hempty => exact .inl ⟨(Option.some.inj h).symm, by simpa using hempty⟩
  split at h
  · next hsep => exact .inr (.inl ⟨(Option.some.inj h).symm, by simpa using hsep⟩)
  split at h
  · next hbal => exact .inr (.inr ⟨(Option.some.inj h).symm, by simpa using hbal⟩)
  · cases h

section NormalWords

variable {config : Config} {mode : Mode}

/-- The normal form of a blank word is empty in every mode. -/
theorem normalWord_of_allBlank {raw : Text} (h : Text.allBlank raw = true) :
    normalWord config mode raw = [] := by
  cases mode with
  | classification =>
    show Text.trim (Text.toHalfWidth raw) = []
    exact List.isEmpty_iff.mp ((Text.allBlank_toHalfWidth raw).trans h)
  | _ => exact Word.normalize_of_allBlank config.widthVariants h

/-- No word with a normal form that is not empty stops the early test. -/
theorem findIdx?_allBlank_eq_none {words : List Text}
    (h : ∀ w ∈ words, normalWord config mode w ≠ []) :
    words.findIdx? Text.allBlank = none := by
  rw [List.findIdx?_eq_none_iff]
  intro w hw
  rw [Bool.eq_false_iff]
  exact fun hblank => h w hw (normalWord_of_allBlank hblank)

/-- The words go through exactly when all their normal forms can stand in a formula, and what comes
out are the normal forms. -/
theorem normalWords_eq_ok_iff {slot : Nat} {words normal : List Text} :
    normalWords config mode slot words = .ok normal ↔
      (∀ w ∈ words, Writable (normalWord config mode w)) ∧
        normal = words.map (normalWord config mode) := by
  induction words generalizing slot normal with
  | nil =>
    rw [normalWords, Except.ok.injEq, List.map_nil]
    simp [eq_comm]
  | cons raw rest ih =>
    rw [normalWords, List.forall_mem_cons, List.map_cons]
    cases hf : wordFault? slot (normalWord config mode raw) with
    | some fault =>
      have hnot : ¬Writable (normalWord config mode raw) := fun hw => by
        rw [wordFault?_eq_none_iff.mpr hw] at hf
        cases hf
      simp [hnot]
    | none =>
      have hw : Writable (normalWord config mode raw) := wordFault?_eq_none_iff.mp hf
      simp only [hw, true_and]
      cases hr : normalWords config mode (slot + 1) rest with
      | error fault =>
        constructor
        · intro h
          cases h
        · rintro ⟨hall, -⟩
          rw [ih.mpr ⟨hall, rfl⟩] at hr
          cases hr
      | ok tail =>
        obtain ⟨hall, rfl⟩ := ih.mp hr
        rw [Except.map, Except.ok.injEq]
        exact ⟨fun h => ⟨hall, h.symm⟩, fun h => h.2.symm⟩

/-- What is reported is what is wrong with the normal form of the word in its slot. -/
theorem normalWords_eq_error {slot : Nat} {words : List Text} {fault : EncodeError}
    (h : normalWords config mode slot words = .error fault) :
    ∃ k w, words[k]? = some w ∧
      wordFault? (slot + k) (normalWord config mode w) = some fault := by
  induction words generalizing slot with
  | nil => cases h
  | cons raw rest ih =>
    rw [normalWords] at h
    split at h
    · next hfault =>
      cases h
      exact ⟨0, raw, rfl, hfault⟩
    · cases hrest : normalWords config mode (slot + 1) rest with
      | error e =>
        rw [hrest] at h
        cases h
        obtain ⟨k, w, hw, hfault⟩ := ih hrest
        rw [Nat.add_assoc, Nat.add_comm 1 k] at hfault
        exact ⟨k + 1, w, hw, hfault⟩
      | ok tail =>
        rw [hrest] at h
        cases h

/-- Where only brackets can be wrong, the first word with unbalanced brackets in its normal
form is reported. -/
theorem normalWords_of_clean {words : List Text}
    (h : ∀ w ∈ words, normalWord config mode w ≠ [] ∧
      outputSeparator ∉ normalWord config mode w) (slot : Nat) :
    normalWords config mode slot words =
      match words.findIdx? fun w => !isBalanced (normalWord config mode w) with
      | some k => .error (.unbalancedBrackets (slot + k))
      | none => .ok (words.map (normalWord config mode)) := by
  induction words generalizing slot with
  | nil => rfl
  | cons raw rest ih =>
    obtain ⟨hne, hsep⟩ := h raw List.mem_cons_self
    rw [normalWords, List.findIdx?_cons]
    simp only [wordFault?_of_clean hne hsep]
    by_cases hbal : isBalanced (normalWord config mode raw) = true
    · rw [if_pos hbal, ih (fun w hw => h w (List.mem_cons_of_mem _ hw)), if_neg (by simp [hbal])]
      cases rest.findIdx? fun w => !isBalanced (normalWord config mode w) with
      | none => rfl
      | some k => simp [Except.map, Nat.add_assoc, Nat.add_comm 1 k]
    · rw [if_neg hbal, if_pos (by simpa using hbal)]
      rfl

/-- Words with the same normal forms are judged alike. -/
theorem normalWords_congr {words words' : List Text}
    (h : words.map (normalWord config mode) = words'.map (normalWord config mode))
    (slot : Nat) : normalWords config mode slot words = normalWords config mode slot words' := by
  induction words generalizing words' slot with
  | nil => rw [List.map_eq_nil_iff.mp h.symm]
  | cons raw rest ih =>
    cases words' with
    | nil => cases h
    | cons raw' rest' =>
      rw [List.map_cons, List.map_cons, List.cons.injEq] at h
      rw [normalWords, normalWords, h.1, ih h.2]

end NormalWords

/-! ### The count -/

/-- The digits that are written for a count are digits. -/
theorem isDigits_of_countDigits {config : Config} {raw : Option Text} {digits : Text}
    (h : countDigits config raw = .ok digits) : Count.isDigits digits = true := by
  dsimp only [countDigits] at h
  generalize (if (Text.trim (Text.toHalfWidth (raw.getD []))).isEmpty then
    Text.trim config.defaultCount else Text.trim (Text.toHalfWidth (raw.getD []))) = given at h
  split at h
  · next hd => exact Except.ok.inj h ▸ hd
  · cases h

/-- What is wrong with a count is never said of a word. -/
theorem countDigits_eq_error {config : Config} {raw : Option Text} {fault : EncodeError}
    (h : countDigits config raw = .error fault) : ∃ given, fault = .invalidCount given := by
  dsimp only [countDigits] at h
  generalize (if (Text.trim (Text.toHalfWidth (raw.getD []))).isEmpty then
    Text.trim config.defaultCount else Text.trim (Text.toHalfWidth (raw.getD []))) = given at h
  split at h
  · cases h
  · exact ⟨given, (Except.error.inj h).symm⟩

/-- Digits that are given as a count are written as they are. -/
theorem countDigits_of_isDigits {config : Config} {digits : Text}
    (h : Count.isDigits digits = true) : countDigits config (some digits) = .ok digits := by
  have hgiven : Text.trim (Text.toHalfWidth digits) = digits := by
    rw [Count.toHalfWidth_of_isDigits h, Count.trim_of_isDigits h]
  simp [countDigits, hgiven, Count.ne_nil_of_isDigits h, h]

/-- The counts of a formula of the mode that shows these digits. -/
def writtenCounts (mode : Mode) (digits : Text) : List Text :=
  if mode.countSlots = 0 then [] else [digits]

section ModeDigits

variable {config : Config} {mode : Mode} {counts : List Text} {digits : Text}
  (h : modeDigits config mode counts = .ok digits)

include h

/-- What a formula with a count shows for it are digits. -/
theorem isDigits_of_modeDigits (hslots : mode.countSlots ≠ 0) :
    Count.isDigits digits = true := by
  rw [modeDigits, if_neg hslots] at h
  exact isDigits_of_countDigits h

/-- Under every configuration the digits that were written are written again. -/
theorem modeDigits_digits (config' : Config) : modeDigits config' mode [digits] = .ok digits := by
  by_cases hslots : mode.countSlots = 0
  · rw [modeDigits, if_pos hslots] at h ⊢
    exact h
  · rw [modeDigits, if_neg hslots, List.head?_cons]
    exact countDigits_of_isDigits (isDigits_of_modeDigits h hslots)

/-- The same holds of the counts that a formula shows. -/
theorem modeDigits_writtenCounts (config' : Config) :
    modeDigits config' mode (writtenCounts mode digits) = .ok digits := by
  by_cases hslots : mode.countSlots = 0
  · rw [modeDigits, if_pos hslots] at h ⊢
    exact h
  · rw [writtenCounts, if_neg hslots]
    exact modeDigits_digits h config'

end ModeDigits

/-! ### The whole formula -/

/-- Two steps in a row go through exactly when each of them does, the second from the result of the
first. -/
theorem bind_eq_ok_iff {ε α β : Type} {x : Except ε α} {f : α → Except ε β} {b : β} :
    (x >>= f) = .ok b ↔ ∃ a, x = .ok a ∧ f a = .ok b := by
  cases x with
  | error e => simp [bind, Except.bind]
  | ok a => simp [bind, Except.bind]

/-- Writing goes through exactly when the words fill the slots of the mode, every normal form
can stand in a formula, and there are digits for the count. -/
theorem encode_eq_ok_iff {config : Config} {mode : Mode} {words counts : List Text}
    {text : Text} :
    encode config mode words counts = .ok text ↔
      words.length = mode.wordSlots ∧ (∀ w ∈ words, Writable (normalWord config mode w)) ∧
        ∃ digits, modeDigits config mode counts = .ok digits ∧
          text = mode.fill ((words.map (normalWord config mode)).map (slotText mode)) digits := by
  unfold encode
  -- The tests are gone through in their order; the one for blank words never decides.
  by_cases hlen : words.length = mode.wordSlots
  · rw [if_neg (by simpa using hlen)]
    by_cases hw : ∀ w ∈ words, Writable (normalWord config mode w)
    · rw [findIdx?_allBlank_eq_none fun w h => (hw w h).ne_nil]
      simp only [normalWords_eq_ok_iff.mpr ⟨hw, rfl⟩, bind_eq_ok_iff, Except.ok.injEq,
        exists_eq_left', pure, Except.pure, hlen, true_and]
      constructor
      · rintro ⟨digits, hdigits, rfl⟩
        exact ⟨hw, digits, hdigits, rfl⟩
      · rintro ⟨-, digits, hdigits, rfl⟩
        exact ⟨digits, hdigits, rfl⟩
    · constructor
      · intro h
        split at h
        · cases h
        · obtain ⟨normal, hnormal, -⟩ := bind_eq_ok_iff.mp h
          exact absurd (normalWords_eq_ok_iff.mp hnormal).1 hw
      · exact fun h => absurd h.2.1 hw
  · rw [if_pos hlen]
    simp [hlen]

/-- What a formula is refused for: the number of its words, what is wrong with one of them in
its normal form, or the count. -/
theorem encode_eq_error {config : Config} {mode : Mode} {words counts : List Text}
    {fault : EncodeError} (h : encode config mode words counts = .error fault) :
    (words.length ≠ mode.wordSlots ∧ fault = .wordCount mode words.length) ∨
      (∃ slot w, words[slot]? = some w ∧
        wordFault? slot (normalWord config mode w) = some fault) ∨
      modeDigits config mode counts = .error fault := by
  unfold encode at h
  split at h
  · next hlen => exact .inl ⟨hlen, (Except.error.inj h).symm⟩
  refine .inr ?_
  split at h
  · next slot hblank =>
    -- A blank word has the empty normal form, so its fault is that of the normal form.
    obtain ⟨hlt, hw, -⟩ := List.findIdx?_eq_some_iff_getElem.mp hblank
    refine .inl ⟨slot, words[slot], List.getElem?_eq_getElem hlt, ?_⟩
    rw [normalWord_of_allBlank hw, ← Except.error.inj h]
    rfl
  · cases hnormal : normalWords config mode 0 words with
    | error e =>
      rw [hnormal] at h
      cases h
      obtain ⟨slot, w, hw, hfault⟩ := normalWords_eq_error hnormal
      rw [Nat.zero_add] at hfault
      exact .inl ⟨slot, w, hw, hfault⟩
    | ok normal =>
      cases hdigits : modeDigits config mode counts with
      | error e =>
        rw [hnormal, hdigits] at h
        cases h
        exact .inr rfl
      | ok digits =>
        rw [hnormal, hdigits] at h
        cases h

/-- Writing depends on the words through their normal forms, and on the counts through the
digits that they come to. -/
theorem encode_congr {config : Config} {mode : Mode} {words words' counts counts' : List Text}
    (hnormal : words.map (normalWord config mode) = words'.map (normalWord config mode))
    (hblank : words.findIdx? Text.allBlank = words'.findIdx? Text.allBlank)
    (hdigits : modeDigits config mode counts = modeDigits config mode counts') :
    encode config mode words counts = encode config mode words' counts' := by
  have hlen : words.length = words'.length := by
    rw [← List.length_map (normalWord config mode), hnormal, List.length_map]
  rw [encode, encode, hlen, hblank, normalWords_congr hnormal, hdigits]

end QueryMix.Formula
