import Mathlib
import QueryMix.Proofs.Formula.Decode
import QueryMix.Proofs.Formula.Encode

/-!
# `QueryMix.Proofs.Formula.Filled`: what is read fills the slots of its mode

The decoder and the encoder meet at `Filled`. Every formula that was read has a word for each
slot of its mode and a count where the mode takes one; the count is digits, the words are
trimmed and, but for classifications, have lost the round brackets around them
(`filled_of_decode`). So a formula that was read is never refused for the number of its words
or for its count: it is written, with the digits that were read, or one of its words is at
fault (`encodeWith_of_filled`).

Nothing is said of empty words. A serial formula and a classification may be read with one, and
then it is the word that the encoder refuses.
-/

set_option autoImplicit false

namespace QueryMix.Formula

open QueryMix.Bracket

/-- A formula whose parts are as the encoder takes them: `words_length` and `counts_length` fit
the mode, `counts_digits` are digits as they are written, and its words need no trimming
(`words_trimmed`) and, if the mode mixes words, no taking off of brackets (`words_bare`). -/
structure Filled (f : Formula) : Prop where
  words_length : f.words.length = f.mode.wordSlots
  counts_length : f.counts.length = f.mode.countSlots
  counts_digits : ∀ n ∈ f.counts, Count.isDigits n = true
  words_trimmed : ∀ w ∈ f.words, Text.trim w = w
  words_bare : f.mode ≠ .classification → ∀ w ∈ f.words, isEnclosed '(' w = false

/-! ### Formulas that were read -/

/-- Slots without the brackets around them, and a count if the mode takes one, make a filled
formula. -/
theorem filled_of_unwrap {mode : Mode} {slots counts : List Text}
    (hslots : slots.length = mode.wordSlots) (hcounts : counts.length = mode.countSlots)
    (hdigits : ∀ n ∈ counts, Count.isDigits n = true) :
    Filled ⟨mode, slots.map unwrap, counts⟩ where
  words_length := by rw [List.length_map, hslots]
  counts_length := hcounts
  counts_digits := hdigits
  words_trimmed := by
    intro w hw
    obtain ⟨s, -, rfl⟩ := List.mem_map.mp hw
    exact trim_unwrap s
  words_bare := by
    intro _ w hw
    obtain ⟨s, -, rfl⟩ := List.mem_map.mp hw
    rw [isEnclosed_round, enclosed?_unwrap]
    rfl

/-- The same with the one count that was read. -/
theorem filled_of_digits? {mode : Mode} {slots : List Text} {n count : Text}
    (hslots : slots.length = mode.wordSlots) (hmode : mode.countSlots = 1)
    (hcount : Count.digits? n = some count) : Filled ⟨mode, slots.map unwrap, [count]⟩ :=
  filled_of_unwrap hslots hmode.symm
    (List.forall_mem_singleton.mpr (Count.digits?_eq_some_iff.mp hcount).1)

section Stages

variable {t : Text} {f : Formula}

/-- A parallel formula has three words and the count that was read between the last two. -/
theorem filled_of_parallel? (h : parallel? t = some f) : Filled f := by
  obtain ⟨left, right, b, n, c, count, -, -, hcount, -, rfl⟩ := parallel?_eq_some_iff.mp h
  exact filled_of_digits? rfl rfl hcount

/-- A collection has three words and the count that follows its braces. -/
theorem filled_of_collection? (h : collection? t = some f) : Filled f := by
  obtain ⟨inside, count, a, b, c, hbody, -, -, rfl⟩ := collection?_eq_some_iff.mp h
  obtain ⟨rest, n, -, -, -, hcount⟩ := collectionBody?_eq_some_iff.mp hbody
  exact filled_of_digits? rfl rfl hcount

/-- Of the two counts of a serial formula the first is kept. -/
theorem filled_of_serial? (h : serial? t = some f) : Filled f := by
  obtain ⟨inside, a, m, b, n, c, first, second, -, -, hfirst, -, rfl⟩ := serial?_eq_some_iff.mp h
  exact filled_of_digits? rfl rfl hfirst

/-- A single word has no count, and a pair has the one between its words. -/
theorem filled_of_flat? (h : flat? t = some f) : Filled f := by
  rcases flat?_eq_some_iff.mp h with ⟨a, -, -, rfl⟩ | ⟨a, n, b, count, -, hcount, -, -, rfl⟩
  · show Filled ⟨.single, [a].map unwrap, []⟩
    exact filled_of_unwrap rfl rfl (List.forall_mem_nil _)
  · show Filled ⟨.pair, [a, b].map unwrap, [count]⟩
    exact filled_of_digits? rfl rfl hcount

/-- A classification loses one layer of brackets only, so its word may still be enclosed. -/
theorem filled_of_classification? (h : classification? t = some f) : Filled f := by
  obtain ⟨code, -, -, rfl⟩ := classification?_eq_some_iff.mp h
  exact
    { words_length := rfl
      counts_length := rfl
      counts_digits := List.forall_mem_nil _
      words_trimmed := List.forall_mem_singleton.mpr (trim_unwrapOnce code)
      words_bare := fun hmode => absurd rfl hmode }

/-- Whatever stage read it, a formula is filled. -/
theorem filled_of_decode (h : decode t = .ok f) : Filled f := by
  rcases ofTrimmed?_cases (decode_eq_ok_iff.mp h) with ⟨inside, -, h | h⟩ | h | h | h
  · exact filled_of_parallel? h
  · exact filled_of_classification? h
  · exact filled_of_collection? h
  · exact filled_of_serial? h
  · exact filled_of_flat? h

end Stages

/-! ### Writing them -/

section Write

variable {f : Formula} (hf : Filled f)

include hf

/-- The digits of a filled formula are its counts, and they are the digits that are written,
whatever the configuration proposes. -/
theorem modeDigits_of_filled :
    ∃ digits, f.counts = writtenCounts f.mode digits ∧
      ∀ config, modeDigits config f.mode f.counts = .ok digits := by
  have hlength := hf.counts_length
  -- A formula without a slot for counts shows no digits, and the others have one count.
  by_cases hslots : f.mode.countSlots = 0
  · rw [hslots, List.length_eq_zero_iff] at hlength
    refine ⟨[], by rw [writtenCounts, if_pos hslots, hlength], fun config => ?_⟩
    rw [modeDigits, if_pos hslots]
  · have hone : f.mode.countSlots = 1 := by
      cases hmode : f.mode with
      | single => exact absurd (congrArg Mode.countSlots hmode) hslots
      | classification => exact absurd (congrArg Mode.countSlots hmode) hslots
      | _ => rfl
    rw [hone, List.length_eq_one_iff] at hlength
    obtain ⟨digits, hcounts⟩ := hlength
    refine ⟨digits, by rw [writtenCounts, if_neg hslots, hcounts], fun config => ?_⟩
    have hdigits : Count.isDigits digits = true :=
      hf.counts_digits digits (by rw [hcounts]; exact List.mem_singleton_self digits)
    rw [modeDigits, if_neg hslots, hcounts, List.head?_cons, countDigits_of_isDigits hdigits]

/-- A filled formula is written with its own digits, or one of its words is at fault. -/
theorem encodeWith_of_filled (config : Config) :
    (∃ digits, f.counts = writtenCounts f.mode digits ∧
      encodeWith config f = .ok (f.mode.fill
        ((f.words.map (normalWord config f.mode)).map (slotText f.mode)) digits)) ∨
      ∃ slot < f.words.length,
        encodeWith config f = .error (.emptyWord slot) ∨
          encodeWith config f = .error (.forbiddenSeparator slot) ∨
          encodeWith config f = .error (.unbalancedBrackets slot) := by
  obtain ⟨digits, hcounts, hdigits⟩ := modeDigits_of_filled hf
  cases hencode : encodeWith config f with
  | ok text =>
    obtain ⟨-, -, written, hwritten, rfl⟩ := encode_eq_ok_iff.mp hencode
    cases (hdigits config).symm.trans hwritten
    exact .inl ⟨digits, hcounts, rfl⟩
  | error fault =>
    refine .inr ?_
    -- The number of words is right and the count is made of digits, so a word is at fault.
    rcases encode_eq_error hencode with ⟨hlen, -⟩ | ⟨slot, w, hw, hfault⟩ | hcount
    · exact absurd hf.words_length hlen
    · obtain ⟨hlt, -⟩ := List.getElem?_eq_some_iff.mp hw
      refine ⟨slot, hlt, ?_⟩
      rcases wordFault?_cases hfault with ⟨rfl, -⟩ | ⟨rfl, -⟩ | ⟨rfl, -⟩
      · exact .inl rfl
      · exact .inr (.inl rfl)
      · exact .inr (.inr rfl)
    · rw [hdigits config] at hcount
      cases hcount

end Write

/-- Every formula that was read is filled, and every configuration writes it, with the digits
that were read, or refuses one of its words as empty, for a separator in it or for its
brackets. -/
theorem filled_and_encodeWith_of_decode {t : Text} {f : Formula} (h : decode t = .ok f) :
    Filled f ∧ ∀ config,
      (∃ digits, f.counts = writtenCounts f.mode digits ∧
        encodeWith config f = .ok (f.mode.fill
          ((f.words.map (normalWord config f.mode)).map (slotText f.mode)) digits)) ∨
        ∃ slot < f.words.length,
          encodeWith config f = .error (.emptyWord slot) ∨
            encodeWith config f = .error (.forbiddenSeparator slot) ∨
            encodeWith config f = .error (.unbalancedBrackets slot) :=
  ⟨filled_of_decode h, encodeWith_of_filled (filled_of_decode h)⟩

/-- A serial formula with two counts is written with the first of them, leading zeros and all. -/
theorem encodeWith_leadingZeros :
    ∃ f, decode "\x7b((A)),007n,B,12N,C\x7d".toList = .ok f ∧ Filled f ∧
      encodeWith Config.literal f = .ok "\x7bA,007N,B,007N,C\x7d/TX".toList := by
  have hdecode : decode "\x7b((A)),007n,B,12N,C\x7d".toList =
      .ok ⟨.serial, ["A".toList, "B".toList, "C".toList], ["007".toList]⟩ := by cbv
  obtain ⟨hfilled, -⟩ := filled_and_encodeWith_of_decode hdecode
  exact ⟨_, hdecode, hfilled, by cbv⟩

end QueryMix.Formula
