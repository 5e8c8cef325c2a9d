import QueryMix.Proofs.Formula.Classification

/-!
# `QueryMix.Proofs.Formula.RoundTrip`: which formulas come back from their text

Not every text that is written is read back as the formula that it was written from, since
the encoder checks neither for commas at top level nor for words that look like another
shape. `comesBack_iff` says exactly when a formula comes back: its slots must satisfy
`ReadsBack`, and its normal forms must be settled (`Settled`), which they are for all words
with balanced brackets (`settled_of_balanced`). For such words `ReadsBack` alone decides
about the modes that mix words, and what is read back can be written again under every
configuration (`decode_encode_iff`).

The condition on the settled normal forms takes the place of a condition on the brackets of
the words: a word with unbalanced brackets can have a balanced normal form, and then the
decoder may take brackets off that do not belong together.
-/

set_option autoImplicit false

namespace QueryMix.Formula

open QueryMix.Bracket QueryMix.Nesting

/-- The text is read as the formula that was written: in the same mode, with words of the same
normal forms, with the counts that were written, and with the same text when it is written
again. -/
def ComesBack (config : Config) (mode : Mode) (words counts : List Text) (text : Text) : Prop :=
  ∃ f, decode text = .ok f ∧ f.mode = mode ∧
    f.words.map (normalWord config mode) = words.map (normalWord config mode) ∧
    (∃ digits, modeDigits config mode counts = .ok digits ∧
      f.counts = writtenCounts mode digits) ∧
    encodeWith config f = .ok text

/-- The normal forms of the words normalize to themselves when the round brackets around them
are taken off first. Nothing is asked of a classification, which keeps its brackets. -/
def Settled (config : Config) (mode : Mode) (words : List Text) : Prop :=
  mode ≠ .classification →
    ∀ w ∈ words, normalWord config mode (unwrap (normalWord config mode w)) =
      normalWord config mode w

instance (config : Config) (mode : Mode) (words : List Text) :
    Decidable (Settled config mode words) := inferInstanceAs (Decidable (_ → _))

section Words

variable {config : Config} {mode : Mode}

/-- Something is left of a settled normal form without its round brackets. -/
theorem unwrap_ne_nil_of_settled {raw : Text} (hne : normalWord config mode raw ≠ [])
    (hsettled : normalWord config mode (unwrap (normalWord config mode raw)) =
      normalWord config mode raw) :
    unwrap (normalWord config mode raw) ≠ [] := by
  intro hnil
  rw [hnil, normalWord_of_allBlank (by rfl)] at hsettled
  exact hne hsettled.symm

/-- Writing the normal forms without their round brackets is writing the words, under every
configuration that cannot tell the two apart. -/
theorem encode_unwrap_normal {words counts : List Text} {digits : Text}
    (hdigits : modeDigits config mode counts = .ok digits)
    (hne : ∀ w ∈ words, normalWord config mode w ≠ [])
    (hvisible : ∀ w ∈ words, unwrap (normalWord config mode w) ≠ []) {config' : Config}
    (hsame : ∀ w ∈ words, normalWord config' mode (unwrap (normalWord config mode w)) =
      normalWord config' mode w) :
    encode config' mode ((words.map (normalWord config mode)).map unwrap)
        (writtenCounts mode digits) =
      encode config' mode words [digits] := by
  refine encode_congr ?_ ?_ ?_
  · rw [List.map_map, List.map_map]
    exact List.map_congr_left hsame
  · -- Neither side has a blank word: an unwrapped text is trimmed, and it is not empty.
    rw [findIdx?_allBlank_eq_none hne, List.findIdx?_eq_none_iff]
    intro u hu
    obtain ⟨t, ht, rfl⟩ := List.mem_map.mp hu
    obtain ⟨w, hw, rfl⟩ := List.mem_map.mp ht
    rw [Text.allBlank, trim_unwrap, List.isEmpty_eq_false_iff]
    exact hvisible w hw
  · rw [modeDigits_writtenCounts hdigits, modeDigits_digits hdigits]

end Words

section Mix

variable {config : Config} {mode : Mode} (hmode : mode ≠ .classification)

include hmode

/-- Outside a classification words are normalized with the widths that the configuration asks
for. -/
theorem normalWord_of_ne : normalWord config mode = Word.normalize config.widthVariants := by
  cases mode with
  | classification => exact absurd rfl hmode
  | _ => rfl

/-- Outside a classification nothing is put around a word. -/
theorem slotText_of_ne (word : Text) : slotText mode word = word := by
  cases mode with
  | classification => exact absurd rfl hmode
  | _ => rfl

/-- Outside a classification the slots of a text that was written are the normal forms. -/
theorem fill_of_encode {words counts : List Text} {text : Text}
    (h : encode config mode words counts = .ok text) :
    ∃ digits, modeDigits config mode counts = .ok digits ∧
      text = mode.fill (words.map (normalWord config mode)) digits := by
  obtain ⟨-, -, digits, hdigits, rfl⟩ := encode_eq_ok_iff.mp h
  refine ⟨digits, hdigits, ?_⟩
  rw [show slotText mode = id from funext (slotText_of_ne hmode), List.map_id]

/-- Outside a classification a normal form that passes the checks can stand in a slot. -/
theorem isSlot_normalWord {raw : Text} (h : Writable (normalWord config mode raw)) :
    IsSlot (normalWord config mode raw) := by
  refine ⟨h.ne_nil, ?_, h.balanced⟩
  rw [normalWord_of_ne hmode]
  exact Word.trim_normalize _ raw

/-- The words of balanced brackets are settled. -/
theorem settled_of_balanced {words : List Text}
    (hbal : ∀ w ∈ words, isBalanced (Text.toHalfWidth w) = true) :
    Settled config mode words := by
  intro _ w hw
  rw [normalWord_of_ne hmode]
  exact Word.normalize_unwrap_normalize (hbal w hw) _ _

/-- What comes off a normal form keeps its balance when it is folded. -/
theorem isBalanced_toHalfWidth_unwrap {raw : Text}
    (hbal : isBalanced (normalWord config mode raw) = true) :
    isBalanced (Text.toHalfWidth (unwrap (normalWord config mode raw))) = true := by
  rw [normalWord_of_ne hmode] at hbal ⊢
  have hroles : Text.KeepsRoles (unwrap (Word.normalize config.widthVariants raw)) :=
    (Word.keepsRoles_normalize _ raw).subset (unwrap_sublist _).subset
  rw [Text.isBalanced_toHalfWidth hroles, isBalanced_unwrap, hbal]

/-- A settled normal form shows no `+` at top level: it is the normal form of what comes off
it, and that is balanced. -/
theorem splitTop_of_settled {raw : Text} (hbal : isBalanced (normalWord config mode raw) = true)
    (hsettled : normalWord config mode (unwrap (normalWord config mode raw)) =
      normalWord config mode raw) :
    splitTop '+' (normalWord config mode raw) = [normalWord config mode raw] := by
  have hfold := isBalanced_toHalfWidth_unwrap hmode hbal
  have hnormal : normalWord config mode = Word.normalize config.widthVariants :=
    normalWord_of_ne hmode
  have huncut := Word.splitTop_normalize hfold config.widthVariants
  rw [← hnormal, hsettled] at huncut
  exact huncut

/-- For settled words the filled shape is read back exactly when nothing in the slots leads
elsewhere. -/
theorem decode_fill_normal_iff {words : List Text} {digits : Text} {f : Formula}
    (hlen : words.length = mode.wordSlots)
    (hwritable : ∀ w ∈ words, Writable (normalWord config mode w))
    (hsettled : Settled config mode words)
    (hd : mode.countSlots ≠ 0 → Count.isDigits digits = true) :
    (decode (mode.fill (words.map (normalWord config mode)) digits) = .ok f ∧ f.mode = mode) ↔
      ReadsBack mode (words.map (normalWord config mode)) ∧
        f = ⟨mode, (words.map (normalWord config mode)).map unwrap,
          writtenCounts mode digits⟩ := by
  have hslots : ∀ t ∈ words.map (normalWord config mode), IsSlot t := by
    intro t ht
    obtain ⟨w, hw, rfl⟩ := List.mem_map.mp ht
    exact isSlot_normalWord hmode (hwritable w hw)
  have hplus : ∀ t ∈ words.map (normalWord config mode), splitTop '+' t = [t] := by
    intro t ht
    obtain ⟨w, hw, rfl⟩ := List.mem_map.mp ht
    exact splitTop_of_settled hmode (hwritable w hw).balanced (hsettled hmode w hw)
  have hvisible : ∀ t ∈ words.map (normalWord config mode), unwrap t ≠ [] := by
    intro t ht
    obtain ⟨w, hw, rfl⟩ := List.mem_map.mp ht
    exact unwrap_ne_nil_of_settled (hwritable w hw).ne_nil (hsettled hmode w hw)
  -- All that reading back asks of the slots holds of settled normal forms, but for `ReadsBack`.
  rw [decode_fill_iff hmode (by rw [List.length_map, hlen]) hslots
    (fun _ t ht => hplus t (List.mem_of_mem_head? ht)) hd]
  exact ⟨fun h => ⟨h.1, h.2.2⟩, fun h => ⟨h.1, .inr hvisible, h.2⟩⟩

end Mix

/-! ### The first word of a parallel formula -/

/-- The first word that is read from a balanced text is balanced, and part of the text. -/
theorem head_of_parallel? {inside : Text} {f : Formula} (h : parallel? inside = some f)
    (hbal : isBalanced inside = true) :
    ∃ w ws, f.words = w :: ws ∧ isBalanced w = true ∧ w ⊆ inside := by
  obtain ⟨left, right, b, n, c, count, hsides, -, -, -, rfl⟩ := parallel?_eq_some_iff.mp h
  obtain ⟨l, r, hcut, hleft, -⟩ := parallelSides?_eq_some_iff.mp hsides
  obtain ⟨rfl, hafter, -⟩ := Field.splitAfter?_eq_some hcut
  refine ⟨unwrap left, _, rfl, ?_, ?_⟩
  · rw [isBalanced_unwrap, Field.isBalanced_of_dropEnding? hleft]
    exact ((isBalanced_append_iff hafter).mp hbal).1
  · intro x hx
    have hmem : x ∈ l :=
      (Text.sublist_of_dropEnding? hleft).subset ((unwrap_sublist left).subset hx)
    exact List.mem_append_left _ hmem

/-- What the two sides of a parallel formula are made of is not changed by folding. -/
theorem keepsRoles_twoSides {config : Config} {a b c d : Text} (hd : Count.isDigits d = true) :
    Text.KeepsRoles (twoSides (Word.normalize config.widthVariants a)
      ([','].intercalate [Word.normalize config.widthVariants b, d ++ ['N'],
        Word.normalize config.widthVariants c]) .fullText .fullText) := by
  have hsuffix : Text.KeepsRoles Field.fullText.suffix :=
    Text.keepsRoles_of_lt (by simp [Field.suffix])
  have hcomma : Text.KeepsRoles [','] := Text.keepsRoles_of_lt (by simp)
  have hplus : Text.KeepsRoles ['+'] := Text.keepsRoles_of_lt (by simp)
  have hN : Text.KeepsRoles ['N'] := Text.keepsRoles_of_lt (by simp)
  have hdigits : Text.KeepsRoles d := Text.keepsRoles_of_lt fun x hx => by
    have hx' := Text.toNat_of_isAlphanum (Count.isAlphanum_of_mem hd hx)
    omega
  have hword (w : Text) : Text.KeepsRoles (Word.normalize config.widthVariants w) :=
    Word.keepsRoles_normalize _ w
  have hright := (((hword b).append (hcomma.append (hdigits.append hN))).append
    (hcomma.append (hword c))).append hsuffix
  have hall := ((hword a).append hsuffix).append (hplus.append hright)
  simpa [twoSides, List.intercalate] using hall

/-- If a parallel formula comes back with words of the same normal forms, then its first slot
shows no `+` at top level: it is the normal form of a word that was read from a balanced
text. -/
theorem splitTop_head_of_decode {config : Config} {words : List Text} {digits : Text}
    {f : Formula} (hlen : words.length = 3)
    (hwritable : ∀ w ∈ words, Writable (normalWord config .parallel w))
    (hd : Count.isDigits digits = true)
    (hdecode : decode (Mode.fill .parallel (words.map (normalWord config .parallel)) digits) =
      .ok f)
    (hmode : f.mode = .parallel)
    (hwords : f.words.map (normalWord config .parallel) =
      words.map (normalWord config .parallel)) :
    ∀ t ∈ (words.map (normalWord config .parallel)).head?, splitTop '+' t = [t] := by
  have hne : Mode.parallel ≠ .classification := by decide
  match words, hlen with
  | [x, y, z], _ =>
    have hx := isSlot_normalWord hne (hwritable x (by simp))
    have hy := isSlot_normalWord hne (hwritable y (by simp))
    have hz := isSlot_normalWord hne (hwritable z (by simp))
    have hright : IsSlot ([','].intercalate [normalWord config .parallel y, digits ++ ['N'],
        normalWord config .parallel z]) :=
      isSlot_intercalate (by simp) (by simp [hy, hz, isSlot_count hd])
    simp only [List.map_cons, List.map_nil] at hdecode hwords ⊢
    rw [fill_parallel] at hdecode
    have hparallel := parallel?_of_decode_square (trim_twoSides hx _ _ _) hdecode hmode
    obtain ⟨w, ws, hw, hbal, hsub⟩ :=
      head_of_parallel? hparallel (isBalanced_twoSides hx hright _ _)
    -- The word that was read is balanced, and it stays so when it is folded for its normal form.
    have hroles : Text.KeepsRoles w := (keepsRoles_twoSides hd).subset hsub
    rw [hw, List.map_cons, List.cons.injEq] at hwords
    have huncut := Word.splitTop_normalize
      ((Text.isBalanced_toHalfWidth hroles).trans hbal) config.widthVariants
    intro t ht
    cases ht
    rw [← hwords.1]
    exact huncut

/-! ### The round trip -/

/-- The digits that were written are as good as the counts that were given. -/
theorem encode_digits {config : Config} {mode : Mode} {words counts : List Text} {digits : Text}
    (hdigits : modeDigits config mode counts = .ok digits) :
    encode config mode words [digits] = encode config mode words counts :=
  encode_congr rfl rfl (by rw [modeDigits_digits hdigits, hdigits])

/-- A classification comes back exactly when its code is not enclosed in round brackets: the
decoder takes off brackets that belong to the normal form. -/
theorem comesBack_classification_iff {config : Config} {words counts : List Text} {text : Text}
    (h : encode config .classification words counts = .ok text) :
    ComesBack config .classification words counts text ↔
      ReadsBack .classification (words.map (normalWord config .classification)) := by
  obtain ⟨raw, rfl, hslot, rfl, hdecode⟩ := decode_of_encode_classification h
  have hwritable : Writable (Word.normalizeCode raw) :=
    (encode_eq_ok_iff.mp h).2.1 raw (List.mem_singleton_self raw)
  have hreads : ReadsBack .classification ([raw].map (normalWord config .classification)) ↔
      enclosed? round (Word.normalizeCode raw) = none := by
    simp [ReadsBack, normalWord]
  rw [unwrapOnce_of_trim hslot.trimmed] at hdecode
  rw [hreads]
  cases hbare : enclosed? round (Word.normalizeCode raw) with
  | none =>
    rw [hbare] at hdecode
    have hword := normalizeCode_of_subset hslot.trimmed (List.Subset.refl _)
    refine iff_of_true ⟨_, hdecode, rfl, ?_, ⟨[], rfl, rfl⟩, ?_⟩ rfl
    · show [Word.normalizeCode (Word.normalizeCode raw)] = [Word.normalizeCode raw]
      rw [hword]
    · exact (encode_classification_eq_iff hword).mpr ⟨hwritable, rfl⟩
  | some inside =>
    rw [hbare] at hdecode
    refine iff_of_false ?_ (by simp)
    rintro ⟨f, hf, -, hwords, -, -⟩
    cases hdecode.symm.trans hf
    -- The word that was read is shorter than the normal form, and normalizing keeps it so.
    have hword : Word.normalizeCode (Text.trim inside) = Word.normalizeCode raw :=
      (List.cons.inj hwords).1
    have hlen := length_lt_of_enclosed? hbare
    have htrim := Text.length_trim_le (Text.toHalfWidth (Text.trim inside))
    have hinside := Text.length_trim_le inside
    rw [Text.toHalfWidth, List.length_map] at htrim
    rw [← hword, Word.normalizeCode, Text.toHalfWidth] at hlen
    omega

/-- Outside a classification a formula comes back exactly when the text of its normal forms is read
back and these are settled. -/
theorem comesBack_mix_iff {config : Config} {mode : Mode} {words counts : List Text}
    {text : Text} (hmode : mode ≠ .classification)
    (h : encode config mode words counts = .ok text) :
    ComesBack config mode words counts text ↔
      ReadsBack mode (words.map (normalWord config mode)) ∧ Settled config mode words := by
  obtain ⟨hlen, hwritable, -⟩ := encode_eq_ok_iff.mp h
  obtain ⟨digits, hdigits, rfl⟩ := fill_of_encode hmode h
  have hd : mode.countSlots ≠ 0 → Count.isDigits digits = true :=
    isDigits_of_modeDigits hdigits
  constructor
  · rintro ⟨f, hdecode, hf, hwords, -, -⟩
    have hslots : ∀ t ∈ words.map (normalWord config mode), IsSlot t := by
      intro t ht
      obtain ⟨w, hw, rfl⟩ := List.mem_map.mp ht
      exact isSlot_normalWord hmode (hwritable w hw)
    have hplus : mode = .parallel →
        ∀ t ∈ (words.map (normalWord config mode)).head?, splitTop '+' t = [t] := by
      rintro rfl
      exact splitTop_head_of_decode hlen hwritable (hd (by decide)) hdecode hf hwords
    -- What was read are the slots without their brackets, so its normal forms are those of
    -- the unwrapped slots, and they are known to be the slots.
    have hslotsLen : (words.map (normalWord config mode)).length = mode.wordSlots := by
      rw [List.length_map, hlen]
    obtain ⟨hreads, -, rfl⟩ :=
      (decode_fill_iff hmode hslotsLen hslots hplus hd).mp ⟨hdecode, hf⟩
    refine ⟨hreads, fun _ => ?_⟩
    rw [List.map_map, List.map_map] at hwords
    exact List.map_inj_left.mp hwords
  · rintro ⟨hreads, hsettled⟩
    obtain ⟨hdecode, -⟩ :=
      (decode_fill_normal_iff hmode hlen hwritable hsettled hd).mpr ⟨hreads, rfl⟩
    refine ⟨_, hdecode, rfl, ?_, ⟨digits, hdigits, rfl⟩, ?_⟩
    · show ((words.map (normalWord config mode)).map unwrap).map (normalWord config mode) = _
      rw [List.map_map, List.map_map]
      exact List.map_congr_left (hsettled hmode)
    · have hne : ∀ w ∈ words, normalWord config mode w ≠ [] := fun w hw => (hwritable w hw).ne_nil
      have hvisible : ∀ w ∈ words, unwrap (normalWord config mode w) ≠ [] :=
        fun w hw => unwrap_ne_nil_of_settled (hne w hw) (hsettled hmode w hw)
      rw [encodeWith, encode_unwrap_normal hdigits hne hvisible (hsettled hmode),
        encode_digits hdigits, h]

/-- A formula comes back from its text exactly when its slots satisfy `ReadsBack` and its
normal forms are settled. -/
theorem comesBack_iff {config : Config} {mode : Mode} {words counts : List Text} {text : Text}
    (h : encode config mode words counts = .ok text) :
    ComesBack config mode words counts text ↔
      ReadsBack mode (words.map (normalWord config mode)) ∧ Settled config mode words := by
  by_cases hmode : mode = .classification
  · rw [hmode] at h ⊢
    rw [comesBack_classification_iff h]
    exact (and_iff_left fun hne => absurd rfl hne).symm
  · exact comesBack_mix_iff hmode h

/-- A plain word comes back. -/
theorem comesBack_plain :
    ComesBack Config.canonical .single ["abc".toList] [] "(abc+ａｂｃ)/TX".toList := by
  have h : encode Config.canonical .single ["abc".toList] [] = .ok "(abc+ａｂｃ)/TX".toList := by
    cbv
  have hnormal : ["abc".toList].map (normalWord Config.canonical .single) =
      ["(abc+ａｂｃ)".toList] := by cbv
  refine (comesBack_iff h).mpr ⟨by rw [hnormal]; decide, fun _ w hw => ?_⟩
  rw [List.mem_singleton.mp hw]
  cbv

/-- A word with commas of its own does not: the text is read as a pair. -/
theorem not_comesBack_comma :
    encode Config.literal .single ["A,3N,B".toList] [] = .ok "A,3N,B/TX".toList ∧
      ¬ComesBack Config.literal .single ["A,3N,B".toList] [] "A,3N,B/TX".toList := by
  have hdecode : decode "A,3N,B/TX".toList =
      .ok ⟨.pair, ["A".toList, "B".toList], ["3".toList]⟩ := by cbv
  refine ⟨by cbv, ?_⟩
  rintro ⟨f, hf, hmode, -⟩
  cases hdecode.symm.trans hf
  cases hmode

/-- For words with balanced brackets, a formula of the modes that mix words is read in its own
mode exactly when its slots satisfy `ReadsBack`. Then the words are the normal forms without
the round brackets around them and the counts are the digits that were written, and writing
what was read gives, under every configuration, what writing the words gives. -/
theorem decode_encode_iff {config : Config} {mode : Mode} {words counts : List Text}
    {text : Text} (hmode : mode ≠ .classification)
    (hbal : ∀ w ∈ words, isBalanced (Text.toHalfWidth w) = true)
    (h : encode config mode words counts = .ok text) :
    ∃ digits, modeDigits config mode counts = .ok digits ∧
      ((∃ f, decode text = .ok f ∧ f.mode = mode) ↔
        ReadsBack mode (words.map (normalWord config mode))) ∧
      (ReadsBack mode (words.map (normalWord config mode)) →
        ∃ f, decode text = .ok f ∧
          f = ⟨mode, (words.map (normalWord config mode)).map unwrap,
            writtenCounts mode digits⟩ ∧
          (∀ config', encodeWith config' f = encode config' mode words [digits]) ∧
          encodeWith config f = .ok text) := by
  obtain ⟨hlen, hwritable, -⟩ := encode_eq_ok_iff.mp h
  obtain ⟨digits, hdigits, rfl⟩ := fill_of_encode hmode h
  have hsettled : Settled config mode words := settled_of_balanced hmode hbal
  have hread (f : Formula) :=
    decode_fill_normal_iff (f := f) hmode hlen hwritable hsettled (isDigits_of_modeDigits hdigits)
  refine ⟨digits, hdigits, ⟨?_, ?_⟩, ?_⟩
  · rintro ⟨f, hf⟩
    exact ((hread f).mp hf).1
  · exact fun hreads => ⟨_, (hread _).mpr ⟨hreads, rfl⟩⟩
  · intro hreads
    have hne : ∀ w ∈ words, normalWord config mode w ≠ [] := fun w hw => (hwritable w hw).ne_nil
    have hvisible : ∀ w ∈ words, unwrap (normalWord config mode w) ≠ [] :=
      fun w hw => unwrap_ne_nil_of_settled (hne w hw) (hsettled hmode w hw)
    have hagain (config' : Config) :
        encode config' mode ((words.map (normalWord config mode)).map unwrap)
          (writtenCounts mode digits) = encode config' mode words [digits] := by
      refine encode_unwrap_normal hdigits hne hvisible fun w hw => ?_
      rw [normalWord_of_ne hmode, normalWord_of_ne hmode]
      exact Word.normalize_unwrap_normalize (hbal w hw) _ _
    refine ⟨_, ((hread _).mpr ⟨hreads, rfl⟩).1, rfl, hagain, ?_⟩
    rw [encodeWith, hagain config, encode_digits hdigits, h]

/-- A pair that was written with full-width forms is written without them when what was read
is written again without them. -/
theorem decode_encode_pair :
    ∃ f, decode "(AB+ＡＢ),3N,x-y/TX".toList = .ok f ∧
      f = ⟨.pair, ["AB+ＡＢ".toList, "x-y".toList], ["3".toList]⟩ ∧
      encodeWith Config.literal f = .ok "AB,3N,x-y/TX".toList := by
  have h : encode Config.canonical .pair ["AB".toList, "(x-y)".toList] ["3".toList] =
      .ok "(AB+ＡＢ),3N,x-y/TX".toList := by cbv
  have hbal : ∀ w ∈ ["AB".toList, "(x-y)".toList], isBalanced (Text.toHalfWidth w) = true := by
    decide
  have hnormal : ["AB".toList, "(x-y)".toList].map (normalWord Config.canonical .pair) =
      ["(AB+ＡＢ)".toList, "x-y".toList] := by cbv
  obtain ⟨digits, hdigits, -, hback⟩ := decode_encode_iff (by decide) hbal h
  obtain ⟨f, hf, hshape, hagain, -⟩ := hback (by rw [hnormal]; decide)
  have hthree : digits = "3".toList := by
    have hread : modeDigits Config.canonical .pair ["3".toList] = .ok "3".toList := by cbv
    exact Except.ok.inj (hdigits.symm.trans hread)
  refine ⟨f, hf, ?_, ?_⟩
  · rw [hshape, hnormal, hthree]
    cbv
  · rw [hagain, hthree]
    cbv

end QueryMix.Formula
