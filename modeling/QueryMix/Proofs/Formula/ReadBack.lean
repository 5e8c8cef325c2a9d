import QueryMix.Proofs.Formula.Decode
import QueryMix.Proofs.Formula.Encode

/-!
# `QueryMix.Proofs.Formula.ReadBack`: when a filled shape is read back as it was filled

The shape of a mode, filled with slot texts and digits, is not always read in that mode: a
comma at top level in a slot makes two parts of it, and a single word may itself look like a
serial formula. `ReadsBack` says of the slots of a mode that nothing of the kind happens.

The condition is exact (`decode_fill_iff`): a filled shape is read in its own mode exactly
when its slots satisfy `ReadsBack` and something is left of each without the round brackets
around it, and then the words are the slots without their brackets and the counts are the
digits that were filled in.
-/

set_option autoImplicit false

namespace QueryMix.Formula

open QueryMix.Bracket QueryMix.Nesting

/-- Nothing in the slots of the mode leads the decoder to other words or to another mode. -/
def ReadsBack (mode : Mode) (slots : List Text) : Prop :=
  match mode with
  | .single => ∀ w ∈ slots, containsTop ',' w = false ∧ serialShaped w = false
  | .parallel => ∀ w ∈ slots.tail, containsTop ',' w = false
  | .classification => ∀ w ∈ slots, enclosed? round w = none
  | _ => ∀ w ∈ slots, containsTop ',' w = false

instance (mode : Mode) (slots : List Text) : Decidable (ReadsBack mode slots) :=
  match mode with
  | .single => inferInstanceAs (Decidable (∀ w ∈ slots, _ ∧ _))
  | .parallel => inferInstanceAs (Decidable (∀ w ∈ slots.tail, _))
  | .classification => inferInstanceAs (Decidable (∀ w ∈ slots, _))
  | .pair => inferInstanceAs (Decidable (∀ w ∈ slots, _))
  | .serial => inferInstanceAs (Decidable (∀ w ∈ slots, _))
  | .collection => inferInstanceAs (Decidable (∀ w ∈ slots, _))

/-! ### The filled shapes -/

section Fill

variable (a b c d : Text)

/-- A single word is written `A/TX`. -/
theorem fill_single : Mode.fill .single [a] d = a ++ Field.fullText.suffix := by
  simp [Mode.fill, Mode.shape, ShapePiece.fill]

/-- A pair is written `A,nN,B/TX`. -/
theorem fill_pair :
    Mode.fill .pair [a, b] d = [','].intercalate [a, d ++ ['N'], b] ++ Field.fullText.suffix := by
  simp [Mode.fill, Mode.shape, ShapePiece.fill, List.intercalate]

/-- A serial formula is written `{A,nN,B,nN,C}/TX`: one count for both gaps. -/
theorem fill_serial :
    Mode.fill .serial [a, b, c] d =
      '{' :: ([','].intercalate [a, d ++ ['N'], b, d ++ ['N'], c] ++ ['}']) ++
        Field.fullText.suffix := by
  simp [Mode.fill, Mode.shape, ShapePiece.fill, List.intercalate]

/-- A collection is written `{A,B,C},nN/TX`. -/
theorem fill_collection :
    Mode.fill .collection [a, b, c] d =
      '{' :: ([','].intercalate [a, b, c] ++ '}' :: ',' :: (d ++ ['N'])) ++
        Field.fullText.suffix := by
  simp [Mode.fill, Mode.shape, ShapePiece.fill, List.intercalate]

end Fill

/-! ### Shapes that end in the suffix -/

section Suffix

variable {core : Text} {f : Formula}

/-- A shape that ends in the suffix is read by the last three stages, without the suffix. -/
theorem decode_append_suffix_iff (htrim : Text.trim core = core) (hne : core ≠ []) :
    decode (core ++ Field.fullText.suffix) = .ok f ↔
      (collection? core).or ((serial? core).or (flat? core)) = some f :=
  decode_eq_ok_iff_of_dropEnding?
    (Text.dropEnding?_append htrim hne (Field.trim_suffix _) (Field.suffix_ne_nil _))

/-- A text of three comma parts or more can only be a pair. -/
theorem decode_append_suffix_iff_of_three_le (htrim : Text.trim core = core) (hne : core ≠ [])
    (hparts : 3 ≤ (commaParts core).length) :
    decode (core ++ Field.fullText.suffix) = .ok f ↔ flat? core = some f := by
  have hcollection : collection? core = none := collection?_eq_none_of_length (by omega)
  have hserial : serial? core = none := serial?_eq_none_of_length (by omega)
  rw [decode_append_suffix_iff htrim hne, hcollection, hserial, Option.none_or, Option.none_or]

/-- A text of one comma part is no collection. -/
theorem decode_append_suffix_iff_of_one (htrim : Text.trim core = core) (hne : core ≠ [])
    (hparts : (commaParts core).length = 1) :
    decode (core ++ Field.fullText.suffix) = .ok f ↔
      (serial? core).or (flat? core) = some f := by
  have hcollection : collection? core = none := collection?_eq_none_of_length (by omega)
  rw [decode_append_suffix_iff htrim hne, hcollection, Option.none_or]

end Suffix

/-! ### Mode by mode -/

section Modes

variable {a b c d : Text} {f : Formula}

/-- A single word is read back if it shows no comma and does not look like a serial
formula. -/
theorem decode_single_iff (ha : IsSlot a) :
    (decode (Mode.fill .single [a] d) = .ok f ∧ f.mode = .single) ↔
      containsTop ',' a = false ∧ serialShaped a = false ∧ unwrap a ≠ [] ∧
        f = ⟨.single, [unwrap a], []⟩ := by
  rw [fill_single, decode_append_suffix_iff ha.trimmed ha.ne_nil]
  constructor
  · rintro ⟨h, hmode⟩
    simp only [Option.or_eq_some_iff] at h
    -- Only the last stage makes single words, and it is reached if the others do not take the text.
    rcases h with h | ⟨-, h | ⟨hserial, h⟩⟩
    · rw [mode_of_collection? h] at hmode
      cases hmode
    · rw [mode_of_serial? h] at hmode
      cases hmode
    · rcases flat?_eq_some_iff.mp h with ⟨x, hx, hvisible, rfl⟩ | ⟨x, n, y, k, -, -, -, -, rfl⟩
      · have huncut : containsTop ',' a = false :=
          length_commaParts_eq_one_iff.mp (by rw [hx]; rfl)
        rw [commaParts_of_uncut huncut, ha.trimmed, List.cons.injEq] at hx
        obtain ⟨rfl, -⟩ := hx
        exact ⟨huncut, by rw [← isSome_serial?, hserial]; rfl, hvisible, rfl⟩
      · cases hmode
  · rintro ⟨huncut, hserial, hvisible, rfl⟩
    have hone : (commaParts a).length = 1 := length_commaParts_eq_one_iff.mpr huncut
    have hnone : serial? a = none := by
      rw [← isSome_serial?] at hserial
      exact Option.not_isSome_iff_eq_none.mp (by simp [hserial])
    rw [collection?_eq_none_of_length (by omega), hnone, Option.none_or, Option.none_or]
    refine ⟨flat?_eq_some_iff.mpr (.inl ⟨a, ?_, hvisible, rfl⟩), rfl⟩
    rw [commaParts_of_uncut huncut, ha.trimmed]

/-- Two words with a count between them have three parts exactly when neither word shows a
comma, and then the parts are the words and the count. -/
theorem commaParts_counted_iff (ha : IsSlot a) (hb : IsSlot b) (hd : Count.isDigits d = true)
    {x n y : Text} :
    commaParts ([','].intercalate [a, d ++ ['N'], b]) = [x, n, y] ↔
      (∀ w ∈ [a, b], containsTop ',' w = false) ∧ x = a ∧ n = d ++ ['N'] ∧ y = b := by
  have hslots : ∀ t ∈ [a, d ++ ['N'], b], IsSlot t := by
    simp [ha, hb, isSlot_count hd]
  have hlen : [x, n, y].length = [a, d ++ ['N'], b].length := rfl
  rw [commaParts_intercalate_eq_iff (List.cons_ne_nil _ _) hslots hlen]
  simp [containsTop_comma_count hd]

/-- Two words with a count between them make up a slot. -/
theorem isSlot_counted (ha : IsSlot a) (hb : IsSlot b) (hd : Count.isDigits d = true) :
    IsSlot ([','].intercalate [a, d ++ ['N'], b]) :=
  isSlot_intercalate (List.cons_ne_nil _ _) (by simp [ha, hb, isSlot_count hd])

/-- A pair is read back if neither word shows a comma. -/
theorem decode_pair_iff (ha : IsSlot a) (hb : IsSlot b) (hd : Count.isDigits d = true) :
    (decode (Mode.fill .pair [a, b] d) = .ok f ∧ f.mode = .pair) ↔
      (∀ w ∈ [a, b], containsTop ',' w = false) ∧ (∀ w ∈ [a, b], unwrap w ≠ []) ∧
        f = ⟨.pair, [a, b].map unwrap, [d]⟩ := by
  have hslots : ∀ t ∈ [a, d ++ ['N'], b], IsSlot t := by
    simp [ha, hb, isSlot_count hd]
  have hcore := isSlot_counted ha hb hd
  -- Three parts or more are too many for a collection and for a serial formula.
  have hthree := length_le_commaParts_intercalate (List.cons_ne_nil _ _) hslots
  rw [fill_pair, decode_append_suffix_iff_of_three_le hcore.trimmed hcore.ne_nil hthree,
    flat?_eq_some_iff]
  constructor
  · rintro ⟨⟨x, -, -, rfl⟩ | ⟨x, n, y, count, hparts, hcount, hx, hy, rfl⟩, hmode⟩
    · cases hmode
    · obtain ⟨huncut, rfl, rfl, rfl⟩ := (commaParts_counted_iff ha hb hd).mp hparts
      rw [Count.digits?_append_N hd, Option.some.injEq] at hcount
      exact ⟨huncut, by simp [hx, hy], by rw [hcount]; rfl⟩
  · rintro ⟨huncut, hvisible, rfl⟩
    have hparts := (commaParts_counted_iff ha hb hd).mpr ⟨huncut, rfl, rfl, rfl⟩
    exact ⟨.inr ⟨a, d ++ ['N'], b, d, hparts, Count.digits?_append_N hd, hvisible a (by simp),
      hvisible b (by simp), rfl⟩, rfl⟩

/-- A serial formula is read back if no word shows a comma. The decoder asks nothing else of
its words, so brackets with nothing in them are read as an empty word. -/
theorem decode_serial_iff (ha : IsSlot a) (hb : IsSlot b) (hc : IsSlot c)
    (hd : Count.isDigits d = true) :
    (decode (Mode.fill .serial [a, b, c] d) = .ok f ∧ f.mode = .serial) ↔
      (∀ w ∈ [a, b, c], containsTop ',' w = false) ∧
        f = ⟨.serial, [a, b, c].map unwrap, [d]⟩ := by
  have hne : [a, d ++ ['N'], b, d ++ ['N'], c] ≠ [] := by simp
  have hslots : ∀ t ∈ [a, d ++ ['N'], b, d ++ ['N'], c], IsSlot t := by
    simp [ha, hb, hc, isSlot_count hd]
  have hinside := isSlot_intercalate hne hslots
  have henclosed : enclosed? curly ('{' :: ([','].intercalate [a, d ++ ['N'], b, d ++ ['N'], c]
      ++ ['}'])) = some ([','].intercalate [a, d ++ ['N'], b, d ++ ['N'], c]) :=
    enclosed?_enclosed hinside.balanced
  have htrim : Text.trim ('{' :: ([','].intercalate [a, d ++ ['N'], b, d ++ ['N'], c] ++ ['}']))
      = '{' :: ([','].intercalate [a, d ++ ['N'], b, d ++ ['N'], c] ++ ['}']) :=
    trim_enclosed curly _
  -- The braces keep the commas inside, so the whole is one part and no collection.
  have hone := length_commaParts_of_enclosed? henclosed
  rw [fill_serial, decode_append_suffix_iff_of_one htrim (by simp) hone, Option.or_eq_some_iff]
  constructor
  · rintro ⟨h | ⟨-, h⟩, hmode⟩
    · obtain ⟨inside, x, m, y, n, z, first, second, hin, hparts, hm, -, rfl⟩ :=
        serial?_eq_some_iff.mp h
      cases henclosed.symm.trans hin
      have hlen : [x, m, y, n, z].length = [a, d ++ ['N'], b, d ++ ['N'], c].length := rfl
      obtain ⟨huncut, heq⟩ := (commaParts_intercalate_eq_iff hne hslots hlen).mp hparts
      simp only [List.cons.injEq, and_true] at heq
      obtain ⟨rfl, rfl, rfl, -, rfl⟩ := heq
      rw [Count.digits?_append_N hd, Option.some.injEq] at hm
      refine ⟨fun w hw => huncut w ?_, by rw [hm]⟩
      simp only [List.mem_cons, List.not_mem_nil, or_false] at hw ⊢
      tauto
    · exact absurd (mode_of_flat? h) (by simp [hmode])
  · rintro ⟨huncut, rfl⟩
    refine ⟨.inl (serial?_eq_some_iff.mpr ⟨_, a, d ++ ['N'], b, d ++ ['N'], c, d, d, henclosed,
      ?_, Count.digits?_append_N hd, Count.digits?_append_N hd, rfl⟩), rfl⟩
    refine (commaParts_intercalate_eq_iff hne hslots rfl).mpr ⟨?_, rfl⟩
    simp [huncut a, huncut b, huncut c, containsTop_comma_count hd]

/-- Trimming leaves a collection alone: it begins with a brace and ends with a letter. -/
theorem trim_collection (inside : Text) (hd : Count.isDigits d = true) :
    Text.trim ('{' :: (inside ++ '}' :: ',' :: (d ++ ['N']))) =
      '{' :: (inside ++ '}' :: ',' :: (d ++ ['N'])) := by
  have h := Text.trim_append_append (s := ['{']) (m := inside ++ ['}', ',']) (t := d ++ ['N']) rfl
    (Count.trim_append_N hd) (by simp) (by simp)
  simpa using h

/-- The braces with what is in them and the count are found in the text of a collection. -/
theorem collectionBody?_append {inside : Text} (hbal : isBalanced inside = true)
    (hd : Count.isDigits d = true) :
    collectionBody? ('{' :: (inside ++ '}' :: ',' :: (d ++ ['N']))) = some (inside, d) := by
  have hcount : Text.trim (',' :: (d ++ ['N'])) = ',' :: (d ++ ['N']) :=
    Text.trim_append (s := [',']) rfl (Count.trim_append_N hd) (by simp) (by simp)
  exact collectionBody?_eq_some_iff.mpr
    ⟨_, d ++ ['N'], rfl, hbal, hcount, Count.digits?_append_N hd⟩

/-- A collection is read back if no word shows a comma. -/
theorem decode_collection_iff (ha : IsSlot a) (hb : IsSlot b) (hc : IsSlot c)
    (hd : Count.isDigits d = true) :
    (decode (Mode.fill .collection [a, b, c] d) = .ok f ∧ f.mode = .collection) ↔
      (∀ w ∈ [a, b, c], containsTop ',' w = false) ∧ (∀ w ∈ [a, b, c], unwrap w ≠ []) ∧
        f = ⟨.collection, [a, b, c].map unwrap, [d]⟩ := by
  have hne : [a, b, c] ≠ [] := by simp
  have hslots : ∀ t ∈ [a, b, c], IsSlot t := by simp [ha, hb, hc]
  have hinside := isSlot_intercalate hne hslots
  have htrim := trim_collection ([','].intercalate [a, b, c]) hd
  have hbody := collectionBody?_append hinside.balanced hd
  rw [fill_collection, decode_append_suffix_iff htrim (by simp)]
  constructor
  · rintro ⟨h, hmode⟩
    simp only [Option.or_eq_some_iff] at h
    -- Only the first stage makes collections.
    rcases h with h | ⟨-, h | ⟨-, h⟩⟩
    · obtain ⟨inside, count, x, y, z, hin, hparts, hvisible, rfl⟩ :=
        collection?_eq_some_iff.mp h
      cases hbody.symm.trans hin
      have hlen : [x, y, z].length = [a, b, c].length := rfl
      obtain ⟨huncut, heq⟩ := (commaParts_intercalate_eq_iff hne hslots hlen).mp hparts
      rw [heq] at hvisible ⊢
      exact ⟨huncut, hvisible, rfl⟩
    · rw [mode_of_serial? h] at hmode
      cases hmode
    · exact absurd (mode_of_flat? h) (by simp [hmode])
  · rintro ⟨huncut, hvisible, rfl⟩
    have hparts := (commaParts_intercalate_eq_iff hne hslots rfl).mpr ⟨huncut, rfl⟩
    rw [collection?_eq_some_iff.mpr ⟨_, d, a, b, c, hbody, hparts, hvisible, rfl⟩]
    exact ⟨rfl, rfl⟩

/-- Two sides with their suffixes and a `+` between them, as they stand in square brackets. -/
def twoSides (left right : Text) (field field' : Field) : Text :=
  (left ++ field.suffix) ++ '+' :: (right ++ field'.suffix)

/-- Trimming leaves two sides alone: they begin with a word and end with a suffix. -/
theorem trim_twoSides (ha : IsSlot a) (right : Text) (field field' : Field) :
    Text.trim (twoSides a right field field') = twoSides a right field field' := by
  have h := Text.trim_append_append (m := field.suffix ++ '+' :: right) ha.trimmed
    (Field.trim_suffix field') ha.ne_nil (Field.suffix_ne_nil field')
  simpa [twoSides] using h

/-- A word is balanced with its suffix, too. -/
theorem isBalanced_append_suffix (ha : IsSlot a) (field : Field) :
    isBalanced (a ++ field.suffix) = true := by
  rw [isBalanced_append_right (isBalanced_of_plain (Field.roleOf_of_mem_suffix field)),
    ha.balanced]

/-- Two sides are balanced. -/
theorem isBalanced_twoSides (ha : IsSlot a) (hb : IsSlot b) (field field' : Field) :
    isBalanced (twoSides a b field field') = true := by
  rw [twoSides, isBalanced_append_left (isBalanced_append_suffix ha field),
    isBalanced_cons_plain Word.roleOf_plus, isBalanced_append_suffix hb field']

/-- A suffix that was put after a word is dropped again. -/
theorem dropEnding?_append_suffix (ha : IsSlot a) (field : Field) :
    Text.dropEnding? (a ++ field.suffix) field.suffix = some a :=
  Text.dropEnding?_append ha.trimmed ha.ne_nil (Field.trim_suffix _) (Field.suffix_ne_nil _)

/-- The two sides of a parallel formula are found if the first word shows no `+`. -/
theorem parallelSides?_twoSides (ha : IsSlot a) (hplus : splitTop '+' a = [a])
    (hb : IsSlot b) : parallelSides? (twoSides a b .fullText .fullText) = some (a, b) :=
  parallelSides?_append_plus (after_of_isBalanced (isBalanced_append_suffix ha _) [])
    (Field.unsplit_of_uncut (Field.splitTop_append_suffix hplus _) _)
    (Text.hasEnding_append _ _) (dropEnding?_append_suffix ha _) (dropEnding?_append_suffix hb _)

/-- A parallel formula is written `[A/TX+B,nN,C/TX]`. -/
theorem fill_parallel (a b c d : Text) :
    Mode.fill .parallel [a, b, c] d =
      '[' :: (twoSides a ([','].intercalate [b, d ++ ['N'], c]) .fullText .fullText ++
        [']']) := by
  simp [Mode.fill, Mode.shape, ShapePiece.fill, List.intercalate, twoSides]

/-- A classification is written `[A/FT+A/CP]`: one code in both fields. -/
theorem fill_classification (a d : Text) :
    Mode.fill .classification [a] d = '[' :: (twoSides a a .fTerm .cpc ++ [']']) := by
  simp [Mode.fill, Mode.shape, ShapePiece.fill, twoSides]

/-- Trimming leaves a text in square brackets alone. -/
theorem trim_square (inner : Text) :
    Text.trim ('[' :: (inner ++ [']'])) = '[' :: (inner ++ [']']) := trim_enclosed square inner

/-- A formula is parallel if it comes from what stands in square brackets. -/
theorem parallel?_of_decode_square {inner : Text} (htrim : Text.trim inner = inner)
    (h : decode ('[' :: (inner ++ [']'])) = .ok f) (hmode : f.mode = .parallel) :
    parallel? inner = some f := by
  rw [decode_eq_ok_iff, trim_square] at h
  have hin : squareInside? ('[' :: (inner ++ [']'])) = some inner :=
    squareInside?_eq_some_iff.mpr ⟨inner, rfl, htrim.symm⟩
  rcases ofTrimmed?_cases h with ⟨inside, hinside, h | h⟩ | h | h | h
  · cases hin.symm.trans hinside
    exact h
  · exact absurd (mode_of_classification? h) (by simp [hmode])
  · exact absurd (mode_of_collection? h) (by simp [hmode])
  · exact absurd (mode_of_serial? h) (by simp [hmode])
  · exact absurd (mode_of_flat? h) (by simp [hmode])

/-- A parallel formula whose first word shows no `+` is read back if the words of the pair
show no comma. -/
theorem decode_parallel_iff (ha : IsSlot a) (hb : IsSlot b) (hc : IsSlot c)
    (hplus : splitTop '+' a = [a]) (hd : Count.isDigits d = true) :
    (decode (Mode.fill .parallel [a, b, c] d) = .ok f ∧ f.mode = .parallel) ↔
      (∀ w ∈ [b, c], containsTop ',' w = false) ∧ (∀ w ∈ [a, b, c], unwrap w ≠ []) ∧
        f = ⟨.parallel, [a, b, c].map unwrap, [d]⟩ := by
  have hsides := parallelSides?_twoSides ha hplus (isSlot_counted hb hc hd)
  have htrim := trim_twoSides ha ([','].intercalate [b, d ++ ['N'], c]) .fullText .fullText
  rw [fill_parallel]
  constructor
  · rintro ⟨h, hmode⟩
    obtain ⟨left, right, x, n, y, count, hlr, hparts, hcount, hvisible, rfl⟩ :=
      parallel?_eq_some_iff.mp (parallel?_of_decode_square htrim h hmode)
    -- The sides that were found are the ones that were written.
    cases hsides.symm.trans hlr
    obtain ⟨huncut, rfl, rfl, rfl⟩ := (commaParts_counted_iff hb hc hd).mp hparts
    rw [Count.digits?_append_N hd, Option.some.injEq] at hcount
    exact ⟨huncut, hvisible, by rw [hcount]⟩
  · rintro ⟨huncut, hvisible, rfl⟩
    refine ⟨decode_square (trim_square _) ?_, rfl⟩
    have hparts := (commaParts_counted_iff hb hc hd).mpr ⟨huncut, rfl, rfl, rfl⟩
    rw [htrim, parallel?_eq_some_iff.mpr ⟨a, _, b, d ++ ['N'], c, d, hsides, hparts,
      Count.digits?_append_N hd, hvisible, rfl⟩]
    rfl

end Modes

/-! ### All modes but the classification -/

/-- A filled shape is read back in its own mode exactly when nothing in its slots leads
elsewhere and something is left of each slot without its round brackets; a serial formula
does not ask for the latter. -/
theorem decode_fill_iff {mode : Mode} {slots : List Text} {d : Text} {f : Formula}
    (hmode : mode ≠ .classification) (hlen : slots.length = mode.wordSlots)
    (hslots : ∀ w ∈ slots, IsSlot w)
    (hplus : mode = .parallel → ∀ w ∈ slots.head?, splitTop '+' w = [w])
    (hd : mode.countSlots ≠ 0 → Count.isDigits d = true) :
    (decode (mode.fill slots d) = .ok f ∧ f.mode = mode) ↔
      ReadsBack mode slots ∧ (mode = .serial ∨ ∀ w ∈ slots, unwrap w ≠ []) ∧
        f = ⟨mode, slots.map unwrap, writtenCounts mode d⟩ := by
  cases mode with
  | single =>
    obtain ⟨a, rfl⟩ := List.length_eq_one_iff.mp hlen
    rw [decode_single_iff (hslots a (by simp))]
    simp [ReadsBack, writtenCounts, Mode.countSlots, and_assoc]
  | pair =>
    obtain ⟨a, b, rfl⟩ := List.length_eq_two.mp hlen
    rw [decode_pair_iff (hslots a (by simp)) (hslots b (by simp)) (hd (by decide))]
    simp [ReadsBack, writtenCounts, Mode.countSlots]
  | serial =>
    obtain ⟨a, b, c, rfl⟩ := List.length_eq_three.mp hlen
    rw [decode_serial_iff (hslots a (by simp)) (hslots b (by simp)) (hslots c (by simp))
      (hd (by decide))]
    simp [ReadsBack, writtenCounts, Mode.countSlots]
  | collection =>
    obtain ⟨a, b, c, rfl⟩ := List.length_eq_three.mp hlen
    rw [decode_collection_iff (hslots a (by simp)) (hslots b (by simp)) (hslots c (by simp))
      (hd (by decide))]
    simp [ReadsBack, writtenCounts, Mode.countSlots]
  | parallel =>
    obtain ⟨a, b, c, rfl⟩ := List.length_eq_three.mp hlen
    rw [decode_parallel_iff (hslots a (by simp)) (hslots b (by simp)) (hslots c (by simp))
      (hplus rfl a rfl) (hd (by decide))]
    simp [ReadsBack, writtenCounts, Mode.countSlots]
  | classification => exact absurd rfl hmode

end QueryMix.Formula
