import QueryMix.Proofs.Bracket.Region
import QueryMix.Proofs.Field
import QueryMix.Proofs.Formula.CommaParts

/-!
# `QueryMix.Proofs.Formula.Decode`: what each stage of the decoder accepts

One lemma for each stage says exactly which texts it takes and what it makes of them
(`collection?_eq_some_iff` and its siblings). The stages for texts without square brackets
are told apart by the number of comma parts: a collection has two
(`length_commaParts_of_collectionBody?`), a serial formula one
(`length_commaParts_of_enclosed?`), and the last stage takes one for a single word and three
for a pair.

Two sides with a `+` between them are found whatever blanks and letters of suffixes they are
written with (`parallelSides?_append_plus`, `classBases?_append_plus`), and the two fields of
a classification are never taken for those of a parallel formula
(`parallelSides?_eq_none_of_classBases?`).

A formula was read by one of the stages (`ofTrimmed?_cases`), and each of them makes formulas
of its own modes. Only square brackets lead to the first two stages. A text that ends in the
full-text suffix is read by the last three (`decode_eq_ok_iff_of_dropEnding?`).
-/

set_option autoImplicit false

namespace QueryMix.Formula

open QueryMix.Bracket QueryMix.Nesting

/-! ### The stages -/

/-- The words that a stage takes are those of which something is left without the round
brackets. -/
theorem any_isEmpty_map_unwrap {ts : List Text} :
    (ts.map unwrap).any List.isEmpty = false ↔ ∀ t ∈ ts, unwrap t ≠ [] := by
  simp

/-- The two sides are cut at the first `+` at top level that directly follows the suffix, and
each of them has the suffix to lose. -/
theorem parallelSides?_eq_some_iff {inside left right : Text} :
    parallelSides? inside = some (left, right) ↔
      ∃ l r, Field.fullText.splitAfter? inside = some (l, r) ∧
        Text.dropEnding? l Field.fullText.suffix = some left ∧
        Text.dropEnding? r Field.fullText.suffix = some right := by
  rw [parallelSides?, Option.bind_eq_bind, Option.bind_eq_some_iff]
  constructor
  · rintro ⟨⟨l, r⟩, hcut, h⟩
    obtain ⟨left', hleft, h⟩ := Option.bind_eq_some_iff.mp h
    obtain ⟨right', hright, h⟩ := Option.bind_eq_some_iff.mp h
    cases Option.some.inj h
    exact ⟨l, r, hcut, hleft, hright⟩
  · rintro ⟨l, r, hcut, hleft, hright⟩
    refine ⟨(l, r), hcut, ?_⟩
    simp only [hleft, hright]
    rfl

/-- A parallel formula has a word on its left side and three comma parts on its right, the second of
them a count. Of each of its words something must be left without the round brackets. -/
theorem parallel?_eq_some_iff {inside : Text} {f : Formula} :
    parallel? inside = some f ↔
      ∃ left right b n c count, parallelSides? inside = some (left, right) ∧
        commaParts right = [b, n, c] ∧ Count.digits? n = some count ∧
        (∀ w ∈ [left, b, c], unwrap w ≠ []) ∧
        f = ⟨.parallel, [left, b, c].map unwrap, [count]⟩ := by
  rw [parallel?, Option.bind_eq_bind, Option.bind_eq_some_iff]
  constructor
  · rintro ⟨⟨left, right⟩, hsides, h⟩
    dsimp only at h
    split at h
    · next b n c hparts =>
      obtain ⟨count, hcount, h⟩ := Option.bind_eq_some_iff.mp h
      split at h
      · cases h
      · next hvisible =>
        rw [Bool.not_eq_true, any_isEmpty_map_unwrap] at hvisible
        exact ⟨left, right, b, n, c, count, hsides, hparts, hcount, hvisible,
          (Option.some.inj h).symm⟩
    · cases h
  · rintro ⟨left, right, b, n, c, count, hsides, hparts, hcount, hvisible, rfl⟩
    refine ⟨(left, right), hsides, ?_⟩
    simp only [hparts, hcount, any_isEmpty_map_unwrap.mpr hvisible]
    rfl

/-- A collection has three comma parts between its braces, and of each of them something must be
left without the round brackets. -/
theorem collection?_eq_some_iff {core : Text} {f : Formula} :
    collection? core = some f ↔
      ∃ inside count a b c, collectionBody? core = some (inside, count) ∧
        commaParts inside = [a, b, c] ∧ (∀ w ∈ [a, b, c], unwrap w ≠ []) ∧
        f = ⟨.collection, [a, b, c].map unwrap, [count]⟩ := by
  rw [collection?, Option.bind_eq_bind, Option.bind_eq_some_iff]
  constructor
  · rintro ⟨⟨inside, count⟩, hbody, h⟩
    dsimp only at h
    split at h
    · next a b c hparts =>
      split at h
      · cases h
      · next hvisible =>
        rw [Bool.not_eq_true, any_isEmpty_map_unwrap] at hvisible
        exact ⟨inside, count, a, b, c, hbody, hparts, hvisible, (Option.some.inj h).symm⟩
    · cases h
  · rintro ⟨inside, count, a, b, c, hbody, hparts, hvisible, rfl⟩
    refine ⟨(inside, count), hbody, ?_⟩
    simp only [hparts, any_isEmpty_map_unwrap.mpr hvisible]
    rfl

/-- A collection starts with a brace group, and all that follows it is a comma and a count. -/
theorem collectionBody?_eq_some_iff {core inside digits : Text} :
    collectionBody? core = some (inside, digits) ↔
      ∃ rest count : Text, core = '{' :: (inside ++ '}' :: rest) ∧ isBalanced inside = true ∧
        Text.trim rest = ',' :: count ∧ Count.digits? count = some digits := by
  rw [collectionBody?]
  constructor
  · intro h
    split at h
    · next i rest hregion =>
      obtain ⟨hcore, hbal⟩ := Region.ofText?_eq_closed_iff.mp hregion
      split at h
      · next count hrest =>
        obtain ⟨d, hcount, hpair⟩ := Option.map_eq_some_iff.mp h
        cases hpair
        exact ⟨rest, count, hcore, hbal, hrest, hcount⟩
      · cases h
    · cases h
  · rintro ⟨rest, count, hcore, hbal, hrest, hcount⟩
    have hregion : Region.ofText? curly core = some (.closed inside rest) :=
      Region.ofText?_eq_closed_iff.mpr ⟨hcore, hbal⟩
    rw [hregion]
    simp only [hrest, hcount, Option.map_some]

/-- A serial formula has five comma parts between its braces, the second and the fourth of them
counts. The first count is kept, and nothing is asked of the words. -/
theorem serial?_eq_some_iff {core : Text} {f : Formula} :
    serial? core = some f ↔
      ∃ inside a m b n c first second, enclosed? curly core = some inside ∧
        commaParts inside = [a, m, b, n, c] ∧ Count.digits? m = some first ∧
        Count.digits? n = some second ∧ f = ⟨.serial, [a, b, c].map unwrap, [first]⟩ := by
  rw [serial?, serialSlots?]
  simp only [Option.bind_eq_bind, Option.bind_eq_some_iff]
  constructor
  · rintro ⟨⟨slots, first, second⟩, ⟨inside, hinside, h⟩, hf⟩
    split at h
    · next a m b n c hparts =>
      obtain ⟨k, hm, h⟩ := Option.bind_eq_some_iff.mp h
      obtain ⟨l, hn, h⟩ := Option.bind_eq_some_iff.mp h
      cases Option.some.inj h
      exact ⟨inside, a, m, b, n, c, first, second, hinside, hparts, hm, hn,
        (Option.some.inj hf).symm⟩
    · cases h
  · rintro ⟨inside, a, m, b, n, c, first, second, hinside, hparts, hm, hn, rfl⟩
    refine ⟨([a, b, c], first, second), ⟨inside, hinside, ?_⟩, rfl⟩
    simp only [hparts, hm, hn]
    rfl

/-- A text with one comma part is a single word, and one with three is a pair if the second is a
count. Of each word something must be left without the round brackets. -/
theorem flat?_eq_some_iff {core : Text} {f : Formula} :
    flat? core = some f ↔
      (∃ a, commaParts core = [a] ∧ unwrap a ≠ [] ∧ f = ⟨.single, [unwrap a], []⟩) ∨
      ∃ a n b count, commaParts core = [a, n, b] ∧ Count.digits? n = some count ∧
        unwrap a ≠ [] ∧ unwrap b ≠ [] ∧ f = ⟨.pair, [unwrap a, unwrap b], [count]⟩ := by
  rw [flat?]
  constructor
  · intro h
    split at h
    · next a hparts =>
      split at h
      · cases h
      · next ha => exact .inl ⟨a, hparts, by simpa using ha, (Option.some.inj h).symm⟩
    · next a n b hparts =>
      split at h
      · cases h
      · next hab =>
        rw [Bool.or_eq_true, not_or, List.isEmpty_iff, List.isEmpty_iff] at hab
        obtain ⟨count, hcount, rfl⟩ := Option.map_eq_some_iff.mp h
        exact .inr ⟨a, n, b, count, hparts, hcount, hab.1, hab.2, rfl⟩
    · cases h
  · rintro (⟨a, hparts, ha, rfl⟩ | ⟨a, n, b, count, hparts, hcount, ha, hb, rfl⟩)
    · simp [hparts, ha]
    · simp [hparts, ha, hb, hcount]

/-- The codes of the two fields stand on the two sides of the only `+` at top level. -/
theorem classBases?_eq_some_iff {inside left right : Text} :
    classBases? inside = some (left, right) ↔
      ∃ l r, splitTop '+' inside = [l, r] ∧
        Text.dropEnding? l Field.fTerm.suffix = some left ∧
        Text.dropEnding? r Field.cpc.suffix = some right := by
  rw [classBases?]
  constructor
  · intro h
    split at h
    · next l r hparts =>
      obtain ⟨left', hleft, h⟩ := Option.bind_eq_some_iff.mp h
      obtain ⟨right', hright, h⟩ := Option.bind_eq_some_iff.mp h
      cases Option.some.inj h
      exact ⟨l, r, hparts, hleft, hright⟩
    · cases h
  · rintro ⟨l, r, hparts, hleft, hright⟩
    simp only [hparts, hleft, hright]
    rfl

/-- A classification has one code in its two fields, letter for letter, and the code is not empty.
It loses one layer of round brackets. -/
theorem classification?_eq_some_iff {inside : Text} {f : Formula} :
    classification? inside = some f ↔
      ∃ code, classBases? inside = some (code, code) ∧ code ≠ [] ∧
        f = ⟨.classification, [unwrapOnce code], []⟩ := by
  rw [classification?, Option.bind_eq_bind, Option.bind_eq_some_iff]
  constructor
  · rintro ⟨⟨left, right⟩, hbases, h⟩
    dsimp only at h
    split at h
    · next hsame =>
      rw [sameBase, Bool.and_eq_true, beq_iff_eq, Bool.not_eq_true', List.isEmpty_eq_false_iff]
        at hsame
      obtain ⟨hne, rfl⟩ := hsame
      exact ⟨left, hbases, hne, (Option.some.inj h).symm⟩
    · cases h
  · rintro ⟨code, hbases, hne, rfl⟩
    refine ⟨(code, code), hbases, ?_⟩
    have hsame : sameBase code code = true := by simp [sameBase, hne]
    simp only [hsame]
    rfl

/-! ### Telling the stages apart -/

/-- Five parts between braces, with counts in the second and in the fourth place. -/
def serialShaped (core : Text) : Bool :=
  match (enclosed? curly core).map (splitTop ',') with
  | some [_, m, _, n, _] => (Count.digits? m).isSome && (Count.digits? n).isSome
  | _ => false

/-- A serial formula is read from the texts of its shape. Nothing is asked of its words. -/
theorem isSome_serial? (core : Text) : (serial? core).isSome = serialShaped core := by
  rw [serial?, serialSlots?, serialShaped]
  cases enclosed? curly core with
  | none => rfl
  | some inside =>
    -- Only five parts are read on, and of these the two counts.
    simp only [commaParts, Option.bind_eq_bind, Option.bind_some, Option.map_some]
    rcases splitTop ',' inside with _ | ⟨a, _ | ⟨m, _ | ⟨b, _ | ⟨n, _ | ⟨c, _ | ⟨d, rest⟩⟩⟩⟩⟩⟩
    · rfl
    · rfl
    · rfl
    · rfl
    · rfl
    · simp only [List.map_cons, List.map_nil, Count.digits?_trim]
      cases Count.digits? m with
      | none => rfl
      | some first =>
        cases Count.digits? n with
        | none => rfl
        | some second => rfl
    · rfl

/-- A text that is one region has one comma part. -/
theorem length_commaParts_of_enclosed? {b : Bracket} {core inside : Text}
    (h : enclosed? b core = some inside) : (commaParts core).length = 1 := by
  rw [length_commaParts, splitTop_of_enclosed? h]
  rfl

/-- A text that a collection could be read from has two comma parts: the braces with what is
in them, and the count. -/
theorem length_commaParts_of_collectionBody? {core inside digits : Text}
    (h : collectionBody? core = some (inside, digits)) : (commaParts core).length = 2 := by
  obtain ⟨rest, count, rfl, hbal, hrest, hcount⟩ := collectionBody?_eq_some_iff.mp h
  obtain ⟨l, r, hblank, hl, hr⟩ := Text.eq_blanks_trim_blanks rest
  -- The blanks before the comma belong to the first part, those after the count to the second;
  -- neither these blanks nor the count hold a comma.
  have hleft : ',' ∉ l := fun hmem => absurd (hl _ hmem) (by decide)
  have hright : ',' ∉ count ++ r := by
    rw [List.mem_append, not_or]
    exact ⟨Count.comma_not_mem_of_digits? hcount, fun hmem => absurd (hr _ hmem) (by decide)⟩
  have hregionBal : isBalanced ('{' :: (inside ++ ['}'])) = true := isBalanced_enclosed curly hbal
  have hblankBal : isBalanced l = true :=
    isBalanced_of_plain fun c hc => roleOf_of_isBlank (hl c hc)
  have hfirst : after [] ('{' :: (inside ++ ['}']) ++ l) = [] := by
    rw [after_append, after_of_isBalanced hregionBal, after_of_isBalanced hblankBal]
  have hcore : '{' :: (inside ++ '}' :: rest) =
      '{' :: (inside ++ ['}']) ++ l ++ ',' :: (count ++ r) := by
    rw [hblank, hrest]
    simp
  have hone : (splitTop ',' ('{' :: (inside ++ ['}']) ++ l)).length = 1 := by
    rw [splitTop, length_splitFrom_append_right hleft]
    show (splitTop ',' (curly.opener :: (inside ++ [curly.closer]))).length = 1
    rw [splitTop_enclosed ',' curly hbal]
    rfl
  rw [length_commaParts, hcore, splitTop_append_sep roleOf_comma hfirst,
    List.length_append, hone, splitTop, splitFrom_of_not_mem hright]
  rfl

/-- A text that does not have two comma parts is no collection. -/
theorem collection?_eq_none_of_length {core : Text} (h : (commaParts core).length ≠ 2) :
    collection? core = none := by
  cases hc : collection? core with
  | none => rfl
  | some f =>
    obtain ⟨inside, count, -, -, -, hbody, -⟩ := collection?_eq_some_iff.mp hc
    exact absurd (length_commaParts_of_collectionBody? hbody) h

/-- A text that has more than one comma part is no serial formula. -/
theorem serial?_eq_none_of_length {core : Text} (h : (commaParts core).length ≠ 1) :
    serial? core = none := by
  cases hs : serial? core with
  | none => rfl
  | some f =>
    obtain ⟨inside, -, -, -, -, -, -, -, hinside, -⟩ := serial?_eq_some_iff.mp hs
    exact absurd (length_commaParts_of_enclosed? hinside) h

/-! ### Two sides -/

section TwoSides

variable {inside left right : Text}

section Sides

variable {l r : Text} (hafter : after [] l = [])

include hafter

/-- The two sides of a parallel formula are found if the first one cannot be cut earlier. -/
theorem parallelSides?_append_plus (hunsplit : Field.fullText.Unsplit l)
    (hend : Text.hasEnding l Field.fullText.suffix = true)
    (hleft : Text.dropEnding? l Field.fullText.suffix = some left)
    (hright : Text.dropEnding? r Field.fullText.suffix = some right) :
    parallelSides? (l ++ '+' :: r) = some (left, right) :=
  parallelSides?_eq_some_iff.mpr
    ⟨l, r, Field.splitAfter?_append_plus hunsplit hafter hend r, hleft, hright⟩

/-- The codes of the two fields of a classification are found if neither side shows a `+`. -/
theorem classBases?_append_plus (hl : splitTop '+' l = [l]) (hr : splitTop '+' r = [r])
    (hleft : Text.dropEnding? l Field.fTerm.suffix = some left)
    (hright : Text.dropEnding? r Field.cpc.suffix = some right) :
    classBases? (l ++ '+' :: r) = some (left, right) := by
  refine classBases?_eq_some_iff.mpr ⟨l, r, ?_, hleft, hright⟩
  rw [splitTop_append_sep (by decide) hafter, hl, hr]
  rfl

end Sides

/-- The two fields of a classification are never taken for the two sides of a parallel
formula. -/
theorem parallelSides?_eq_none_of_classBases? (h : classBases? inside = some (left, right)) :
    parallelSides? inside = none := by
  obtain ⟨l, r, hparts, hleft, -⟩ := classBases?_eq_some_iff.mp h
  rw [Option.eq_none_iff_forall_ne_some]
  rintro ⟨x, y⟩ hsides
  obtain ⟨l', r', hcut, -, -⟩ := parallelSides?_eq_some_iff.mp hsides
  obtain ⟨rfl, hafter, hend⟩ := Field.splitAfter?_eq_some hcut
  -- The text has two parts only, so what was found is the first field, with two suffixes.
  obtain ⟨rfl, -⟩ := eq_of_splitTop_eq_pair (by decide) hafter hparts
  obtain ⟨s, e, htrim, -, he⟩ := Text.dropEnding?_eq_some_iff.mp hleft
  have hfTerm : Text.hasEnding (Text.trim l') Field.fTerm.suffix = true :=
    Text.hasEnding_iff_append.mpr ⟨s, e, htrim, he⟩
  exact absurd (Field.eq_of_hasEnding hfTerm (Field.hasEnding_trim hend)) (by decide)

/-- So the parallel stage leaves the two fields of a classification to the next one. -/
theorem parallel?_eq_none_of_classBases? (h : classBases? inside = some (left, right)) :
    parallel? inside = none := by
  rw [parallel?, parallelSides?_eq_none_of_classBases? h]
  rfl

end TwoSides

/-! ### The order of the stages -/

/-- What is taken from a text in square brackets stands in it. -/
theorem squareInside?_eq_some_iff {raw inside : Text} :
    squareInside? raw = some inside ↔
      ∃ i : Text, raw = '[' :: (i ++ [']']) ∧ inside = Text.trim i := by
  unfold squareInside?
  constructor
  · intro h
    split at h
    · next rest =>
      split at h
      · next hlast =>
        obtain ⟨i, rfl⟩ := List.getLast?_eq_some_iff.mp hlast
        rw [List.dropLast_concat, Option.some.injEq] at h
        exact ⟨i, rfl, h.symm⟩
      · cases h
    · cases h
  · rintro ⟨i, rfl, rfl⟩
    simp

/-- A formula was read by one of the stages: from the inside of square brackets, or from the
text without its suffix. -/
theorem ofTrimmed?_cases {raw : Text} {f : Formula} (h : ofTrimmed? raw = some f) :
    (∃ inside, squareInside? raw = some inside ∧
      (parallel? inside = some f ∨ classification? inside = some f)) ∨
    collection? (dropSuffix raw) = some f ∨ serial? (dropSuffix raw) = some f ∨
      flat? (dropSuffix raw) = some f := by
  rw [ofTrimmed?] at h
  simp only [Option.orElse_eq_orElse, Option.orElse_eq_or, Option.or_eq_some_iff] at h
  rcases h with h | ⟨-, h | ⟨-, h | ⟨-, h⟩⟩⟩
  · obtain ⟨inside, hinside, h⟩ := Option.bind_eq_some_iff.mp h
    simp only [Option.orElse_eq_orElse, Option.orElse_eq_or, Option.or_eq_some_iff] at h
    exact .inl ⟨inside, hinside, h.imp_right And.right⟩
  · exact .inr (.inl h)
  · exact .inr (.inr (.inl h))
  · exact .inr (.inr (.inr h))

section Modes

variable {t : Text} {f : Formula}

/-- The first stage for square brackets makes parallel formulas only. -/
theorem mode_of_parallel? (h : parallel? t = some f) : f.mode = .parallel := by
  obtain ⟨left, right, b, n, c, count, -, -, -, -, rfl⟩ := parallel?_eq_some_iff.mp h
  rfl

/-- The second makes classifications only. -/
theorem mode_of_classification? (h : classification? t = some f) : f.mode = .classification := by
  obtain ⟨code, -, -, rfl⟩ := classification?_eq_some_iff.mp h
  rfl

/-- The first stage for texts without square brackets makes collections only. -/
theorem mode_of_collection? (h : collection? t = some f) : f.mode = .collection := by
  obtain ⟨inside, count, a, b, c, -, -, -, rfl⟩ := collection?_eq_some_iff.mp h
  rfl

/-- The second makes serial formulas only. -/
theorem mode_of_serial? (h : serial? t = some f) : f.mode = .serial := by
  obtain ⟨inside, a, m, b, n, c, first, second, -, -, -, -, rfl⟩ := serial?_eq_some_iff.mp h
  rfl

/-- The last stage makes single words and pairs. -/
theorem mode_of_flat? (h : flat? t = some f) : f.mode = .single ∨ f.mode = .pair := by
  rcases flat?_eq_some_iff.mp h with ⟨a, -, -, rfl⟩ | ⟨a, n, b, count, -, -, -, -, rfl⟩
  · exact .inl rfl
  · exact .inr rfl

end Modes

/-- A text is read as what it is without the blanks around it. -/
theorem decode_eq_ok_iff {t : Text} {f : Formula} :
    decode t = .ok f ↔ ofTrimmed? (Text.trim t) = some f := by
  rw [decode]
  cases ofTrimmed? (Text.trim t) with
  | none => simp
  | some g => simp

/-- A text in square brackets is read by the first two stages if one of them takes it. -/
theorem decode_square {t inner : Text} {f : Formula}
    (ht : Text.trim t = '[' :: (inner ++ [']']))
    (h : (parallel? (Text.trim inner)).or (classification? (Text.trim inner)) = some f) :
    decode t = .ok f := by
  have hinside : squareInside? (Text.trim t) = some (Text.trim inner) :=
    squareInside?_eq_some_iff.mpr ⟨inner, ht, rfl⟩
  have hbracketed : bracketed? (Text.trim t) = some f := by
    rw [bracketed?, hinside]
    simpa using h
  rw [decode_eq_ok_iff, ofTrimmed?, hbracketed]
  rfl

/-- Two fields with one code are read as a classification. -/
theorem decode_square_of_classBases? {t inner code : Text}
    (ht : Text.trim t = '[' :: (inner ++ [']']))
    (h : classBases? (Text.trim inner) = some (code, code)) (hne : code ≠ []) :
    decode t = .ok ⟨.classification, [unwrapOnce code], []⟩ := by
  refine decode_square ht ?_
  rw [parallel?_eq_none_of_classBases? h, Option.none_or]
  exact classification?_eq_some_iff.mpr ⟨code, h, hne, rfl⟩

/-- Without square brackets a text is read by the last three stages. -/
theorem decode_eq_ok_iff_of_not_square {t : Text} {f : Formula}
    (h : squareInside? (Text.trim t) = none) :
    decode t = .ok f ↔
      (collection? (dropSuffix (Text.trim t))).or
        ((serial? (dropSuffix (Text.trim t))).or (flat? (dropSuffix (Text.trim t)))) =
          some f := by
  have hbracketed : bracketed? (Text.trim t) = none := by
    rw [bracketed?, h]
    rfl
  rw [decode_eq_ok_iff, ofTrimmed?, hbracketed]
  simp

/-- A text that ends in the full-text suffix, in any case of letters, is one without square
brackets. -/
theorem decode_eq_ok_iff_of_dropEnding? {t core : Text} {f : Formula}
    (h : Text.dropEnding? t Field.fullText.suffix = some core) :
    decode t = .ok f ↔ (collection? core).or ((serial? core).or (flat? core)) = some f := by
  have hsquare : squareInside? (Text.trim t) = none := by
    rw [Option.eq_none_iff_forall_ne_some]
    intro inside hinside
    -- The last character is that of the suffix, and no closing bracket.
    obtain ⟨s, e, ht, -, he⟩ := Text.dropEnding?_eq_some_iff.mp h
    obtain ⟨i, hi, -⟩ := squareInside?_eq_some_iff.mp hinside
    have hlast := congrArg List.getLast? (ht.symm.trans hi)
    rw [List.getLast?_append, List.getLast?_eq_some_getLast (Field.ne_nil_of_foldCase he),
      Option.some_or, ← List.cons_append, List.getLast?_concat, Option.some.injEq] at hlast
    have hplain := Field.roleOf_of_foldCase he _ (List.getLast_mem (Field.ne_nil_of_foldCase he))
    rw [hlast] at hplain
    exact absurd hplain (by decide)
  rw [decode_eq_ok_iff_of_not_square hsquare, dropSuffix,
    Text.dropEnding?_congr (Text.trim_trim t), h]
  rfl

end QueryMix.Formula
