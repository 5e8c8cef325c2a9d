import QueryMix.Proofs.Formula.BracketCheck
import QueryMix.Proofs.Formula.Decode

/-!
# `QueryMix.Proofs.Formula.Regions`: decoding keeps bracketed regions whole

A balanced text is cut at top level only, so its words are balanced. Commas and `+` are looked
for at top level, and braces are taken off by matching them. In square brackets only the first
and the last character are looked at, and these need not match each other: in
`[A]/TX+[B],3N,[C/TX]` they do not, and `A]` becomes a word. A classification cannot be read
from such a text, since its two codes are one code (`isBalanced_of_classBases?`); a parallel
formula can. With that exception every word of a balanced text is balanced
(`balanced_of_decode`).

The encoder folds words to half width before it checks their brackets. So it may still refuse
a decoded word for its brackets, but only one that holds a full-width bracket.
-/

set_option autoImplicit false

namespace QueryMix.Formula

open QueryMix.Bracket QueryMix.Nesting

/-! ### Words of each stage -/

/-- The suffix holds no brackets, so dropping it changes nothing about the balance. -/
theorem isBalanced_dropSuffix (raw : Text) : isBalanced (dropSuffix raw) = isBalanced raw := by
  rw [dropSuffix]
  cases h : Text.dropEnding? raw Field.fullText.suffix with
  | none => rfl
  | some core => exact Field.isBalanced_of_dropEnding? h

/-- Words that are unwrapped slots are balanced if the slots are. -/
theorem forall_mem_map_unwrap (ts : List Text) (h : ∀ t ∈ ts, isBalanced t = true) :
    ∀ w ∈ ts.map unwrap, isBalanced w = true := by
  intro w hw
  obtain ⟨t, ht, rfl⟩ := List.mem_map.mp hw
  rw [isBalanced_unwrap]
  exact h t ht

section Stages

variable {f : Formula}

/-- A single word and the words of a pair are balanced if the text is. -/
theorem balanced_of_flat? {core : Text} (h : isBalanced core = true) (hf : flat? core = some f) :
    ∀ w ∈ f.words, isBalanced w = true := by
  rcases flat?_eq_some_iff.mp hf with ⟨a, hparts, -, rfl⟩ | ⟨a, n, b, count, hparts, -, -, -, rfl⟩
  · refine forall_mem_map_unwrap [a] fun t ht => isBalanced_of_mem_commaParts h ?_
    rw [hparts]
    exact ht
  · refine forall_mem_map_unwrap [a, b] fun t ht => isBalanced_of_mem_commaParts h ?_
    rw [hparts]
    exact List.Sublist.subset (by simp) ht

/-- The words of a collection are balanced in any case, as the inside of a region is. -/
theorem balanced_of_collection? {core : Text} (hf : collection? core = some f) :
    ∀ w ∈ f.words, isBalanced w = true := by
  obtain ⟨inside, count, a, b, c, hbody, hparts, -, rfl⟩ := collection?_eq_some_iff.mp hf
  obtain ⟨rest, digits, -, hbal, -, -⟩ := collectionBody?_eq_some_iff.mp hbody
  refine forall_mem_map_unwrap _ fun t ht => isBalanced_of_mem_commaParts hbal ?_
  rw [hparts]
  exact ht

/-- So are the words of a serial formula. -/
theorem balanced_of_serial? {core : Text} (hf : serial? core = some f) :
    ∀ w ∈ f.words, isBalanced w = true := by
  obtain ⟨inside, a, m, b, n, c, first, second, hinside, hparts, -, -, rfl⟩ :=
    serial?_eq_some_iff.mp hf
  refine forall_mem_map_unwrap _ fun t ht =>
    isBalanced_of_mem_commaParts (enclosed?_eq_some_iff.mp hinside).2 ?_
  rw [hparts]
  exact List.Sublist.subset (by simp) ht

/-- The two sides of a balanced inside are balanced. -/
theorem isBalanced_of_parallelSides? {inside left right : Text} (h : isBalanced inside = true)
    (hsides : parallelSides? inside = some (left, right)) :
    isBalanced left = true ∧ isBalanced right = true := by
  obtain ⟨l, r, hcut, hleft, hright⟩ := parallelSides?_eq_some_iff.mp hsides
  -- The `+` that the text is cut at stands at top level.
  obtain ⟨rfl, hafter, -⟩ := Field.splitAfter?_eq_some hcut
  obtain ⟨hl, hr⟩ := (isBalanced_append_iff hafter).mp h
  rw [isBalanced_cons_plain (by decide)] at hr
  exact ⟨(Field.isBalanced_of_dropEnding? hleft).trans hl,
    (Field.isBalanced_of_dropEnding? hright).trans hr⟩

/-- The words of a parallel formula are balanced if the inside of its square brackets is. -/
theorem balanced_of_parallel? {inside : Text} (h : isBalanced inside = true)
    (hf : parallel? inside = some f) : ∀ w ∈ f.words, isBalanced w = true := by
  obtain ⟨left, right, b, n, c, count, hsides, hparts, -, -, rfl⟩ := parallel?_eq_some_iff.mp hf
  obtain ⟨hleft, hright⟩ := isBalanced_of_parallelSides? h hsides
  refine forall_mem_map_unwrap _ fun t ht => ?_
  rcases List.mem_cons.mp ht with rfl | ht
  · exact hleft
  · refine isBalanced_of_mem_commaParts hright ?_
    rw [hparts]
    exact List.Sublist.subset (by simp) ht

/-- The code of a classification is balanced even where the square brackets around it do not
match each other. -/
theorem isBalanced_of_classBases? {inside code : Text}
    (h : strictAfter? [square] inside = some [square])
    (hbases : classBases? inside = some (code, code)) : isBalanced code = true := by
  obtain ⟨ft, cp, hparts, hft, hcp⟩ := classBases?_eq_some_iff.mp hbases
  -- The two parts are read alike, since both are the code but for blanks and a suffix.
  have hsame (nest : Nesting) : strictAfter? nest cp = strictAfter? nest ft := by
    rw [← Field.strictAfter?_dropEnding? hft, Field.strictAfter?_dropEnding? hcp]
  obtain ⟨hinside, hafter⟩ := eq_of_splitTop_eq_two hparts
  rw [hinside, strictAfter?_append, Option.bind_eq_some_iff] at h
  obtain ⟨nest, hread, hrest⟩ := h
  rw [strictAfter?_cons, strictStep?_plain _ (by decide), Option.bind_some, hsame] at hrest
  rw [Field.isBalanced_of_dropEnding? hft, isBalanced_iff]
  have houter : strictAfter? ([] ++ [square]) ft = some nest := hread
  rcases strictAfter?_outer houter with ⟨inner, hinner, -⟩ | ⟨u, v, hcut, hu, hv⟩
  · rw [hinner, ← after_eq_of_strictAfter? hinner, hafter]
  · -- The first part would close the region around it and come to top level, and the second,
    -- which is read alike, would then have to close a region at top level.
    exfalso
    have htop : after [] ft = nest := by
      rw [hcut, after_append, after_eq_of_strictAfter? hu]
      -- The closer is stray at top level.
      show after [] v = nest
      exact after_eq_of_strictAfter? hv
    rw [← htop, hafter, hcut, strictAfter?_append, hu] at hrest
    cases hrest

/-- The code of a classification that is read from a balanced text is balanced. -/
theorem balanced_of_classification? {raw inside : Text} (h : isBalanced raw = true)
    (hinside : squareInside? raw = some inside) (hf : classification? inside = some f) :
    ∀ w ∈ f.words, isBalanced w = true := by
  obtain ⟨i, hraw, rfl⟩ := squareInside?_eq_some_iff.mp hinside
  obtain ⟨code, hbases, -, rfl⟩ := classification?_eq_some_iff.mp hf
  have hread : strictAfter? [square] (Text.trim i) = some [square] := by
    rw [strictAfter?_trim]
    exact strictAfter?_of_isBalanced_ends (hraw ▸ h)
  intro w hw
  rw [List.mem_singleton.mp hw, isBalanced_unwrapOnce]
  exact isBalanced_of_classBases? hread hbases

end Stages

/-! ### The decoder -/

/-- The words of a balanced text are balanced; of a parallel formula this is said where the
trimmed text is one region. -/
theorem isBalanced_of_mem_words {t : Text} {f : Formula} (hbal : isBalanced t = true)
    (hdecode : decode t = .ok f)
    (hregion : f.mode = .parallel → (enclosed? square (Text.trim t)).isSome = true) :
    ∀ w ∈ f.words, isBalanced w = true := by
  have hraw : isBalanced (Text.trim t) = true := by rw [isBalanced_trim, hbal]
  have hcore : isBalanced (dropSuffix (Text.trim t)) = true := by
    rw [isBalanced_dropSuffix, hraw]
  -- Only the stages for commas at top level need the text to be balanced; braces are matched.
  rcases ofTrimmed?_cases (decode_eq_ok_iff.mp hdecode) with
    ⟨inside, hinside, hf | hf⟩ | hf | hf | hf
  · obtain ⟨i, hi, rfl⟩ := squareInside?_eq_some_iff.mp hinside
    obtain ⟨j, hj⟩ := Option.isSome_iff_exists.mp (hregion (mode_of_parallel? hf))
    obtain ⟨hregion, hjbal⟩ := enclosed?_eq_some_iff.mp hj
    -- What is taken out of the square brackets is the inside of the region.
    have hij : i = j := List.append_cancel_right (List.cons.inj (hi.symm.trans hregion)).2
    rw [← isBalanced_trim, ← hij] at hjbal
    exact balanced_of_parallel? hjbal hf
  · exact balanced_of_classification? hraw hinside hf
  · exact balanced_of_collection? hf
  · exact balanced_of_serial? hf
  · exact balanced_of_flat? hcore hf

/-- Decoding a text tears no region of it apart: if the text is balanced, so are the words of its
formula, and the encoder does not refuse them for their brackets. -/
def Untorn (t : Text) : Prop :=
  isBalanced t = true → ∀ f, decode t = .ok f →
    (∀ w ∈ f.words, isBalanced w = true) ∧
      ∀ config slot, encodeWith config f ≠ .error (.unbalancedBrackets slot)

/-- In the first text the square brackets at the two ends belong to different words. In the second
the encoder takes the full-width bracket for a bracket. -/
theorem not_untorn :
    ¬Untorn "[A]/TX+[B],3N,[C/TX]".toList ∧ ¬Untorn "（A/TX".toList := by
  constructor
  · intro h
    have hdecode : decode "[A]/TX+[B],3N,[C/TX]".toList =
        .ok ⟨.parallel, ["A]".toList, "[B]".toList, "[C".toList], ["3".toList]⟩ := by cbv
    have hword := (h (by decide) _ hdecode).1 "A]".toList List.mem_cons_self
    exact absurd hword (by decide)
  · intro h
    have hdecode : decode "（A/TX".toList = .ok ⟨.single, ["（A".toList], []⟩ := by cbv
    exact (h (by decide) _ hdecode).2 Config.literal 0 (by cbv)

/-- The words of a balanced text are balanced; of a parallel formula this is said where the
trimmed text is one region. The encoder may refuse such a word for its brackets only if folding
it to half width turns a character of it into a bracket. -/
theorem balanced_of_decode {t : Text} {f : Formula} (hbal : isBalanced t = true)
    (hdecode : decode t = .ok f)
    (hregion : f.mode = .parallel → (enclosed? square (Text.trim t)).isSome = true) :
    (∀ w ∈ f.words, isBalanced w = true) ∧
      ∀ config slot, encodeWith config f = .error (.unbalancedBrackets slot) →
        ∃ w, f.words[slot]? = some w ∧ isBalanced (Text.toHalfWidth w) = false ∧
          ∃ c ∈ w, roleOf (Text.halfWidthChar c) ≠ roleOf c := by
  have hwords := isBalanced_of_mem_words hbal hdecode hregion
  refine ⟨hwords, fun config slot hencode => ?_⟩
  obtain ⟨w, hw, hfold⟩ := unbalanced_of_encode hencode
  exact ⟨w, hw, hfold,
    Text.exists_of_unbalanced_toHalfWidth (hwords w (List.mem_of_getElem? hw)) hfold⟩

/-- A parallel formula whose words hold brackets of every kind. -/
theorem balanced_of_decode_parallel :
    isBalanced " [[A]/TX+\x7bB\x7d,3N,(C,D)E/TX] ".toList = true ∧
      (∀ w ∈ ["[A]".toList, "\x7bB\x7d".toList, "(C,D)E".toList], isBalanced w = true) ∧
      ∀ slot, encodeWith Config.canonical
          ⟨.parallel, ["[A]".toList, "\x7bB\x7d".toList, "(C,D)E".toList], ["3".toList]⟩ ≠
        .error (.unbalancedBrackets slot) := by
  have hbal : isBalanced " [[A]/TX+\x7bB\x7d,3N,(C,D)E/TX] ".toList = true := by decide
  have hdecode : decode " [[A]/TX+\x7bB\x7d,3N,(C,D)E/TX] ".toList =
      .ok ⟨.parallel, ["[A]".toList, "\x7bB\x7d".toList, "(C,D)E".toList], ["3".toList]⟩ := by cbv
  obtain ⟨hwords, hrefused⟩ := balanced_of_decode hbal hdecode fun _ => by cbv
  refine ⟨hbal, hwords, fun slot h => ?_⟩
  obtain ⟨w, hw, -, c, hc, hrole⟩ := hrefused _ slot h
  have hascii : (["[A]".toList, "\x7bB\x7d".toList, "(C,D)E".toList].flatten.all
      fun c => roleOf (Text.halfWidthChar c) == roleOf c) = true := by decide
  have hmem := List.mem_flatten.mpr ⟨w, List.mem_of_getElem? hw, hc⟩
  exact hrole (beq_iff_eq.mp (List.all_eq_true.mp hascii c hmem))

end QueryMix.Formula
