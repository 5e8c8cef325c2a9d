import Mathlib
import QueryMix.Proofs.Formula.Spelling

/-!
# `QueryMix.Proofs.Formula.EmptyWords`: the texts that are read with an empty word

A word of which nothing is left without the round brackets around it should lead to no formula:
the stages for single words, pairs, collections and parallel formulas all refuse it. Two
stages do not. The serial stage never looks whether a word is empty, and the one for
classifications looks before it takes the brackets off.

`SpellsHollow` is the grammar of the texts that this lets through: a serial formula with a word
that is nothing but blanks and brackets, and a classification whose code is one pair of
brackets around blanks. It is exact (`namesAllWords_iff`): every text of the grammar is read
with an empty word, and no other text is.
-/

set_option autoImplicit false

namespace QueryMix.Formula

open QueryMix.Bracket QueryMix.Nesting

/-- Every formula that is read from the text has something in each of its words. -/
def NamesAllWords (t : Text) : Prop := ∀ f, decode t = .ok f → [] ∉ f.words

/-- Blanks, with any number of layers of round brackets around them. -/
abbrev Hollow (t : Text) : Prop := Layered [] t

/-- The texts that spell a formula with an empty word. -/
inductive SpellsHollow : Text → Prop
  /-- `{A,nN,B,nN,C}`, with the suffix or without it, and a hollow word among the three -/
  | serial {d d' x m y n z t : Text} (hx : BetweenCommas x) (hd : CountSlot d m)
      (hy : BetweenCommas y) (hd' : CountSlot d' n) (hz : BetweenCommas z)
      (hhollow : Hollow x ∨ Hollow y ∨ Hollow z)
      (ht : MaySuffixed ('{' :: ([','].intercalate [x, m, y, n, z] ++ ['}'])) t) :
      SpellsHollow t
  /-- `[()/FT+()/CP]`, with the same blanks in both pairs of round brackets -/
  | classification {blanks l r t : Text} (hblanks : Text.trim blanks = [])
      (hl : Field.fTerm.Suffixed ('(' :: (blanks ++ [')'])) l)
      (hr : Field.cpc.Suffixed ('(' :: (blanks ++ [')'])) r)
      (ht : Text.Padded ('[' :: (l ++ '+' :: r ++ [']'])) t) : SpellsHollow t

/-! ### Hollow texts -/

/-- Nothing is left of a text without the brackets around it exactly when it is hollow. -/
theorem unwrap_eq_nil_iff {t : Text} : unwrap t = [] ↔ Hollow t := by
  constructor
  · intro h
    have hlayers := layered_unwrap t
    rwa [h] at hlayers
  · exact fun h => h.unwrap_eq rfl rfl

/-- Blanks are balanced. -/
theorem isBalanced_of_blank {blanks : Text} (h : Text.trim blanks = []) :
    isBalanced blanks = true := by
  rw [← isBalanced_trim, h]
  rfl

/-- Nothing is left of a code without its outermost brackets exactly when it is empty, or when
these brackets stand around blanks. -/
theorem unwrapOnce_eq_nil_iff {code : Text} (htrim : Text.trim code = code) :
    unwrapOnce code = [] ↔
      code = [] ∨ ∃ blanks, Text.trim blanks = [] ∧ code = '(' :: (blanks ++ [')']) := by
  rw [unwrapOnce_of_trim htrim]
  constructor
  · intro h
    split at h
    · next blanks hblanks => exact .inr ⟨blanks, h, (enclosed?_eq_some_iff.mp hblanks).1⟩
    · exact .inl h
  · rintro (rfl | ⟨blanks, hblanks, rfl⟩)
    · rfl
    · have hregion : enclosed? round ('(' :: (blanks ++ [')'])) = some blanks :=
        enclosed?_enclosed (isBalanced_of_blank hblanks)
      rw [hregion]
      exact hblanks

/-! ### What the grammar lets through -/

/-- Brackets around blanks can stand in a slot. -/
theorem isSlot_hollow {blanks : Text} (h : Text.trim blanks = []) :
    IsSlot ('(' :: (blanks ++ [')'])) where
  ne_nil := List.cons_ne_nil _ _
  trimmed := trim_enclosed round blanks
  balanced := isBalanced_enclosed round (isBalanced_of_blank h)

/-- A text of the grammar is read with an empty word. -/
theorem decode_of_spellsHollow {t : Text} (h : SpellsHollow t) :
    ∃ f, decode t = .ok f ∧ [] ∈ f.words := by
  cases h with
  | serial hx hd hy hd' hz hhollow ht =>
    refine ⟨_, decode_serial_slots hx hd hy hd' hz ht, List.mem_map.mpr ?_⟩
    rcases hhollow with h | h | h
    · exact ⟨_, by simp, unwrap_eq_nil_iff.mpr h⟩
    · exact ⟨_, by simp, unwrap_eq_nil_iff.mpr h⟩
    · exact ⟨_, by simp, unwrap_eq_nil_iff.mpr h⟩
  | @classification blanks l r t hblanks hl hr ht =>
    have hcode := isSlot_hollow hblanks
    have huncut : containsTop '+' ('(' :: (blanks ++ [')'])) = false :=
      containsTop_eq_false_iff.mpr (splitTop_enclosed '+' round (isBalanced_of_blank hblanks))
    refine ⟨_, decode_classification hcode huncut hl hr ht, List.mem_singleton.mpr ?_⟩
    exact ((unwrapOnce_eq_nil_iff hcode.trimmed).mpr (.inr ⟨blanks, hblanks, rfl⟩)).symm

/-! ### What the stages let through -/

/-- The count that was read from a slot stands in it. -/
theorem countSlot_of_digits? {d x : Text} (h : Count.digits? x = some d) : CountSlot d x := by
  obtain ⟨hd, n, hn, htrim⟩ := Count.digits?_eq_some_iff.mp h
  exact ⟨hd, n, hn, htrim ▸ Text.padded_trim x⟩

/-- What is read of a text has the text around it, with the suffix or without. -/
theorem maySuffixed_dropSuffix (t : Text) : MaySuffixed (dropSuffix (Text.trim t)) t := by
  rw [dropSuffix, Text.dropEnding?_congr (Text.trim_trim t)]
  cases h : Text.dropEnding? t Field.fullText.suffix with
  | none => exact .inl (Text.padded_trim t)
  | some core => exact .inr (Field.suffixed_of_dropEnding? h)

/-- A part of a balanced text between its commas. -/
theorem between_of_mem_splitTop {inside x : Text} (hbal : isBalanced inside = true)
    (hx : x ∈ splitTop ',' inside) : BetweenCommas x where
  balanced := (isBalanced_iff_forall_mem_splitTop roleOf_comma inside).mp hbal x hx
  uncut := containsTop_eq_false_iff.mpr (splitTop_of_mem_splitTop hx)

/-- A serial formula with an empty word was read from a text of the grammar. -/
theorem spellsHollow_of_serial? {t : Text} {f : Formula}
    (h : serial? (dropSuffix (Text.trim t)) = some f) (hempty : [] ∈ f.words) :
    SpellsHollow t := by
  obtain ⟨inside, a, m, b, n, c, d, d', hinside, hparts, hm, hn, rfl⟩ :=
    serial?_eq_some_iff.mp h
  obtain ⟨hcore, hbal⟩ := enclosed?_eq_some_iff.mp hinside
  have ht := maySuffixed_dropSuffix t
  rw [hcore] at ht
  -- The parts as they stand between the commas, blanks included.
  rw [commaParts, List.map_eq_cons_iff] at hparts
  obtain ⟨x, xs, hsplit, rfl, hxs⟩ := hparts
  simp only [List.map_eq_cons_iff, List.map_eq_nil_iff] at hxs
  obtain ⟨m, _, rfl, rfl, y, _, rfl, rfl, n, _, rfl, rfl, z, _, rfl, rfl, rfl⟩ := hxs
  have hback := intercalate_splitTop ',' inside
  rw [hsplit] at hback
  rw [← hback] at ht
  have hbetween (u : Text) (hu : u ∈ [x, m, y, n, z]) : BetweenCommas u :=
    between_of_mem_splitTop hbal (hsplit ▸ hu)
  rw [Count.digits?_trim] at hm hn
  refine .serial (hbetween x (by simp)) (countSlot_of_digits? hm) (hbetween y (by simp))
    (countSlot_of_digits? hn) (hbetween z (by simp)) ?_ ht
  obtain ⟨w, hw, hnone⟩ := List.mem_map.mp hempty
  simp only [List.mem_cons, List.not_mem_nil, or_false] at hw
  rcases hw with rfl | rfl | rfl
  · exact .inl (unwrap_eq_nil_iff.mp (by rw [← unwrap_trim, hnone]))
  · exact .inr (.inl (unwrap_eq_nil_iff.mp (by rw [← unwrap_trim, hnone])))
  · exact .inr (.inr (unwrap_eq_nil_iff.mp (by rw [← unwrap_trim, hnone])))

/-- A classification with an empty word was read from a text of the grammar. -/
theorem spellsHollow_of_classification? {t inside : Text} {f : Formula}
    (hinside : squareInside? (Text.trim t) = some inside) (h : classification? inside = some f)
    (hempty : [] ∈ f.words) : SpellsHollow t := by
  obtain ⟨i, ht, rfl⟩ := squareInside?_eq_some_iff.mp hinside
  obtain ⟨code, hbases, hne, rfl⟩ := classification?_eq_some_iff.mp h
  obtain ⟨l, r, hparts, hleft, hright⟩ := classBases?_eq_some_iff.mp hbases
  obtain ⟨hcut, -⟩ := eq_of_splitTop_eq_two hparts
  -- The code was trimmed when its suffix was dropped, and it is not empty.
  obtain ⟨s, e, -, hcode, -⟩ := Text.dropEnding?_eq_some_iff.mp hleft
  have htrim : Text.trim code = code := by rw [hcode, Text.trim_trim]
  have hnone : unwrapOnce code = [] := (List.mem_singleton.mp hempty).symm
  obtain ⟨blanks, hblanks, rfl⟩ := ((unwrapOnce_eq_nil_iff htrim).mp hnone).resolve_left hne
  -- The blanks at the ends of the inside belong to the two sides.
  obtain ⟨before, behind, hi, hbefore, hbehind⟩ := Text.eq_blanks_trim_blanks i
  have hl : Field.fTerm.Suffixed ('(' :: (blanks ++ [')'])) (before ++ l) :=
    Field.suffixed_of_dropEnding? <| by
      rw [Text.dropEnding?_congr (Text.trim_blanks_append hbefore l), hleft]
  have hr : Field.cpc.Suffixed ('(' :: (blanks ++ [')'])) (r ++ behind) :=
    Field.suffixed_of_dropEnding? <| by
      rw [Text.dropEnding?_congr (Text.trim_append_blanks hbehind r), hright]
  refine .classification hblanks hl hr ?_
  have hwhole : Text.trim t = '[' :: (before ++ l ++ '+' :: (r ++ behind) ++ [']']) := by
    rw [ht, hi, hcut]
    simp
  exact hwhole ▸ Text.padded_trim t

/-- The other stages look at each word as it is left. -/
theorem nil_not_mem_map_unwrap {ts : List Text} (h : ∀ t ∈ ts, unwrap t ≠ []) :
    [] ∉ ts.map unwrap := by
  intro hmem
  obtain ⟨t, ht, hnone⟩ := List.mem_map.mp hmem
  exact h t ht hnone

/-- The last stage makes no formula with an empty word. -/
theorem nil_not_mem_of_flat? {core : Text} {f : Formula} (h : flat? core = some f) :
    [] ∉ f.words := by
  rcases flat?_eq_some_iff.mp h with ⟨a, -, ha, rfl⟩ | ⟨a, n, b, count, -, -, ha, hb, rfl⟩
  · show [] ∉ [a].map unwrap
    exact nil_not_mem_map_unwrap (List.forall_mem_singleton.mpr ha)
  · show [] ∉ [a, b].map unwrap
    exact nil_not_mem_map_unwrap (by simp [ha, hb])

/-- A formula with an empty word was read from a text of the grammar. -/
theorem spellsHollow_of_decode {t : Text} {f : Formula} (h : decode t = .ok f)
    (hempty : [] ∈ f.words) : SpellsHollow t := by
  rcases ofTrimmed?_cases (decode_eq_ok_iff.mp h) with ⟨inside, hinside, h | h⟩ | h | h | h
  · obtain ⟨left, right, b, n, c, count, -, -, -, hvisible, rfl⟩ := parallel?_eq_some_iff.mp h
    exact absurd hempty (nil_not_mem_map_unwrap hvisible)
  · exact spellsHollow_of_classification? hinside h hempty
  · obtain ⟨inside, count, a, b, c, -, -, hvisible, rfl⟩ := collection?_eq_some_iff.mp h
    exact absurd hempty (nil_not_mem_map_unwrap hvisible)
  · exact spellsHollow_of_serial? h hempty
  · exact absurd hempty (nil_not_mem_of_flat? h)

/-- No formula with an empty word is read from a text exactly when the text is none of the
grammar. -/
theorem namesAllWords_iff (t : Text) : NamesAllWords t ↔ ¬SpellsHollow t := by
  constructor
  · intro hnames hspells
    obtain ⟨f, hf, hempty⟩ := decode_of_spellsHollow hspells
    exact hnames f hf hempty
  · intro hnot f hf hempty
    exact hnot (spellsHollow_of_decode hf hempty)

/-- Of a serial formula without its first word, and of a classification of nothing, formulas
with an empty word are read. -/
theorem not_namesAllWords :
    ¬NamesAllWords "\x7b,1N,B,1N,C\x7d/TX".toList ∧ ¬NamesAllWords "[()/FT+()/CP]".toList := by
  have hserial : decode "\x7b,1N,B,1N,C\x7d/TX".toList =
      .ok ⟨.serial, [[], "B".toList, "C".toList], ["1".toList]⟩ := by cbv
  have hclass : decode "[()/FT+()/CP]".toList = .ok ⟨.classification, [[]], []⟩ := by cbv
  exact ⟨fun h => h _ hserial List.mem_cons_self, fun h => h _ hclass List.mem_cons_self⟩

end QueryMix.Formula
