import Mathlib
import QueryMix.Proofs.Formula.Decode

/-!
# `QueryMix.Proofs.Formula.StageOrder`: the shapes do not compete

The decoder takes the first stage that fits. This file proves that nothing hangs on which of
them is asked first, one exception apart: the two stages for square brackets exclude each
other, and so do a collection, a serial formula and a pair, on every text, balanced or not
(`exclusive_square`, `exclusive_plain`). Hence both groups may be tried in any order
(`stages_do_not_compete`).

A single word has to be last. Every text that a serial formula is read from could be read as a
single word too (`single?_of_serial?`). No other two stages for texts without square brackets
meet: what a collection is read from is not even a single word (`flat?_eq_none_of_collection?`).

The stages for texts without square brackets are told apart by the number of comma parts of
the whole text, which is the same whatever stray closers there are. The two for square
brackets are told apart by the suffix before the `+`.
-/

set_option autoImplicit false

namespace QueryMix.Formula

open QueryMix.Bracket
open scoped List

/-! ### Stages in any order -/

/-- A stage of the decoder: the formula that it reads from a text, if it takes the text. -/
abbrev Stage := Text → Option Formula

/-- The formula of the first stage that takes the text. -/
def firstReading? (stages : List Stage) (t : Text) : Option Formula := stages.findSome? (· t)

/-- At most one of the stages takes the text. -/
def Exclusive (stages : List Stage) (t : Text) : Prop :=
  stages.Pairwise fun stage other => stage t = none ∨ other t = none

section Order

variable {stages stages' : List Stage} {t : Text}

/-- This does not depend on their order. -/
theorem Exclusive.perm (h : Exclusive stages t) (hperm : stages ~ stages') :
    Exclusive stages' t :=
  hperm.pairwise h Or.symm

/-- Stages that exclude each other give one answer, in whatever order they are tried. -/
theorem firstReading?_perm (hperm : stages ~ stages') (h : Exclusive stages t) :
    firstReading? stages t = firstReading? stages' t := by
  induction hperm with
  | nil => rfl
  | cons stage _ ih =>
    rw [firstReading?, firstReading?, List.findSome?_cons, List.findSome?_cons]
    cases stage t with
    | some f => rfl
    | none => exact ih (List.Pairwise.of_cons h)
  | swap stage other rest =>
    -- One of the two says nothing, so it can be asked before or after the other.
    have htwo : other t = none ∨ stage t = none :=
      List.rel_of_pairwise_cons h List.mem_cons_self
    simp only [firstReading?, List.findSome?_cons]
    rcases htwo with hnone | hnone
    · rw [hnone]
    · rw [hnone]
  | trans hfirst _ ih ih' => exact (ih h).trans (ih' (h.perm hfirst))

end Order

/-! ### The decoder with its stages in an order -/

/-- The last stage, for pairs only. -/
def pair? : Stage := fun core => (flat? core).filter fun f => f.mode = .pair

/-- The last stage, for single words only. -/
def single? : Stage := fun core => (flat? core).filter fun f => f.mode = .single

/-- The decoder that tries these stages for the inside of square brackets and, if none of them
takes it, those for texts without. -/
def decodeInOrder (square plain : List Stage) (t : Text) : Except DecodeError Formula :=
  let raw := Text.trim t
  match ((squareInside? raw).bind (firstReading? square)).or
      (firstReading? plain (dropSuffix raw)) with
  | some f => .ok f
  | none => .error ⟨t⟩

/-- The last stage reads a pair or a single word, and both in one go. -/
theorem flat?_eq_or (core : Text) : flat? core = (pair? core).or (single? core) := by
  rw [pair?, single?]
  cases hf : flat? core with
  | none => rfl
  | some f =>
    rcases flat?_eq_some_iff.mp hf with ⟨a, -, -, rfl⟩ | ⟨a, n, b, count, -, -, -, -, rfl⟩
    · rfl
    · rfl

/-- The decoder tries a parallel formula before a classification, and a collection, a serial
formula, a pair and a single word in this order. -/
theorem decodeInOrder_eq_decode (t : Text) :
    decodeInOrder [parallel?, classification?] [collection?, serial?, pair?, single?] t =
      decode t := by
  -- The first reading of a list of stages is that of its stages in turn.
  have hsquare (inside : Text) : firstReading? [parallel?, classification?] inside =
      (parallel? inside).or (classification? inside) := by
    rw [firstReading?, List.findSome?_cons, List.findSome?_singleton]
    cases parallel? inside with
    | none => rfl
    | some f => rfl
  have hplain (core : Text) : firstReading? [collection?, serial?, pair?, single?] core =
      (collection? core).or ((serial? core).or (flat? core)) := by
    simp only [firstReading?, List.findSome?_cons, List.findSome?_nil, flat?_eq_or]
    cases collection? core with
    | some f => rfl
    | none =>
      cases serial? core with
      | some f => rfl
      | none =>
        cases pair? core with
        | some f => rfl
        | none => cases single? core <;> rfl
  have hstages (raw : Text) :
      ((squareInside? raw).bind (firstReading? [parallel?, classification?])).or
        (firstReading? [collection?, serial?, pair?, single?] (dropSuffix raw)) =
          ofTrimmed? raw := by
    rw [ofTrimmed?, bracketed?, funext hsquare, hplain]
    simp
  simp only [decodeInOrder, hstages]
  rfl

/-! ### No two stages take one text -/

/-- The two fields of a classification are not those of a parallel formula. -/
theorem exclusive_square (inside : Text) : Exclusive [parallel?, classification?] inside := by
  refine List.pairwise_pair.mpr ?_
  cases hclass : classification? inside with
  | none => exact .inr rfl
  | some f =>
    obtain ⟨code, hbases, -⟩ := classification?_eq_some_iff.mp hclass
    exact .inl (parallel?_eq_none_of_classBases? hbases)

/-- What a collection is read from has two comma parts. -/
theorem length_commaParts_of_collection? {core : Text} {f : Formula}
    (h : collection? core = some f) : (commaParts core).length = 2 := by
  obtain ⟨inside, count, -, -, -, hbody, -⟩ := collection?_eq_some_iff.mp h
  exact length_commaParts_of_collectionBody? hbody

/-- The last stage takes texts of one comma part or of three. -/
theorem length_commaParts_of_flat? {core : Text} {f : Formula} (h : flat? core = some f) :
    (commaParts core).length = if f.mode = .pair then 3 else 1 := by
  rcases flat?_eq_some_iff.mp h with ⟨a, hparts, -, rfl⟩ | ⟨a, n, b, count, hparts, -, -, -, rfl⟩
  · rw [hparts]
    rfl
  · rw [hparts]
    rfl

/-- A text that does not have three comma parts is no pair. -/
theorem pair?_eq_none_of_length {core : Text} (h : (commaParts core).length ≠ 3) :
    pair? core = none := by
  rw [pair?, Option.filter_eq_none_iff]
  intro f hf hpair
  rw [length_commaParts_of_flat? hf, if_pos (of_decide_eq_true hpair)] at h
  exact h rfl

/-- What a collection is read from is neither a pair nor a single word. -/
theorem flat?_eq_none_of_collection? {core : Text} {f : Formula}
    (h : collection? core = some f) : flat? core = none := by
  cases hflat : flat? core with
  | none => rfl
  | some g =>
    have htwo := (length_commaParts_of_flat? hflat).symm.trans (length_commaParts_of_collection? h)
    split at htwo
    · cases htwo
    · cases htwo

/-- A collection has two comma parts, a serial formula one, a pair three. -/
theorem exclusive_plain (core : Text) : Exclusive [collection?, serial?, pair?] core := by
  -- The number of comma parts rules out all the stages but one.
  by_cases hone : (commaParts core).length = 1
  · have hcollection : collection? core = none := collection?_eq_none_of_length (by omega)
    have hpair : pair? core = none := pair?_eq_none_of_length (by omega)
    simp [Exclusive, hcollection, hpair]
  · have hserial : serial? core = none := serial?_eq_none_of_length hone
    by_cases htwo : (commaParts core).length = 2
    · have hpair : pair? core = none := pair?_eq_none_of_length (by omega)
      simp [Exclusive, hserial, hpair]
    · have hcollection : collection? core = none := collection?_eq_none_of_length htwo
      simp [Exclusive, hserial, hcollection]

/-- Whatever a serial formula is read from could be a single word: the braces are left when
round brackets are taken off. -/
theorem single?_of_serial? {core : Text} {f : Formula} (h : serial? core = some f) :
    ∃ g, single? core = some g := by
  obtain ⟨inside, a, m, b, n, c, first, second, hinside, -⟩ := serial?_eq_some_iff.mp h
  obtain ⟨rfl, -⟩ := enclosed?_eq_some_iff.mp hinside
  have htrim := trim_enclosed curly inside
  have hparts : commaParts (curly.opener :: (inside ++ [curly.closer])) =
      [curly.opener :: (inside ++ [curly.closer])] := by
    rw [commaParts, splitTop_of_enclosed? hinside, List.map_singleton, htrim]
  have hbare : unwrap (curly.opener :: (inside ++ [curly.closer])) =
      curly.opener :: (inside ++ [curly.closer]) := unwrap_eq_self htrim rfl
  have hflat := flat?_eq_some_iff.mpr (.inl ⟨_, hparts, by rw [hbare]; simp, rfl⟩)
  exact ⟨_, by rw [single?, hflat]; rfl⟩

/-! ### Any order will do -/

/-- On no text do two stages of a group compete, a single word apart, which is read from every
text of a serial formula. So whatever the order of the stages in the two groups, the decoder
gives the same answer if single words come last. -/
theorem stages_do_not_compete {square plain : List Stage}
    (hsquare : square ~ [parallel?, classification?])
    (hplain : plain ~ [collection?, serial?, pair?]) (t : Text) :
    Exclusive square t ∧ Exclusive plain t ∧
      ((collection? t).isSome → flat? t = none) ∧
      ((serial? t).isSome → (single? t).isSome) ∧
      decodeInOrder square (plain ++ [single?]) t = decode t := by
  have hsquareReading (inside : Text) :
      firstReading? square inside = firstReading? [parallel?, classification?] inside :=
    (firstReading?_perm hsquare.symm (exclusive_square inside)).symm
  have hplainReading (core : Text) : firstReading? (plain ++ [single?]) core =
      firstReading? [collection?, serial?, pair?, single?] core := by
    have hthree : firstReading? plain core = firstReading? [collection?, serial?, pair?] core :=
      (firstReading?_perm hplain.symm (exclusive_plain core)).symm
    calc firstReading? (plain ++ [single?]) core
        = (firstReading? plain core).or (firstReading? [single?] core) :=
          List.findSome?_append
      _ = (firstReading? [collection?, serial?, pair?] core).or (firstReading? [single?] core) := by
          rw [hthree]
      _ = firstReading? [collection?, serial?, pair?, single?] core :=
          List.findSome?_append.symm
  refine ⟨(exclusive_square t).perm hsquare.symm, (exclusive_plain t).perm hplain.symm, ?_, ?_, ?_⟩
  · intro h
    obtain ⟨f, hf⟩ := Option.isSome_iff_exists.mp h
    exact flat?_eq_none_of_collection? hf
  · intro h
    obtain ⟨f, hf⟩ := Option.isSome_iff_exists.mp h
    exact Option.isSome_iff_exists.mpr (single?_of_serial? hf)
  · rw [← decodeInOrder_eq_decode t, decodeInOrder, decodeInOrder, funext hsquareReading,
      hplainReading]

/-- A serial formula is read as such also if pairs and serial formulas are tried before
collections, and classifications before parallel formulas. -/
theorem decodeInOrder_serial :
    decodeInOrder [classification?, parallel?] [pair?, serial?, collection?, single?]
        "\x7bA,3N,B,3N,C\x7d/TX".toList =
      .ok ⟨.serial, ["A".toList, "B".toList, "C".toList], ["3".toList]⟩ := by
  have hsquare : [classification?, parallel?] ~ [parallel?, classification?] :=
    List.Perm.swap _ _ _
  have hplain : [pair?, serial?, collection?] ~ [collection?, serial?, pair?] :=
    List.reverse_perm [collection?, serial?, pair?]
  have h := stages_do_not_compete hsquare hplain "\x7bA,3N,B,3N,C\x7d/TX".toList
  have hdecode : decode "\x7bA,3N,B,3N,C\x7d/TX".toList =
      .ok ⟨.serial, ["A".toList, "B".toList, "C".toList], ["3".toList]⟩ := by cbv
  exact h.2.2.2.2.trans hdecode

end QueryMix.Formula
