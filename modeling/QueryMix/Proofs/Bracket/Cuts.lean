import QueryMix.Proofs.Bracket.Matching
import QueryMix.Proofs.Field

/-!
# `QueryMix.Proofs.Bracket.Cuts`: no cut falls inside a region

A text is cut by the tolerant reading of its brackets, and a region is found by the strict reading.
The first knows all that stands before a place, the second only what follows the opener. Still they
agree on every region that is found: from its opener to its closer the splitter makes no cut
(`cuts_outside_match`), and neither does the search for a suffix, whatever precedes the opener.

Both cut at a character at top level that is no bracket, `StandsAtTop`. What precedes the opener of
a region leaves some nesting, the opener adds a region to it, and the inside is balanced. So that
region stays open up to its closer (`after_ne_nil_of_isBalanced_append`), and no character in it
stands at top level (`StandsAtTop.outside`).
-/

set_option autoImplicit false

namespace QueryMix.Bracket

open Nesting
open Text (size)

variable {t : Text} {c sep : Char} {i j k : Nat}

/-- At `k` the splitter cuts the text: there the separator stands that follows the parts `front` and
precedes the parts `back`. -/
def IsCut (sep : Char) (t : Text) (k : Nat) : Prop :=
  ∃ front back : List Text, splitTop sep t = front ++ back ∧ front ≠ [] ∧ back ≠ [] ∧
    size ([sep].intercalate front) = k

/-- At `k` the character stands, no bracket, and no region is open there for the tolerant
reading. -/
def StandsAtTop (t : Text) (c : Char) (k : Nat) : Prop :=
  ∃ before rest : Text, t = before ++ c :: rest ∧ size before = k ∧ roleOf c = .plain ∧
    after [] before = []

/-! ### Cuts are made at top level -/

/-- A bracket separates nothing. -/
theorem splitFrom_of_bracket (h : isBracket sep = true) (nest : Nesting) (t : Text) :
    splitFrom sep nest t = [t] := by
  induction t generalizing nest with
  | nil => rfl
  | cons d t ih =>
    have hnot : ¬(d = sep ∧ nest = [] ∧ isBracket d = false) := by
      rintro ⟨rfl, -, hd⟩
      rw [h] at hd
      cases hd
    rw [splitFrom_cons_of_not hnot, ih]
    rfl

/-- After some of its parts, but not all, a text goes on with a separator, and no region is open
there. -/
theorem eq_append_of_splitTop_eq_append (hsep : roleOf sep = .plain) {front back : List Text}
    (h : splitTop sep t = front ++ back) (hfront : front ≠ []) (hback : back ≠ []) :
    (∃ rest : Text, t = [sep].intercalate front ++ sep :: rest) ∧
      after [] ([sep].intercalate front) = [] := by
  induction front generalizing t with
  | nil => exact absurd rfl hfront
  | cons p front ih =>
    rcases splitTop_cases sep t with hs | ⟨s, r, rfl, hsplit, hafter, -⟩
    · -- A text without a cut has one part only.
      rw [hs] at h
      exact absurd (List.append_eq_nil_iff.mp (List.cons.inj h).2.symm).2 hback
    · rw [hsplit, List.cons_append] at h
      obtain ⟨rfl, hrest⟩ := List.cons.inj h
      by_cases hmore : front = []
      · rw [hmore, List.intercalate_singleton]
        exact ⟨⟨r, rfl⟩, hafter⟩
      · obtain ⟨⟨rest, hr⟩, hend⟩ := ih hrest hmore
        rw [List.intercalate_cons_of_ne_nil hmore]
        constructor
        · exact ⟨rest, by simp [← hr]⟩
        · rw [after_append, after_append, hafter, after_cons, after_nil, step_plain _ hsep, hend]

/-- The splitter cuts at top level only. -/
theorem IsCut.standsAtTop (h : IsCut sep t k) : StandsAtTop t sep k := by
  obtain ⟨front, back, hsplit, hfront, hback, hsize⟩ := h
  have hsep : roleOf sep = .plain := by
    rw [← isBracket_eq_false_iff, ← Bool.not_eq_true]
    intro hbracket
    rw [splitTop, splitFrom_of_bracket hbracket] at hsplit
    have hlen := congrArg List.length hsplit
    have := List.length_pos_iff.mpr hfront
    have := List.length_pos_iff.mpr hback
    rw [List.length_singleton, List.length_append] at hlen
    omega
  obtain ⟨⟨rest, ht⟩, hafter⟩ := eq_append_of_splitTop_eq_append hsep hsplit hfront hback
  exact ⟨_, rest, ht, hsize, hsep, hafter⟩

/-- The search for a suffix cuts at top level only. -/
theorem standsAtTop_of_splitAfter? {field : Field} {left right : Text}
    (h : field.splitAfter? t = some (left, right)) : StandsAtTop t '+' (size left) := by
  obtain ⟨ht, hafter, -⟩ := Field.splitAfter?_eq_some h
  exact ⟨left, right, ht, rfl, by decide, hafter⟩

/-! ### Inside a region nothing stands at top level -/

/-- As long as a balanced text goes on, the region around it stays open. -/
theorem after_ne_nil_of_isBalanced_append {u v : Text} (h : isBalanced (u ++ v) = true)
    (b : Bracket) (nest : Nesting) : after (b :: nest) u ≠ [] := by
  have hread := isBalanced_iff.mp h
  rw [strictAfter?_append, Option.bind_eq_some_iff] at hread
  obtain ⟨inner, hu, -⟩ := hread
  have hopen : after (b :: nest) u = inner ++ b :: nest :=
    after_eq_of_strictAfter? (strictAfter?_frame hu (b :: nest))
  rw [hopen]
  simp

/-- What stands at top level stands before the opener of a region or after its closer. -/
theorem StandsAtTop.outside (h : StandsAtTop t c k) (hmatch : Encloses t i j) :
    k + c.utf8Size ≤ i ∨ j < k := by
  obtain ⟨before, rest, ht, rfl, hplain, htop⟩ := h
  obtain ⟨b, front, inside, back, hregion, rfl, rfl, hbal⟩ := hmatch
  have hopen : c ≠ b.opener := by
    rintro rfl
    simp at hplain
  have hclose : c ≠ b.closer := by
    rintro rfl
    simp at hplain
  rw [ht] at hregion
  rcases List.append_eq_append_iff.mp hregion with ⟨w, rfl, hw⟩ | ⟨w, rfl, hw⟩
  · -- The character stands before the opener.
    cases w with
    | nil => exact absurd (List.cons.inj hw).1 hopen
    | cons d w =>
      obtain ⟨rfl, -⟩ := List.cons.inj hw
      left
      simp only [Text.size_append, Text.size_cons]
      omega
  · cases w with
    | nil => exact absurd (List.cons.inj hw).1.symm hopen
    | cons d w =>
      obtain ⟨rfl, hrest⟩ := List.cons.inj hw
      rcases List.append_eq_append_iff.mp hrest with ⟨u, rfl, hu⟩ | ⟨u, rfl, hu⟩
      · -- It stands after the closer.
        cases u with
        | nil => exact absurd (List.cons.inj hu).1.symm hclose
        | cons d u =>
          obtain ⟨rfl, -⟩ := List.cons.inj hu
          right
          have hclosed : 0 < b.closer.utf8Size := Char.utf8Size_pos _
          simp only [Text.size_append, Text.size_cons, utf8Size_opener]
          omega
      · -- It stands between the two, where the region is open.
        have hopened : (after [] front).step b.opener = b :: after [] front := by simp [step]
        rw [after_append, after_cons, hopened] at htop
        exact absurd htop (after_ne_nil_of_isBalanced_append hbal b _)

/-- From the opener of a region to the closer that matches it nothing is cut, neither by the
splitter nor by the search for a suffix: the separator stands before the opener or after the closer,
whatever else the text holds. So a text that is one region has no cut. -/
theorem cuts_outside_match (t : Text) (sep : Char) :
    (∀ i j, matchingPlace? t i = some j →
      (∀ k, IsCut sep t k → k + sep.utf8Size ≤ i ∨ j < k) ∧
        ∀ (field : Field) (left right : Text), field.splitAfter? t = some (left, right) →
          size left + '+'.utf8Size ≤ i ∨ j < size left) ∧
      ∀ opening, isEnclosed opening t = true → splitTop sep t = [t] := by
  constructor
  · intro i j hmatch
    have hregion : Encloses t i j := matchingPlace?_eq_some_iff.mp hmatch
    exact ⟨fun k hcut => hcut.standsAtTop.outside hregion,
      fun field left right hcut => (standsAtTop_of_splitAfter? hcut).outside hregion⟩
  · intro opening henclosed
    unfold isEnclosed at henclosed
    split at henclosed
    · next b _ =>
      obtain ⟨inside, hinside⟩ := Option.isSome_iff_exists.mp henclosed
      exact splitTop_of_enclosed? hinside sep
    · cases henclosed

/-- Closers without openers stand before the region, and a suffix with a `+` stands in it. The cut
that is made at such a `+` is made after the region. -/
theorem cuts_outside_match_malformed :
    matchingPlace? "é)]+(a/TX+b)+c/TX+[d".toList 5 = some 12 ∧
      IsCut '+' "é)]+(a/TX+b)+c/TX+[d".toList 13 ∧ ¬IsCut '+' "é)]+(a/TX+b)+c/TX+[d".toList 10 ∧
      Field.fullText.splitAfter? "é)]+(a/TX+b)+c/TX+[d".toList =
        some ("é)]+(a/TX+b)+c/TX".toList, "[d".toList) ∧
      (18 + '+'.utf8Size ≤ 5 ∨ 12 < 18) ∧
      isEnclosed '(' "(a/TX+b)".toList = true ∧
      splitTop '+' "(a/TX+b)".toList = ["(a/TX+b)".toList] := by
  have hmatch : matchingPlace? "é)]+(a/TX+b)+c/TX+[d".toList 5 = some 12 := by decide
  obtain ⟨hcuts, hsplit⟩ := (cuts_outside_match "é)]+(a/TX+b)+c/TX+[d".toList '+').1 5 12 hmatch
  have hafter : Field.fullText.splitAfter? "é)]+(a/TX+b)+c/TX+[d".toList =
      some ("é)]+(a/TX+b)+c/TX".toList, "[d".toList) := by decide
  have henclosed : isEnclosed '(' "(a/TX+b)".toList = true := by decide
  refine ⟨hmatch, ?_, ?_, hafter, hsplit _ _ _ hafter, henclosed,
    (cuts_outside_match _ '+').2 '(' henclosed⟩
  · exact ⟨["é)]".toList, "(a/TX+b)".toList], ["c/TX".toList, "[d".toList], by decide, by decide,
      by decide, by decide⟩
  · intro hcut
    have houtside := hcuts 10 hcut
    revert houtside
    decide

end QueryMix.Bracket
