import Mathlib.Data.List.Induction
import QueryMix.Proofs.Bracket.Balance

/-!
# `QueryMix.Proofs.Bracket.Language`: the language of balanced texts

`isBalanced` reads a text with a list of the open regions. `Derivable` says which texts are
balanced without any reading, by the grammar

    B → empty | B x | B ( B ) | B { B } | B [ B ]

where `x` is any character that is no bracket. The two agree on every text
(`isBalanced_iff_derivable`). That a derivable text is balanced follows its derivation. The other
way needs to say what has been derived halfway through a text, where regions are open: derivable
texts with the openers of these regions between them, `LeavesOpen`. One more character leads from
such a text to such a text (`LeavesOpen.concat`).

The tolerant reading goes through a balanced text and comes back to top level, and it passes over
no closer on the way. It does both on balanced texts only (`isBalanced_iff_passedOver`).
-/

set_option autoImplicit false

namespace QueryMix.Bracket

open Nesting

/-- The texts that the grammar derives, each from its last piece backwards: a character that is no
bracket, or a region with a derivable inside. -/
inductive Derivable : Text → Prop
  | empty : Derivable []
  | plain {t : Text} {c : Char} (ht : Derivable t)
    (hc : ∀ b : Bracket, c ≠ b.opener ∧ c ≠ b.closer) : Derivable (t ++ [c])
  | region {t inside : Text} (b : Bracket) (ht : Derivable t) (hinside : Derivable inside) :
    Derivable (t ++ b.opener :: (inside ++ [b.closer]))

/-- The texts that leave the regions of a nesting open: the openers of these regions, outermost
first, with derivable texts before, between and after them. -/
inductive LeavesOpen : Nesting → Text → Prop
  | nothing {t : Text} (ht : Derivable t) : LeavesOpen [] t
  | region {nest : Nesting} {s t : Text} (b : Bracket) (hs : LeavesOpen nest s)
    (ht : Derivable t) : LeavesOpen (b :: nest) (s ++ b.opener :: t)

variable {nest nest' : Nesting} {t : Text} {c : Char}

/-- A character is plain exactly when it is no opener and no closer of any kind. -/
theorem roleOf_eq_plain_iff : roleOf c = .plain ↔ ∀ b : Bracket, c ≠ b.opener ∧ c ≠ b.closer := by
  constructor
  · intro h b
    constructor
    · rintro rfl
      simp at h
    · rintro rfl
      simp at h
  · intro h
    cases hc : roleOf c with
    | opens b => exact absurd (roleOf_eq_opens_iff.mp hc) (h b).1
    | closes b => exact absurd (roleOf_eq_closes_iff.mp hc) (h b).2
    | plain => rfl

/-! ### Derivable texts are balanced, and balanced texts are derivable -/

/-- Every rule of the grammar makes balanced texts of balanced texts. -/
theorem Derivable.isBalanced (h : Derivable t) : isBalanced t = true := by
  induction h with
  | empty => rfl
  | @plain t c _ hc ih =>
    have hplain : Bracket.isBalanced [c] = true :=
      isBalanced_of_plain fun d hd => by
        rw [List.mem_singleton.mp hd]
        exact roleOf_eq_plain_iff.mpr hc
    rw [isBalanced_append_right hplain, ih]
  | region b _ _ ih ihinside =>
    rw [isBalanced_append_left ih, isBalanced_enclosed b ihinside]

/-- What may follow any derivable text may follow a text that leaves regions open. -/
theorem LeavesOpen.append {w : Text} (h : LeavesOpen nest t)
    (hw : ∀ u, Derivable u → Derivable (u ++ w)) : LeavesOpen nest (t ++ w) := by
  cases h with
  | nothing ht => exact .nothing (hw t ht)
  | @region nest s u b hs hu =>
    rw [List.append_assoc, List.cons_append]
    exact .region b hs (hw u hu)

/-- One more character changes what is left open as the strict reading says. -/
theorem LeavesOpen.concat (h : LeavesOpen nest t) (hstep : strictStep? nest c = some nest') :
    LeavesOpen nest' (t ++ [c]) := by
  rcases strictStep?_cases hstep with ⟨b, hc, rfl⟩ | ⟨b, hc, rfl⟩ | ⟨hc, rfl⟩
  · rw [roleOf_eq_opens_iff.mp hc]
    exact .region b h .empty
  · -- The closer and what has been derived since its opener make a region after the text before.
    cases h with
    | @region nest s inside b hs hinside =>
      rw [roleOf_eq_closes_iff.mp hc, List.append_assoc, List.cons_append]
      exact hs.append fun u hu => .region b hu hinside
  · exact h.append fun u hu => .plain hu (roleOf_eq_plain_iff.mp hc)

/-- A text that the strict reading goes through leaves open what the reading says. -/
theorem leavesOpen_of_strictAfter? (h : strictAfter? [] t = some nest) : LeavesOpen nest t := by
  induction t using List.reverseRecOn generalizing nest with
  | nil =>
    obtain rfl : [] = nest := Option.some.inj h
    exact .nothing .empty
  | append_singleton t c ih =>
    rw [strictAfter?_append, Option.bind_eq_some_iff] at h
    obtain ⟨mid, hread, hlast⟩ := h
    rw [strictAfter?_cons, Option.bind_eq_some_iff] at hlast
    obtain ⟨last, hstep, hend⟩ := hlast
    obtain rfl : last = nest := Option.some.inj hend
    exact (ih hread).concat hstep

/-- The balanced texts are those that the grammar derives. -/
theorem isBalanced_iff_derivable : isBalanced t = true ↔ Derivable t := by
  constructor
  · intro h
    cases leavesOpen_of_strictAfter? (isBalanced_iff.mp h) with
    | nothing ht => exact ht
  · exact Derivable.isBalanced

/-- Regions that overlap are no words of the grammar, though every bracket has its partner. -/
example : ¬Derivable "([)]".toList := fun h => absurd h.isBalanced (by decide)

/-! ### Closers that the tolerant reading passes over -/

/-- The character is a closer, and the tolerant reading passes over it: the nesting stays as it
is. -/
def IsPassedOver (nest : Nesting) (c : Char) : Prop :=
  (∃ b : Bracket, c = b.closer) ∧ nest.step c = nest

/-- The tolerant reading of the text from a nesting on passes over no closer. -/
def PassesOverNone (nest : Nesting) (t : Text) : Prop :=
  ∀ (before : Text) (c : Char) (rest : Text), t = before ++ c :: rest →
    ¬IsPassedOver (after nest before) c

/-- The strict reading takes a character, as the tolerant reading does, unless that passes over
it. -/
theorem strictStep?_eq_some_iff :
    strictStep? nest c = some nest' ↔ nest.step c = nest' ∧ ¬IsPassedOver nest c := by
  unfold IsPassedOver strictStep? step
  cases hc : roleOf c with
  | opens b =>
    have hnot : ∀ k : Bracket, c ≠ k.closer := by
      rintro k rfl
      simp at hc
    simp [hnot]
  | closes b =>
    have hclose : ∃ k : Bracket, c = k.closer := ⟨b, roleOf_eq_closes_iff.mp hc⟩
    by_cases hhead : nest.head? = some b
    · obtain ⟨outer, rfl⟩ := List.head?_eq_some_iff.mp hhead
      simp [List.ne_cons_self]
    · simp [hhead, hclose]
  | plain => simp [(roleOf_eq_plain_iff.mp hc _).2]

/-- The closers that are passed over are those of the rest, and the first character if it is one. -/
theorem passesOverNone_cons :
    PassesOverNone nest (c :: t) ↔ ¬IsPassedOver nest c ∧ PassesOverNone (nest.step c) t := by
  constructor
  · intro h
    exact ⟨h [] c t rfl, fun before d rest ht => h (c :: before) d rest (by rw [ht]; rfl)⟩
  · rintro ⟨hc, ht⟩ before d rest hsplit
    cases before with
    | nil =>
      obtain ⟨rfl, -⟩ := List.cons.inj hsplit
      exact hc
    | cons e before =>
      obtain ⟨rfl, htail⟩ := List.cons.inj hsplit
      exact ht before d rest htail

/-- The strict reading of a text is the tolerant reading, if that passes over no closer. -/
theorem strictAfter?_eq_some_iff :
    strictAfter? nest t = some nest' ↔ after nest t = nest' ∧ PassesOverNone nest t := by
  induction t generalizing nest with
  | nil =>
    have hnone : PassesOverNone nest [] := fun before c rest h => by simp at h
    simp [hnone]
  | cons c t ih =>
    rw [strictAfter?_cons, Option.bind_eq_some_iff, after_cons, passesOverNone_cons]
    constructor
    · rintro ⟨mid, hstep, hrest⟩
      obtain ⟨rfl, hc⟩ := strictStep?_eq_some_iff.mp hstep
      obtain ⟨hafter, ht⟩ := ih.mp hrest
      exact ⟨hafter, hc, ht⟩
    · rintro ⟨hafter, hc, ht⟩
      exact ⟨nest.step c, strictStep?_eq_some_iff.mpr ⟨rfl, hc⟩, ih.mpr ⟨hafter, ht⟩⟩

/-- On the balanced texts, and on no others, the tolerant reading comes back to top level and
passes over no closer. -/
theorem isBalanced_iff_passesOverNone :
    isBalanced t = true ↔ after [] t = [] ∧ PassesOverNone [] t :=
  isBalanced_iff.trans strictAfter?_eq_some_iff

/-- The balanced texts are the language of the grammar, and they are the texts on which the
tolerant reading has nothing to tolerate. -/
theorem isBalanced_decides_language (t : Text) :
    (isBalanced t = true ↔ Derivable t) ∧
      (isBalanced t = true ↔ after [] t = [] ∧ PassesOverNone [] t) :=
  ⟨isBalanced_iff_derivable, isBalanced_iff_passesOverNone⟩

end QueryMix.Bracket
