import QueryMix.Bracket.Region
import QueryMix.Proofs.Bracket.Split

/-!
# `QueryMix.Proofs.Bracket.Region`: what a region encloses

Reading a region finds the first closer that brings the strict reading below the nesting at
which it started: the inside is balanced, and nothing else about the text matters
(`ofText?_eq_closed_iff`). So a text is one region exactly when it is a balanced text between
an opener and its closer (`enclosed?_eq_some_iff`), and such a text cannot be cut at top level
(`splitTop_of_enclosed?`).

`unwrap` ends at a trimmed text that is not enclosed in round brackets (`trim_unwrap`,
`enclosed?_unwrap`), and takes nothing off that could change the balance
(`isBalanced_unwrap`). What it takes off are layers of round brackets (`layered_unwrap`), and
around a balanced text it takes off all of them (`Layered.unwrap_eq`).
-/

set_option autoImplicit false

namespace QueryMix

open QueryMix.Bracket QueryMix.Nesting

namespace Region

/-- A region with one more character at its start is closed exactly when the region is, and its
inside begins with the character. -/
theorem extend_eq_closed_iff {c : Char} {r : Region} {inside rest : Text} :
    extend c r = closed inside rest ↔ ∃ i, r = closed i rest ∧ inside = c :: i := by
  cases r with
  | closed i r =>
    simp only [extend, closed.injEq]
    constructor
    · rintro ⟨rfl, rfl⟩
      exact ⟨i, ⟨rfl, rfl⟩, rfl⟩
    · rintro ⟨j, ⟨rfl, rfl⟩, rfl⟩
      exact ⟨rfl, rfl⟩
  | mismatched i r => simp [extend]
  | unclosed => simp [extend]

/-- A text that brings the open regions `inner` to an end, and the closer of the region around
them, are read to that closer. -/
theorem read_of_strictAfter? {b innermost : Bracket} {outer inner : Nesting} {inside : Text}
    (h : strictAfter? inner inside = some []) (hnest : innermost :: outer = inner ++ [b])
    (rest : Text) :
    read innermost outer (inside ++ b.closer :: rest) = closed inside rest := by
  induction inside generalizing innermost outer inner with
  | nil =>
    rw [strictAfter?_nil, Option.some.injEq] at h
    rw [h, List.nil_append, List.cons.injEq] at hnest
    obtain ⟨rfl, rfl⟩ := hnest
    simp [read]
  | cons c i ih =>
    rw [strictAfter?_cons, Option.bind_eq_some_iff] at h
    obtain ⟨mid, hstep, hrest⟩ := h
    rw [List.cons_append]
    unfold read
    rcases strictStep?_cases hstep with ⟨k, hc, rfl⟩ | ⟨k, hc, rfl⟩ | ⟨hc, rfl⟩
    · have hnest' : k :: innermost :: outer = k :: inner ++ [b] := by rw [hnest]; rfl
      have hread := ih hrest hnest'
      rw [hc]
      show extend c (read k (innermost :: outer) (i ++ b.closer :: rest)) = _
      rw [hread]
      rfl
    · -- The closer ends the innermost region, and the region `b` is still open around it.
      rw [List.cons_append, List.cons.injEq] at hnest
      obtain ⟨rfl, rfl⟩ := hnest
      obtain ⟨next, others, hout⟩ :=
        List.exists_cons_of_ne_nil (show mid ++ [b] ≠ [] by simp)
      rw [hc, hout]
      simp only [if_true]
      rw [ih hrest hout.symm]
      rfl
    · rw [hc]
      show extend c (read innermost outer (i ++ b.closer :: rest)) = _
      rw [ih hrest hnest]
      rfl

/-- What is read as the inside of a region brings the regions in it to an end. -/
theorem strictAfter?_of_read {b innermost : Bracket} {outer inner : Nesting}
    {t inside rest : Text} (h : read innermost outer t = closed inside rest)
    (hnest : innermost :: outer = inner ++ [b]) :
    strictAfter? inner inside = some [] ∧ t = inside ++ b.closer :: rest := by
  induction t generalizing innermost outer inner inside with
  | nil => cases h
  | cons c t ih =>
    unfold read at h
    split at h
    · next k hc =>
      obtain ⟨i, hr, rfl⟩ := extend_eq_closed_iff.mp h
      have hnest' : k :: innermost :: outer = k :: inner ++ [b] := by rw [hnest]; rfl
      obtain ⟨hs, rfl⟩ := ih hr hnest'
      rw [strictAfter?_cons, roleOf_eq_opens_iff.mp hc, strictStep?_opener]
      exact ⟨hs, rfl⟩
    · next k hc =>
      split at h
      · next hk =>
        split at h
        · -- No region is left around the innermost one, so it is `b`.
          cases inner with
          | nil =>
            rw [List.nil_append, List.cons.injEq] at hnest
            cases h
            exact ⟨rfl, by rw [roleOf_eq_closes_iff.mp hc, hk, hnest.1]; rfl⟩
          | cons k' inner => simp at hnest
        · next next others =>
          obtain ⟨i, hr, rfl⟩ := extend_eq_closed_iff.mp h
          cases inner with
          | nil => simp at hnest
          | cons k' inner =>
            rw [List.cons_append, List.cons.injEq] at hnest
            obtain ⟨hs, rfl⟩ := ih hr hnest.2
            rw [strictAfter?_cons, roleOf_eq_closes_iff.mp hc, hk, hnest.1, strictStep?_closer]
            exact ⟨hs, rfl⟩
      · cases h
    · next hc =>
      obtain ⟨i, hr, rfl⟩ := extend_eq_closed_iff.mp h
      obtain ⟨hs, rfl⟩ := ih hr hnest
      rw [strictAfter?_cons, strictStep?_plain _ hc]
      exact ⟨hs, rfl⟩

/-- Inside a region of one kind the text is read to the end of the region exactly when that
comes after a balanced text. -/
theorem read_eq_closed_iff {b : Bracket} {t inside rest : Text} :
    read b [] t = closed inside rest ↔
      t = inside ++ b.closer :: rest ∧ isBalanced inside = true := by
  have hnest : [b] = [] ++ [b] := rfl
  constructor
  · intro h
    obtain ⟨hs, ht⟩ := strictAfter?_of_read h hnest
    exact ⟨ht, isBalanced_iff.mpr hs⟩
  · rintro ⟨rfl, hbal⟩
    exact read_of_strictAfter? (isBalanced_iff.mp hbal) hnest rest

/-- A text starts with a region exactly when it starts with a balanced text between an opener
and its closer. -/
theorem ofText?_eq_closed_iff {b : Bracket} {t inside rest : Text} :
    ofText? b t = some (closed inside rest) ↔
      t = b.opener :: (inside ++ b.closer :: rest) ∧ isBalanced inside = true := by
  constructor
  · intro h
    cases t with
    | nil => cases h
    | cons c t =>
      rw [ofText?] at h
      split at h
      · next hc =>
        obtain ⟨rfl, hbal⟩ := read_eq_closed_iff.mp (Option.some.inj h)
        exact ⟨by rw [hc], hbal⟩
      · cases h
  · rintro ⟨rfl, hbal⟩
    rw [ofText?, if_pos rfl, read_eq_closed_iff.mpr ⟨rfl, hbal⟩]

end Region

namespace Bracket

open Region

/-- A text is one region exactly when it is a balanced text between an opener and its closer. -/
theorem enclosed?_eq_some_iff {b : Bracket} {t inside : Text} :
    enclosed? b t = some inside ↔
      t = b.opener :: (inside ++ [b.closer]) ∧ isBalanced inside = true := by
  rw [← ofText?_eq_closed_iff, enclosed?]
  constructor
  · intro h
    split at h
    · next hr => rw [hr, Option.some.inj h]
    · cases h
  · intro h
    rw [h]

/-- A balanced text between round brackets is one region. -/
theorem enclosed?_enclosed {b : Bracket} {inside : Text} (h : isBalanced inside = true) :
    enclosed? b (b.opener :: (inside ++ [b.closer])) = some inside :=
  enclosed?_eq_some_iff.mpr ⟨rfl, h⟩

/-- A text that is one region is balanced. -/
theorem isBalanced_of_enclosed? {b : Bracket} {t inside : Text}
    (h : enclosed? b t = some inside) : isBalanced t = true := by
  obtain ⟨rfl, hbal⟩ := enclosed?_eq_some_iff.mp h
  exact isBalanced_enclosed b hbal

/-- A text that is one region cannot be cut. -/
theorem splitTop_of_enclosed? {b : Bracket} {t inside : Text}
    (h : enclosed? b t = some inside) (sep : Char) : splitTop sep t = [t] := by
  obtain ⟨rfl, hbal⟩ := enclosed?_eq_some_iff.mp h
  exact splitTop_enclosed sep b hbal

/-- A text with a separator at top level is not one region. -/
theorem enclosed?_eq_none_of_containsTop {sep : Char} {t : Text}
    (h : containsTop sep t = true) (b : Bracket) : enclosed? b t = none := by
  cases he : enclosed? b t with
  | none => rfl
  | some inside =>
    rw [containsTop_eq_false_iff.mpr (splitTop_of_enclosed? he sep)] at h
    cases h

/-- The test for round brackets asks whether there is an inside. -/
theorem isEnclosed_round (t : Text) : isEnclosed '(' t = (enclosed? round t).isSome := rfl

/-! ### Taking round brackets off -/

/-- A text that is not enclosed is only trimmed. -/
theorem unwrap_of_none {t : Text} (h : enclosed? round (Text.trim t) = none) :
    unwrap t = Text.trim t := by
  rw [unwrap_eq, h]

/-- A layer of round brackets makes no difference to what is left. -/
theorem unwrap_of_some {t inside : Text} (h : enclosed? round (Text.trim t) = some inside) :
    unwrap t = unwrap inside := by
  rw [unwrap_eq, h]

/-- Blanks around a text make no difference to what is left of it. -/
@[simp] theorem unwrap_trim (t : Text) : unwrap (Text.trim t) = unwrap t := by
  rw [unwrap_eq, Text.trim_trim, ← unwrap_eq]

/-- A property of texts that trimming and the taking off of one layer carry over holds of what
is left in the end. -/
theorem unwrap_induction {P : Text → Text → Prop}
    (bare : ∀ t, enclosed? round (Text.trim t) = none → P t (Text.trim t))
    (layer : ∀ t inside, enclosed? round (Text.trim t) = some inside →
      P inside (unwrap inside) → P t (unwrap inside))
    (t : Text) : P t (unwrap t) := by
  cases h : enclosed? round (Text.trim t) with
  | none =>
    rw [unwrap_of_none h]
    exact bare t h
  | some inside =>
    have hlt := Nat.lt_of_lt_of_le (length_lt_of_enclosed? h) (Text.length_trim_le t)
    rw [unwrap_of_some h]
    exact layer t inside h (unwrap_induction bare layer inside)
termination_by t.length

/-- What is left has no blanks at its ends. -/
@[simp] theorem trim_unwrap (t : Text) : Text.trim (unwrap t) = unwrap t :=
  unwrap_induction (P := fun _ u => Text.trim u = u) (fun t _ => Text.trim_trim t)
    (fun _ _ _ ih => ih) t

/-- What is left is not enclosed in round brackets. -/
@[simp] theorem enclosed?_unwrap (t : Text) : enclosed? round (unwrap t) = none :=
  unwrap_induction (P := fun _ u => enclosed? round u = none) (fun _ h => h)
    (fun _ _ _ ih => ih) t

/-- What is left is balanced exactly when the text was. -/
@[simp] theorem isBalanced_unwrap (t : Text) : isBalanced (unwrap t) = isBalanced t :=
  unwrap_induction (P := fun t u => isBalanced u = isBalanced t)
    (fun t _ => isBalanced_trim t)
    (fun t inside h ih => by
      rw [ih, ← isBalanced_trim t, isBalanced_of_enclosed? h,
        (enclosed?_eq_some_iff.mp h).2])
    t

/-- A trimmed text that is not enclosed is left alone. -/
theorem unwrap_eq_self {t : Text} (htrim : Text.trim t = t)
    (hbare : enclosed? round t = none) : unwrap t = t := by
  rw [unwrap_of_none (by rw [htrim, hbare]), htrim]

/-- Round brackets around a balanced text are taken off. -/
theorem unwrap_enclosed {inside : Text} (h : isBalanced inside = true) :
    unwrap ('(' :: (inside ++ [')'])) = unwrap inside := by
  have htrim : Text.trim ('(' :: (inside ++ [')'])) = '(' :: (inside ++ [')']) :=
    trim_enclosed round inside
  exact unwrap_of_some (by rw [htrim]; exact enclosed?_enclosed (b := round) h)

/-- The text `core` in any number of layers of round brackets, with blanks around each layer or
not. -/
inductive Layered (core : Text) : Text → Prop
  | bare {t : Text} (ht : Text.trim t = core) : Layered core t
  | layer {inside t : Text} (hin : Layered core inside)
      (ht : Text.trim t = '(' :: (inside ++ [')'])) : Layered core t

/-- A text is what is left of it in layers of round brackets. -/
theorem layered_unwrap (t : Text) : Layered (unwrap t) t :=
  unwrap_induction (P := fun t u => Layered u t) (fun _ _ => .bare rfl)
    (fun _ _ h ih => .layer ih (enclosed?_eq_some_iff.mp h).1) t

/-- Layers around a balanced text are balanced. -/
theorem Layered.isBalanced {core t : Text} (h : Layered core t)
    (hcore : Bracket.isBalanced core = true) : Bracket.isBalanced t = true := by
  induction h with
  | bare ht => rw [← isBalanced_trim, ht, hcore]
  | layer _ ht ih =>
    rw [← isBalanced_trim, ht]
    exact isBalanced_enclosed round ih

/-- All layers around a balanced text that is not enclosed itself are taken off. -/
theorem Layered.unwrap_eq {core t : Text} (h : Layered core t)
    (hcore : Bracket.isBalanced core = true) (hbare : enclosed? round core = none) :
    unwrap t = core := by
  induction h with
  | bare ht => rw [unwrap_of_none (by rw [ht, hbare]), ht]
  | @layer inside t hin ht ih =>
    have hregion : enclosed? round (Text.trim t) = some inside :=
      enclosed?_eq_some_iff.mpr ⟨ht, hin.isBalanced hcore⟩
    rw [unwrap_of_some hregion, ih]

/-- Taking one layer off changes nothing about the balance of a text. -/
theorem isBalanced_unwrapOnce (t : Text) : isBalanced (unwrapOnce t) = isBalanced t := by
  rw [← isBalanced_trim t]
  dsimp only [unwrapOnce]
  cases h : enclosed? round (Text.trim t) with
  | none => rfl
  | some inside =>
    show isBalanced (Text.trim inside) = _
    rw [isBalanced_trim, (enclosed?_eq_some_iff.mp h).2, isBalanced_of_enclosed? h]

/-- What is left when one layer is taken off has no blanks at its ends. -/
@[simp] theorem trim_unwrapOnce (t : Text) : Text.trim (unwrapOnce t) = unwrapOnce t := by
  dsimp only [unwrapOnce]
  cases enclosed? round (Text.trim t) with
  | none => exact Text.trim_trim t
  | some inside => exact Text.trim_trim inside

/-- At most one layer comes off a trimmed text at a time. -/
theorem unwrapOnce_of_trim {t : Text} (htrim : Text.trim t = t) :
    unwrapOnce t = match enclosed? round t with
      | some inside => Text.trim inside
      | none => t := by
  calc unwrapOnce t
      = match enclosed? round (Text.trim t) with
          | some inside => Text.trim inside
          | none => Text.trim t := rfl
    _ = _ := by rw [htrim]

end Bracket

end QueryMix
