import Mathlib.Logic.Function.Iterate
import QueryMix.Proofs.Bracket.Region

/-!
# `QueryMix.Proofs.Bracket.Layers`: taking off all round brackets around a text

`unwrap` is defined by what it leaves of the inside of a text. `Peels` tells of the work turn by
turn: as long as the text is one region in round brackets, its first and its last character are
dropped and what is between them is trimmed. The work comes to an end on every text, and what is
left then is `unwrap` of the text (`exists_peels`). Each turn drops two characters, so there are
half as many turns as characters at most.

`unwrapOnce` takes off one layer at most. The texts that it leaves alone are those that `unwrap`
leaves alone (`unwrapOnce_eq_self_iff`), so going on with it until nothing changes comes to the
same (`settlesAt_unwrap`).

No balance is asked for: a text such as `(A)(B)` begins and ends with round brackets and is left
alone, and so is `(])`. Only round brackets that are put around a text are sure to come off again if
that text is balanced. Around `A)(B` they do not.
-/

set_option autoImplicit false

namespace QueryMix.Bracket

variable {t inside : Text}

/-! ### Turn by turn -/

/-- After `n` turns of taking off a layer of round brackets, and the blanks next to them, `u` is
left of the text, and that is no region in round brackets. -/
inductive Peels : Nat → Text → Text → Prop
  | stop {t : Text} (h : isEnclosed '(' t = false) : Peels 0 t t
  | turn {n : Nat} {t u : Text} (h : isEnclosed '(' t = true)
    (hrest : Peels n (Text.trim t.tail.dropLast) u) : Peels (n + 1) t u

/-- Without an inside in round brackets the text is no region of that kind. -/
theorem isEnclosed_round_of_none (h : enclosed? round t = none) : isEnclosed '(' t = false := by
  rw [isEnclosed_round, h]
  rfl

/-- The inside of a region is the text without its first and its last character. -/
theorem tail_dropLast_of_enclosed? {b : Bracket} (h : enclosed? b t = some inside) :
    t.tail.dropLast = inside := by
  obtain ⟨rfl, -⟩ := enclosed?_eq_some_iff.mp h
  exact List.dropLast_concat

/-- Turn by turn the round brackets come off as `unwrap` says, and no turn is left to do. -/
theorem exists_peels (t : Text) :
    ∃ n, 2 * n ≤ (Text.trim t).length ∧ Peels n (Text.trim t) (unwrap t) := by
  refine unwrap_induction
    (P := fun t u => ∃ n, 2 * n ≤ (Text.trim t).length ∧ Peels n (Text.trim t) u) ?_ ?_ t
  · intro t h
    exact ⟨0, Nat.zero_le _, .stop (isEnclosed_round_of_none h)⟩
  · rintro t inside h ⟨n, hn, hpeels⟩
    have hround : isEnclosed '(' (Text.trim t) = true := by
      rw [isEnclosed_round, h]
      rfl
    refine ⟨n + 1, ?_, .turn hround ?_⟩
    · -- The turn drops the two brackets of this layer.
      have htrim := Text.length_trim_le inside
      have hlen := congrArg List.length (enclosed?_eq_some_iff.mp h).1
      simp only [List.length_cons, List.length_append, List.length_nil] at hlen
      omega
    · rw [tail_dropLast_of_enclosed? h]
      exact hpeels

/-! ### One layer at a time -/

/-- Going on with `f` from `x` comes to `y`: every step on the way changes something, and from `y`
on nothing changes. -/
def SettlesAt {α : Type} (f : α → α) (x y : α) : Prop :=
  ∃ n, f^[n] x = y ∧ f y = y ∧ ∀ m < n, f^[m + 1] x ≠ f^[m] x

/-- What a step leaves alone is settled already. -/
theorem SettlesAt.of_fixed {α : Type} {f : α → α} {x : α} (h : f x = x) : SettlesAt f x x :=
  ⟨0, rfl, h, fun _ hm => absurd hm (Nat.not_lt_zero _)⟩

/-- A step that changes something may be put before the steps that lead to where it settles. -/
theorem SettlesAt.of_step {α : Type} {f : α → α} {x y : α} (hne : f x ≠ x)
    (h : SettlesAt f (f x) y) : SettlesAt f x y := by
  obtain ⟨n, hn, hy, hchange⟩ := h
  refine ⟨n + 1, hn, hy, fun m hm => ?_⟩
  cases m with
  | zero => exact hne
  | succ m => exact hchange m (Nat.lt_of_succ_lt_succ hm)

/-- A layer that comes off first makes no difference to what is left in the end. -/
theorem unwrap_unwrapOnce (t : Text) : unwrap (unwrapOnce t) = unwrap t := by
  dsimp only [unwrapOnce]
  cases h : enclosed? round (Text.trim t) with
  | none => exact unwrap_trim t
  | some inside =>
    rw [unwrap_of_some h]
    exact unwrap_trim inside

/-- What is left when one layer is taken off is a part of the text. -/
theorem unwrapOnce_sublist (t : Text) : (unwrapOnce t).Sublist t := by
  dsimp only [unwrapOnce]
  cases h : enclosed? round (Text.trim t) with
  | none => exact Text.trim_sublist t
  | some inside =>
    have hin : inside.Sublist (Text.trim t) := by
      rw [← tail_dropLast_of_enclosed? h]
      exact (List.dropLast_sublist _).trans (List.tail_sublist _)
    exact (Text.trim_sublist inside).trans (hin.trans (Text.trim_sublist t))

/-- What is left in the end is left alone. -/
@[simp] theorem unwrapOnce_unwrap (t : Text) : unwrapOnce (unwrap t) = unwrap t := by
  rw [unwrapOnce_of_trim (trim_unwrap t), enclosed?_unwrap]

/-- Taking the layers off a second time changes nothing. -/
theorem unwrap_unwrap (t : Text) : unwrap (unwrap t) = unwrap t :=
  unwrap_eq_self (trim_unwrap t) (enclosed?_unwrap t)

/-- A text has no layer to come off exactly when it has none at all. -/
theorem unwrapOnce_eq_self_iff : unwrapOnce t = t ↔ unwrap t = t := by
  constructor
  · intro h
    have htrim : Text.trim t = t := by rw [← h, trim_unwrapOnce]
    refine unwrap_eq_self htrim ?_
    cases hin : enclosed? round t with
    | none => rfl
    | some inside =>
      -- One layer less is a shorter text.
      rw [unwrapOnce_of_trim htrim, hin] at h
      have hlt := length_lt_of_enclosed? hin
      have htrimmed := Text.length_trim_le inside
      rw [show Text.trim inside = t from h] at htrimmed
      omega
  · intro h
    rw [← h, unwrapOnce_unwrap]

/-- Taking off one layer at a time comes to what is left in the end. -/
theorem settlesAt_unwrap (t : Text) : SettlesAt unwrapOnce t (unwrap t) := by
  by_cases h : unwrapOnce t = t
  · rw [unwrapOnce_eq_self_iff.mp h]
    exact .of_fixed h
  · have hlt : (unwrapOnce t).length < t.length :=
      Nat.lt_of_le_of_ne (unwrapOnce_sublist t).length_le
        fun hlen => h ((unwrapOnce_sublist t).eq_of_length hlen)
    have hrest := settlesAt_unwrap (unwrapOnce t)
    rw [unwrap_unwrapOnce] at hrest
    exact .of_step h hrest
termination_by t.length

/-- All round brackets around a text are taken off, turn by turn, until there is no turn left to do.
That is what taking off one layer again and again comes to, and it cannot be gone on with: what is
left is trimmed, it is no region in round brackets, and taking off its brackets leaves it as it is.
The text is that in layers of round brackets, with blanks around each layer or not. One more layer
around a balanced text comes off too. -/
theorem unwrap_takes_all_off (t : Text) :
    (∃ n, 2 * n ≤ (Text.trim t).length ∧ Peels n (Text.trim t) (unwrap t)) ∧
      SettlesAt unwrapOnce t (unwrap t) ∧
      Text.trim (unwrap t) = unwrap t ∧ isEnclosed '(' (unwrap t) = false ∧
      unwrap (unwrap t) = unwrap t ∧ Layered (unwrap t) t ∧
      (isBalanced t = true → unwrap ('(' :: (t ++ [')'])) = unwrap t) :=
  ⟨exists_peels t, settlesAt_unwrap t, trim_unwrap t, isEnclosed_round_of_none (enclosed?_unwrap t),
    unwrap_unwrap t, layered_unwrap t, unwrap_enclosed⟩

/-- Two layers with blanks around them come off, and a third one that is put around them does too;
the regions next to each other stay. -/
theorem unwrap_takes_all_off_groups :
    isBalanced " (( (A)(B) ) )".toList = true ∧
      unwrap "( (( (A)(B) ) ))".toList = unwrap " (( (A)(B) ) )".toList ∧
      unwrap " (( (A)(B) ) )".toList = "(A)(B)".toList := by
  have hbal : isBalanced " (( (A)(B) ) )".toList = true := by decide
  obtain ⟨-, -, -, -, -, -, henclose⟩ := unwrap_takes_all_off " (( (A)(B) ) )".toList
  exact ⟨hbal, henclose hbal, by cbv⟩

/-- Around a text that is not balanced a layer stays. -/
example : unwrap "(A)(B)".toList ≠ unwrap "A)(B".toList := by cbv; decide

end QueryMix.Bracket
