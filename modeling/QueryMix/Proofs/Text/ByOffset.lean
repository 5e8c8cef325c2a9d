import QueryMix.Proofs.Text.Ending
import QueryMix.Proofs.Text.Place
import QueryMix.Trace.Caret

/-!
# `QueryMix.Proofs.Text.ByOffset`: texts cut by checked offsets

The library takes texts apart by their characters, and there nothing can go wrong. A machine holds
a text as bytes and cuts it by offsets, which it computes by adding and subtracting sizes. Work of
that kind is `Checked`: it has a fault where a slice does not begin and end at places of the text
in this order (`exists_slice_iff`), where a difference is below zero (`exists_minus_iff`), and where
a sum is larger than the text (`exists_plus_iff`), and so might be larger than the machine allows.
Work that may also come to nothing, without a fault, is an `Attempt`.

`ByOffset` has the work of the library done in this way. Each function there comes to what the
function of the same name comes to in the library, and so has no fault. This module has those that
look at endings (`hasEnding_eq`, `dropEnding?_eq`) and show places (`pointAt_eq`).
-/

set_option autoImplicit false

namespace QueryMix

namespace Text

/-- Small letters take as many bytes as capitals. -/
@[simp] theorem utf8Size_toLower (c : Char) : c.toLower.utf8Size = c.utf8Size := by
  unfold Char.toLower
  split
  · simp only [Char.utf8Size]
    grind
  · rfl

/-- Folding the case of letters leaves the size of a text as it is. -/
@[simp] theorem size_foldCase (t : Text) : size (foldCase t) = size t := by
  induction t with
  | nil => rfl
  | cons c t ih => simpa [foldCase] using ih

/-- Texts that differ in the case of letters only take as many bytes. -/
theorem size_eq_of_foldCase {t u : Text} (h : foldCase t = foldCase u) : size t = size u := by
  rw [← size_foldCase t, h, size_foldCase]

/-- A character at the end adds its bytes. -/
theorem size_concat (t : Text) (c : Char) : size (t ++ [c]) = size t + c.utf8Size := by simp

/-- The offset is a place of the text. -/
def isPlace (t : Text) (offset : Nat) : Bool := (cutAt? t offset).isSome

/-- The places of a text are the sizes of its beginnings. -/
theorem isPlace_iff {t : Text} {offset : Nat} :
    isPlace t offset = true ↔
      ∃ before after : Text, t = before ++ after ∧ size before = offset := by
  rw [isPlace, Option.isSome_iff_exists]
  constructor
  · rintro ⟨⟨before, after⟩, h⟩
    exact ⟨before, after, cutAt?_eq_some_iff.mp h⟩
  · rintro ⟨before, after, h⟩
    exact ⟨(before, after), cutAt?_eq_some_iff.mpr h⟩

/-- Between two texts in a row there is a place. -/
theorem isPlace_append (before after : Text) : isPlace (before ++ after) (size before) = true :=
  isPlace_iff.mpr ⟨before, after, rfl, rfl⟩

/-- The characters of a text and the offsets at which they stand, the first of them at `offset`. -/
def charsFrom (offset : Nat) : Text → List (Nat × Char)
  | [] => []
  | c :: rest => (offset, c) :: charsFrom (offset + c.utf8Size) rest

end Text

namespace ByOffset

open Text (size isPlace foldCase trim)

/-- What can go wrong with offsets. -/
inductive Fault where
  /-- A slice that ends before it begins, or begins or ends at no place of the text. -/
  | slice (start stop : Nat)
  /-- A difference below zero. -/
  | below (a b : Nat)
  /-- A sum larger than the text. -/
  | beyond (a b : Nat)

/-- Work with offsets, which comes to a result or has a fault. -/
abbrev Checked (α : Type) := Except Fault α

/-- Work with offsets that may come to nothing without a fault. -/
abbrev Attempt (α : Type) := OptionT (Except Fault) α

/-- The text between two offsets. -/
def slice (t : Text) (start stop : Nat) : Checked Text :=
  match Text.slice? t start stop with
  | some u => .ok u
  | none => .error (.slice start stop)

/-- The difference of two offsets. -/
def minus (a b : Nat) : Checked Nat := if b ≤ a then .ok (a - b) else .error (.below a b)

/-- The sum of two offsets in a text. -/
def plus (t : Text) (a b : Nat) : Checked Nat :=
  if a + b ≤ size t then .ok (a + b) else .error (.beyond a b)

/-- The attempt that has a result already, or nothing. -/
def given {α : Type} (result : Option α) : Attempt α := OptionT.mk (pure result)

/-- The text without the first and the last byte. -/
def withoutEnds (t : Text) : Checked Text := do
  let stop ← minus (size t) 1
  slice t 1 stop

/-- Does the text end in `ending`, whatever the case of ASCII letters? The last bytes are looked at,
as many as the ending has, if a character begins there. -/
def hasEnding (t ending : Text) : Checked Bool :=
  if size ending ≤ size t then do
    let start ← minus (size t) (size ending)
    if isPlace t start then do
      let last ← slice t start (size t)
      return foldCase last == foldCase ending
    else return false
  else return false

/-- The trimmed text before `ending`, if the trimmed text has that ending. -/
def dropEnding? (t ending : Text) : Attempt Text := do
  let core := trim t
  if ← hasEnding core ending then
    let stop ← minus (size core) (size ending)
    let front ← slice core 0 stop
    return trim front
  else failure

/-- The text and a caret at the place at `offset`, or the offset itself if it is no place. -/
def pointAt (t : Text) (offset : Nat) : Checked Text :=
  if size t < offset ∨ isPlace t offset = false then
    return Trace.quotedLine t ++ ' ' :: '@' :: Nat.toDigits 10 offset
  else do
    let before ← slice t 0 offset
    return Trace.quotedLine t ++ '\n' :: ' ' :: (List.replicate before.length ' ' ++ ['^'])

/-! ### Steps without a fault -/

section Steps

variable {α β : Type}

/-- After an attempt that has a result, the work goes on from it. -/
@[simp] theorem given_some_bind (a : α) (f : α → Attempt β) : (given (some a) >>= f) = f a := rfl

/-- After a step without a fault, the work goes on from its result. -/
@[simp] theorem ok_bind (a : α) (f : α → Checked β) : (Except.ok a >>= f) = f a := rfl

/-- The same holds where the work is an attempt. -/
@[simp] theorem lift_ok_bind (a : α) (f : α → Attempt β) :
    ((liftM (Except.ok a : Checked α) : Attempt α) >>= f) = f a := rfl

/-- Two steps without a fault, one after the other, are one such step. -/
theorem given_bind (result : Option α) (f : α → Option β) :
    given (result >>= f) = given result >>= fun a => given (f a) := by
  cases result <;> rfl

/-- A step without a fault and one to fall back on are one such step. -/
theorem given_orElse (result other : Option α) :
    given (result <|> other) = (given result <|> given other) := by
  cases result <;> rfl

/-- An attempt that is given has no fault. -/
@[simp] theorem run_given (result : Option α) : (given result).run = Except.ok result := rfl

end Steps

variable {t u : Text} {start stop : Nat}

/-- What a slice comes to stands between its two offsets. -/
theorem slice_eq_ok_iff :
    slice t start stop = .ok u ↔
      ∃ before after : Text, t = before ++ (u ++ after) ∧ size before = start ∧
        start + size u = stop := by
  rw [← Text.slice?_eq_some_iff, slice]
  cases Text.slice? t start stop with
  | none => simp
  | some v => simp

/-- A slice has no fault exactly when it begins and ends at places of the text, in this order. -/
theorem exists_slice_iff :
    (∃ u, slice t start stop = .ok u) ↔
      start ≤ stop ∧ stop ≤ size t ∧ isPlace t start = true ∧ isPlace t stop = true := by
  constructor
  · rintro ⟨u, h⟩
    obtain ⟨before, after, rfl, rfl, rfl⟩ := slice_eq_ok_iff.mp h
    refine ⟨by omega, ?_, Text.isPlace_append _ _, ?_⟩
    · simp only [Text.size_append]
      omega
    · rw [← List.append_assoc, ← Text.size_append]
      exact Text.isPlace_append _ _
  · rintro ⟨hle, -, hstart, hstop⟩
    obtain ⟨before, rest, rfl, rfl⟩ := Text.isPlace_iff.mp hstart
    obtain ⟨upto, after, hsplit, rfl⟩ := Text.isPlace_iff.mp hstop
    -- What precedes the first place precedes the second.
    rcases List.append_eq_append_iff.mp hsplit with ⟨u, rfl, rfl⟩ | ⟨u, rfl, rfl⟩
    · exact ⟨u, slice_eq_ok_iff.mpr ⟨before, after, rfl, rfl, by simp⟩⟩
    · rw [Text.size_append] at hle
      obtain rfl : u = [] := Text.size_eq_zero_iff.mp (by omega)
      exact ⟨[], slice_eq_ok_iff.mpr ⟨upto, rest, by simp, by simp, by simp⟩⟩

/-- No place is inside a character. -/
example : slice "(é)".toList 1 2 = .error (.slice 1 2) := rfl

/-- The slice between two places is the text between them. -/
theorem slice_append (before u after : Text) :
    slice (before ++ (u ++ after)) (size before) (size before + size u) = .ok u :=
  slice_eq_ok_iff.mpr ⟨before, after, rfl, rfl, rfl⟩

/-- The slice up to a place. -/
theorem slice_front (u after : Text) : slice (u ++ after) 0 (size u) = .ok u :=
  slice_eq_ok_iff.mpr ⟨[], after, rfl, rfl, Nat.zero_add _⟩

/-- The slice from a place on. -/
theorem slice_back (before u : Text) :
    slice (before ++ u) (size before) (size (before ++ u)) = .ok u :=
  slice_eq_ok_iff.mpr ⟨before, [], by simp, rfl, by simp⟩

/-- A difference that is not below zero has no fault. -/
theorem minus_of_le {a b : Nat} (h : b ≤ a) : minus a b = .ok (a - b) := if_pos h

/-- Before an ending of the text there are as many bytes as the ending leaves. -/
theorem minus_append (s e : Text) : minus (size (s ++ e)) (size e) = .ok (size s) := by
  rw [Text.size_append, minus_of_le (Nat.le_add_left _ _), Nat.add_sub_cancel]

/-- A difference has no fault exactly when it is not below zero. -/
theorem exists_minus_iff {a b : Nat} : (∃ d, minus a b = .ok d) ↔ b ≤ a := by
  constructor
  · rintro ⟨d, h⟩
    by_contra hlt
    rw [minus, if_neg hlt] at h
    cases h
  · exact fun h => ⟨_, minus_of_le h⟩

/-- A sum that is not larger than the text has no fault. -/
theorem plus_of_le {a b : Nat} (h : a + b ≤ size t) : plus t a b = .ok (a + b) := if_pos h

/-- A sum has no fault exactly when it is not larger than the text. -/
theorem exists_plus_iff {a b : Nat} : (∃ s, plus t a b = .ok s) ↔ a + b ≤ size t := by
  constructor
  · rintro ⟨s, h⟩
    by_contra hgt
    rw [plus, if_neg hgt] at h
    cases h
  · exact fun h => ⟨_, plus_of_le h⟩

/-- Between characters of one byte each, all bytes but the first and the last are left. -/
theorem withoutEnds_enclosed {c d : Char} (hc : c.utf8Size = 1) (hd : d.utf8Size = 1) (u : Text) :
    withoutEnds (c :: (u ++ [d])) = .ok u := by
  have hstop : minus (size (c :: (u ++ [d]))) 1 = .ok (1 + size u) := by
    rw [minus_of_le (by simp [hc])]
    simp [hc, hd, Nat.add_comm]
  have hslice : slice (c :: (u ++ [d])) 1 (1 + size u) = .ok u :=
    slice_eq_ok_iff.mpr ⟨[c], [d], rfl, by simp [hc], rfl⟩
  rw [withoutEnds, hstop]
  exact hslice

/-- Without its first and its last byte a text is shorter. -/
theorem length_lt_of_withoutEnds (h : withoutEnds t = .ok u) : u.length < t.length := by
  rw [withoutEnds] at h
  by_cases hle : 1 ≤ size t
  · rw [minus_of_le hle] at h
    obtain ⟨before, after, rfl, hbefore, -⟩ := slice_eq_ok_iff.mp h
    have hne : before ≠ [] := by
      rintro rfl
      simp at hbefore
    have hpos := List.length_pos_iff.mpr hne
    simp only [List.length_append]
    omega
  · rw [minus, if_neg hle] at h
    cases h

/-! ### Endings -/

/-- The test has no fault: a slice is taken only where a character begins. -/
theorem hasEnding_eq (t ending : Text) : hasEnding t ending = .ok (Text.hasEnding t ending) := by
  cases hend : Text.hasEnding t ending with
  | true =>
    obtain ⟨s, e, rfl, he⟩ := Text.hasEnding_iff_append.mp hend
    have hsize : size e = size ending := Text.size_eq_of_foldCase he
    rw [hasEnding, if_pos (by simp [hsize]), ← hsize, minus_append, ok_bind,
      if_pos (Text.isPlace_append s e), slice_back, ok_bind, he, beq_self_eq_true]
    rfl
  | false =>
    rw [hasEnding]
    split
    · next hle =>
      rw [minus_of_le hle, ok_bind]
      split
      · next hplace =>
        obtain ⟨s, e, rfl, hs⟩ := Text.isPlace_iff.mp hplace
        -- The last bytes are other characters than those of the ending.
        have hne : foldCase e ≠ foldCase ending := fun he => by
          rw [Text.hasEnding_iff_append.mpr ⟨s, e, rfl, he⟩] at hend
          cases hend
        rw [← hs, slice_back, ok_bind, beq_false_of_ne hne]
        rfl
      · rfl
    · rfl

/-- Dropping an ending has no fault: in any case of letters it takes as many bytes, so the text
before it ends at a place. -/
theorem dropEnding?_eq (t ending : Text) :
    dropEnding? t ending = given (Text.dropEnding? t ending) := by
  dsimp only [dropEnding?, Text.dropEnding?]
  rw [hasEnding_eq, lift_ok_bind]
  split
  · next hend =>
    obtain ⟨s, e, hcore, he⟩ := Text.hasEnding_iff_append.mp hend
    have hsize : size e = size ending := Text.size_eq_of_foldCase he
    have hlen : e.length = ending.length := by simpa [foldCase] using congrArg List.length he
    have htake : (trim t).take ((trim t).length - ending.length) = s := by
      rw [hcore, List.length_append, hlen, Nat.add_sub_cancel, List.take_left]
    rw [htake, hcore, ← hsize, minus_append, lift_ok_bind, slice_front]
    rfl
  · rfl

/-! ### Places that are shown -/

/-- Places are shown without a fault, and so are offsets that are no places. -/
theorem pointAt_eq (t : Text) (offset : Nat) : pointAt t offset = .ok (Trace.pointAt t offset) := by
  rw [pointAt, Trace.pointAt]
  cases hcut : Text.cutAt? t offset with
  | none =>
    rw [if_pos (.inr (by simp [isPlace, hcut]))]
    rfl
  | some parts =>
    obtain ⟨before, rest⟩ := parts
    obtain ⟨rfl, rfl⟩ := Text.cutAt?_eq_some_iff.mp hcut
    have hplace : ¬(size (before ++ rest) < size before ∨
        isPlace (before ++ rest) (size before) = false) := by
      simp [Text.isPlace_append]
    rw [if_neg hplace, slice_front]
    rfl

end ByOffset

end QueryMix
