import QueryMix.Text.Blank

/-!
# `QueryMix.Text.Place`: places in a text

A place in a text is given by its byte offset in the UTF-8 form: the size of what stands
before it. Only the offsets between two characters, and the two ends, are places; an offset
inside a character or past the end is none (`cutAt?_eq_some_iff`).
-/

set_option autoImplicit false

namespace QueryMix.Text

/-- The number of bytes of the text in UTF-8. -/
def size : Text → Nat
  | [] => 0
  | c :: rest => c.utf8Size + size rest

/-- What stands before and after the place at `offset`, if that is a place of the text. -/
def cutAt? : Text → Nat → Option (Text × Text)
  | t, 0 => some ([], t)
  | [], _ + 1 => none
  | c :: rest, offset + 1 =>
    if c.utf8Size ≤ offset + 1 then
      (cutAt? rest (offset + 1 - c.utf8Size)).map fun (before, after) => (c :: before, after)
    else none

@[simp] theorem size_nil : size [] = 0 := rfl

@[simp] theorem size_cons (c : Char) (t : Text) : size (c :: t) = c.utf8Size + size t := rfl

/-- Two texts in a row take the bytes of both. -/
@[simp] theorem size_append (s t : Text) : size (s ++ t) = size s + size t := by
  induction s with
  | nil => simp
  | cons c s ih => simp [ih, Nat.add_assoc]

/-- A text is cut at `offset` into `before` and `after` exactly when they make up the text
and `before` has `offset` bytes. -/
theorem cutAt?_eq_some_iff {t before after : Text} {offset : Nat} :
    cutAt? t offset = some (before, after) ↔ t = before ++ after ∧ size before = offset := by
  induction t generalizing before offset with
  | nil =>
    cases offset with
    | zero => cases before <;> simp [cutAt?, eq_comm, Nat.ne_of_gt, Char.utf8Size_pos]
    | succ n => cases before <;> simp [cutAt?]
  | cons c rest ih =>
    have hc : 0 < c.utf8Size := Char.utf8Size_pos c
    cases offset with
    | zero =>
      cases before with
      | nil => simp [cutAt?, eq_comm]
      | cons d before =>
        have hd : 0 < d.utf8Size := Char.utf8Size_pos d
        simp [cutAt?]
        intros
        omega
    | succ n =>
      cases before with
      | nil => simp [cutAt?]
      | cons d before =>
        -- The cut is behind the first character, or it would be inside it, where no beginning ends.
        by_cases h : c.utf8Size ≤ n + 1
        · simp only [cutAt?, h, if_true, Option.map_eq_some_iff, List.cons_append,
            List.cons.injEq, size_cons, Prod.mk.injEq]
          constructor
          · rintro ⟨⟨b, a⟩, hcut, ⟨rfl, rfl⟩, rfl⟩
            obtain ⟨rfl, hs⟩ := ih.mp hcut
            exact ⟨⟨rfl, rfl⟩, by dsimp only; omega⟩
          · rintro ⟨⟨rfl, rfl⟩, hs⟩
            exact ⟨(before, after), ih.mpr ⟨rfl, by omega⟩, ⟨rfl, rfl⟩, rfl⟩
        · simp only [cutAt?, h, if_false, List.cons_append, List.cons.injEq, size_cons]
          constructor
          · intro h'; cases h'
          · rintro ⟨⟨rfl, _⟩, hs⟩
            omega

end QueryMix.Text
