import QueryMix.Bracket.Basic

/-!
# `QueryMix.Bracket.Split`: splitting a text at top level

`splitTop sep` cuts a text at every `sep` that stands outside all brackets, by the tolerant
reading of the brackets. A bracket is never a place to cut. Nothing is trimmed and empty
parts are kept. No part can be cut further at the same separator
(`splitTop_of_mem_splitTop`), and no part is longer than the text (`length_le_of_mem_splitTop`).
-/

set_option autoImplicit false

namespace QueryMix.Bracket

/-- The parts of a text that continues at nesting `nest`. -/
def splitFrom (sep : Char) (nest : Nesting) : Text → List Text
  | [] => [[]]
  | c :: rest =>
    if c = sep ∧ nest = [] ∧ isBracket c = false then [] :: splitFrom sep nest rest
    else (splitFrom sep (nest.step c) rest).modifyHead (c :: ·)

/-- The parts of a text between its separators at top level. -/
def splitTop (sep : Char) (t : Text) : List Text := splitFrom sep [] t

/-- The parts of a text between separators given as a text: one character is a separator,
any other text separates nothing. -/
def splitTopBy (separator : Text) (t : Text) : List Text :=
  match separator with
  | [sep] => splitTop sep t
  | _ => [t]

/-- Does the character occur at top level? -/
def containsTop (c : Char) (t : Text) : Bool := 1 < (splitTop c t).length

/-- A text has one part at least. -/
theorem splitFrom_ne_nil (sep : Char) (nest : Nesting) (t : Text) :
    splitFrom sep nest t ≠ [] := by
  induction t generalizing nest with
  | nil => simp [splitFrom]
  | cons c t ih =>
    unfold splitFrom
    split
    · simp
    · cases h : splitFrom sep (nest.step c) t with
      | nil => exact absurd h (ih _)
      | cons p ps => simp

/-- The first part goes on at the nesting of the whole text, the others start at top level;
none of them is cut again. -/
theorem splitFrom_parts {sep : Char} {nest : Nesting} {t p : Text} {ps : List Text}
    (h : splitFrom sep nest t = p :: ps) :
    splitFrom sep nest p = [p] ∧ ∀ q ∈ ps, splitFrom sep [] q = [q] := by
  induction t generalizing nest p ps with
  | nil =>
    simp only [splitFrom, List.cons.injEq] at h
    obtain ⟨rfl, rfl⟩ := h
    simp [splitFrom]
  | cons c t ih =>
    unfold splitFrom at h
    split at h
    · next hc =>
      -- The parts after a cut are those of a text that begins at top level.
      obtain ⟨-, rfl, -⟩ := hc
      simp only [List.cons.injEq] at h
      obtain ⟨rfl, rfl⟩ := h
      refine ⟨rfl, fun q hq => ?_⟩
      cases hs : splitFrom sep [] t with
      | nil => exact absurd hs (splitFrom_ne_nil _ _ _)
      | cons r rs =>
        obtain ⟨h1, h2⟩ := ih hs
        rw [hs] at hq
        rcases List.mem_cons.mp hq with rfl | hq
        · exact h1
        · exact h2 q hq
    · next hc =>
      -- The character goes to the first part, and is no cut there either.
      cases hs : splitFrom sep (nest.step c) t with
      | nil => exact absurd hs (splitFrom_ne_nil _ _ _)
      | cons r rs =>
        rw [hs] at h
        simp only [List.modifyHead_cons, List.cons.injEq] at h
        obtain ⟨rfl, rfl⟩ := h
        obtain ⟨h1, h2⟩ := ih hs
        refine ⟨?_, h2⟩
        rw [splitFrom, if_neg hc, h1]
        rfl

/-- A part holds no separator at top level. -/
theorem splitTop_of_mem_splitTop {sep : Char} {t p : Text} (h : p ∈ splitTop sep t) :
    splitTop sep p = [p] := by
  unfold splitTop at h ⊢
  cases hs : splitFrom sep [] t with
  | nil => exact absurd hs (splitFrom_ne_nil _ _ _)
  | cons r rs =>
    obtain ⟨h1, h2⟩ := splitFrom_parts hs
    rw [hs] at h
    rcases List.mem_cons.mp h with rfl | h
    · exact h1
    · exact h2 p h

/-- A part is no longer than the text, whatever is open at its start. -/
theorem length_le_of_mem_splitFrom {sep : Char} {nest : Nesting} {t p : Text}
    (h : p ∈ splitFrom sep nest t) : p.length ≤ t.length := by
  induction t generalizing nest p with
  | nil =>
    simp only [splitFrom, List.mem_singleton] at h
    simp [h]
  | cons c t ih =>
    unfold splitFrom at h
    split at h
    · rcases List.mem_cons.mp h with rfl | h
      · simp
      · have := ih h
        simp only [List.length_cons]
        omega
    · have bound : ∀ q ∈ splitFrom sep (nest.step c) t, q.length ≤ t.length := fun q hq => ih hq
      -- Only the first part has got longer, by the character that the text has more.
      cases hs : splitFrom sep (nest.step c) t with
      | nil => exact absurd hs (splitFrom_ne_nil _ _ _)
      | cons r rs =>
        rw [hs] at h bound
        rw [List.modifyHead_cons] at h
        rcases List.mem_cons.mp h with rfl | h
        · have := bound r List.mem_cons_self
          simp only [List.length_cons]
          omega
        · have := bound p (List.mem_cons_of_mem _ h)
          simp only [List.length_cons]
          omega

/-- A part is no longer than the text. -/
theorem length_le_of_mem_splitTop {sep : Char} {t p : Text} (h : p ∈ splitTop sep t) :
    p.length ≤ t.length := length_le_of_mem_splitFrom h

end QueryMix.Bracket
