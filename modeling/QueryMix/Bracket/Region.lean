import QueryMix.Bracket.Basic
import QueryMix.Text.Place

/-!
# `QueryMix.Bracket.Region`: bracketed regions and their removal

A region runs from an opener to the closer that matches it. Reading one is strict: the
first closer that does not fit the innermost open region spoils the search. What can come of
it is one of three outcomes, `Region`: the region closes, with its inside and the rest of
the text; a closer of the wrong kind turns up; or the text ends first.

`unwrap` takes off the round brackets around a text, layer by layer, as long as the first
character opens a region that the last one closes. `(A)(B)` is no such text. Each layer
makes the text shorter by two characters at least, which is why `unwrap` ends.
-/

set_option autoImplicit false

namespace QueryMix

/-- What reading the text after an opener comes to. -/
inductive Region where
  /-- The match was found: what it encloses, and what follows it. -/
  | closed (inside rest : Text)
  /-- A closer of the wrong kind was found: what precedes it, and the text from it on. -/
  | mismatched (inside rest : Text)
  /-- The text ended before the match. -/
  | unclosed
deriving DecidableEq, Repr

namespace Region

open QueryMix.Bracket

/-- The outcome when one more character precedes the part that was read. -/
def extend (c : Char) : Region → Region
  | closed inside rest => closed (c :: inside) rest
  | mismatched inside rest => mismatched (c :: inside) rest
  | unclosed => unclosed

/-- Read on inside the region `innermost`, which lies in the regions `outer`, to the end of
the outermost of them. -/
def read (innermost : Bracket) (outer : Nesting) : Text → Region
  | [] => unclosed
  | c :: rest =>
    match roleOf c with
    | .opens b => extend c (read b (innermost :: outer) rest)
    | .closes b =>
      if b = innermost then
        match outer with
        | [] => closed [] rest
        | next :: others => extend c (read next others rest)
      else mismatched [] (c :: rest)
    | .plain => extend c (read innermost outer rest)

/-- The region that a text starts with, if its first character opens one of kind `b`. -/
def ofText? (b : Bracket) : Text → Option Region
  | [] => none
  | c :: rest => if c = b.opener then some (read b [] rest) else none

end Region

namespace Bracket

/-- The offset of the closer that matches the opener at `offset`. There is none if no opener
stands there, if its region is never closed, or if a closer of the wrong kind comes first. -/
def matchingPlace? (t : Text) (offset : Nat) : Option Nat :=
  match Text.cutAt? t offset with
  | some (_, c :: rest) =>
    match roleOf c with
    | .opens b =>
      match Region.read b [] rest with
      | .closed inside _ => some (offset + c.utf8Size + Text.size inside)
      | _ => none
    | _ => none
  | _ => none

/-- The inside of a text that is one region of kind `b` from its first to its last character. -/
def enclosed? (b : Bracket) (t : Text) : Option Text :=
  match Region.ofText? b t with
  | some (.closed inside []) => some inside
  | _ => none

/-- Is the text one region from its first character, an `opening` bracket, to its last? -/
def isEnclosed (opening : Char) (t : Text) : Bool :=
  match roleOf opening with
  | .opens b => (enclosed? b t).isSome
  | _ => false

end Bracket

namespace Region

open QueryMix.Bracket

/-- A region that closes, its closer and what follows make up what was read. -/
theorem eq_of_read_closed {innermost : Bracket} {outer : Nesting} {t inside rest : Text}
    (h : read innermost outer t = closed inside rest) :
    ∃ b : Bracket, t = inside ++ b.closer :: rest := by
  induction t generalizing innermost outer inside with
  | nil => simp [read] at h
  | cons c t ih =>
    -- A character inside the region goes before what is read of it.
    have step : ∀ {n o}, extend c (read n o t) = closed inside rest →
        ∃ b : Bracket, c :: t = inside ++ b.closer :: rest := by
      intro n o he
      cases hr : read n o t with
      | closed i r =>
        rw [hr] at he
        simp only [extend, closed.injEq] at he
        obtain ⟨rfl, rfl⟩ := he
        obtain ⟨b, hb⟩ := ih hr
        exact ⟨b, by rw [hb]; rfl⟩
      | mismatched i r => simp [hr, extend] at he
      | unclosed => simp [hr, extend] at he
    unfold read at h
    split at h
    · exact step h
    · next b hc =>
      split at h
      · split at h
        · simp only [closed.injEq] at h
          obtain ⟨rfl, rfl⟩ := h
          exact ⟨b, by rw [roleOf_eq_closes_iff.mp hc]; rfl⟩
        · exact step h
      · cases h
    · exact step h

end Region

namespace Bracket

/-- A text that is one region is its opener, its inside and one last character. -/
theorem eq_of_enclosed? {b : Bracket} {t inside : Text} (h : enclosed? b t = some inside) :
    ∃ last : Bracket, t = b.opener :: (inside ++ [last.closer]) := by
  unfold enclosed? at h
  split at h
  · next i hi =>
    cases h
    cases t with
    | nil => cases hi
    | cons c rest =>
      simp only [Region.ofText?] at hi
      split at hi
      · next hc =>
        simp only [Option.some.injEq] at hi
        obtain ⟨last, hl⟩ := Region.eq_of_read_closed hi
        exact ⟨last, by rw [hc, hl]⟩
      · cases hi
  · cases h

/-- The inside is shorter than the text. -/
theorem length_lt_of_enclosed? {b : Bracket} {t inside : Text}
    (h : enclosed? b t = some inside) : inside.length < t.length := by
  obtain ⟨last, rfl⟩ := eq_of_enclosed? h
  simp only [List.length_cons, List.length_append]
  omega

/-- The trimmed text without the round brackets around it, however many layers there are. -/
def unwrap (t : Text) : Text :=
  let core := Text.trim t
  match _layer : enclosed? round core with
  | some inside => unwrap inside
  | none => core
termination_by t.length
decreasing_by
  exact Nat.lt_of_lt_of_le (length_lt_of_enclosed? _layer) (Text.length_trim_le t)

/-- The trimmed text without the outermost pair of round brackets around it, if there is one. -/
def unwrapOnce (t : Text) : Text :=
  let core := Text.trim t
  match enclosed? round core with
  | some inside => Text.trim inside
  | none => core

/-- One layer at a time: `unwrap` goes on with the inside, or stops at the trimmed text. -/
theorem unwrap_eq (t : Text) :
    unwrap t =
      match enclosed? round (Text.trim t) with
      | some inside => unwrap inside
      | none => Text.trim t := by
  rw [unwrap]
  split <;> simp_all

/-- Unwrapping only leaves characters out. -/
theorem unwrap_sublist (t : Text) : (unwrap t).Sublist t := by
  rw [unwrap_eq]
  split
  · next inside h =>
    have hlt := Nat.lt_of_lt_of_le (length_lt_of_enclosed? h) (Text.length_trim_le t)
    obtain ⟨last, hl⟩ := eq_of_enclosed? h
    have hin : inside.Sublist (Text.trim t) := by
      rw [hl]
      exact (List.sublist_append_left inside _).trans (List.sublist_cons_self _ _)
    exact (unwrap_sublist inside).trans (hin.trans (Text.trim_sublist t))
  · exact Text.trim_sublist t
termination_by t.length

end Bracket

end QueryMix
