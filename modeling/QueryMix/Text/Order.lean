import QueryMix.Text.Blank

/-!
# `QueryMix.Text.Order`: the order of tokens, and sorted lists without repeats

Tokens are put longest first, and tokens of one length in ascending order of their
characters' code points. Two tokens compare as equal only if they are equal, so a set of
tokens has one sorted list without repeats: `sortedSet` builds it by insertion.
-/

set_option autoImplicit false

namespace QueryMix.Text

/-- Longer texts first; texts of one length in ascending order. -/
def longestFirst (s t : Text) : Ordering :=
  (compare t.length s.length).then (compare s t)

/-- Shorter texts first; texts of one length in ascending order. -/
def shortestFirst (s t : Text) : Ordering :=
  (compare s.length t.length).then (compare s t)

/-- Put a text in its place in a sorted list; a text that is there already is not repeated. -/
def insertSorted (t : Text) : List Text → List Text
  | [] => [t]
  | u :: us =>
    match longestFirst t u with
    | .lt => t :: u :: us
    | .eq => u :: us
    | .gt => u :: insertSorted t us

/-- The texts of a list, sorted longest first, each once. -/
def sortedSet (ts : List Text) : List Text := ts.foldr insertSorted []

end QueryMix.Text
