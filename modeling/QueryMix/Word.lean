import QueryMix.Bracket.Region
import QueryMix.Bracket.Split
import QueryMix.Text.Order
import QueryMix.Text.Width

/-!
# `QueryMix.Word`: the words of a formula and their normal form

A word is typed as alternatives joined by `+`, in half-width or full-width characters, with
round brackets anywhere around a group of them. Its alternatives are found by splitting at
the `+` of the top level and taking the brackets off each piece; a piece that shows a `+` at
top level after that is split again. Such a piece has lost brackets, so it is shorter than
the text it comes from (`length_lt_of_containsTop_unwrap`), and the search ends.

The normal form lists the alternatives longest first, each once, every ASCII alphanumeric
one together with its full-width form if that is asked for, in round brackets when there are
several. Classification codes keep the order in which they are typed; their normal form is
only folded to half width and trimmed.
-/

set_option autoImplicit false

namespace QueryMix.Word

open QueryMix.Bracket

/-- A piece that shows a `+` at top level once its brackets are off is shorter than the text
that it is a part of. -/
theorem length_lt_of_containsTop_unwrap {t part : Text} (hpart : part ∈ splitTop '+' t)
    (htop : containsTop '+' (unwrap part) = true) : (unwrap part).length < t.length := by
  have hle : (unwrap part).length ≤ part.length := (unwrap_sublist part).length_le
  have hne : (unwrap part).length ≠ part.length := by
    intro heq
    -- Nothing was taken off, so the piece is the part, and a part has no `+` at top level.
    rw [(unwrap_sublist part).eq_of_length heq] at htop
    simp [containsTop, splitTop_of_mem_splitTop hpart] at htop
  have := length_le_of_mem_splitTop hpart
  omega

/-- Every piece that is looked at on the way to the alternatives, its brackets off, in the
order of the text; a piece that is split again stands before its own pieces. -/
def pieces (t : Text) : List Text :=
  (splitTop '+' t).attach.flatMap fun ⟨part, _hpart⟩ =>
    if _htop : containsTop '+' (unwrap part) = true then unwrap part :: pieces (unwrap part)
    else [unwrap part]
termination_by t.length
decreasing_by exact length_lt_of_containsTop_unwrap _hpart _htop

/-- A piece is an alternative when it is not empty and not to be split again. -/
def isAlternative (piece : Text) : Bool := !piece.isEmpty && !containsTop '+' piece

/-- The alternatives of a text, in the order of the text, repeats included. -/
def alternatives (t : Text) : List Text := (pieces t).filter isAlternative

/-- An alternative in the widths that are asked for. -/
def widths (variants : Bool) (token : Text) : List Text :=
  if variants && Text.isAlphanumeric token then [token, Text.toFullWidth token] else [token]

/-- The tokens of a word: its alternatives in the widths asked for, longest first, each once. -/
def tokens (variants : Bool) (raw : Text) : List Text :=
  Text.sortedSet ((alternatives (Text.toHalfWidth raw)).flatMap (widths variants))

/-- Tokens as one word: a single token stands alone, several are joined in round brackets. -/
def join : List Text → Text
  | [] => []
  | [token] => token
  | several => '(' :: (['+'].intercalate several ++ [')'])

/-- The normal form of a word. A word without alternatives has the empty normal form. -/
def normalize (variants : Bool) (raw : Text) : Text := join (tokens variants raw)

/-- The normal form of a classification code. -/
def normalizeCode (raw : Text) : Text := Text.trim (Text.toHalfWidth raw)

end QueryMix.Word
