import QueryMix.Bracket.Split
import QueryMix.Text.Ending

/-!
# `QueryMix.Field`: the search fields and their suffixes

A formula names the field it searches by a suffix. A formula over two sides has a `+`
between them that directly follows the suffix of the first side; `splitAfter?` finds it. A
`+` inside brackets belongs to a word, and so does a `+` at top level without the suffix
before it.
-/

set_option autoImplicit false

namespace QueryMix

/-- The fields that a formula can search. -/
inductive Field where
  /-- The full text. -/
  | fullText
  /-- The F-term classification. -/
  | fTerm
  /-- The cooperative classification. -/
  | cpc
deriving DecidableEq, Repr

namespace Field

/-- The suffix that names the field. -/
def suffix : Field → Text
  | fullText => ['/', 'T', 'X']
  | fTerm => ['/', 'F', 'T']
  | cpc => ['/', 'C', 'P']

/-- The two sides of the first `+` at top level that directly follows the suffix. The text
before the place that has been reached is `seen`, last character first. -/
def splitAfterFrom (field : Field) (nest : Nesting) (seen : Text) : Text → Option (Text × Text)
  | [] => none
  | c :: rest =>
    if c == '+' && nest.isEmpty && Text.hasEnding seen.reverse field.suffix then
      some (seen.reverse, rest)
    else splitAfterFrom field (nest.step c) (c :: seen) rest

/-- The two sides of the first `+` at top level that directly follows the suffix. -/
def splitAfter? (field : Field) (t : Text) : Option (Text × Text) := splitAfterFrom field [] [] t

end Field

end QueryMix
