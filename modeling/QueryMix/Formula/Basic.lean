import QueryMix.Formula.Mode

/-!
# `QueryMix.Formula.Basic`: formulas, and how they are configured

A formula is a mode with its words and its counts, as a user fills them in: words without
the brackets around them, counts as bare digits.
-/

set_option autoImplicit false

namespace QueryMix

/-- A formula as it is filled in. -/
structure Formula where
  mode : Mode
  words : List Text
  counts : List Text
deriving DecidableEq, Repr

/-- One line that shows a formula. -/
def Formula.display (f : Formula) : String :=
  let words := " | ".intercalate (f.words.map String.ofList)
  let counts := ", ".intercalate (f.counts.map String.ofList)
  f.mode.name ++ ": " ++ words ++ (if f.counts.isEmpty then "" else " ; n = " ++ counts)

/-- How formulas are written. -/
structure Config where
  /-- Is the full-width form of every alphanumeric alternative added? -/
  widthVariants : Bool
  /-- The count that is written where none is given. -/
  defaultCount : Text
deriving DecidableEq, Repr

namespace Config

/-- Words with their full-width forms; a missing count is 1. -/
def canonical : Config := ⟨true, ['1']⟩

/-- Words as they are typed, without full-width forms. -/
def literal : Config := ⟨false, ['1']⟩

end Config

end QueryMix
