import QueryMix.Formula.Mode

/-!
# `QueryMix.Formula.Error`: why a formula is refused

Slots are counted from zero here and from one in the messages.
-/

set_option autoImplicit false

namespace QueryMix

/-- Why words and counts cannot be written as a formula. -/
inductive EncodeError where
  /-- The word in the slot is blank, or nothing is left of it in its normal form. -/
  | emptyWord (slot : Nat)
  /-- The mode takes another number of words. -/
  | wordCount (mode : Mode) (got : Nat)
  /-- The count is no natural number in ASCII digits. -/
  | invalidCount (value : Text)
  /-- The word holds the `*` that stands between formulas in an output text. -/
  | forbiddenSeparator (slot : Nat)
  /-- A bracket of the word is not closed, or closes nothing. -/
  | unbalancedBrackets (slot : Nat)
deriving DecidableEq, Repr

/-- The message for a user. -/
def EncodeError.message : EncodeError → String
  | emptyWord slot => s!"word {slot + 1} is empty"
  | wordCount mode got => s!"{mode.name} takes {mode.wordSlots} word(s), got {got}"
  | invalidCount value => s!"count '{String.ofList value}' is not a non-negative integer"
  | forbiddenSeparator slot => s!"word {slot + 1} contains the output separator '*'"
  | unbalancedBrackets slot => s!"word {slot + 1} has unbalanced brackets"

/-- A text that has none of the shapes of a formula. -/
structure DecodeError where
  text : Text
deriving DecidableEq, Repr

/-- The message for a user. -/
def DecodeError.message (e : DecodeError) : String :=
  s!"unparseable formula: {String.ofList e.text}"

end QueryMix
