import QueryMix.Text.Blank

/-!
# `QueryMix.Formula.Count`: proximity counts

A count is written as ASCII digits and an `N`. Only the digits are kept, as they were typed:
leading zeros stay, and there is no bound.
-/

set_option autoImplicit false

namespace QueryMix.Count

/-- One ASCII digit at least, and nothing else. -/
def isDigits (t : Text) : Bool := !t.isEmpty && t.all Char.isDigit

/-- The digits of a text that is a count, with blanks around it or not. -/
def digits? (t : Text) : Option Text :=
  let core := Text.trim t
  match core.getLast? with
  | none => none
  | some last =>
    if (last == 'N' || last == 'n') && isDigits core.dropLast then some core.dropLast else none

end QueryMix.Count
