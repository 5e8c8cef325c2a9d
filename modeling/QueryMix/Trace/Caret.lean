import QueryMix.Text.Place

/-!
# `QueryMix.Trace.Caret`: pointing at a place in a text

A place is shown by the quoted text on one line and a caret on the next. The column of the
caret is the number of characters before the place. In the quoted text a line break or a tab
is shown by two characters.
-/

set_option autoImplicit false

namespace QueryMix.Trace

/-- A character in a quoted line. -/
def showInLine (c : Char) : Text :=
  if c = '\n' then ['\\', 'n'] else if c = '\t' then ['\\', 't'] else [c]

/-- The text in single quotes, on one line. -/
def quotedLine (t : Text) : Text := '\'' :: (t.flatMap showInLine ++ ['\''])

/-- The text and a caret at the place between `before` and `rest`. -/
def pointBetween (before rest : Text) : Text :=
  quotedLine (before ++ rest) ++ '\n' :: ' ' :: (List.replicate before.length ' ' ++ ['^'])

/-- The text and a caret at the place at `offset`. An offset that is no place of the text is
given as a number. -/
def pointAt (t : Text) (offset : Nat) : Text :=
  match Text.cutAt? t offset with
  | some (before, rest) => pointBetween before rest
  | none => quotedLine t ++ ' ' :: '@' :: Nat.toDigits 10 offset

end QueryMix.Trace
