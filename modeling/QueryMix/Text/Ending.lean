import QueryMix.Text.Blank

/-!
# `QueryMix.Text.Ending`: endings of a text

A text has an ending when its last characters are those of the ending, capital and small
ASCII letters counting as the same. Dropping an ending trims the text before it looks and
again after it has cut, so blanks around the ending do not matter.
-/

set_option autoImplicit false

namespace QueryMix.Text

/-- The text with its ASCII capitals in small letters. -/
def foldCase (t : Text) : Text := t.map Char.toLower

/-- Does the text end in `ending`, whatever the case of ASCII letters? -/
def hasEnding (t ending : Text) : Bool := (foldCase ending).isSuffixOf (foldCase t)

/-- The trimmed text before `ending`, if the trimmed text has that ending. -/
def dropEnding? (t ending : Text) : Option Text :=
  let core := trim t
  if hasEnding core ending then some (trim (core.take (core.length - ending.length))) else none

end QueryMix.Text
