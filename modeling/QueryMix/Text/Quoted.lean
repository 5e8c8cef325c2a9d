import QueryMix.Text.Blank
import QueryMix.Text.Unprintable

/-!
# `QueryMix.Text.Quoted`: texts in quotes, for reading by eye

A quoted text shows every character: quotes, backslashes and the usual control characters by
a backslash and one character, everything else that does not show on its own by its code
point in hexadecimal.
-/

set_option autoImplicit false

namespace QueryMix.Text

/-- A character as it stands between quotes. -/
def quoteChar (c : Char) : Text :=
  if c = '"' then ['\\', '"']
  else if c = '\\' then ['\\', '\\']
  else if c = '\n' then ['\\', 'n']
  else if c = '\r' then ['\\', 'r']
  else if c = '\t' then ['\\', 't']
  else if c = '\x00' then ['\\', '0']
  else if isPlainlyShown c then [c]
  else ['\\', 'u', '{'] ++ Nat.toDigits 16 c.toNat ++ ['}']

/-- The text in quotes. -/
def quote (t : Text) : Text := '"' :: (t.flatMap quoteChar ++ ['"'])

/-- A list of texts in quotes, in square brackets. -/
def quoteList (ts : List Text) : Text :=
  '[' :: ([',', ' '].intercalate (ts.map quote) ++ [']'])

end QueryMix.Text
