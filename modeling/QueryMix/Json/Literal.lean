import QueryMix.Text.Blank

/-!
# `QueryMix.Json.Literal`: string literals of JSON

A literal is written with the short escapes where JSON has them and with four hexadecimal
digits for the other control characters; every other character stands as it is. Reading goes
by pieces: a piece is a character, or a UTF-16 unit that was written by its four digits. Two
units may have to be put together to one character, and a half of such a pair that stands
alone is no character (`join?`).
-/

set_option autoImplicit false

namespace QueryMix.Json

/-- A character as it is written in a literal. -/
def escape (c : Char) : Text :=
  if c = '"' then ['\\', '"']
  else if c = '\\' then ['\\', '\\']
  else if c = '\x08' then ['\\', 'b']
  else if c = '\x0C' then ['\\', 'f']
  else if c = '\n' then ['\\', 'n']
  else if c = '\r' then ['\\', 'r']
  else if c = '\t' then ['\\', 't']
  else if c.toNat < 0x20 then
    ['\\', 'u', '0', '0', Nat.digitChar (c.toNat / 16), Nat.digitChar (c.toNat % 16)]
  else [c]

/-- The literal of a text. -/
def literal (t : Text) : Text := '"' :: (t.flatMap escape ++ ['"'])

/-- What one character or one escape of a literal stands for. -/
inductive LiteralPiece where
  /-- A character. -/
  | char (c : Char)
  /-- A UTF-16 unit. -/
  | unit (value : Nat)
deriving DecidableEq, Repr

/-- Is the UTF-16 unit the first half of a pair? -/
def isLeading (unit : Nat) : Bool := 0xD800 ≤ unit && unit < 0xDC00

/-- Is the UTF-16 unit the second half of a pair? -/
def isTrailing (unit : Nat) : Bool := 0xDC00 ≤ unit && unit < 0xE000

/-- The character of a pair of UTF-16 units. -/
def pairChar (leading trailing : Nat) : Char :=
  Char.ofNat (0x10000 + (leading - 0xD800) * 0x400 + (trailing - 0xDC00))

/-- The text that the pieces stand for, if no half of a pair stands alone. -/
def join? : List LiteralPiece → Option Text
  | [] => some []
  | .char c :: rest => (join? rest).map (c :: ·)
  | .unit u :: .unit v :: rest =>
    if isLeading u then
      if isTrailing v then (join? rest).map (pairChar u v :: ·) else none
    else if isTrailing u then none
    else (join? (.unit v :: rest)).map (Char.ofNat u :: ·)
  | .unit u :: rest =>
    if isLeading u || isTrailing u then none else (join? rest).map (Char.ofNat u :: ·)

/-- The value of a hexadecimal digit. -/
def hexValue? (c : Char) : Option Nat :=
  if '0' ≤ c ∧ c ≤ '9' then some (c.toNat - '0'.toNat)
  else if 'a' ≤ c ∧ c ≤ 'f' then some (c.toNat - 'a'.toNat + 10)
  else if 'A' ≤ c ∧ c ≤ 'F' then some (c.toNat - 'A'.toNat + 10)
  else none

end QueryMix.Json
