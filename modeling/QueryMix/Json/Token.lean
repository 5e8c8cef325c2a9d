import QueryMix.Json.Literal

/-!
# `QueryMix.Json.Token`: the tokens of a JSON text

Scanning goes through the text once, character by character. `Scan` is what the scanner is in
the middle of; `Scan.step` takes one character and says which tokens it completes. A number
ends only with the character after it, so one step can complete the number and one token
more.

A string literal whose escapes leave half a UTF-16 pair is a token all the same, but a token
without a text: it may stand where nobody reads it. No number is ever read, so a number keeps
no value.
-/

set_option autoImplicit false

namespace QueryMix.Json

/-- The tokens of JSON. -/
inductive Token where
  | openArray
  | closeArray
  | openObject
  | closeObject
  | comma
  | colon
  | null
  | bool (b : Bool)
  | number
  | text (t : Option Text)
deriving DecidableEq, Repr

/-- How far a number has come. -/
inductive NumberPart where
  /-- After the sign. -/
  | sign
  /-- After a first zero. -/
  | zero
  /-- In the whole part. -/
  | whole
  /-- After the point. -/
  | point
  /-- In the fraction. -/
  | fraction
  /-- After the letter of the exponent. -/
  | letter
  /-- After the sign of the exponent. -/
  | letterSign
  /-- In the exponent. -/
  | exponent
deriving DecidableEq, Repr

/-- May a number end here? -/
def NumberPart.isComplete : NumberPart → Bool
  | zero | whole | fraction | exponent => true
  | sign | point | letter | letterSign => false

/-- Where a number stands after one more character, if the character goes on with it. -/
def NumberPart.next? (part : NumberPart) (c : Char) : Option NumberPart :=
  let isLetter := c == 'e' || c == 'E'
  match part with
  | sign => if c == '0' then some zero else if c.isDigit then some whole else none
  | zero => if c == '.' then some point else if isLetter then some letter else none
  | whole =>
    if c.isDigit then some whole
    else if c == '.' then some point
    else if isLetter then some letter
    else none
  | point => if c.isDigit then some fraction else none
  | fraction => if c.isDigit then some fraction else if isLetter then some letter else none
  | letter =>
    if c.isDigit then some exponent else if c == '+' || c == '-' then some letterSign else none
  | letterSign => if c.isDigit then some exponent else none
  | exponent => if c.isDigit then some exponent else none

/-- What the scanner is in the middle of. The pieces of a literal come last first. -/
inductive Scan where
  /-- Between tokens. -/
  | between
  /-- In a string literal. -/
  | literal (pieces : List LiteralPiece)
  /-- After a backslash in a literal. -/
  | escape (pieces : List LiteralPiece)
  /-- In the four digits of a unit: how many have been read, and their value. -/
  | unit (pieces : List LiteralPiece) (digits value : Nat)
  /-- In a number. -/
  | number (part : NumberPart)
  /-- In one of the three words: what must follow, and the token. -/
  | word (remaining : Text) (token : Token)
deriving DecidableEq, Repr

namespace Scan

/-- One character between tokens. -/
def start (c : Char) : Option (List Token × Scan) :=
  if c == ' ' || c == '\t' || c == '\n' || c == '\r' then some ([], between)
  else if c == '[' then some ([.openArray], between)
  else if c == ']' then some ([.closeArray], between)
  else if c == '{' then some ([.openObject], between)
  else if c == '}' then some ([.closeObject], between)
  else if c == ',' then some ([.comma], between)
  else if c == ':' then some ([.colon], between)
  else if c == '"' then some ([], literal [])
  else if c == '-' then some ([], number .sign)
  else if c == '0' then some ([], number .zero)
  else if c.isDigit then some ([], number .whole)
  else if c == 't' then some ([], word ['r', 'u', 'e'] (.bool true))
  else if c == 'f' then some ([], word ['a', 'l', 's', 'e'] (.bool false))
  else if c == 'n' then some ([], word ['u', 'l', 'l'] .null)
  else none

/-- The character that stands for an escape of one letter. -/
def shortEscape? (c : Char) : Option Char :=
  if c == '"' || c == '\\' || c == '/' then some c
  else if c == 'b' then some '\x08'
  else if c == 'f' then some '\x0C'
  else if c == 'n' then some '\n'
  else if c == 'r' then some '\r'
  else if c == 't' then some '\t'
  else none

/-- One character further: the tokens it completes, and what the scanner is in then. -/
def step (scan : Scan) (c : Char) : Option (List Token × Scan) :=
  match scan with
  | between => start c
  | literal pieces =>
    if c == '"' then some ([.text (join? pieces.reverse)], between)
    else if c == '\\' then some ([], escape pieces)
    else if c.toNat < 0x20 then none
    else some ([], literal (.char c :: pieces))
  | escape pieces =>
    if c == 'u' then some ([], unit pieces 0 0)
    else (shortEscape? c).map fun d => ([], literal (.char d :: pieces))
  | unit pieces digits value =>
    (hexValue? c).map fun d =>
      if digits = 3 then ([], literal (.unit (value * 16 + d) :: pieces))
      else ([], unit pieces (digits + 1) (value * 16 + d))
  | number part =>
    match part.next? c with
    | some next => some ([], number next)
    | none =>
      if part.isComplete then (start c).map fun (tokens, scan) => (.number :: tokens, scan)
      else none
  | word remaining token =>
    match remaining with
    | [] => none
    | [last] => if c = last then some ([token], between) else none
    | next :: others => if c = next then some ([], word others token) else none

/-- The tokens that the end of the text completes. -/
def finish : Scan → Option (List Token)
  | between => some []
  | number part => if part.isComplete then some [.number] else none
  | _ => none

/-- The tokens of the rest of a text. -/
def tokens? (scan : Scan) : Text → Option (List Token)
  | [] => scan.finish
  | c :: rest => do
    let (done, scan) ← scan.step c
    let others ← tokens? scan rest
    return done ++ others

end Scan

/-- The tokens of a text, if it is made of tokens. -/
def Token.ofText? (t : Text) : Option (List Token) := Scan.between.tokens? t

end QueryMix.Json
