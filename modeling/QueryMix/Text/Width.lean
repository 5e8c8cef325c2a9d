import QueryMix.Text.Blank

/-!
# `QueryMix.Text.Width`: half-width and full-width forms

The printable ASCII characters `!` to `~` have full-width twins U+FF01 to U+FF5E, a fixed
distance up; the twin of the space is the ideographic space U+3000. Folding a text to one
width replaces each character that has a twin of that width and leaves the others alone.
-/

set_option autoImplicit false

namespace QueryMix.Text

/-- The distance from a printable ASCII character up to its full-width twin. -/
def widthGap : Nat := 0xFEE0

/-- The full-width twin of the space. -/
def wideSpace : Char := Char.ofNat 0x3000

/-- The half-width form of one character. -/
def halfWidthChar (c : Char) : Char :=
  if 0xFF01 ≤ c.toNat ∧ c.toNat ≤ 0xFF5E then Char.ofNat (c.toNat - widthGap)
  else if c = wideSpace then ' '
  else c

/-- The full-width form of one character. -/
def fullWidthChar (c : Char) : Char :=
  if 0x21 ≤ c.toNat ∧ c.toNat ≤ 0x7E then Char.ofNat (c.toNat + widthGap)
  else if c = ' ' then wideSpace
  else c

/-- The text with every full-width form folded to ASCII. -/
def toHalfWidth (t : Text) : Text := t.map halfWidthChar

/-- The text with every printable ASCII character and space in its full-width form. -/
def toFullWidth (t : Text) : Text := t.map fullWidthChar

/-- A text of at least one character, all of them ASCII digits and letters. -/
def isAlphanumeric (t : Text) : Bool := !t.isEmpty && t.all Char.isAlphanum

end QueryMix.Text
