/-!
# `QueryMix.Text.Blank`: texts, blanks and trimming

A text is a list of characters. A blank is a character that carries the Unicode property
`White_Space`; the zero-width characters U+200B and U+FEFF do not. Trimming drops the blanks
at both ends and keeps those inside, so a trimmed text is a part of the text it came from
(`trim_isInfix`) and never longer (`length_trim_le`).
-/

set_option autoImplicit false

namespace QueryMix

/-- A text is the list of its characters. -/
abbrev Text := List Char

namespace Text

/-- The characters that carry `White_Space`. -/
def isBlank (c : Char) : Bool :=
  let n := c.toNat
  (9 ≤ n && n ≤ 13) || n == 0x20 || n == 0x85 || n == 0xA0 || n == 0x1680 ||
    (0x2000 ≤ n && n ≤ 0x200A) || n == 0x2028 || n == 0x2029 || n == 0x202F || n == 0x205F ||
    n == 0x3000

/-- The text without the blanks it starts with. -/
def trimStart (t : Text) : Text := t.dropWhile isBlank

/-- The text without the blanks it ends with. -/
def trimEnd (t : Text) : Text := (t.reverse.dropWhile isBlank).reverse

/-- The text without the blanks at its ends. -/
def trim (t : Text) : Text := trimEnd (trimStart t)

/-- Nothing but blanks. -/
def allBlank (t : Text) : Bool := (trim t).isEmpty

/-- Trimming the start leaves an end of the text. -/
theorem trimStart_isSuffix (t : Text) : trimStart t <:+ t := List.dropWhile_suffix _

/-- Trimming the end leaves a beginning of it. -/
theorem trimEnd_isPrefix (t : Text) : trimEnd t <+: t := by
  have h : t.reverse.dropWhile isBlank <:+ t.reverse := List.dropWhile_suffix _
  simpa [trimEnd] using List.reverse_prefix.mpr h

/-- Trimming leaves a part of the text in one piece. -/
theorem trim_isInfix (t : Text) : trim t <:+: t :=
  (trimEnd_isPrefix _).isInfix.trans (trimStart_isSuffix t).isInfix

/-- Trimming only leaves characters out. -/
theorem trim_sublist (t : Text) : (trim t).Sublist t := (trim_isInfix t).sublist

/-- A trimmed text is no longer than the text. -/
theorem length_trim_le (t : Text) : (trim t).length ≤ t.length := (trim_sublist t).length_le

end Text

end QueryMix
