import QueryMix.Field
import QueryMix.Formula.Basic
import QueryMix.Formula.Count
import QueryMix.Formula.Error
import QueryMix.Word

/-!
# `QueryMix.Formula.Encode`: from words and counts to the text of a formula

Each mode has one written shape, `Mode.shape`: fixed characters, slots for words, and places
for the count. Writing a formula brings every word to its normal form, checks it, and fills
the shape.

The checks run in a fixed order and the first that fails is reported: the number of words,
blank words, then slot by slot a normal form that is empty, holds the output separator, or
has unbalanced brackets, and last the count.
-/

set_option autoImplicit false

namespace QueryMix

/-- The character that stands between the formulas of an output text. -/
def outputSeparator : Char := '*'

/-- One piece of a written shape. -/
inductive ShapePiece where
  /-- Characters that stand as they are. -/
  | fixed (t : Text)
  /-- The word of a slot. -/
  | word (slot : Nat)
  /-- The digits of the count. -/
  | count
deriving DecidableEq, Repr

/-- The text of a piece. -/
def ShapePiece.fill (words : List Text) (digits : Text) : ShapePiece → Text
  | fixed t => t
  | word slot => words.getD slot []
  | count => digits

/-- The written shape of a mode. -/
def Mode.shape : Mode → List ShapePiece
  | single => [.word 0, .fixed Field.fullText.suffix]
  | pair =>
    [.word 0, .fixed [','], .count, .fixed ['N', ','], .word 1, .fixed Field.fullText.suffix]
  | serial =>
    [.fixed ['{'], .word 0, .fixed [','], .count, .fixed ['N', ','], .word 1, .fixed [','],
      .count, .fixed ['N', ','], .word 2, .fixed ['}'], .fixed Field.fullText.suffix]
  | collection =>
    [.fixed ['{'], .word 0, .fixed [','], .word 1, .fixed [','], .word 2, .fixed ['}', ','],
      .count, .fixed ['N'], .fixed Field.fullText.suffix]
  | parallel =>
    [.fixed ['['], .word 0, .fixed Field.fullText.suffix, .fixed ['+'], .word 1, .fixed [','],
      .count, .fixed ['N', ','], .word 2, .fixed Field.fullText.suffix, .fixed [']']]
  | classification =>
    [.fixed ['['], .word 0, .fixed Field.fTerm.suffix, .fixed ['+'], .word 0,
      .fixed Field.cpc.suffix, .fixed [']']]

/-- The shape of a mode, filled. -/
def Mode.fill (mode : Mode) (words : List Text) (digits : Text) : Text :=
  mode.shape.flatMap (ShapePiece.fill words digits)

namespace Formula

open QueryMix.Bracket

/-- The normal form of a word in a mode. -/
def normalWord (config : Config) (mode : Mode) (raw : Text) : Text :=
  match mode with
  | .classification => Word.normalizeCode raw
  | _ => Word.normalize config.widthVariants raw

/-- What is wrong with a word in its normal form, if anything. -/
def wordFault? (slot : Nat) (word : Text) : Option EncodeError :=
  if word.isEmpty then some (.emptyWord slot)
  else if word.contains outputSeparator then some (.forbiddenSeparator slot)
  else if !isBalanced word then some (.unbalancedBrackets slot)
  else none

/-- The normal forms of the words from a slot on, or the first fault among them. -/
def normalWords (config : Config) (mode : Mode) :
    Nat → List Text → Except EncodeError (List Text)
  | _, [] => .ok []
  | slot, raw :: rest =>
    let word := normalWord config mode raw
    match wordFault? slot word with
    | some fault => .error fault
    | none => (normalWords config mode (slot + 1) rest).map (word :: ·)

/-- A code that joins several symbols at top level is put in round brackets, unless they are
around it already. -/
def needsWrap (code : Text) : Bool := containsTop '+' code && !isEnclosed '(' code

/-- A word as it stands in its slot. -/
def slotText (mode : Mode) (word : Text) : Text :=
  match mode with
  | .classification => if needsWrap word then '(' :: (word ++ [')']) else word
  | _ => word

/-- The digits to write for a count; a blank or missing count stands for the default. -/
def countDigits (config : Config) (raw : Option Text) : Except EncodeError Text :=
  let given := Text.trim (Text.toHalfWidth (raw.getD []))
  let digits := if given.isEmpty then Text.trim config.defaultCount else given
  if Count.isDigits digits then .ok digits else .error (.invalidCount digits)

/-- The digits that a mode writes: none for a mode without a count. -/
def modeDigits (config : Config) (mode : Mode) (counts : List Text) :
    Except EncodeError Text :=
  if mode.countSlots = 0 then .ok [] else countDigits config counts.head?

/-- The text of the formula with these words and counts. Of the counts the first is used. -/
def encode (config : Config) (mode : Mode) (words counts : List Text) :
    Except EncodeError Text :=
  if words.length ≠ mode.wordSlots then .error (.wordCount mode words.length)
  else
    match words.findIdx? Text.allBlank with
    | some slot => .error (.emptyWord slot)
    | none => do
      let normal ← normalWords config mode 0 words
      let digits ← modeDigits config mode counts
      return mode.fill (normal.map (slotText mode)) digits

/-- The text of a formula that is filled in. -/
def encodeWith (config : Config) (f : Formula) : Except EncodeError Text :=
  encode config f.mode f.words f.counts

end Formula

end QueryMix
