import QueryMix.Formula.Decode
import QueryMix.Formula.Encode
import QueryMix.Trace.Note

/-!
# `QueryMix.Trace.Formula`: the notes of reading and writing formulas

Notes are told apart from the work: each function here gives the notes of one piece of work,
from the same cuts that the work is made of, and no answer depends on a note. The work looks
at some texts more than once, and each look leaves its notes again.

Taking brackets off leaves a note only at the last layer: every layer before it was a region
that closes.
-/

set_option autoImplicit false

namespace QueryMix.Trace

open QueryMix.Bracket

/-- The note of looking for the end of the region, of kind `b`, that a text starts with. -/
def regionNotes (b : Bracket) (t : Text) : List Note :=
  match Region.ofText? b t with
  | some (.mismatched inside rest) => [.mismatchedCloser (b.opener :: inside) rest]
  | _ => []

/-- The note of asking whether a text is one region that an `opening` bracket starts. -/
def enclosedNotes (opening : Char) (t : Text) : List Note :=
  match roleOf opening with
  | .opens b => regionNotes b t
  | _ => []

/-- The note of looking for the closer that matches the opener at an offset. -/
def matchingNotes (t : Text) (offset : Nat) : List Note :=
  match Text.cutAt? t offset with
  | some (before, c :: rest) =>
    match roleOf c with
    | .opens b =>
      match Region.read b [] rest with
      | .mismatched inside after => [.mismatchedCloser (before ++ c :: inside) after]
      | _ => []
    | _ => []
  | _ => []

/-- The notes of taking off round brackets, all layers of them. -/
def unwrapNotes (t : Text) : List Note := regionNotes .round (unwrap t)

/-- The notes of taking off one pair of round brackets. -/
def unwrapOnceNotes (t : Text) : List Note := regionNotes .round (Text.trim t)

/-- The note of cutting the sides of a parallel formula. -/
def splitAfterNotes (t : Text) : List Note :=
  match Field.fullText.splitAfter? t with
  | some (left, right) => [.parallelCut left ('+' :: right)]
  | none => []

/-- The notes of bringing a word to its normal form. A word without tokens has none to show. -/
def wordNotes (variants : Bool) (raw : Text) : List Note :=
  let list := Word.tokens variants raw
  (Word.pieces (Text.toHalfWidth raw)).flatMap (regionNotes .round)
    ++ (if list.isEmpty then [] else [.tokens raw list])

/-- The notes of the words from a slot on, up to the first that is refused. -/
def normalWordsNotes (config : Config) (mode : Mode) : Nat → List Text → List Note
  | _, [] => []
  | slot, raw :: rest =>
    (if mode = .classification then [] else wordNotes config.widthVariants raw)
      ++ (if (Formula.wordFault? slot (Formula.normalWord config mode raw)).isSome then []
          else normalWordsNotes config mode (slot + 1) rest)

/-- The notes of the codes that are put in round brackets. -/
def wrapNotes (config : Config) (mode : Mode) (words : List Text) : List Note :=
  if mode = .classification then
    ((words.map (Formula.normalWord config mode)).filter Formula.needsWrap).map Note.wrapped
  else []

/-- The notes of writing a formula. -/
def encodeNotes (config : Config) (mode : Mode) (words counts : List Text) : List Note :=
  if words.length ≠ mode.wordSlots || words.any Text.allBlank then []
  else
    normalWordsNotes config mode 0 words ++
      match Formula.encode config mode words counts with
      | .ok t => wrapNotes config mode words ++ [.encoded mode t]
      | .error _ => []

/-- The notes of taking the brackets off the slots, up to the first slot with nothing in it. -/
def guardNotes : List Text → List Note
  | [] => []
  | slot :: rest => unwrapNotes slot ++ (if (unwrap slot).isEmpty then [] else guardNotes rest)

/-- The notes of slots that are looked at twice: first whether something is in them, and, if
so and nothing else is wrong, for their words. -/
def slotNotes (slots : List Text) (fits : Bool) : List Note :=
  guardNotes slots ++
    (if fits && slots.all fun slot => !(unwrap slot).isEmpty then slots.flatMap unwrapNotes
     else [])

/-- The notes of trying a parallel formula. -/
def parallelNotes (inside : Text) : List Note :=
  splitAfterNotes inside ++
    match Formula.parallelSides? inside with
    | none => []
    | some (left, right) =>
      .parallelSides left right ::
        match Formula.commaParts right with
        | [b, n, c] => if (Count.digits? n).isSome then [left, b, c].flatMap unwrapNotes else []
        | _ => []

/-- The notes of trying a classification. -/
def classificationNotes (inside : Text) : List Note :=
  match Formula.classBases? inside with
  | none => []
  | some (left, right) =>
    if Formula.sameBase left right then unwrapOnceNotes left else [.basesDiffer left right]

/-- The notes of trying the shapes in square brackets. -/
def bracketedNotes (raw : Text) : List Note :=
  match Formula.squareInside? raw with
  | none => []
  | some inside =>
    parallelNotes inside ++
      (if (Formula.parallel? inside).isSome then [] else classificationNotes inside)

/-- The notes of trying a collection. -/
def collectionNotes (core : Text) : List Note :=
  regionNotes .curly core ++
    match Formula.collectionBody? core with
    | none => []
    | some (inside, _) =>
      match Formula.commaParts inside with
      | [a, b, c] => slotNotes [a, b, c] true
      | _ => []

/-- The notes of trying a serial formula. -/
def serialNotes (core : Text) : List Note :=
  regionNotes .curly core ++
    match Formula.serialSlots? core with
    | none => []
    | some (slots, first, second) =>
      (if first = second then [] else [.countsDiffer first second])
        ++ slots.flatMap unwrapNotes

/-- The notes of trying one word or a pair. -/
def flatNotes (core : Text) : List Note :=
  match Formula.commaParts core with
  | [a] => slotNotes [a] true
  | [a, n, b] => slotNotes [a, b] (Count.digits? n).isSome
  | _ => []

/-- The notes of trying the shapes without square brackets, up to the one that fits. -/
def unbracketedNotes (core : Text) : List Note :=
  collectionNotes core ++
    if (Formula.collection? core).isSome then []
    else serialNotes core ++ if (Formula.serial? core).isSome then [] else flatNotes core

/-- The notes of reading a formula. -/
def decodeNotes (t : Text) : List Note :=
  let raw := Text.trim t
  let mode := (Formula.ofTrimmed? raw).map Formula.mode
  bracketedNotes raw ++
    if (Formula.bracketed? raw).isSome then [.decoded raw none mode]
    else
      unbracketedNotes (Formula.dropSuffix raw)
        ++ [.decoded raw (some (Formula.dropSuffix raw)) mode]

/-- The notes of writing a formula that is filled in. -/
def encodeWithNotes (config : Config) (f : Formula) : List Note :=
  encodeNotes config f.mode f.words f.counts

end QueryMix.Trace
