import QueryMix.Field
import QueryMix.Formula.Basic
import QueryMix.Formula.Count
import QueryMix.Formula.Error
import QueryMix.Bracket.Region

/-!
# `QueryMix.Formula.Decode`: from the text of a formula back to words and counts

The shapes are tried in a fixed order, and the first that fits gives the answer: in square
brackets a parallel formula, then a classification; otherwise, the full-text suffix dropped
if it is there, a collection, a serial formula, and last one word or a pair.

Every shape is cut in one step (`parallelSides?`, `classBases?`, `collectionBody?`,
`serialSlots?`) and judged in a second one. Blanks around the parts do not matter, a suffix
may be in any case, and the words come back without the round brackets around them.
-/

set_option autoImplicit false

namespace QueryMix.Formula

open QueryMix.Bracket

/-- The trimmed parts of a text between its commas at top level. -/
def commaParts (t : Text) : List Text := (splitTop ',' t).map Text.trim

/-- The inside of a text that begins with `[` and ends with `]`. -/
def squareInside? (t : Text) : Option Text :=
  match t with
  | '[' :: rest => if rest.getLast? = some ']' then some (Text.trim rest.dropLast) else none
  | _ => none

/-- The two sides of a parallel formula, without their suffixes. -/
def parallelSides? (inside : Text) : Option (Text × Text) := do
  let (left, right) ← Field.fullText.splitAfter? inside
  let left ← Text.dropEnding? left Field.fullText.suffix
  let right ← Text.dropEnding? right Field.fullText.suffix
  return (left, right)

/-- A word beside a pair: `A/TX+B,nN,C/TX`. -/
def parallel? (inside : Text) : Option Formula := do
  let (left, right) ← parallelSides? inside
  match commaParts right with
  | [b, n, c] =>
    let count ← Count.digits? n
    let words := [left, b, c].map unwrap
    if words.any List.isEmpty then none else return ⟨.parallel, words, [count]⟩
  | _ => none

/-- The codes of the two fields of a classification, without their suffixes. -/
def classBases? (inside : Text) : Option (Text × Text) :=
  match splitTop '+' inside with
  | [left, right] => do
    let left ← Text.dropEnding? left Field.fTerm.suffix
    let right ← Text.dropEnding? right Field.cpc.suffix
    return (left, right)
  | _ => none

/-- Are the codes of the two fields one code? -/
def sameBase (left right : Text) : Bool := !left.isEmpty && left == right

/-- One code in two fields: `X/FT+X/CP`. -/
def classification? (inside : Text) : Option Formula := do
  let (left, right) ← classBases? inside
  if sameBase left right then return ⟨.classification, [unwrapOnce left], []⟩ else none

/-- A formula in square brackets. -/
def bracketed? (raw : Text) : Option Formula := do
  let inside ← squareInside? raw
  parallel? inside <|> classification? inside

/-- The inside of the braces that a collection starts with, and the digits of its count. -/
def collectionBody? (core : Text) : Option (Text × Text) :=
  match Region.ofText? curly core with
  | some (.closed inside rest) =>
    match Text.trim rest with
    | ',' :: count => (Count.digits? count).map fun digits => (inside, digits)
    | _ => none
  | _ => none

/-- Three words and a distance: `{A,B,C},nN`. -/
def collection? (core : Text) : Option Formula := do
  let (inside, count) ← collectionBody? core
  match commaParts inside with
  | [a, b, c] =>
    let words := [a, b, c].map unwrap
    if words.any List.isEmpty then none else return ⟨.collection, words, [count]⟩
  | _ => none

/-- The three word slots of a serial formula and the digits of its two counts. -/
def serialSlots? (core : Text) : Option (List Text × Text × Text) := do
  let inside ← enclosed? curly core
  match commaParts inside with
  | [a, m, b, n, c] =>
    let first ← Count.digits? m
    let second ← Count.digits? n
    return ([a, b, c], first, second)
  | _ => none

/-- Three words with a distance in each gap: `{A,nN,B,nN,C}`. The first count is kept. -/
def serial? (core : Text) : Option Formula := do
  let (slots, first, _) ← serialSlots? core
  return ⟨.serial, slots.map unwrap, [first]⟩

/-- One word `A`, or a pair `A,nN,B`. -/
def flat? (core : Text) : Option Formula :=
  match commaParts core with
  | [a] => if (unwrap a).isEmpty then none else some ⟨.single, [unwrap a], []⟩
  | [a, n, b] =>
    if (unwrap a).isEmpty || (unwrap b).isEmpty then none
    else (Count.digits? n).map fun count => ⟨.pair, [unwrap a, unwrap b], [count]⟩
  | _ => none

/-- The text without the full-text suffix, if it has it. -/
def dropSuffix (raw : Text) : Text := (Text.dropEnding? raw Field.fullText.suffix).getD raw

/-- The formula that a text without blanks around it stands for. -/
def ofTrimmed? (raw : Text) : Option Formula :=
  bracketed? raw <|> collection? (dropSuffix raw) <|> serial? (dropSuffix raw) <|>
    flat? (dropSuffix raw)

/-- The formula that a text stands for. -/
def decode (t : Text) : Except DecodeError Formula :=
  match ofTrimmed? (Text.trim t) with
  | some f => .ok f
  | none => .error ⟨t⟩

end QueryMix.Formula
