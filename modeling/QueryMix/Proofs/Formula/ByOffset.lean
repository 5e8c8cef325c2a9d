import QueryMix.Proofs.Bracket.ByOffset
import QueryMix.Proofs.Formula.Decode

/-!
# `QueryMix.Proofs.Formula.ByOffset`: formulas read by checked offsets

The decoder, done with offsets: a text in square brackets is cut at its first and last byte, a
collection after the closer that was found for its brace, a suffix before as many bytes as it has.
Each stage comes to what the stage comes to, on every text, and not only on those that the stages
before leave to it (`parallel?_eq` and its siblings). So there is no text on which the decoder, or
one of the scanners that it is made of, cuts at an offset that is no place of the text, or subtracts
what is not there (`scanning_has_no_fault`).

Counts are read without offsets: what precedes the last character of a text has to be digits, and
is kept as it is.
-/

set_option autoImplicit false

namespace QueryMix.ByOffset

open Text (size isPlace trim)

/-- The trimmed parts of a text between its commas at top level. -/
def commaParts (t : Text) : Checked (List Text) := do
  let parts ← splitTop ',' t
  return parts.map trim

/-- The texts without the round brackets around them. -/
def words (ts : List Text) : Checked (List Text) := ts.mapM unwrap

/-- Is something left of every text without the round brackets around it? No text is looked at after
one of which nothing is left. -/
def allFilled (ts : List Text) : Checked Bool := ts.allM fun t => do return !(← unwrap t).isEmpty

/-- The inside of a text that begins with `[` and ends with `]`. -/
def squareInside? (raw : Text) : Attempt Text :=
  if raw.head? = some '[' ∧ raw.getLast? = some ']' ∧ 2 ≤ size raw then do
    let inside ← withoutEnds raw
    return trim inside
  else failure

/-- The two sides of a parallel formula, without their suffixes. -/
def parallelSides? (inside : Text) : Attempt (Text × Text) := do
  let (left, right) ← splitAfter? .fullText inside
  let left ← dropEnding? left Field.fullText.suffix
  let right ← dropEnding? right Field.fullText.suffix
  return (left, right)

/-- A word beside a pair. -/
def parallel? (inside : Text) : Attempt Formula := do
  let (left, right) ← parallelSides? inside
  match ← commaParts right with
  | [b, n, c] =>
    let count ← given (Count.digits? n)
    let words ← words [left, b, c]
    if words.any List.isEmpty then failure else return ⟨.parallel, words, [count]⟩
  | _ => failure

/-- The codes of the two fields of a classification, without their suffixes. -/
def classBases? (inside : Text) : Attempt (Text × Text) := do
  match ← splitTop '+' inside with
  | [left, right] =>
    let left ← dropEnding? left Field.fTerm.suffix
    let right ← dropEnding? right Field.cpc.suffix
    return (left, right)
  | _ => failure

/-- One code in two fields. -/
def classification? (inside : Text) : Attempt Formula := do
  let (left, right) ← classBases? inside
  if Formula.sameBase left right then
    let code ← unwrapOnce left
    return ⟨.classification, [code], []⟩
  else failure

/-- A formula in square brackets. -/
def bracketed? (raw : Text) : Attempt Formula := do
  let inside ← squareInside? raw
  parallel? inside <|> classification? inside

/-- The inside of the braces that a collection starts with, and the digits of its count. -/
def collectionBody? (core : Text) : Attempt (Text × Text) :=
  if core.head? = some '{' then do
    let close ← matchingPlace? core 0
    let next ← plus core close 1
    let rest ← slice core next (size core)
    if (trim rest).head? = some ',' then
      let digits ← given (Count.digits? (trim rest).tail)
      let inside ← slice core 1 close
      return (inside, digits)
    else failure
  else failure

/-- Three words and a distance. -/
def collection? (core : Text) : Attempt Formula := do
  let (inside, count) ← collectionBody? core
  match ← commaParts inside with
  | [a, b, c] =>
    if ← allFilled [a, b, c] then
      let words ← words [a, b, c]
      return ⟨.collection, words, [count]⟩
    else failure
  | _ => failure

/-- The three word slots of a serial formula and the digits of its two counts. -/
def serialSlots? (core : Text) : Attempt (List Text × Text × Text) := do
  if ← isEnclosed '{' core then
    let inside ← withoutEnds core
    match ← commaParts inside with
    | [a, m, b, n, c] =>
      let first ← given (Count.digits? m)
      let second ← given (Count.digits? n)
      return ([a, b, c], first, second)
    | _ => failure
  else failure

/-- Three words with a distance in each gap. -/
def serial? (core : Text) : Attempt Formula := do
  let (slots, first, _) ← serialSlots? core
  let words ← words slots
  return ⟨.serial, words, [first]⟩

/-- One word, or a pair. -/
def flat? (core : Text) : Attempt Formula := do
  match ← commaParts core with
  | [a] =>
    if ← allFilled [a] then
      let words ← words [a]
      return ⟨.single, words, []⟩
    else failure
  | [a, n, b] =>
    if ← allFilled [a, b] then
      let count ← given (Count.digits? n)
      let words ← words [a, b]
      return ⟨.pair, words, [count]⟩
    else failure
  | _ => failure

/-- The text without the full-text suffix, if it has it. -/
def dropSuffix (raw : Text) : Checked Text := do
  let dropped ← (dropEnding? raw Field.fullText.suffix).run
  return dropped.getD raw

/-- The formula that a text without blanks around it stands for. -/
def ofTrimmed? (raw : Text) : Attempt Formula :=
  bracketed? raw <|> do
    let core ← dropSuffix raw
    collection? core <|> serial? core <|> flat? core

/-- The formula that a text stands for. -/
def decode (t : Text) : Checked (Except DecodeError Formula) := do
  match ← (ofTrimmed? (trim t)).run with
  | some f => return .ok f
  | none => return .error ⟨t⟩

/-! ### The parts of the stages -/

/-- Cutting at commas has no fault, and trimming the parts can have none. -/
theorem commaParts_eq (t : Text) : commaParts t = .ok (Formula.commaParts t) := by
  rw [commaParts, splitTop_eq]
  rfl

/-- Taking the round brackets off has no fault on any of the texts. -/
theorem words_eq (ts : List Text) : words ts = .ok (ts.map Bracket.unwrap) := by
  unfold words
  induction ts with
  | nil => rfl
  | cons t ts ih =>
    rw [List.mapM_cons, unwrap_eq, ok_bind, ih]
    rfl

/-- The test stops at the first text of which nothing is left, so it finds out whether there is
one. -/
theorem allFilled_eq (ts : List Text) :
    allFilled ts = .ok (!(ts.map Bracket.unwrap).any List.isEmpty) := by
  unfold allFilled
  induction ts with
  | nil => rfl
  | cons t ts ih =>
    rw [List.allM, unwrap_eq, ok_bind]
    cases hempty : (Bracket.unwrap t).isEmpty with
    | true =>
      simp only [List.map_cons, List.any_cons, hempty, Bool.true_or, Bool.not_true]
      rfl
    | false => simpa [hempty] using ih

/-! ### The stages -/

/-- A text that begins with `[` and ends with `]` has two bytes at least, so there is one to cut off
at each end. -/
theorem squareInside?_eq (raw : Text) : squareInside? raw = given (Formula.squareInside? raw) := by
  have hopen : '['.utf8Size = 1 := rfl
  have hclose : ']'.utf8Size = 1 := rfl
  rw [squareInside?]
  cases hinside : Formula.squareInside? raw with
  | some inside =>
    obtain ⟨i, rfl, rfl⟩ := Formula.squareInside?_eq_some_iff.mp hinside
    have hraw : 2 ≤ size ('[' :: (i ++ [']'])) := by
      simp only [Text.size_cons, Text.size_append, hopen, hclose]
      omega
    have hlast : ('[' :: i ++ [']']).getLast? = some ']' := List.getLast?_concat
    rw [if_pos ⟨rfl, hlast, hraw⟩, withoutEnds_enclosed hopen hclose]
    rfl
  | none =>
    refine if_neg ?_
    rintro ⟨hhead, hlast, hle⟩
    -- A single bracket cannot be both the first and the last character.
    obtain ⟨front, rfl⟩ := List.getLast?_eq_some_iff.mp hlast
    cases front with
    | nil => cases hhead
    | cons c i =>
      obtain rfl : c = '[' := Option.some.inj hhead
      rw [List.cons_append, Formula.squareInside?_eq_some_iff.mpr ⟨i, rfl, rfl⟩] at hinside
      cases hinside

/-- The two sides are cut apart, and their suffixes cut off, without a fault. -/
theorem parallelSides?_eq (inside : Text) :
    parallelSides? inside = given (Formula.parallelSides? inside) := by
  rw [parallelSides?, Formula.parallelSides?, splitAfter?_eq, given_bind]
  refine bind_congr fun sides => ?_
  simp only [dropEnding?_eq, given_bind]
  rfl

/-- Reading a word beside a pair has no fault, on any inside. -/
theorem parallel?_eq (inside : Text) : parallel? inside = given (Formula.parallel? inside) := by
  rw [parallel?, Formula.parallel?, parallelSides?_eq, given_bind]
  refine bind_congr fun sides => ?_
  dsimp only
  rw [commaParts_eq, lift_ok_bind]
  -- Only three parts are read on.
  rcases Formula.commaParts sides.2 with _ | ⟨b, _ | ⟨n, _ | ⟨c, _ | ⟨d, rest⟩⟩⟩⟩
  case cons.cons.cons.nil =>
    dsimp only
    rw [given_bind]
    refine bind_congr fun count => ?_
    rw [words_eq, lift_ok_bind]
    split <;> rfl
  all_goals rfl

/-- The two fields of a classification lose their suffixes without a fault. -/
theorem classBases?_eq (inside : Text) :
    classBases? inside = given (Formula.classBases? inside) := by
  rw [classBases?, Formula.classBases?, splitTop_eq, lift_ok_bind]
  rcases Bracket.splitTop '+' inside with _ | ⟨left, _ | ⟨right, _ | ⟨more, rest⟩⟩⟩
  case cons.cons.nil =>
    simp only [dropEnding?_eq, given_bind]
    rfl
  all_goals rfl

/-- Reading one code in two fields has no fault, on any inside. -/
theorem classification?_eq (inside : Text) :
    classification? inside = given (Formula.classification? inside) := by
  rw [classification?, Formula.classification?, classBases?_eq, given_bind]
  refine bind_congr fun bases => ?_
  dsimp only
  rw [unwrapOnce_eq, lift_ok_bind]
  split <;> rfl

/-- So a text in square brackets is read without a fault by the two stages in turn. -/
theorem bracketed?_eq (raw : Text) : bracketed? raw = given (Formula.bracketed? raw) := by
  rw [bracketed?, Formula.bracketed?, squareInside?_eq, given_bind]
  refine bind_congr fun inside => ?_
  rw [parallel?_eq, classification?_eq, given_orElse]

/-- The brace and the closer that was found for it take one byte each, so the text can be cut after
the one, before the other and after it. -/
theorem collectionBody?_eq (core : Text) :
    collectionBody? core = given (Formula.collectionBody? core) := by
  rw [collectionBody?, Formula.collectionBody?]
  cases core with
  | nil => rfl
  | cons c text =>
    by_cases hc : c = '{'
    · subst hc
      have hplace : Bracket.matchingPlace? ('{' :: text) 0 =
          endPlace? 1 (Region.read .curly [] text) := matchingPlace?_opener .curly text
      have hregion : Region.ofText? .curly ('{' :: text) = some (Region.read .curly [] text) := rfl
      rw [List.head?_cons, if_pos rfl, matchingPlace?_eq, hplace, hregion]
      cases hread : Region.read .curly [] text with
      | closed inside rest =>
        obtain ⟨hcore, -⟩ := Region.ofText?_eq_closed_iff.mp (hread ▸ hregion)
        obtain ⟨hnext, hrest, hinside⟩ := cuts_around_match hcore
        simp only [endPlace?, given_some_bind, hnext, hrest, hinside, lift_ok_bind]
        -- What follows the closer has to begin with a comma, or both come to nothing.
        by_cases hcomma : (trim rest).head? = some ','
        · obtain ⟨count, hcount⟩ := List.head?_eq_some_iff.mp hcomma
          rw [if_pos hcomma, hcount, List.tail_cons]
          show _ = given ((Count.digits? count).map fun digits => (inside, digits))
          cases Count.digits? count <;> rfl
        · rw [if_neg hcomma]
          split
          · next count hcount => exact absurd (congrArg List.head? hcount) hcomma
          · rfl
      | mismatched inside rest => rfl
      | unclosed => rfl
    · have hregion : Region.ofText? .curly (c :: text) = none := if_neg hc
      rw [if_neg (by simpa using hc), hregion]
      rfl

/-- Reading three words and a distance has no fault, on any text. -/
theorem collection?_eq (core : Text) : collection? core = given (Formula.collection? core) := by
  rw [collection?, Formula.collection?, collectionBody?_eq, given_bind]
  refine bind_congr fun body => ?_
  dsimp only
  rw [commaParts_eq, lift_ok_bind]
  rcases Formula.commaParts body.1 with _ | ⟨a, _ | ⟨b, _ | ⟨c, _ | ⟨d, rest⟩⟩⟩⟩
  case cons.cons.cons.nil =>
    dsimp only
    rw [allFilled_eq, lift_ok_bind, words_eq, lift_ok_bind]
    cases ([a, b, c].map Bracket.unwrap).any List.isEmpty <;> rfl
  all_goals rfl

/-- A brace group from end to end can be cut after its first byte and before its last. -/
theorem serialSlots?_eq (core : Text) :
    serialSlots? core = given (Formula.serialSlots? core) := by
  have henclosed : Bracket.isEnclosed '{' core = (Bracket.enclosed? .curly core).isSome := rfl
  rw [serialSlots?, Formula.serialSlots?, isEnclosed_eq, lift_ok_bind, henclosed, given_bind]
  cases hcore : Bracket.enclosed? .curly core with
  | none => rfl
  | some inside =>
    rw [Option.isSome_some, if_pos rfl, withoutEnds_of_enclosed? hcore, lift_ok_bind,
      commaParts_eq, lift_ok_bind, given_some_bind]
    rcases Formula.commaParts inside with
      _ | ⟨a, _ | ⟨m, _ | ⟨b, _ | ⟨n, _ | ⟨c, _ | ⟨d, rest⟩⟩⟩⟩⟩⟩
    case some.cons.cons.cons.cons.cons.nil =>
      dsimp only
      rw [given_bind]
      refine bind_congr fun first => ?_
      rw [given_bind]
      rfl
    all_goals rfl

/-- Reading three words with a distance in each gap has no fault, on any text. -/
theorem serial?_eq (core : Text) : serial? core = given (Formula.serial? core) := by
  rw [serial?, Formula.serial?, serialSlots?_eq, given_bind]
  refine bind_congr fun slots => ?_
  dsimp only
  rw [words_eq]
  rfl

/-- Reading one word or a pair has no fault, on any text. -/
theorem flat?_eq (core : Text) : flat? core = given (Formula.flat? core) := by
  rw [flat?, Formula.flat?, commaParts_eq, lift_ok_bind]
  rcases Formula.commaParts core with _ | ⟨a, _ | ⟨n, _ | ⟨b, _ | ⟨d, rest⟩⟩⟩⟩
  case cons.nil =>
    dsimp only
    have hany : ([a].map Bracket.unwrap).any List.isEmpty = (Bracket.unwrap a).isEmpty := by simp
    rw [allFilled_eq, lift_ok_bind, words_eq, lift_ok_bind, hany]
    cases (Bracket.unwrap a).isEmpty <;> rfl
  case cons.cons.cons.nil =>
    dsimp only
    have hany : ([a, b].map Bracket.unwrap).any List.isEmpty =
        ((Bracket.unwrap a).isEmpty || (Bracket.unwrap b).isEmpty) := by simp
    rw [allFilled_eq, lift_ok_bind, words_eq, hany]
    cases (Bracket.unwrap a).isEmpty || (Bracket.unwrap b).isEmpty with
    | true => rfl
    | false => cases Count.digits? n <;> rfl
  all_goals rfl

/-- A text that has no suffix is kept whole, and one that has it can be cut before it. -/
theorem dropSuffix_eq (raw : Text) : dropSuffix raw = .ok (Formula.dropSuffix raw) := by
  rw [dropSuffix, dropEnding?_eq]
  rfl

/-- No stage has a fault, so the stages have none when they are tried in turn. -/
theorem ofTrimmed?_eq (raw : Text) : ofTrimmed? raw = given (Formula.ofTrimmed? raw) := by
  rw [ofTrimmed?, Formula.ofTrimmed?, bracketed?_eq, dropSuffix_eq, lift_ok_bind, collection?_eq,
    serial?_eq, flat?_eq, given_orElse, given_orElse, given_orElse]

/-- The decoder has no fault on any text, and comes to the formula or to the error of the
library. -/
theorem decode_eq (t : Text) : decode t = .ok (Formula.decode t) := by
  rw [decode, Formula.decode, ofTrimmed?_eq, run_given, ok_bind]
  cases Formula.ofTrimmed? (trim t) <;> rfl

/-! ### Every text -/

/-- Slices have no fault only between places of the text, in order, and sums and differences only
between zero and its size. On every text all scanners, with any offset, separator or ending, and all
stages of the decoder come to their results without a fault. -/
theorem scanning_has_no_fault (t : Text) :
    ((∀ start stop, (∃ u, slice t start stop = .ok u) ↔
        start ≤ stop ∧ stop ≤ size t ∧ isPlace t start = true ∧ isPlace t stop = true) ∧
      (∀ a b, (∃ d, minus a b = .ok d) ↔ b ≤ a) ∧
      ∀ a b, (∃ s, plus t a b = .ok s) ↔ a + b ≤ size t) ∧
    ((∀ sep, splitTop sep t = .ok (Bracket.splitTop sep t)) ∧
      (∀ offset, matchingPlace? t offset = given (Bracket.matchingPlace? t offset)) ∧
      (∀ opening, isEnclosed opening t = .ok (Bracket.isEnclosed opening t)) ∧
      (∀ field, splitAfter? field t = given (field.splitAfter? t)) ∧
      (∀ ending, hasEnding t ending = .ok (Text.hasEnding t ending)) ∧
      (∀ ending, dropEnding? t ending = given (Text.dropEnding? t ending)) ∧
      unwrap t = .ok (Bracket.unwrap t) ∧ unwrapOnce t = .ok (Bracket.unwrapOnce t)) ∧
    parallel? t = given (Formula.parallel? t) ∧
      classification? t = given (Formula.classification? t) ∧
      bracketed? t = given (Formula.bracketed? t) ∧
      collection? t = given (Formula.collection? t) ∧
      serial? t = given (Formula.serial? t) ∧
      flat? t = given (Formula.flat? t) ∧
      decode t = .ok (Formula.decode t) :=
  ⟨⟨fun _ _ => exists_slice_iff, fun _ _ => exists_minus_iff, fun _ _ => exists_plus_iff⟩,
    ⟨fun sep => splitTop_eq sep t, matchingPlace?_eq t, fun opening => isEnclosed_eq opening t,
      fun field => splitAfter?_eq field t, hasEnding_eq t, dropEnding?_eq t, unwrap_eq t,
      unwrapOnce_eq t⟩,
    parallel?_eq t, classification?_eq t, bracketed?_eq t, collection?_eq t, serial?_eq t,
    flat?_eq t, decode_eq t⟩

end QueryMix.ByOffset
