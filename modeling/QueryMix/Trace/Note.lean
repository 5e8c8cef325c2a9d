import QueryMix.Formula.Mode
import QueryMix.Text.Quoted
import QueryMix.Trace.Caret
import QueryMix.Trace.Level

/-!
# `QueryMix.Trace.Note`: what can be told about the work

A note is what happened, not how it is told: level, topic and wording are functions of the
note. Which notes a piece of work leaves, and in which order, is said in
`QueryMix.Trace.Formula` and `QueryMix.Trace.Mix`.
-/

set_option autoImplicit false

namespace QueryMix.Trace

/-- What can be told about the work. -/
inductive Note where
  /-- Looking for the end of a region, a closer of the wrong kind was found before `rest`. -/
  | mismatchedCloser (before rest : Text)
  /-- The sides of a parallel formula were cut before `rest`. -/
  | parallelCut (before rest : Text)
  /-- The tokens of a word. -/
  | tokens (raw : Text) (tokens : List Text)
  /-- A classification code was put in round brackets. -/
  | wrapped (code : Text)
  /-- A formula was written. -/
  | encoded (mode : Mode) (t : Text)
  /-- The sides of a parallel formula, without their suffixes. -/
  | parallelSides (left right : Text)
  /-- The two codes of a classification are not one. -/
  | basesDiffer (left right : Text)
  /-- The two counts of a serial formula are not one. -/
  | countsDiffer (first second : Text)
  /-- A text was read, and the mode that was found. What was looked at once the suffix had
  been dropped is given unless square brackets settled the matter. -/
  | decoded (input : Text) (core : Option Text) (mode : Option Mode)
  /-- A text was added to the mix. -/
  | added (index : Nat) (t : Text)
  /-- A text was in the mix already. -/
  | duplicate (t : Text)
  /-- A text was in the listing already. -/
  | droppedEntry (t : Text)
  /-- Some texts were in the output text already. -/
  | droppedParts (count : Nat)
  /-- A listing was read. -/
  | loaded (count : Nat)
deriving DecidableEq, Repr

namespace Note

/-- How much the note matters. -/
def level : Note → Level
  | encoded .. => .debug
  | countsDiffer .. | duplicate _ | droppedEntry _ | droppedParts _ => .warn
  | added .. | loaded _ => .info
  | mismatchedCloser .. | parallelCut .. | tokens .. | wrapped _ | parallelSides ..
  | basesDiffer .. | decoded .. => .trace

/-- The part of the work that the note tells about. -/
def topic : Note → Topic
  | mismatchedCloser .. | parallelCut .. => .scan
  | tokens .. => .normalize
  | wrapped _ | encoded .. => .encode
  | parallelSides .. | basesDiffer .. | countsDiffer .. | decoded .. => .decode
  | added .. | duplicate _ | droppedEntry _ | droppedParts _ | loaded _ => .store

/-- The steps of an operation on one line, each as a key and a quoted value. -/
def steps (operation : Text) (pairs : List (Text × Text)) : Text :=
  operation ++ [':', ' '] ++
    [' '].intercalate (pairs.map fun (key, value) => key ++ '=' :: Text.quote value)

/-- The steps of reading a formula. -/
def decodedSteps (input : Text) (core : Option Text) (mode : Option Mode) :
    List (Text × Text) :=
  let found := match mode with
    | some mode => mode.name
    | none => "<none>"
  ("input".toList, input) :: (core.toList.map fun t => ("core".toList, t))
    ++ [("mode".toList, found.toList)]

/-- The wording of the note. -/
def message : Note → Text
  | mismatchedCloser before rest => "mismatched closer\n".toList ++ pointBetween before rest
  | parallelCut before rest => "parallel split\n".toList ++ pointBetween before rest
  | tokens raw list =>
    '\'' :: raw ++ "' -> ".toList ++ Text.quoteList list
  | wrapped code => "wrapping class code '".toList ++ code ++ ['\'']
  | encoded mode t => mode.name.toList ++ " -> ".toList ++ t
  | parallelSides left right =>
    "parallel sides '".toList ++ left ++ "' | '".toList ++ right ++ ['\'']
  | basesDiffer left right =>
    "class bases differ: '".toList ++ left ++ "' vs '".toList ++ right ++ ['\'']
  | countsDiffer first second =>
    "serial formula has two counts (".toList ++ first ++ " and ".toList ++ second
      ++ "), keeping ".toList ++ first
  | decoded input core mode => steps "decode".toList (decodedSteps input core mode)
  | added index t => s!"added #{index}: ".toList ++ t
  | duplicate t => "not added, duplicate: ".toList ++ t
  | droppedEntry t => "dropping duplicate listing entry: ".toList ++ t
  | droppedParts count => s!"{count} duplicate(s) dropped from output".toList
  | loaded count => s!"loaded {count} item(s)".toList

/-- The note as it is shown, with the line break after it. -/
def line (note : Note) : Text :=
  s!"[{note.level.label}:{note.topic.name}] ".toList ++ note.message ++ ['\n']

end Note

/-- Does the filter let the note through? -/
def Filter.admitsNote (filter : Filter) (note : Note) : Bool :=
  filter.admits note.level note.topic.name.toList

/-- The notes that the filter lets through, as they are shown. -/
def Filter.log (filter : Filter) (notes : List Note) : Text :=
  (notes.filter filter.admitsNote).flatMap Note.line

end QueryMix.Trace
