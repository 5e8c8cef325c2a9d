import QueryMix.Command.Arguments
import QueryMix.Mix.Session
import QueryMix.Trace.Level

/-!
# `QueryMix.Command.Invocation`: what a command line asks for

An option that is taken in every scope counts in the innermost scope in which it is given.
-/

set_option autoImplicit false

namespace QueryMix

/-- What the program is asked to do. -/
inductive Command where
  /-- Write a formula; without a count, the usual count of the mode is taken. -/
  | encode (mode : Mode) (words : List Text) (count : Option Text) (literal : Bool)
  /-- Read a formula. -/
  | decode (t : Text)
  /-- Show the normal form of a word or of a classification code. -/
  | normalize (word : Text) (asCode : Bool)
  /-- Work with the mix whose listing is stored at the path. -/
  | mix (path : Text) (request : Request)
deriving DecidableEq, Repr

namespace Command

/-- A command, and which trace notes are wanted. -/
structure Invocation where
  level : Trace.Level
  /-- The topics as they are typed, separated by commas. -/
  topics : Option Text
  command : Command
deriving DecidableEq, Repr

/-- The path of the listing when none is given. -/
def usualPath : Text := "mix.json".toList

/-- The text of a text operand. -/
def Operand.text? : Operand → Option Text
  | text t => some t
  | _ => none

/-- The request of an action on the mix. -/
def request? (given : Given) : Option Request :=
  match given.scope, given.operands with
  | .add, [.text t] => some (.add t)
  | .list, [] => some .list
  | .remove, [.index i] => some (.remove i)
  | .move, [.index source, .index target] => some (.reorder source target)
  | .up, [.index i] => some (.moveUp i)
  | .down, [.index i] => some (.moveDown i)
  | .select, [.index i, .switch on] => some (.select i on)
  | .toggleAll, [] => some .toggleAll
  | .sort, [] => some (.sort (if given.has .ascending then .ascending else .descending))
  | .clear, [] => some .clear
  | .join, [] => some (.join ((given.value? .separator).getD [outputSeparator]))
  | .split, [.text output] => some (.replaceAll output)
  | .edit, [] => some .decodeSelected
  | .edit, [.index i] => some (.decodeItem i)
  | _, _ => none

/-- The command of the innermost scope, and of the scopes around it. -/
def ofGiven? (here : Given) (outer : List Given) : Option Command :=
  match here.scope, here.operands with
  | .encode, .mode mode :: words =>
    (words.mapM Operand.text?).map fun words =>
      .encode mode words (here.value? .count) (here.has .literal)
  | .decode, [.text t] => some (.decode t)
  | .normalize, [.text word] => some (.normalize word (here.has .asCode))
  | _, _ =>
    (request? here).map fun request =>
      .mix ((outer.findSome? fun given => given.value? .store).getD usualPath) request

/-- How often more trace notes are asked for in the innermost scope that asks for them. -/
def verbosity (scopes : List Given) : Nat :=
  match scopes.find? fun given => given.has .verbose with
  | some given => given.count .verbose
  | none => 0

/-- What a command line asks for. -/
def Invocation.read (args : List Text) : Except Stop Invocation := do
  let (here, outer) ← readArguments args
  let scopes := here :: outer
  match ofGiven? here outer with
  | none => throw .refused
  | some command =>
    return {
      level := .ofVerbosity (verbosity scopes) (scopes.any fun given => given.has .everything)
      topics := scopes.findSome? fun given => given.value? .topics
      command }

end Command

end QueryMix
