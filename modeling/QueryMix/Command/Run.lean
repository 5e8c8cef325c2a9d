import QueryMix.Command.Invocation
import QueryMix.Trace.Mix

/-!
# `QueryMix.Command.Run`: carrying out a command

A command gives an `Outcome`: what goes to the standard output, what is said on the standard
error, whether it failed and, for a mix that was changed, the listing that is to be saved.
Nothing is saved when a request is refused, shows something only, or adds nothing.

Reading and writing files is left to whoever carries the outcome out. `runIn` does so in a
`Directory`.
-/

set_option autoImplicit false

namespace QueryMix.Command

open Trace (Note Filter)

/-- What is said on the standard error. -/
inductive Message where
  /-- A trace note, if it is let through. -/
  | note (note : Note)
  /-- A line of its own. -/
  | line (text : String)

/-- What comes of a command. -/
structure Outcome where
  output : String
  messages : List Message
  failed : Bool
  /-- The listing to save. -/
  save : Option Text
  /-- The ids that are left. -/
  ids : Ids

/-- The status that the program ends with. -/
def Outcome.exitStatus (outcome : Outcome) : UInt32 := if outcome.failed then 1 else 0

/-- The line that says why a command failed. -/
def errorLine (reason : String) : Message := .line ("error: " ++ reason)

/-- A formula, one part on a line. -/
def showFormula (f : Formula) : String :=
  let words := f.words.zipIdx.map fun (word, i) => s!"word {i + 1}: {String.ofList word}\n"
  let count := match f.counts with
    | [] => ""
    | count :: _ => s!"count:  {String.ofList count}\n"
  s!"mode:   {f.mode.name}\n" ++ String.join words ++ count

/-- An index, with blanks before it up to three characters. -/
def showIndex (index : Nat) : String :=
  let digits := toString index
  String.ofList (List.replicate (3 - digits.length) ' ') ++ digits

/-- The items of a mix, one on a line. -/
def showItems (m : Mix) : String :=
  if m.items.isEmpty then "(empty mix)\n"
  else
    String.join (m.items.zipIdx.map fun (item, i) =>
      let mark := if item.selected then "x" else " "
      s!"{showIndex i} [{mark}] {String.ofList item.text}\n")

/-- What is printed when a request has been carried out and `m` is the mix after it. -/
def showReply (request : Request) (m : Mix) : Reply → String
  | .done =>
    match request with
    | .select .. => ""
    | _ => showItems m
  | .added (.added index) => s!"added #{index}\n"
  | .added _ => ""
  | .removed item => s!"removed {String.ofList item.text}\n"
  | .toggled (some true) => "all selected\n"
  | .toggled (some false) => "none selected\n"
  | .toggled none => "(empty mix)\n"
  | .cleared count => s!"removed {count} item(s)\n"
  | .replaced report =>
    s!"{report.added} formula(s) in the mix, {report.duplicates} duplicate(s) dropped\n"
  | .text t => String.ofList t ++ "\n"
  | .formula f => showFormula f

/-- What is said on the standard error when a request has been carried out. -/
def remarks (request : Request) (reply : Reply) : List Message :=
  match request, reply with
  | .add t, .added .duplicate =>
    [.line ("already in the mix: " ++ String.ofList (Text.trim t))]
  | .add _, .added .empty => [.line "nothing to add"]
  | _, _ => []

/-- Is the mix saved after that reply to the request? -/
def isSaved (request : Request) (reply : Reply) : Bool :=
  match request, reply with
  | .add _, .added (.added _) => true
  | .add _, _ => false
  | .list, _ | .join _, _ | .decodeItem _, _ | .decodeSelected, _ => false
  | _, _ => true

/-- Why a request was refused. Where a formula was asked for, the reason is given twice: once
for the formula and once for what is behind it. -/
def refusal (request : Request) (e : MixError) : String :=
  match request with
  | .decodeItem _ | .decodeSelected => e.message ++ ": " ++ e.message
  | _ => e.message

/-- A failure before any work was done. -/
def failure (ids : Ids) (messages : List Message) (reason : String) : Outcome :=
  ⟨"", messages ++ [errorLine reason], true, none, ids⟩

/-- Answer a request in a session that has been opened. -/
def answerRequest (session : Session) (opening : List Note) (request : Request) : Outcome :=
  let messages := (opening ++ Trace.requestNotes session request).map Message.note
  match session.answer request with
  | (.error e, next) => failure next.ids messages (refusal request e)
  | (.ok reply, next) =>
    { output := showReply request next.mix reply
      messages := messages ++ remarks request reply
      failed := false
      save := if isSaved request reply then some next.mix.listing else none
      ids := next.ids }

/-- Open the mix whose listing is stored. Where nothing is stored, the mix is empty. -/
def openMix (ids : Ids) (stored : Directory.Stored) : Except MixError (Session × List Note) :=
  match stored with
  | .absent _ => .ok (Session.start ids, [])
  | stored =>
    match stored.text with
    | .error fault => .error (.disk fault)
    | .ok listing =>
      match (Session.start ids).load listing with
      | .error e => .error e
      | .ok session => .ok (session, Trace.loadNotes listing)

/-- Answer a request on the mix whose listing is stored at a path. -/
def runMix (ids : Ids) (path : Text) (stored : Directory.Stored) (request : Request) :
    Outcome :=
  match openMix ids stored with
  | .error e => failure ids [] (s!"failed to load mix '{String.ofList path}': " ++ e.message)
  | .ok (session, opening) => answerRequest session opening request

/-- An outcome that has printed a text. -/
def printed (ids : Ids) (notes : List Note) (output : String) : Outcome :=
  ⟨output, notes.map Message.note, false, none, ids⟩

/-- Write a formula. -/
def runEncode (ids : Ids) (mode : Mode) (words : List Text) (count : Option Text)
    (literal : Bool) : Outcome :=
  let config := if literal then Config.literal else Config.canonical
  let counts := (count.or mode.usualCount?).toList
  let notes := Trace.encodeNotes config mode words counts
  match Formula.encode config mode words counts with
  | .ok t => printed ids notes (String.ofList t ++ "\n")
  | .error e =>
    failure ids (notes.map Message.note) (s!"cannot encode {mode.name} formula: " ++ e.message)

/-- Read a formula. -/
def runDecode (ids : Ids) (t : Text) : Outcome :=
  let notes := Trace.decodeNotes t
  match Formula.decode t with
  | .ok f => printed ids notes (showFormula f)
  | .error e => failure ids (notes.map Message.note) e.message

/-- Show a normal form. -/
def runNormalize (ids : Ids) (word : Text) (asCode : Bool) : Outcome :=
  if asCode then printed ids [] (String.ofList (Word.normalizeCode word) ++ "\n")
  else
    printed ids (Trace.wordNotes true word) (String.ofList (Word.normalize true word) ++ "\n")

/-- The path at which a command needs to know what is stored. -/
def path? : Command → Option Text
  | .mix path _ => some path
  | _ => none

/-- Carry out a command. What is stored at its path is given, if it has one. -/
def run (ids : Ids) (stored : Directory.Stored) : Command → Outcome
  | .encode mode words count literal => runEncode ids mode words count literal
  | .decode t => runDecode ids t
  | .normalize word asCode => runNormalize ids word asCode
  | .mix path request => runMix ids path stored request

/-- The outcome when the listing could not be saved. What was printed stays printed. -/
def Outcome.unsaved (outcome : Outcome) (path : Text) (fault : DiskFault) : Outcome :=
  { outcome with
    messages := outcome.messages ++
      [errorLine (s!"failed to save mix '{String.ofList path}': "
        ++ (MixError.disk fault).message)]
    failed := true
    save := none }

/-- The topics that are asked for, by their names. -/
def topicNames (topics : Option Text) : List Text :=
  match topics with
  | none => []
  | some list => ((list.splitOn ',').map Text.trim).filter fun name => !name.isEmpty

/-- The trace notes that an invocation wants. -/
def Invocation.filter (invocation : Invocation) : Filter :=
  ⟨invocation.level, topicNames invocation.topics⟩

/-- The warnings about names that no topic has. -/
def Invocation.warnings (invocation : Invocation) : List Message :=
  let known (name : Text) : Bool :=
    Trace.Topic.all.any fun topic => Trace.sameName topic.name.toList name
  let names := ",".intercalate (Trace.Topic.all.map Trace.Topic.name)
  ((topicNames invocation.topics).filter fun name => !known name).map fun name =>
    .line (s!"warning: unknown module '{String.ofList name}', expected one of: " ++ names)

/-- A message as it is shown. -/
def Message.display (filter : Filter) : Message → String
  | .note n => String.ofList (filter.log [n])
  | .line t => t ++ "\n"

/-- What an invocation says on the standard error. -/
def Invocation.errorText (invocation : Invocation) (outcome : Outcome) : String :=
  String.join ((invocation.warnings ++ outcome.messages).map (Message.display invocation.filter))

/-- The text of the version of a scope. -/
def versionText (scope : Scope) : String := scope.title ++ " 0.1.0\n"

/-- Carry out a command in a directory: its outcome, and the directory after it. -/
def runIn (dir : Directory) (ids : Ids) (command : Command) : Outcome × Directory :=
  match command.path? with
  | none => (run ids (.absent .notFound) command, dir)
  | some path =>
    let outcome := run ids (dir.stored path) command
    match outcome.save with
    | none => (outcome, dir)
    | some listing =>
      match dir.write path (Directory.bytesOfText listing) with
      | .ok dir => (outcome, dir)
      | .error fault => (outcome.unsaved path fault, dir)

end QueryMix.Command
