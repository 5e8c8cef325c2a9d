import QueryMix.Mix.Listing

/-!
# `QueryMix.Mix.Session`: a mix that is worked with

A session is a mix together with the ids for its new items. `Request` is everything that can
be asked of a mix and `Reply` what is answered; `Session.answer` gives the answer and the
session after it. A request that is refused leaves the session as it was.
-/

set_option autoImplicit false

namespace QueryMix

/-- A mix, and the ids for items to come. -/
structure Session where
  mix : Mix
  ids : Ids

/-- What can be asked of a mix. -/
inductive Request where
  /-- Add a formula at the end. -/
  | add (t : Text)
  /-- Show the items. -/
  | list
  /-- Take out the item at the index. -/
  | remove (index : Nat)
  /-- Move the item at `source` so that it ends up at `target`. -/
  | reorder (source target : Nat)
  | moveUp (index : Nat)
  | moveDown (index : Nat)
  /-- Mark one item as selected or not. -/
  | select (index : Nat) (selected : Bool)
  /-- Select all items, or none if all are selected. -/
  | toggleAll
  | sort (order : SortOrder)
  /-- Take out all items. -/
  | clear
  /-- Join the selected formulas. -/
  | join (separator : Text)
  /-- Replace the mix by the formulas of an output text. -/
  | replaceAll (output : Text)
  /-- Replace the mix by that of a listing. -/
  | load (listing : Text)
  /-- Decode one item. -/
  | decodeItem (index : Nat)
  /-- Decode the first selected item. -/
  | decodeSelected
deriving DecidableEq, Repr

/-- What is answered. -/
inductive Reply where
  /-- The request has been carried out and there is no more to say. -/
  | done
  | added (outcome : AddOutcome)
  | removed (item : Item)
  | toggled (selected : Option Bool)
  | cleared (count : Nat)
  | replaced (report : ReplaceReport)
  | text (t : Text)
  | formula (f : Formula)
deriving DecidableEq, Repr

namespace Session

/-- A session that starts with an empty mix. -/
def start (ids : Ids) : Session := ⟨Mix.empty, ids⟩

/-- Add a text; an id is spent only if it is added. -/
def add (s : Session) (t : Text) : AddOutcome × Session :=
  match s.mix.add s.ids.next t with
  | (.added index, mix) => (.added index, ⟨mix, s.ids.spend⟩)
  | (outcome, _) => (outcome, s)

/-- Add texts in turn, and count those that are added and those that are there already. -/
def addAll : Session → List Text → ReplaceReport × Session
  | s, [] => (⟨0, 0⟩, s)
  | s, t :: rest =>
    let (outcome, next) := s.add t
    let (report, last) := next.addAll rest
    match outcome with
    | .added _ => (⟨report.added + 1, report.duplicates⟩, last)
    | .duplicate => (⟨report.added, report.duplicates + 1⟩, last)
    | .empty => (report, last)

/-- The texts between the separators of an output text. -/
def outputParts (output : Text) : List Text := (Text.trim output).splitOn outputSeparator

/-- Replace the mix by the formulas of an output text. A blank text is refused. -/
def replaceAll (s : Session) (output : Text) : Except MixError (ReplaceReport × Session) :=
  if Text.allBlank output then .error .emptyOutput
  else .ok ((start s.ids).addAll (outputParts output))

/-- Replace the mix by that of a listing. -/
def load (s : Session) (listing : Text) : Except MixError Session := do
  let (mix, ids) ← Listing.read s.ids listing
  return ⟨mix, ids⟩

/-- The reply to a request that gives a new mix or is refused. -/
def replaceMix (s : Session) (result : Except MixError Mix) : Except MixError Reply × Session :=
  match result with
  | .ok mix => (.ok .done, { s with mix })
  | .error e => (.error e, s)

/-- The reply to a request, and the session after it. -/
def answer (s : Session) : Request → Except MixError Reply × Session
  | .add t => let (outcome, next) := s.add t; (.ok (.added outcome), next)
  | .list => (.ok .done, s)
  | .remove index =>
    match s.mix.remove index with
    | .ok (item, mix) => (.ok (.removed item), { s with mix })
    | .error e => (.error e, s)
  | .reorder source target => s.replaceMix (s.mix.reorder source target)
  | .moveUp index => s.replaceMix (s.mix.moveUp index)
  | .moveDown index => s.replaceMix (s.mix.moveDown index)
  | .select index selected => s.replaceMix (s.mix.select index selected)
  | .toggleAll =>
    let (selected, mix) := s.mix.toggleAll
    (.ok (.toggled selected), { s with mix })
  | .sort order => (.ok .done, { s with mix := s.mix.sort order })
  | .clear => (.ok (.cleared s.mix.size), { s with mix := Mix.empty })
  | .join separator => ((s.mix.joinSelected separator).map Reply.text, s)
  | .replaceAll output =>
    match s.replaceAll output with
    | .ok (report, next) => (.ok (.replaced report), next)
    | .error e => (.error e, s)
  | .load listing =>
    match s.load listing with
    | .ok next => (.ok .done, next)
    | .error e => (.error e, s)
  | .decodeItem index => ((s.mix.decodeItem index).map Reply.formula, s)
  | .decodeSelected => (s.mix.decodeSelected.map Reply.formula, s)

/-- The session after a run of requests, refused ones included. -/
def run (s : Session) (requests : List Request) : Session :=
  requests.foldl (fun session request => (session.answer request).2) s

end Session

end QueryMix
