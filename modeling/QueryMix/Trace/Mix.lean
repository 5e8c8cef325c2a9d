import QueryMix.Mix.Session
import QueryMix.Trace.Formula

/-!
# `QueryMix.Trace.Mix`: the notes of working with a mix

Only requests that add texts, read a listing or decode an item leave notes. A request that is
refused for its index leaves none.
-/

set_option autoImplicit false

namespace QueryMix.Trace

/-- The note of adding a text. -/
def addNotes (s : Session) (t : Text) : List Note :=
  match (s.add t).1 with
  | .added index => [.added index (Text.trim t)]
  | .duplicate => [.duplicate (Text.trim t)]
  | .empty => []

/-- The notes of adding texts in turn. -/
def addAllNotes : Session → List Text → List Note
  | _, [] => []
  | s, t :: rest => addNotes s t ++ addAllNotes (s.add t).2 rest

/-- The notes of replacing a mix by an output text. -/
def replaceAllNotes (s : Session) (output : Text) : List Note :=
  match s.replaceAll output with
  | .error _ => []
  | .ok (report, _) =>
    addAllNotes (Session.start s.ids) (Session.outputParts output)
      ++ (if report.duplicates = 0 then [] else [.droppedParts report.duplicates])

/-- The texts of a listing that are repeats of an earlier text, or of one among `seen`. -/
def repeats : List Text → List Item → List Text
  | _, [] => []
  | seen, record :: rest =>
    let text := Text.trim record.text
    if text.isEmpty then repeats seen rest
    else if seen.contains text then text :: repeats seen rest
    else repeats (text :: seen) rest

/-- The notes of reading a listing. -/
def loadNotes (listing : Text) : List Note :=
  match Listing.records? listing with
  | none => []
  | some records =>
    (repeats [] records).map Note.droppedEntry
      ++ [.loaded (Listing.keepFirst [] records).length]

/-- The notes of decoding one item. -/
def decodeItemNotes (m : Mix) (index : Nat) : List Note :=
  match m.item index with
  | .ok item => decodeNotes item.text
  | .error _ => []

/-- The notes of a request. -/
def requestNotes (s : Session) : Request → List Note
  | .add t => addNotes s t
  | .replaceAll output => replaceAllNotes s output
  | .load listing => loadNotes listing
  | .decodeItem index => decodeItemNotes s.mix index
  | .decodeSelected =>
    match s.mix.firstSelected? with
    | some (index, _) => decodeItemNotes s.mix index
    | none => []
  | _ => []

end QueryMix.Trace
