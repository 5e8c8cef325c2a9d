import QueryMix.Json.Value
import QueryMix.Mix.Basic
import QueryMix.Mix.Ids

/-!
# `QueryMix.Mix.Listing`: the listing of a mix

The listing is a JSON array of records, each with an id, a text and a selection mark. It is
written in one fixed layout and read in any: the fields of a record in any order, unknown
fields passed over, the id left out, or a record given as an array of its three values.

A listing may have been edited by hand. What is read is put right before it becomes a mix:
texts are trimmed, blank texts and repeats of an earlier text are dropped, and items with a
blank id get a new one.
-/

set_option autoImplicit false

namespace QueryMix

open Json (Value)

namespace Item

/-- The record of an item. -/
def print (item : Item) : Text :=
  "  \x7b\n    \"id\": ".toList ++ Json.literal item.id
    ++ ",\n    \"text\": ".toList ++ Json.literal item.text
    ++ ",\n    \"selected\": ".toList ++ (if item.selected then "true" else "false").toList
    ++ "\n  \x7d".toList

/-- The values of the fields with that key. -/
def valuesOf (key : Text) (fields : List (Text × Value)) : List Value :=
  (fields.filter fun field => field.1 == key).map Prod.snd

/-- The item of a record given by its fields. The id may be left out. -/
def ofFields? (fields : List (Text × Value)) : Option Item :=
  let id? := match valuesOf "id".toList fields with
    | [] => some []
    | [.text id] => id
    | _ => none
  match id?, valuesOf "text".toList fields, valuesOf "selected".toList fields with
  | some id, [.text (some text)], [.bool selected] => some ⟨id, text, selected⟩
  | _, _, _ => none

/-- A field whose key is a text. -/
def field? (field : Option Text × Value) : Option (Text × Value) :=
  field.1.map fun key => (key, field.2)

/-- The item of a record. -/
def ofValue? : Value → Option Item
  | .array [.text (some id), .text (some text), .bool selected] => some ⟨id, text, selected⟩
  | .object fields => (fields.mapM field?).bind ofFields?
  | _ => none

end Item

namespace Listing

/-- The listing of some items. -/
def print : List Item → Text
  | [] => ['[', ']']
  | items =>
    "[\n".toList ++ ",\n".toList.intercalate (items.map Item.print) ++ "\n]".toList

/-- The records of a listing. -/
def records? (t : Text) : Option (List Item) :=
  match Value.ofText? t with
  | some (.array members) => members.mapM Item.ofValue?
  | _ => none

/-- The records with their texts trimmed, without blank texts, and of each text that is not
among `seen` only the first. -/
def keepFirst : List Text → List Item → List Item
  | _, [] => []
  | seen, record :: rest =>
    let text := Text.trim record.text
    if text.isEmpty || seen.contains text then keepFirst seen rest
    else { record with text } :: keepFirst (text :: seen) rest

/-- Give a new id to every item with a blank one. -/
def identify : Ids → List Item → List Item × Ids
  | ids, [] => ([], ids)
  | ids, item :: rest =>
    if Text.allBlank item.id then
      let (others, last) := identify ids.spend rest
      ({ item with id := ids.next } :: others, last)
    else
      let (others, last) := identify ids rest
      (item :: others, last)

/-- The mix of some records. -/
def repair (ids : Ids) (records : List Item) : Mix × Ids :=
  let (items, last) := identify ids (keepFirst [] records)
  (⟨items⟩, last)

/-- The mix of a listing. -/
def read (ids : Ids) (t : Text) : Except MixError (Mix × Ids) :=
  match records? t with
  | some records => .ok (repair ids records)
  | none => .error .malformedListing

end Listing

/-- The listing of a mix. -/
def Mix.listing (m : Mix) : Text := Listing.print m.items

end QueryMix
