import QueryMix.Directory
import QueryMix.Formula.Decode
import QueryMix.Formula.Encode
import QueryMix.Text.Order

/-!
# `QueryMix.Mix.Basic`: the mix, an ordered list of formulas

A mix is a list of formulas with a mark on those that are selected. Items are never changed
in place, apart from their marks: a formula is edited by decoding it and adding the text that
is encoded from the answer. Every text is trimmed before it is added, and a text that is in
the mix already is not added again.

An operation at an index that the mix does not have is refused with that index and the size
of the mix, and changes nothing.
-/

set_option autoImplicit false

namespace QueryMix

/-- One formula of a mix. -/
structure Item where
  /-- What tells the item from all others, whatever becomes of its place and mark. -/
  id : Text
  text : Text
  selected : Bool
deriving DecidableEq, Repr

/-- The formulas of a mix, in order. -/
structure Mix where
  items : List Item
deriving DecidableEq, Repr

/-- Why an operation on a mix is refused. -/
inductive MixError where
  | indexOutOfRange (index size : Nat)
  | nothingSelected
  | emptyOutput
  /-- The text of an item is no formula. -/
  | notAFormula (e : DecodeError)
  /-- A listing is no listing of a mix. -/
  | malformedListing
  | disk (fault : DiskFault)
deriving DecidableEq, Repr

/-- The message for a user. -/
def MixError.message : MixError → String
  | indexOutOfRange index size => s!"index {index} out of range for mix of {size} item(s)"
  | nothingSelected => "no mix item is selected"
  | emptyOutput => "output text is empty"
  | notAFormula e => e.message
  | malformedListing => "invalid mix listing: not a list of records"
  | disk fault => "mix listing I/O failed: " ++ fault.message

/-- What came of adding a text. -/
inductive AddOutcome where
  /-- It is the last item now. -/
  | added (index : Nat)
  /-- It is in the mix already. -/
  | duplicate
  /-- It is blank. -/
  | empty
deriving DecidableEq, Repr

/-- What came of replacing a mix by an output text. -/
structure ReplaceReport where
  added : Nat
  duplicates : Nat
deriving DecidableEq, Repr

/-- The orders in which a mix can be sorted. -/
inductive SortOrder where
  | descending
  | ascending
deriving DecidableEq, Repr

namespace SortOrder

/-- The other order. -/
def flip : SortOrder → SortOrder
  | descending => ascending
  | ascending => descending

/-- How texts compare. Texts of one length are in ascending order either way. -/
def compareTexts : SortOrder → Text → Text → Ordering
  | descending => Text.longestFirst
  | ascending => Text.shortestFirst

end SortOrder

namespace Mix

/-- A mix without formulas. -/
def empty : Mix := ⟨[]⟩

/-- The number of formulas. -/
def size (m : Mix) : Nat := m.items.length

/-- The texts of the formulas. -/
def texts (m : Mix) : List Text := m.items.map Item.text

/-- Is the trimmed text in the mix? -/
def contains (m : Mix) (t : Text) : Bool := m.texts.contains (Text.trim t)

/-- The item at an index. -/
def item (m : Mix) (index : Nat) : Except MixError Item :=
  match m.items[index]? with
  | some item => .ok item
  | none => .error (.indexOutOfRange index m.size)

/-- Add a text as a new selected item; the id is used only if the text is added. -/
def add (m : Mix) (id t : Text) : AddOutcome × Mix :=
  let text := Text.trim t
  if text.isEmpty then (.empty, m)
  else if m.contains text then (.duplicate, m)
  else (.added m.size, ⟨m.items ++ [⟨id, text, true⟩]⟩)

/-- Move the item at `source` so that it ends up at `target`. -/
def reorder (m : Mix) (source target : Nat) : Except MixError Mix := do
  let moved ← m.item source
  let _ ← m.item target
  return ⟨(m.items.eraseIdx source).insertIdx target moved⟩

/-- Move an item one place to the front; the first item stays where it is. -/
def moveUp (m : Mix) (index : Nat) : Except MixError Mix := m.reorder index (index - 1)

/-- Move an item one place to the back; the last item stays where it is. -/
def moveDown (m : Mix) (index : Nat) : Except MixError Mix :=
  m.reorder index (if index + 1 < m.size then index + 1 else index)

/-- Take an item out. -/
def remove (m : Mix) (index : Nat) : Except MixError (Item × Mix) := do
  let removed ← m.item index
  return (removed, ⟨m.items.eraseIdx index⟩)

/-- Mark one item as selected or not. -/
def select (m : Mix) (index : Nat) (selected : Bool) : Except MixError Mix := do
  let marked ← m.item index
  return ⟨m.items.set index { marked with selected }⟩

/-- Is the mix not empty and every item selected? -/
def allSelected (m : Mix) : Bool := !m.items.isEmpty && m.items.all Item.selected

/-- Mark all items alike. -/
def selectAll (m : Mix) (selected : Bool) : Mix :=
  ⟨m.items.map fun item => { item with selected }⟩

/-- Deselect all items if all are selected, otherwise select all. The new mark is none for a
mix without items. -/
def toggleAll (m : Mix) : Option Bool × Mix :=
  if m.items.isEmpty then (none, m)
  else (some (!m.allSelected), m.selectAll (!m.allSelected))

/-- Sort by length; the sort is stable. -/
def sort (m : Mix) (order : SortOrder) : Mix :=
  ⟨m.items.mergeSort fun a b => (order.compareTexts a.text b.text).isLE⟩

/-- The first selected item and its index. -/
def firstSelected? (m : Mix) : Option (Nat × Item) :=
  match m.items.findIdx? Item.selected with
  | none => none
  | some index => m.items[index]?.map fun item => (index, item)

/-- Decode the formula at an index. -/
def decodeItem (m : Mix) (index : Nat) : Except MixError Formula := do
  let item ← m.item index
  match Formula.decode item.text with
  | .ok f => .ok f
  | .error e => .error (.notAFormula e)

/-- Decode the first selected formula. -/
def decodeSelected (m : Mix) : Except MixError Formula :=
  match m.firstSelected? with
  | some (index, _) => m.decodeItem index
  | none => .error .nothingSelected

/-- The texts of the selected items. -/
def selectedTexts (m : Mix) : List Text := (m.items.filter Item.selected).map Item.text

/-- The selected texts with a separator between them. -/
def joinSelected (m : Mix) (separator : Text) : Except MixError Text :=
  if m.selectedTexts.isEmpty then .error .nothingSelected
  else .ok (separator.intercalate m.selectedTexts)

/-- The selected texts as one output text. -/
def output (m : Mix) : Except MixError Text := m.joinSelected [outputSeparator]

end Mix

end QueryMix
