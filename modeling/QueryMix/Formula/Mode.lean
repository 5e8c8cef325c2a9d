import QueryMix.Text.Ending

/-!
# `QueryMix.Formula.Mode`: the six shapes of a formula

Each mode has a name, by which a user chooses it, and a number of places for words and for a
count. A name is read in any ASCII case and with blanks around it.
-/

set_option autoImplicit false

namespace QueryMix

/-- The shapes of a formula. -/
inductive Mode where
  /-- One word. -/
  | single
  /-- Two words with a distance between them. -/
  | pair
  /-- Three words, one distance for both gaps. -/
  | serial
  /-- Three words and one distance for all of them. -/
  | collection
  /-- One word beside a pair. -/
  | parallel
  /-- One classification code. -/
  | classification
deriving DecidableEq, Repr

namespace Mode

/-- All modes, in the order in which they are listed to a user. -/
def all : List Mode := [single, pair, serial, collection, parallel, classification]

/-- The name by which a user chooses the mode. -/
def name : Mode → String
  | single => "single"
  | pair => "pair"
  | serial => "serial"
  | collection => "collection"
  | parallel => "parallel"
  | classification => "class"

/-- The number of words that the mode takes. -/
def wordSlots : Mode → Nat
  | single => 1
  | pair => 2
  | serial => 3
  | collection => 3
  | parallel => 3
  | classification => 1

/-- The number of counts that the mode takes. -/
def countSlots : Mode → Nat
  | single => 0
  | classification => 0
  | _ => 1

/-- The count that is proposed to a user of the mode. -/
def usualCount? : Mode → Option Text
  | single => none
  | classification => none
  | parallel => some ['5']
  | _ => some ['3', '0']

/-- The mode of that name. -/
def ofName? (name : Text) : Option Mode :=
  all.find? fun mode => mode.name.toList == Text.foldCase (Text.trim name)

/-- What is said of a name that no mode has. -/
def unknownMessage (name : Text) : String :=
  s!"unknown mode '{String.ofList name}', expected one of: "
    ++ ", ".intercalate (all.map Mode.name)

end Mode

end QueryMix
