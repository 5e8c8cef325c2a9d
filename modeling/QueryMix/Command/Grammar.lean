import QueryMix.Formula.Mode

/-!
# `QueryMix.Command.Grammar`: what a command line may hold

A command line leads through scopes: the program, a command of it and, for the mix, an
action. Every scope has its options and either leads on to other scopes by their names or
takes operands. The options about trace notes and the one that asks for the version are taken
in every scope.
-/

set_option autoImplicit false

namespace QueryMix.Command

/-- The places of a command line where options and operands can stand. -/
inductive Scope where
  | program
  | encode
  | decode
  | normalize
  | mix
  | add
  | list
  | remove
  | move
  | up
  | down
  | select
  | toggleAll
  | sort
  | clear
  | join
  | split
  | edit
deriving DecidableEq, Repr

/-- What an option is about. -/
inductive OptionKey where
  /-- More trace notes, each time it is given. -/
  | verbose
  /-- All trace notes. -/
  | everything
  /-- The topics of the trace notes. -/
  | topics
  /-- The version, and nothing else. -/
  | version
  /-- The count of a formula. -/
  | count
  /-- Words without their full-width forms. -/
  | literal
  /-- A word that is a classification code. -/
  | asCode
  /-- The file of the listing. -/
  | store
  /-- The shortest formulas first. -/
  | ascending
  /-- The text between joined formulas. -/
  | separator
deriving DecidableEq, Repr

/-- How an option is given. -/
inductive OptionKind where
  /-- Once, without a value. -/
  | flag
  /-- Any number of times, without a value. -/
  | counted
  /-- Once, with a value. -/
  | valued
  /-- Once, with a value that is not empty. -/
  | filled
  /-- It ends the reading of the command line. -/
  | final
deriving DecidableEq, Repr

/-- Does the option take a value? -/
def OptionKind.takesValue : OptionKind → Bool
  | valued | filled => true
  | flag | counted | final => false

/-- An option and its spellings. -/
structure OptionSpec where
  key : OptionKey
  kind : OptionKind
  short : Option Char
  long : Text
deriving DecidableEq, Repr

/-- What an operand is. -/
inductive OperandKind where
  | text
  | mode
  | index
  | switch
deriving DecidableEq, Repr

namespace Scope

/-- The name under which the scope gives its version. -/
def title : Scope → String
  | program => "fmx"
  | encode => "fmx-encode"
  | decode => "fmx-decode"
  | normalize => "fmx-normalize"
  | mix => "fmx-mix"
  | add => "fmx-mix-add"
  | list => "fmx-mix-list"
  | remove => "fmx-mix-remove"
  | move => "fmx-mix-move"
  | up => "fmx-mix-up"
  | down => "fmx-mix-down"
  | select => "fmx-mix-select"
  | toggleAll => "fmx-mix-toggle-all"
  | sort => "fmx-mix-sort"
  | clear => "fmx-mix-clear"
  | join => "fmx-mix-join"
  | split => "fmx-mix-split"
  | edit => "fmx-mix-edit"

/-- The scopes that this one leads to, with the names that lead there. -/
def entries : Scope → List (Text × Scope)
  | program =>
    [("encode".toList, encode), ("decode".toList, decode), ("normalize".toList, normalize),
      ("mix".toList, mix)]
  | mix =>
    [("add".toList, add), ("list".toList, list), ("remove".toList, remove),
      ("move".toList, move), ("up".toList, up), ("down".toList, down),
      ("select".toList, select), ("toggle-all".toList, toggleAll), ("sort".toList, sort),
      ("clear".toList, clear), ("join".toList, join), ("split".toList, split),
      ("edit".toList, edit)]
  | _ => []

/-- The options that are taken in every scope. -/
def commonOptions : List OptionSpec :=
  [⟨.verbose, .counted, some 'v', "verbose".toList⟩,
    ⟨.everything, .flag, none, "trace".toList⟩,
    ⟨.topics, .valued, none, "modules".toList⟩,
    ⟨.version, .final, some 'V', "version".toList⟩]

/-- The options that are taken in the scope alone. -/
def ownOptions : Scope → List OptionSpec
  | encode =>
    [⟨.count, .valued, some 'n', "count".toList⟩, ⟨.literal, .flag, none, "literal".toList⟩]
  | normalize => [⟨.asCode, .flag, none, "class".toList⟩]
  | mix => [⟨.store, .filled, some 's', "store".toList⟩]
  | sort => [⟨.ascending, .flag, none, "asc".toList⟩]
  | join => [⟨.separator, .valued, none, "sep".toList⟩]
  | _ => []

/-- All options of the scope. -/
def options (scope : Scope) : List OptionSpec := commonOptions ++ scope.ownOptions

/-- What the operand at a place is, counted from zero. There is none after the last. -/
def operandKind? : Scope → Nat → Option OperandKind
  | encode, 0 => some .mode
  | encode, _ => some .text
  | decode, 0 | normalize, 0 | add, 0 | split, 0 => some .text
  | remove, 0 | up, 0 | down, 0 | edit, 0 => some .index
  | move, 0 | move, 1 => some .index
  | select, 0 => some .index
  | select, 1 => some .switch
  | _, _ => none

/-- The number of operands that must be there. -/
def operandsNeeded : Scope → Nat
  | encode | move | select => 2
  | decode | normalize | add | split | remove | up | down => 1
  | _ => 0

end Scope

end QueryMix.Command
