import QueryMix.Text.Blank

/-!
# `QueryMix.Bracket.Basic`: brackets, nesting and balance

Three kinds of bracket enclose regions of a text: round, curly and square. A `Nesting` is
the list of the regions that are open at a place of the text, innermost first; the place is
at top level when that list is empty.

There are two ways to read a closer that does not fit the innermost region. The tolerant
reading, `Nesting.step`, passes over it, so every text can be scanned to its end. The strict
reading, `isBalanced`, refuses the text.
-/

set_option autoImplicit false

namespace QueryMix

/-- The kinds of bracket. -/
inductive Bracket where
  | round
  | curly
  | square
deriving DecidableEq, Repr

namespace Bracket

/-- The character that opens a region. -/
def opener : Bracket → Char
  | round => '('
  | curly => '{'
  | square => '['

/-- The character that closes a region. -/
def closer : Bracket → Char
  | round => ')'
  | curly => '}'
  | square => ']'

/-- What a character does to the regions around it. -/
inductive Role where
  | opens (b : Bracket)
  | closes (b : Bracket)
  | plain
deriving DecidableEq, Repr

/-- The role of a character: six characters are brackets, all others are plain. -/
def roleOf (c : Char) : Role :=
  if c = '(' then .opens round
  else if c = '{' then .opens curly
  else if c = '[' then .opens square
  else if c = ')' then .closes round
  else if c = '}' then .closes curly
  else if c = ']' then .closes square
  else .plain

/-- The opener of a kind opens a region of that kind. -/
@[simp] theorem roleOf_opener (b : Bracket) : roleOf b.opener = .opens b := by
  cases b <;> decide

/-- Its closer closes such a region. -/
@[simp] theorem roleOf_closer (b : Bracket) : roleOf b.closer = .closes b := by
  cases b <;> decide

/-- Each kind has one opener: no other character opens its regions. -/
theorem roleOf_eq_opens_iff {c : Char} {b : Bracket} : roleOf c = .opens b ↔ c = b.opener := by
  constructor
  · intro h
    -- Of the six tests the first three find an opener, each of them the one of its kind.
    unfold roleOf at h
    split at h
    · cases h; assumption
    split at h
    · cases h; assumption
    split at h
    · cases h; assumption
    repeat' split at h
    all_goals cases h
  · rintro rfl
    exact roleOf_opener b

/-- Each kind has one closer, too. -/
theorem roleOf_eq_closes_iff {c : Char} {b : Bracket} : roleOf c = .closes b ↔ c = b.closer := by
  constructor
  · intro h
    -- Of the six tests the last three find a closer, each of them the one of its kind.
    unfold roleOf at h
    split at h
    · cases h
    split at h
    · cases h
    split at h
    · cases h
    split at h
    · cases h; assumption
    split at h
    · cases h; assumption
    split at h
    · cases h; assumption
    cases h
  · rintro rfl
    exact roleOf_closer b

/-- Is the character one of the six brackets? -/
def isBracket (c : Char) : Bool := roleOf c != .plain

end Bracket

/-- The regions that are open at a place of a text, innermost first. -/
abbrev Nesting := List Bracket

namespace Nesting

open QueryMix.Bracket

/-- The nesting after one more character. A closer that does not fit the innermost region
is passed over. -/
def step (nest : Nesting) (c : Char) : Nesting :=
  match roleOf c with
  | .opens b => b :: nest
  | .closes b => if nest.head? = some b then nest.tail else nest
  | .plain => nest

/-- The nesting after a whole text. -/
def after (nest : Nesting) (t : Text) : Nesting := t.foldl step nest

@[simp] theorem after_nil (nest : Nesting) : after nest [] = nest := rfl

/-- A text is read on from where its first character leads. -/
@[simp] theorem after_cons (nest : Nesting) (c : Char) (t : Text) :
    after nest (c :: t) = after (step nest c) t := rfl

/-- A second text is read on from where the first one leads. -/
theorem after_append (nest : Nesting) (s t : Text) :
    after nest (s ++ t) = after (after nest s) t := List.foldl_append ..

end Nesting

namespace Bracket

/-- Does the text close exactly the regions of `nest` and its own, each by its own kind? -/
def balancedFrom : Nesting → Text → Bool
  | nest, [] => nest.isEmpty
  | nest, c :: rest =>
    match roleOf c with
    | .opens b => balancedFrom (b :: nest) rest
    | .closes b =>
      match nest with
      | [] => false
      | innermost :: outer => innermost == b && balancedFrom outer rest
    | .plain => balancedFrom nest rest

/-- Every opener is closed by a closer of its kind, and no closer is stray. -/
def isBalanced (t : Text) : Bool := balancedFrom [] t

end Bracket

end QueryMix
