import QueryMix.Text.Blank

/-!
# `QueryMix.Mix.Ids`: where the ids of new items come from

Ids are taken in turn from an endless sequence. `Ids.ofSeed` is a sequence of identifiers in
the usual form of random ones: 32 hexadecimal digits in five groups, with the digit 4 and a
digit from 8 to b at the two places that say so. The seed and the place in the sequence
together make up the other digits.
-/

set_option autoImplicit false

namespace QueryMix

/-- A sequence of ids, and how many of them are spent. -/
structure Ids where
  name : Nat → Text
  spent : Nat

namespace Ids

/-- The id that is next. -/
def next (ids : Ids) : Text := ids.name ids.spent

/-- The sequence after one id has been taken. -/
def spend (ids : Ids) : Ids := { ids with spent := ids.spent + 1 }

/-- `count` hexadecimal digits of a number, the last of them with `low` digits after it. -/
def hexDigits (n low count : Nat) : Text :=
  (List.range count).reverse.map fun i => Nat.digitChar ((n >>> (4 * (low + i))) % 16)

/-- The identifier for a number below `2 ^ 122`; larger numbers start again from zero. -/
def identifier (n : Nat) : Text :=
  let digits := n / 4
  hexDigits digits 22 8 ++ '-' :: hexDigits digits 18 4 ++ '-' :: '4' :: hexDigits digits 15 3
    ++ '-' :: Nat.digitChar (8 + n % 4) :: hexDigits digits 12 3 ++ '-' :: hexDigits digits 0 12

/-- The identifiers from a seed on. -/
def ofSeed (seed : Nat) : Ids := ⟨fun n => identifier (seed + n), 0⟩

end Ids

end QueryMix
