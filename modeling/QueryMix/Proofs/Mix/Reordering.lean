import Mathlib.Data.List.InsertIdx
import Mathlib.Logic.Equiv.Basic
import QueryMix.Proofs.Mix.Operations

/-!
# `QueryMix.Proofs.Mix.Reordering`: moves and the orders they lead to

A move takes an item out and puts it in again, and with the item out every later item has
another index than before. `Mix.Moved` says what comes of a move without any of that: the item
from the source stands at the target, and without it the two mixes have the same items in the
same order. Between indices of the mix there is one such move, and otherwise there is none
(`Mix.reorder_eq_ok_iff`). The description reads the same from both ends, so the move back
undoes every move (`Mix.reorder_comm`).

A move by one place lets two neighbours change places, towards the front
(`Mix.moveUp_neighbours`) and towards the back (`Mix.moveDown_neighbours`). Moves towards the
front lead from any order of the items to any other (`Mix.exists_moveUps`): the induction is on
the permutation, and what it leaves alone at the front only shifts the indices of the moves.
-/

set_option autoImplicit false

namespace QueryMix.Mix

variable {m m' : Mix} {source target index : Nat}

/-- What a move comes to: the item from the source stands at the target, and without it the
items are the same and in the same order. -/
structure Moved (m m' : Mix) (source target : Nat) : Prop where
  item : ∃ item, m.items[source]? = some item ∧ m'.items[target]? = some item
  others : m'.items.eraseIdx target = m.items.eraseIdx source

namespace Moved

/-- The move back. -/
theorem symm (h : Moved m m' source target) : Moved m' m target source where
  item := by
    obtain ⟨item, hsource, htarget⟩ := h.item
    exact ⟨item, htarget, hsource⟩
  others := h.others.symm

/-- A move starts at an index of the mix. -/
theorem source_lt (h : Moved m m' source target) : source < m.size := by
  obtain ⟨item, hsource, -⟩ := h.item
  obtain ⟨hlt, -⟩ := List.getElem?_eq_some_iff.mp hsource
  exact hlt

/-- A move leaves the number of items as it is, so the target is an index of the mix too. -/
theorem target_lt (h : Moved m m' source target) : target < m.size := by
  have hsource : source < m.items.length := h.source_lt
  have htarget : target < m'.items.length := h.symm.source_lt
  have hlength := congrArg List.length h.others
  rw [List.length_eraseIdx_of_lt hsource, List.length_eraseIdx_of_lt htarget] at hlength
  show target < m.items.length
  omega

end Moved

/-- Moving an item gives the mix in which it is moved; it is refused if there is none. -/
theorem reorder_eq_ok_iff : m.reorder source target = .ok m' ↔ Moved m m' source target := by
  constructor
  · intro h
    obtain ⟨hlt, hle, hitems⟩ := reorder_eq_ok h
    refine ⟨⟨m.items[source], List.getElem?_eq_getElem hlt, ?_⟩, ?_⟩
    · rw [hitems, List.getElem?_insertIdx_self, if_pos hle]
    · rw [hitems, List.eraseIdx_insertIdx_self]
  · intro h
    obtain ⟨item, hsource, htarget⟩ := h.item
    obtain ⟨hlt, rfl⟩ := List.getElem?_eq_some_iff.mp hsource
    obtain ⟨htlt, hitem⟩ := List.getElem?_eq_some_iff.mp htarget
    have hitems : m'.items = (m.items.eraseIdx source).insertIdx target m.items[source] := by
      rw [← h.others, ← hitem, List.insertIdx_eraseIdx_getElem htlt]
    rw [reorder_of_lt h.source_lt h.target_lt]
    exact congrArg (fun items => Except.ok (Mix.mk items)) hitems.symm

/-- A move is undone by the move back. -/
theorem reorder_comm :
    m.reorder source target = .ok m' ↔ m'.reorder target source = .ok m := by
  rw [reorder_eq_ok_iff, reorder_eq_ok_iff]
  exact ⟨Moved.symm, Moved.symm⟩

/-- An item that is moved to its own place stays there. -/
theorem reorder_self (h : index < m.size) : m.reorder index index = .ok m := by
  have hlt : index < m.items.length := h
  exact reorder_eq_ok_iff.mpr
    ⟨⟨m.items[index], List.getElem?_eq_getElem hlt, List.getElem?_eq_getElem hlt⟩, rfl⟩

/-! ### Moves by one place -/

/-- The items at the two indices have changed places, and all others are where they were. -/
def Exchanged (m m' : Mix) (i j : Nat) : Prop :=
  ∀ k, m'.items[k]? = m.items[Equiv.swap i j k]?

section Neighbours

variable (front back : List Item) (a b : Item)

/-- Two neighbours that change places are exchanged, and nothing else is. -/
theorem exchanged_neighbours :
    Exchanged ⟨front ++ a :: b :: back⟩ ⟨front ++ b :: a :: back⟩ front.length
      (front.length + 1) := by
  intro k
  show (front ++ b :: a :: back)[k]? = (front ++ a :: b :: back)[_]?
  by_cases hfirst : k = front.length
  · rw [hfirst, Equiv.swap_apply_left]
    simp
  by_cases hsecond : k = front.length + 1
  · rw [hsecond, Equiv.swap_apply_right]
    simp
  rw [Equiv.swap_apply_of_ne_of_ne hfirst hsecond]
  by_cases hlt : k < front.length
  · rw [List.getElem?_append_left hlt, List.getElem?_append_left hlt]
  · -- Behind the two neighbours.
    obtain ⟨j, rfl⟩ : ∃ j, k = front.length + (j + 2) := ⟨k - front.length - 2, by omega⟩
    rw [List.getElem?_append_right (Nat.le_add_right _ _),
      List.getElem?_append_right (Nat.le_add_right _ _), Nat.add_sub_cancel_left]
    rfl

/-- A move towards the front exchanges an item with the one before it. -/
theorem moveUp_neighbours :
    moveUp ⟨front ++ a :: b :: back⟩ (front.length + 1) = .ok ⟨front ++ b :: a :: back⟩ := by
  show reorder _ (front.length + 1) front.length = _
  refine reorder_eq_ok_iff.mpr ⟨⟨b, by simp, by simp⟩, ?_⟩
  simp [List.eraseIdx_append_of_length_le]

/-- A move towards the back exchanges an item with the one after it. -/
theorem moveDown_neighbours :
    moveDown ⟨front ++ a :: b :: back⟩ front.length = .ok ⟨front ++ b :: a :: back⟩ := by
  have hnext : front.length + 1 < size ⟨front ++ a :: b :: back⟩ := by simp [size]
  rw [moveDown, if_pos hnext]
  exact reorder_comm.mp (moveUp_neighbours front back b a)

end Neighbours

/-- Two items that stand next to each other, and what stands before and after them. -/
theorem exists_neighbours (h : index + 1 < m.size) :
    ∃ front back a b, m = ⟨front ++ a :: b :: back⟩ ∧ front.length = index := by
  have hlt : index + 1 < m.items.length := h
  have hitems : m.items = m.items.take index ++
      m.items[index] :: m.items[index + 1] :: m.items.drop (index + 1 + 1) := by
    rw [← List.drop_eq_getElem_cons, ← List.drop_eq_getElem_cons, List.take_append_drop]
  refine ⟨_, _, _, _, congrArg Mix.mk hitems, ?_⟩
  rw [List.length_take]
  omega

/-- The first item stays where it is. -/
theorem moveUp_zero (h : 0 < m.size) : m.moveUp 0 = .ok m := reorder_self h

/-- So does the last. -/
theorem moveDown_last (h : index + 1 = m.size) : m.moveDown index = .ok m := by
  rw [moveDown, if_neg (by omega)]
  exact reorder_self (by omega)

/-- Moves towards the front lead to every order of the items behind some that are left alone. -/
theorem exists_moveUps_behind {l l' : List Item} (h : l.Perm l') (front : List Item) :
    ∃ indices : List Nat, indices.foldlM moveUp ⟨front ++ l⟩ = .ok ⟨front ++ l'⟩ := by
  -- Along the permutation; where it leaves an item in front alone, `front` takes the item in.
  induction h generalizing front with
  | nil => exact ⟨[], rfl⟩
  | @cons a l l' _ ih =>
    obtain ⟨indices, h⟩ := ih (front ++ [a])
    rw [List.append_assoc, List.append_assoc] at h
    exact ⟨indices, h⟩
  | swap b a l =>
    refine ⟨[front.length + 1], ?_⟩
    rw [List.foldlM_cons, moveUp_neighbours]
    rfl
  | trans _ _ ih ih' =>
    obtain ⟨indices, h⟩ := ih front
    obtain ⟨indices', h'⟩ := ih' front
    refine ⟨indices ++ indices', ?_⟩
    rw [List.foldlM_append, h]
    exact h'

/-- Moves towards the front lead to every order of the items. -/
theorem exists_moveUps {items : List Item} (h : items.Perm m.items) :
    ∃ indices : List Nat, indices.foldlM moveUp m = .ok ⟨items⟩ :=
  exists_moveUps_behind h.symm []

/-- Moving an item puts it exactly where it was asked to go, leaves the others in their order,
and is undone by the move back. A move by one place exchanges two neighbours, except that the
first item cannot go further to the front nor the last further to the back; and moves towards
the front are enough to bring the items into any order. -/
theorem reorder_exact_and_reversible (m : Mix) :
    (∀ source target, source < m.size → target < m.size →
        ∃ m', m.reorder source target = .ok m' ∧ Moved m m' source target ∧
          m'.reorder target source = .ok m) ∧
      (∀ index, index + 1 < m.size →
        ∃ m', m.moveUp (index + 1) = .ok m' ∧ m.moveDown index = .ok m' ∧
          Exchanged m m' index (index + 1) ∧ m'.moveUp (index + 1) = .ok m) ∧
      (∀ last, last + 1 = m.size → m.moveUp 0 = .ok m ∧ m.moveDown last = .ok m) ∧
      ∀ items : List Item, items.Perm m.items →
        ∃ indices : List Nat, indices.foldlM moveUp m = .ok ⟨items⟩ := by
  refine ⟨?_, ?_, ?_, ?_⟩
  · intro source target hsource htarget
    have h := reorder_of_lt hsource htarget
    exact ⟨_, h, reorder_eq_ok_iff.mp h, reorder_comm.mp h⟩
  · intro index hindex
    obtain ⟨front, back, a, b, rfl, rfl⟩ := exists_neighbours hindex
    exact ⟨⟨front ++ b :: a :: back⟩, moveUp_neighbours front back a b,
      moveDown_neighbours front back a b, exchanged_neighbours front back a b,
      moveUp_neighbours front back b a⟩
  · intro last hlast
    exact ⟨moveUp_zero (by omega), moveDown_last hlast⟩
  · intro items hperm
    exact exists_moveUps hperm

/-- Three formulas, of which the second is not selected. -/
def threeFormulas : Mix :=
  ⟨[⟨['1'], "A/TX".toList, true⟩, ⟨['2'], "B/TX".toList, false⟩, ⟨['3'], "C/TX".toList, true⟩]⟩

/-- The first formula is moved to the end and back again, the last stays where it is, and moves
towards the front turn the three round. -/
theorem reorder_threeFormulas :
    0 < threeFormulas.size ∧ 2 < threeFormulas.size ∧
      (∃ m', threeFormulas.reorder 0 2 = .ok m' ∧
        m'.texts = ["B/TX".toList, "C/TX".toList, "A/TX".toList] ∧
        m'.reorder 2 0 = .ok threeFormulas) ∧
      (∃ m', threeFormulas.moveDown 1 = .ok m' ∧ m'.moveUp 2 = .ok threeFormulas) ∧
      threeFormulas.moveDown 2 = .ok threeFormulas ∧
      threeFormulas.items.reverse.Perm threeFormulas.items ∧
      ∃ indices : List Nat,
        indices.foldlM moveUp threeFormulas = .ok ⟨threeFormulas.items.reverse⟩ := by
  obtain ⟨hmove, hneighbours, hends, horders⟩ := reorder_exact_and_reversible threeFormulas
  have hreverse := List.reverse_perm threeFormulas.items
  refine ⟨by decide, by decide, ?_, ?_, (hends 2 rfl).2, hreverse, horders _ hreverse⟩
  · obtain ⟨m', h, -, hback⟩ := hmove 0 2 (by decide) (by decide)
    refine ⟨m', h, ?_, hback⟩
    cases (show threeFormulas.reorder 0 2 = .ok ⟨[_, _, _]⟩ from rfl).symm.trans h
    rfl
  · obtain ⟨m', -, h, -, hback⟩ := hneighbours 1 (by decide)
    exact ⟨m', h, hback⟩

end QueryMix.Mix
