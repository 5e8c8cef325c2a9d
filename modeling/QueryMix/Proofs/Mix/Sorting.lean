import Mathlib
import QueryMix.Proofs.Mix.Listing
import QueryMix.Proofs.Text.Order

/-!
# `QueryMix.Proofs.Mix.Sorting`: a mix has one sorted form

Sorting compares texts only, by their numbers of characters and then as texts. In a tidy mix no
text occurs twice, so of two items one strictly precedes the other (`Mix.pairwise_sort`), and
there is only one way to put the items in that order (`Mix.sort_eq_of_pairwise`). Whatever was
done to the order of the items before leaves no trace in the sorted mix; a run of requests that
do no more than that keeps all items (`Session.perm_run`).

The two orders are not mirror images: longer and shorter texts change places, but texts of one
length stand in ascending order either way. So the one order is the other with its blocks of
equal length reversed, and not its items (`Mix.sort_ascending_eq`). All this is put together in
`Mix.sort_canonical`.
-/

set_option autoImplicit false

namespace QueryMix

/-- Texts compare as their first characters that differ. -/
theorem Text.compare_eq_lt_iff {s t : Text} : compare s t = .lt ↔ s < t := by
  induction s generalizing t with
  | nil =>
    cases t with
    | nil => simp
    | cons d t => simp
  | cons c s ih =>
    cases t with
    | nil => simp
    | cons d t =>
      rw [List.compare_cons_cons, Ordering.then_eq_lt, compare_lt_iff_lt, compare_eq_iff_eq, ih,
        List.cons_lt_cons_iff]

namespace SortOrder

/-- The text stands before the other: by the number of characters, longest or shortest first,
and among texts of one length in ascending order. -/
def Precedes : SortOrder → Text → Text → Prop
  | descending, s, t => t.length < s.length ∨ s.length = t.length ∧ s < t
  | ascending, s, t => s.length < t.length ∨ s.length = t.length ∧ s < t

instance (order : SortOrder) : Std.TransCmp order.compareTexts :=
  match order with
  | descending => inferInstanceAs (Std.TransCmp Text.longestFirst)
  | ascending => inferInstanceAs (Std.TransCmp (compareLex
      (fun s t : Text => compareOn List.length s t) (compare : Text → Text → Ordering)))

variable {order : SortOrder} {s t : Text}

/-- A text compares as less than another exactly when it stands before it. -/
theorem compareTexts_eq_lt_iff : order.compareTexts s t = .lt ↔ order.Precedes s t := by
  cases order with
  | descending =>
    show Text.longestFirst s t = .lt ↔ _
    rw [Text.longestFirst, Ordering.then_eq_lt, Text.compare_eq_lt_iff, compare_lt_iff_lt,
      compare_eq_iff_eq, eq_comm]
    rfl
  | ascending =>
    show Text.shortestFirst s t = .lt ↔ _
    rw [Text.shortestFirst, Ordering.then_eq_lt, Text.compare_eq_lt_iff, compare_lt_iff_lt,
      compare_eq_iff_eq]
    rfl

/-- Only equal texts compare as equal. -/
theorem eq_of_compareTexts (h : order.compareTexts s t = .eq) : s = t := by
  cases order with
  | descending => exact Text.longestFirst_eq_iff.mp h
  | ascending => exact Std.LawfulEqCmp.eq_of_compare (Ordering.then_eq_eq.mp h).2

/-- No two texts stand each before the other. -/
theorem Precedes.asymm (h : order.Precedes s t) : ¬order.Precedes t s := by
  rw [← compareTexts_eq_lt_iff] at h ⊢
  rw [Std.OrientedCmp.gt_iff_lt.mpr h]
  exact Ordering.noConfusion

end SortOrder

namespace Mix

section Tidy

variable {m : Mix} (h : m.texts.Nodup)

include h

/-- The items of a sorted mix stand in strict order. -/
theorem pairwise_sort (order : SortOrder) :
    (m.sort order).items.Pairwise fun a b => order.Precedes a.text b.text := by
  have hsorted : (m.sort order).items.Pairwise fun a b =>
      (order.compareTexts a.text b.text).isLE = true := by
    refine List.pairwise_mergeSort (fun _ _ _ => Std.TransCmp.isLE_trans) (fun a b => ?_) m.items
    -- Of two texts, one does not come after the other.
    have hswap : order.compareTexts b.text a.text = (order.compareTexts a.text b.text).swap :=
      Std.OrientedCmp.eq_swap
    rw [hswap]
    cases order.compareTexts a.text b.text <;> rfl
  have hdistinct : (m.sort order).items.Pairwise fun a b => a.text ≠ b.text :=
    List.pairwise_map.mp (((m.perm_sort order).map Item.text).nodup_iff.mpr h)
  refine hsorted.imp₂ (fun a b hle hne => ?_) hdistinct
  rw [← SortOrder.compareTexts_eq_lt_iff]
  exact (Ordering.isLE_iff_eq_lt_or_eq_eq.mp hle).resolve_right
    fun heq => hne (SortOrder.eq_of_compareTexts heq)

/-- There is one way to put the items in that order, and sorting finds it. -/
theorem sort_eq_of_pairwise {order : SortOrder} {items : List Item} (hperm : items.Perm m.items)
    (hitems : items.Pairwise fun a b => order.Precedes a.text b.text) :
    (m.sort order).items = items :=
  ((m.perm_sort order).trans hperm.symm).eq_of_pairwise
    (fun _ _ _ _ hab hba => absurd hba hab.asymm) (pairwise_sort h order) hitems

/-- The order in which the items stood before does not matter. -/
theorem sort_eq_of_perm {m' : Mix} (order : SortOrder) (hperm : m'.items.Perm m.items) :
    m'.sort order = m.sort order :=
  congrArg Mix.mk (sort_eq_of_pairwise ((hperm.map Item.text).nodup_iff.mpr h)
    ((m.perm_sort order).trans hperm.symm) (pairwise_sort h order))

end Tidy

/-! ### Blocks of one length -/

/-- The items in runs of one length, each as long as can be, in order. -/
def blocks (m : Mix) : List (List Item) :=
  m.items.splitBy fun a b => a.text.length == b.text.length

/-- One after the other, the blocks are the items. -/
theorem flatten_blocks (m : Mix) : m.blocks.flatten = m.items :=
  List.flatten_splitBy _ _

/-- All texts of the one list are longer than all of the other, and neither list is empty. -/
def Longer (block block' : List Item) : Prop :=
  block ≠ [] ∧ block' ≠ [] ∧ ∀ a ∈ block, ∀ b ∈ block', b.text.length < a.text.length

/-- An item of the list in the middle stands between those of the others. -/
theorem Longer.trans {block₁ block₂ block₃ : List Item} (h : Longer block₁ block₂)
    (h' : Longer block₂ block₃) : Longer block₁ block₃ := by
  obtain ⟨hne₁, hne₂, hlt⟩ := h
  obtain ⟨-, hne₃, hlt'⟩ := h'
  obtain ⟨b, hb⟩ := List.exists_mem_of_ne_nil block₂ hne₂
  exact ⟨hne₁, hne₃, fun a ha c hc => (hlt' b hb c hc).trans (hlt a ha b hb)⟩

instance : Trans Longer Longer Longer := ⟨Longer.trans⟩

/-- The texts of a block have one length. -/
theorem length_eq_of_mem_blocks {m : Mix} {block : List Item} (h : block ∈ m.blocks) :
    ∀ a ∈ block, ∀ b ∈ block, a.text.length = b.text.length := by
  have hpair : block.Pairwise fun a b => a.text.length = b.text.length :=
    ((List.isChain_of_mem_splitBy h).imp fun _ _ heq => beq_iff_eq.mp heq).pairwise
  exact hpair.forall_of_forall_of_flip (fun _ _ => rfl) (hpair.imp Eq.symm)

/-- If no text is longer than one before it, then every text of a later block is shorter. -/
theorem pairwise_longer_blocks {m : Mix}
    (h : m.items.Pairwise fun a b => b.text.length ≤ a.text.length) :
    m.blocks.Pairwise Longer := by
  rw [← m.flatten_blocks, List.pairwise_flatten] at h
  have hmeet := List.isChain_getLast_head_splitBy
    (fun a b : Item => a.text.length == b.text.length) m.items
  refine List.IsChain.pairwise (List.isChain_iff_getElem.mpr fun i hi => ?_)
  -- Two blocks in a row differ where they meet, and each has one length.
  obtain ⟨hne, hne', hdiffer⟩ := hmeet.getElem i hi
  refine ⟨hne, hne', fun a ha b hb => ?_⟩
  have hle : b.text.length ≤ a.text.length :=
    List.pairwise_iff_getElem.mp h.2 i (i + 1) (by omega) hi (by omega) a ha b hb
  have ha' := length_eq_of_mem_blocks (List.getElem_mem (by omega)) a ha _ (List.getLast_mem hne)
  have hb' := length_eq_of_mem_blocks (List.getElem_mem hi) b hb _ (List.head_mem hne')
  rw [← ha', ← hb', beq_eq_false_iff_ne] at hdiffer
  omega

/-- The shortest-first order is the longest-first order with its blocks the other way round, each
of them as it is. -/
theorem sort_ascending_eq {m : Mix} (h : m.texts.Nodup) :
    (m.sort .ascending).items = (m.sort .descending).blocks.reverse.flatten := by
  have hsorted := pairwise_sort h .descending
  have hfall : (m.sort .descending).items.Pairwise fun a b => b.text.length ≤ a.text.length :=
    hsorted.imp fun hab => hab.elim le_of_lt fun heq => heq.1.ge
  refine sort_eq_of_pairwise h ?_ (List.pairwise_flatten.mpr ⟨fun block hblock => ?_, ?_⟩)
  · have hperm : (m.sort .descending).blocks.reverse.flatten.Perm (m.sort .descending).items := by
      rw [← (m.sort .descending).flatten_blocks]
      exact (List.reverse_perm _).flatten
    exact hperm.trans (m.perm_sort .descending)
  · -- Within a block both orders are the order of the texts.
    have hmem := List.mem_reverse.mp hblock
    have hwithin : block.Pairwise fun a b => SortOrder.descending.Precedes a.text b.text := by
      rw [← flatten_blocks, List.pairwise_flatten] at hsorted
      exact hsorted.1 block hmem
    refine hwithin.imp_of_mem fun {a b} ha hb hab => .inr ?_
    have heq := length_eq_of_mem_blocks hmem a ha b hb
    exact ⟨heq, (hab.resolve_left (by omega)).2⟩
  · rw [List.pairwise_reverse]
    exact (pairwise_longer_blocks hfall).imp fun hlonger a ha b hb => .inl (hlonger.2.2 b hb a ha)

end Mix

/-! ### Requests that rearrange -/

/-- The requests that ask for another order of the items and nothing else. -/
def Request.Rearranges : Request → Prop
  | sort _ | reorder _ _ | moveUp _ | moveDown _ => True
  | _ => False

namespace Session

/-- A request of this kind keeps all items, whether it is refused or not. -/
theorem perm_answer (s : Session) {request : Request} (h : request.Rearranges) :
    (s.answer request).2.mix.items.Perm s.mix.items := by
  have moved (source target : Nat) :
      (s.replaceMix (s.mix.reorder source target)).2.mix.items.Perm s.mix.items := by
    cases hmoved : s.mix.reorder source target with
    | ok mix => exact Mix.perm_of_reorder hmoved
    | error e => exact .rfl
  cases request with
  | sort order => exact s.mix.perm_sort order
  | reorder source target => exact moved source target
  | moveUp index => exact moved index (index - 1)
  | moveDown index => exact moved index _
  | _ => exact h.elim

/-- So does any run of them. -/
theorem perm_run (s : Session) {requests : List Request} (h : ∀ r ∈ requests, r.Rearranges) :
    (s.run requests).mix.items.Perm s.mix.items := by
  induction requests generalizing s with
  | nil => exact .rfl
  | cons request rest ih =>
    obtain ⟨hfirst, hrest⟩ := List.forall_mem_cons.mp h
    exact (ih (s.answer request).2 hrest).trans (s.perm_answer hfirst)

end Session

namespace Mix

/-- Requests lead to this mix from a session that was opened with an empty mix or a listing. -/
def Reachable (m : Mix) : Prop :=
  ∃ ids s requests, Session.Opened ids s ∧ (s.run requests).mix = m

/-- Wherever requests lead, the mix is tidy. -/
theorem Reachable.tidy {m : Mix} (h : m.Reachable) : m.Tidy := by
  obtain ⟨ids, s, requests, hopened, rfl⟩ := h
  exact Session.tidy_run hopened requests

/-- Every tidy mix without blank ids can be reached: by opening its listing. -/
theorem reachable_of_tidy {m : Mix} (h : m.Tidy) (hid : m.Identified) : m.Reachable :=
  ⟨Ids.ofSeed 0, ⟨m, Ids.ofSeed 0⟩, [],
    .listing (Session.load_eq_ok_iff.mpr (Listing.read_listing h hid _)), rfl⟩

/-- Sorting brings the items of a mix into an order that depends on nothing but the items: it is
strict, it is the same for every mix that has the same items, and so neither another sort nor any
other rearrangement before makes a difference. The shortest-first order is the longest-first
order with its blocks of equal length the other way round. -/
theorem sort_canonical {m : Mix} (h : m.Reachable) (order : SortOrder) :
    (m.sort order).items.Perm m.items ∧
      ((m.sort order).items.Pairwise fun a b => order.Precedes a.text b.text) ∧
      (∀ m' : Mix, m'.Reachable → m'.items.Perm m.items → m'.sort order = m.sort order) ∧
      (m.sort order).sort order = m.sort order ∧
      (∀ ids requests, (∀ r ∈ requests, r.Rearranges) →
        ((Session.mk m ids).run requests).mix.sort order = m.sort order) ∧
      (m.sort .ascending).items = (m.sort .descending).blocks.reverse.flatten := by
  have hnodup := h.tidy.nodup
  exact ⟨m.perm_sort order, pairwise_sort hnodup order,
    fun _ _ hperm => sort_eq_of_perm hnodup order hperm,
    sort_eq_of_perm hnodup order (m.perm_sort order),
    fun ids _ hrequests => sort_eq_of_perm hnodup order ((Session.mk m ids).perm_run hrequests),
    sort_ascending_eq hnodup⟩

/-- Formulas of three lengths, two of them of one length. -/
def unsorted : Mix :=
  ⟨[⟨['1'], "BB/TX".toList, true⟩, ⟨['2'], "A/TX".toList, false⟩,
    ⟨['3'], "CCC/TX".toList, true⟩, ⟨['4'], "AA/TX".toList, true⟩]⟩

/-- Either way the two stand in the order of the alphabet; also if the items stood the other way
round before, and after moves and another sort. -/
theorem sort_canonical_unsorted :
    unsorted.Reachable ∧
      (unsorted.sort .descending).texts =
        ["CCC/TX".toList, "AA/TX".toList, "BB/TX".toList, "A/TX".toList] ∧
      (unsorted.sort .ascending).texts =
        ["A/TX".toList, "AA/TX".toList, "BB/TX".toList, "CCC/TX".toList] ∧
      (unsorted.sort .ascending).items = (unsorted.sort .descending).blocks.reverse.flatten ∧
      sort ⟨unsorted.items.reverse⟩ .descending = unsorted.sort .descending ∧
      ((Session.mk unsorted (Ids.ofSeed 0)).run
        [.moveUp 3, .sort .ascending, .reorder 0 2]).mix.sort .descending =
          unsorted.sort .descending := by
  have hreachable : unsorted.Reachable :=
    reachable_of_tidy ⟨by decide, by decide, by decide⟩ (by rw [Identified]; decide)
  have hreverse : Reachable ⟨unsorted.items.reverse⟩ :=
    reachable_of_tidy ⟨by decide, by decide, by decide⟩ (by rw [Identified]; decide)
  obtain ⟨-, -, hsame, -, hrun, hmirror⟩ := sort_canonical hreachable .descending
  exact ⟨hreachable, by cbv, by cbv, hmirror, hsame _ hreverse (List.reverse_perm _),
    hrun _ _ (by simp [Request.Rearranges])⟩

end Mix

end QueryMix
