import Mathlib.Data.List.Perm.Subperm
import QueryMix.Mix.Session
import QueryMix.Proofs.Formula.Encode

/-!
# `QueryMix.Proofs.Mix.Operations`: what a request can do to a mix

The view of a mix taken here is the list of its `entries`: the id and the text of every item,
in order, without the selection marks. Almost every request rearranges entries or leaves some
of them out. The others are an addition, which puts one new entry at the end
(`Session.add_cases`), the replacement by an output text, which is a run of additions to an
empty mix, and the loading of a listing. `Session.answer_cases` says so for all requests at
once.

So a property of sessions holds after every run of requests if it survives three things:
rearranging entries or leaving some out, one addition, and the loading of a listing
(`Session.run_induction`). A session is opened with an empty mix or with the mix of a listing;
for the runs from there it must hold of the empty mix (`Session.opened_induction`).
-/

set_option autoImplicit false

namespace QueryMix

open List (Subperm)
open QueryMix.Formula (bind_eq_ok_iff)

/-- The id and the text of an item. -/
def Item.entry (item : Item) : Text × Text := (item.id, item.text)

/-- What is read off items is rearranged and left out with them. -/
theorem subperm_map {α β : Type} (f : α → β) {l l' : List α} (h : Subperm l l') :
    Subperm (l.map f) (l'.map f) := by
  obtain ⟨k, hperm, hsub⟩ := h
  exact ⟨k.map f, hperm.map f, hsub.map f⟩

namespace Mix

/-- The ids and the texts of the items, in order. -/
def entries (m : Mix) : List (Text × Text) := m.items.map Item.entry

/-- The texts can be read off the entries. -/
theorem texts_eq (m : Mix) : m.texts = m.entries.map Prod.snd := by
  rw [texts, entries, List.map_map]
  rfl

/-! ### Operation by operation -/

section Operations

variable {m m' : Mix} {index : Nat}

/-- An item is found exactly at the indices of the list. -/
theorem item_eq_ok_iff {item : Item} :
    m.item index = .ok item ↔ ∃ h : index < m.items.length, m.items[index] = item := by
  rw [← List.getElem?_eq_some_iff, Mix.item]
  cases m.items[index]? with
  | none => simp
  | some found => simp

/-- At an index of the list its item is found. -/
theorem item_of_lt (h : index < m.items.length) : m.item index = .ok m.items[index] :=
  item_eq_ok_iff.mpr ⟨h, rfl⟩

/-- Any other index is refused, with the number of items. -/
theorem item_of_le (h : m.size ≤ index) :
    m.item index = .error (.indexOutOfRange index m.size) := by
  rw [Mix.item, List.getElem?_eq_none h]

/-- Between two indices of the mix a move is carried out. -/
theorem reorder_of_lt {source target : Nat} (hsource : source < m.items.length)
    (htarget : target < m.items.length) :
    m.reorder source target =
      .ok ⟨(m.items.eraseIdx source).insertIdx target m.items[source]⟩ := by
  rw [reorder, item_of_lt hsource, item_of_lt htarget]
  rfl

/-- The item that is moved was at the source. The target is a place of the list while the item
is out, and the item is put in there. -/
theorem reorder_eq_ok {source target : Nat} (h : m.reorder source target = .ok m') :
    ∃ hlt : source < m.items.length, target ≤ (m.items.eraseIdx source).length ∧
      m'.items = (m.items.eraseIdx source).insertIdx target m.items[source] := by
  obtain ⟨moved, hsource, h⟩ := bind_eq_ok_iff.mp h
  obtain ⟨other, htarget, h⟩ := bind_eq_ok_iff.mp h
  cases Except.ok.inj h
  obtain ⟨hlt, rfl⟩ := item_eq_ok_iff.mp hsource
  obtain ⟨htlt, -⟩ := item_eq_ok_iff.mp htarget
  refine ⟨hlt, ?_, rfl⟩
  rw [List.length_eraseIdx_of_lt hlt]
  omega

/-- Moving an item keeps all items. -/
theorem perm_of_reorder {source target : Nat} (h : m.reorder source target = .ok m') :
    m'.items.Perm m.items := by
  obtain ⟨hlt, hle, hitems⟩ := reorder_eq_ok h
  rw [hitems]
  exact (List.perm_insertIdx _ _ hle).trans (List.getElem_cons_eraseIdx_perm hlt)

/-- What is taken out was in the mix, and all other items stay where they are. -/
theorem remove_eq_ok {item : Item} (h : m.remove index = .ok (item, m')) :
    m.item index = .ok item ∧ m'.items = m.items.eraseIdx index := by
  obtain ⟨removed, hitem, h⟩ := bind_eq_ok_iff.mp h
  cases Except.ok.inj h
  exact ⟨hitem, rfl⟩

/-- A mark is no part of an entry. -/
theorem entries_of_select {selected : Bool} (h : m.select index selected = .ok m') :
    m'.entries = m.entries := by
  obtain ⟨marked, hitem, h⟩ := bind_eq_ok_iff.mp h
  cases Except.ok.inj h
  obtain ⟨hlt, rfl⟩ := item_eq_ok_iff.mp hitem
  show (m.items.set index { m.items[index] with selected }).map Item.entry = _
  have hlt' : index < (m.items.map Item.entry).length := by rwa [List.length_map]
  have hentry : Item.entry { m.items[index] with selected } = (m.items.map Item.entry)[index] := by
    rw [List.getElem_map]
    rfl
  rw [List.map_set, hentry, List.set_getElem_self]
  rfl

/-- Selecting all items or none leaves ids and texts as they are. -/
theorem entries_toggleAll (m : Mix) : m.toggleAll.2.entries = m.entries := by
  rw [toggleAll]
  split
  · rfl
  · show (m.items.map fun item => { item with selected := !m.allSelected }).map Item.entry = _
    rw [List.map_map]
    rfl

/-- Sorting keeps all items. -/
theorem perm_sort (m : Mix) (order : SortOrder) : (m.sort order).items.Perm m.items :=
  List.mergeSort_perm _ _

/-- The mix has a text if one of its items has it, blanks around the text left aside. -/
theorem contains_iff {t : Text} : m.contains t = true ↔ Text.trim t ∈ m.texts := by
  rw [contains, List.contains_iff_mem]

/-- Adding a text has three results: nothing for a blank text, nothing for a text that is
there already, and one more item for any other text. -/
theorem add_cases (m : Mix) (id t : Text) :
    (Text.trim t = [] ∧ m.add id t = (.empty, m)) ∨
      (Text.trim t ≠ [] ∧ Text.trim t ∈ m.texts ∧ m.add id t = (.duplicate, m)) ∨
      (Text.trim t ≠ [] ∧ Text.trim t ∉ m.texts ∧
        m.add id t = (.added m.size, ⟨m.items ++ [⟨id, Text.trim t, true⟩]⟩)) := by
  rw [add]
  by_cases hblank : Text.trim t = []
  · exact .inl ⟨hblank, by simp [hblank]⟩
  · refine .inr ?_
    by_cases hmem : Text.trim t ∈ m.texts
    · have hcontains : m.contains (Text.trim t) = true :=
        contains_iff.mpr (by rwa [Text.trim_trim])
      exact .inl ⟨hblank, hmem, by simp [hblank, hcontains]⟩
    · have hcontains : ¬m.contains (Text.trim t) = true := by
        rwa [contains_iff, Text.trim_trim]
      exact .inr ⟨hblank, hmem, by simp [hblank, hcontains]⟩

end Operations

end Mix

namespace Session

/-- In a session an addition uses the next id, and spends it only if the text is added. -/
theorem add_cases (s : Session) (t : Text) :
    (Text.trim t = [] ∧ s.add t = (.empty, s)) ∨
      (Text.trim t ≠ [] ∧ Text.trim t ∈ s.mix.texts ∧ s.add t = (.duplicate, s)) ∨
      (Text.trim t ≠ [] ∧ Text.trim t ∉ s.mix.texts ∧
        s.add t = (.added s.mix.size,
          ⟨⟨s.mix.items ++ [⟨s.ids.next, Text.trim t, true⟩]⟩, s.ids.spend⟩)) := by
  rcases s.mix.add_cases s.ids.next t with ⟨ht, h⟩ | ⟨ht, hmem, h⟩ | ⟨ht, hmem, h⟩
  · exact .inl ⟨ht, by rw [add, h]⟩
  · exact .inr (.inl ⟨ht, hmem, by rw [add, h]⟩)
  · exact .inr (.inr ⟨ht, hmem, by rw [add, h]⟩)

/-- What is loaded is what was read from the listing. -/
theorem load_eq_ok_iff {s s' : Session} {listing : Text} :
    s.load listing = .ok s' ↔ Listing.read s.ids listing = .ok (s'.mix, s'.ids) := by
  rw [load, bind_eq_ok_iff]
  constructor
  · rintro ⟨⟨mix, ids⟩, hread, h⟩
    cases Except.ok.inj h
    exact hread
  · intro h
    exact ⟨_, h, rfl⟩

/-- A mix that is replaced is built from nothing by adding the parts of the output text. -/
theorem replaceAll_eq_ok {s : Session} {output : Text} {replaced : ReplaceReport × Session}
    (h : s.replaceAll output = .ok replaced) :
    replaced = (start s.ids).addAll (outputParts output) := by
  rw [replaceAll] at h
  split at h
  · cases h
  · exact (Except.ok.inj h).symm

/-- The outcome of an addition shows in the report only. -/
theorem addAll_cons (s : Session) (t : Text) (ts : List Text) :
    (s.addAll (t :: ts)).2 = ((s.add t).2.addAll ts).2 := by
  rw [addAll]
  obtain ⟨outcome, next⟩ := s.add t
  cases outcome with
  | added index => rfl
  | duplicate => rfl
  | empty => rfl

/-- A request that is refused leaves the session as it was. -/
theorem answer_of_error {s : Session} {request : Request} {e : MixError}
    (h : (s.answer request).1 = .error e) : (s.answer request).2 = s := by
  -- Where there is no new mix, none is put in place of the old one.
  have replaced (result : Except MixError Mix) (h : (s.replaceMix result).1 = .error e) :
      (s.replaceMix result).2 = s := by
    cases result with
    | error _ => rfl
    | ok _ => cases h
  cases request with
  | remove index =>
    rw [answer] at h ⊢
    cases hremove : s.mix.remove index with
    | error _ => rfl
    | ok removed => rw [hremove] at h; cases h
  | reorder source target => exact replaced _ h
  | moveUp index => exact replaced _ h
  | moveDown index => exact replaced _ h
  | select index selected => exact replaced _ h
  | replaceAll output =>
    rw [answer] at h ⊢
    cases hreplace : s.replaceAll output with
    | error _ => rfl
    | ok replaced => rw [hreplace] at h; cases h
  | load listing =>
    rw [answer] at h ⊢
    cases hload : s.load listing with
    | error _ => rfl
    | ok next => rw [hload] at h; cases h
  | join separator => rfl
  | decodeItem index => rfl
  | decodeSelected => rfl
  | list => rfl
  | add t => cases h
  | toggleAll => cases h
  | sort order => cases h
  | clear => cases h

/-- Almost every request rearranges entries or leaves some out, and spends no id. The others
are an addition, a run of additions to an empty mix, and the loading of a listing. -/
theorem answer_cases (s : Session) (request : Request) :
    (Subperm (s.answer request).2.mix.entries s.mix.entries ∧
        (s.answer request).2.ids = s.ids) ∨
      (∃ t, request = .add t ∧ (s.answer request).2 = (s.add t).2) ∨
      (∃ output, request = .replaceAll output ∧
        (s.answer request).2 = ((start s.ids).addAll (outputParts output)).2) ∨
      ∃ listing, request = .load listing ∧ s.load listing = .ok (s.answer request).2 := by
  have same : Subperm s.mix.entries s.mix.entries := Subperm.refl _
  -- The reply of the requests that give a new mix or are refused.
  have replaced {result : Except MixError Mix}
      (hkept : ∀ m, result = .ok m → Subperm m.entries s.mix.entries) :
      Subperm (s.replaceMix result).2.mix.entries s.mix.entries ∧
        (s.replaceMix result).2.ids = s.ids := by
    cases result with
    | error e => exact ⟨same, rfl⟩
    | ok m => exact ⟨hkept m rfl, rfl⟩
  have moved {source target : Nat} (m : Mix) (h : s.mix.reorder source target = .ok m) :
      Subperm m.entries s.mix.entries :=
    subperm_map Item.entry (Mix.perm_of_reorder h).subperm
  cases request with
  | add t => exact .inr (.inl ⟨t, rfl, rfl⟩)
  | list => exact .inl ⟨same, rfl⟩
  | remove index =>
    refine .inl ?_
    rw [answer]
    cases h : s.mix.remove index with
    | error e => exact ⟨same, rfl⟩
    | ok removed =>
      obtain ⟨item, m⟩ := removed
      obtain ⟨-, hitems⟩ := Mix.remove_eq_ok h
      have hsub : m.items.Sublist s.mix.items := by
        rw [hitems]
        exact List.eraseIdx_sublist _ _
      exact ⟨subperm_map Item.entry hsub.subperm, rfl⟩
  | reorder source target => exact .inl (replaced moved)
  | moveUp index => exact .inl (replaced moved)
  | moveDown index => exact .inl (replaced moved)
  | select index selected =>
    refine .inl (replaced fun m h => ?_)
    rw [Mix.entries_of_select h]
  | toggleAll =>
    refine .inl ⟨?_, rfl⟩
    show Subperm s.mix.toggleAll.2.entries _
    rw [Mix.entries_toggleAll]
  | sort order =>
    exact .inl ⟨subperm_map Item.entry (s.mix.perm_sort order).subperm, rfl⟩
  | clear => exact .inl ⟨List.nil_subperm, rfl⟩
  | join separator => exact .inl ⟨same, rfl⟩
  | replaceAll output =>
    rw [answer]
    cases h : s.replaceAll output with
    | error e => exact .inl ⟨same, rfl⟩
    | ok replaced => exact .inr (.inr (.inl ⟨output, rfl, by rw [replaceAll_eq_ok h]⟩))
  | load listing =>
    rw [answer]
    cases h : s.load listing with
    | error e => exact .inl ⟨same, rfl⟩
    | ok next => exact .inr (.inr (.inr ⟨listing, rfl, h⟩))
  | decodeItem index => exact .inl ⟨same, rfl⟩
  | decodeSelected => exact .inl ⟨same, rfl⟩

/-! ### Runs of requests -/

/-- A run of requests goes on from where its first part leads. -/
theorem run_append (s : Session) (past rest : List Request) :
    s.run (past ++ rest) = (s.run past).run rest := List.foldl_append

/-- A session as it is opened: with an empty mix, or with the mix of a listing that was
accepted. -/
inductive Opened (ids : Ids) : Session → Prop
  | empty : Opened ids (start ids)
  | listing {listing : Text} {s : Session} (h : (start ids).load listing = .ok s) : Opened ids s

section Induction

variable {P : Session → Prop}
  (keep : ∀ s s' : Session, P s → Subperm s'.mix.entries s.mix.entries → s'.ids = s.ids → P s')
  (extend : ∀ (s : Session) (t : Text), P s → Text.trim t ≠ [] → Text.trim t ∉ s.mix.texts →
    P ⟨⟨s.mix.items ++ [⟨s.ids.next, Text.trim t, true⟩]⟩, s.ids.spend⟩)
  (load : ∀ (s s' : Session) (listing : Text), P s → s.load listing = .ok s' → P s')

include extend

/-- What survives an addition that has an effect survives every addition. -/
theorem add_induction {s : Session} (h : P s) (t : Text) : P (s.add t).2 := by
  rcases s.add_cases t with ⟨-, hadd⟩ | ⟨-, -, hadd⟩ | ⟨hne, hnew, hadd⟩
  · rw [hadd]
    exact h
  · rw [hadd]
    exact h
  · rw [hadd]
    exact extend s t h hne hnew

/-- So it survives additions in a row. -/
theorem addAll_induction {s : Session} (h : P s) (ts : List Text) : P (s.addAll ts).2 := by
  induction ts generalizing s with
  | nil => exact h
  | cons t ts ih =>
    rw [addAll_cons]
    exact ih (add_induction extend h t)

include keep load

/-- What survives rearranging entries or leaving some out, an addition, and the loading of a listing
survives every request. -/
theorem answer_induction {s : Session} (h : P s) (request : Request) :
    P (s.answer request).2 := by
  rcases s.answer_cases request with
    ⟨hkept, hids⟩ | ⟨t, -, hadd⟩ | ⟨output, -, hall⟩ | ⟨listing, -, hload⟩
  · exact keep s _ h hkept hids
  · rw [hadd]
    exact add_induction extend h t
  · -- The empty mix is what is left when all entries are left out.
    have hempty : P (start s.ids) := keep s _ h List.nil_subperm rfl
    rw [hall]
    exact addAll_induction extend hempty (outputParts output)
  · exact load s _ listing h hload

/-- A property that survives rearranging entries or leaving some out, an addition, and the
loading of a listing holds after every run of requests. -/
theorem run_induction {s : Session} (h : P s) (requests : List Request) :
    P (s.run requests) := by
  induction requests generalizing s with
  | nil => exact h
  | cons request requests ih => exact ih (answer_induction keep extend load h request)

/-- If it holds of the empty mix too, it holds wherever a session can come to. -/
theorem opened_induction {ids : Ids} (empty : P (start ids)) {s : Session} (h : Opened ids s)
    (requests : List Request) : P (s.run requests) := by
  refine run_induction keep extend load ?_ requests
  cases h with
  | empty => exact empty
  | listing hload => exact load _ _ _ empty hload

end Induction

end Session

end QueryMix
