import QueryMix.Proofs.Mix.Listing

/-!
# `QueryMix.Proofs.Mix.Fresh`: ids that tell items apart

The ids of a mix come from two places: the sequence from which every new item gets the next
one, and the records of a listing. Each request takes some ids from the front of the
sequence, none in most cases, and the mix that it leaves has no ids but these and those that
were there before or came with the listing (`Session.ids_answer`).

The assumption about the sequence is `Session.FreshIds`: the ids that are taken in a run are
different from each other, from those at the start, and from those loaded before. Under it the
items of a session can be told apart by their ids as long as each listing has different ids in
the records that are kept of it. This condition cannot be spared: the repair of a listing looks
for repeated texts and for blank ids, and lets a repeated id pass
(`Session.identified_and_nodup_ids_run_iff`, `Session.not_nodup_ids_repeatedId`).
-/

set_option autoImplicit false

namespace QueryMix

open List (Subperm)

/-- The ids of the items, in order. -/
def Mix.ids (m : Mix) : List Text := m.items.map Item.id

/-- The ids can be read off the entries. -/
theorem Mix.ids_eq (m : Mix) : m.ids = m.entries.map Prod.fst := by
  rw [ids, entries, List.map_map]
  rfl

/-! ### Taking ids from the sequence -/

namespace Ids

/-- The sequence after `count` more ids have been taken. -/
def skip (ids : Ids) (count : Nat) : Ids := { ids with spent := ids.spent + count }

/-- The next `count` ids. -/
def upcoming : Ids → Nat → List Text
  | _, 0 => []
  | ids, count + 1 => ids.next :: upcoming ids.spend count

/-- When no id has been taken, the sequence is as it was. -/
theorem skip_zero (ids : Ids) : ids.skip 0 = ids := rfl

/-- It does not matter whether ids are taken all at once. -/
theorem skip_skip (ids : Ids) (m n : Nat) : (ids.skip m).skip n = ids.skip (m + n) := by
  rw [skip, skip, skip, Nat.add_assoc]

/-- Taking an id and then `n` more is taking `n + 1`. -/
theorem skip_spend (ids : Ids) (n : Nat) : ids.spend.skip n = ids.skip (n + 1) := by
  rw [Nat.add_comm, ← skip_skip]
  rfl

/-- The next ids are the first of them and those that come up after these. -/
theorem upcoming_add (ids : Ids) (m n : Nat) :
    ids.upcoming (m + n) = ids.upcoming m ++ (ids.skip m).upcoming n := by
  induction m generalizing ids with
  | zero => rw [Nat.zero_add, skip_zero, upcoming, List.nil_append]
  | succ m ih => rw [Nat.succ_add, upcoming, ih, skip_spend, upcoming, List.cons_append]

end Ids

namespace Listing

/-- The ids that are not blank of the records that are kept of a listing. -/
def keptIds (listing : Text) : List Text :=
  match records? listing with
  | some records => ((keepFirst [] records).map Item.id).filter fun id => !Text.allBlank id
  | none => []

/-- The ids that are not blank stay, and each of the others is replaced by the next id of the
sequence. -/
theorem ids_identify (ids : Ids) (items : List Item) :
    ∃ count, (identify ids items).2 = ids.skip count ∧
      ((identify ids items).1.map Item.id).Perm
        ((items.map Item.id).filter (fun id => !Text.allBlank id) ++ ids.upcoming count) := by
  induction items generalizing ids with
  | nil => exact ⟨0, rfl, .refl _⟩
  | cons item rest ih =>
    rw [identify]
    split
    · next hblank =>
      -- The id that is given here is the first of those that are taken.
      obtain ⟨count, hlast, hperm⟩ := ih ids.spend
      refine ⟨count + 1, ?_, ?_⟩
      · rw [← Ids.skip_spend]
        exact hlast
      · rw [List.map_cons, List.map_cons, List.filter_cons_of_neg (by simp [hblank]),
          Ids.upcoming]
        exact (hperm.cons _).trans List.perm_middle.symm
    · next hid =>
      obtain ⟨count, hlast, hperm⟩ := ih ids
      refine ⟨count, hlast, ?_⟩
      rw [List.map_cons, List.map_cons, List.filter_cons_of_pos (by simpa using hid)]
      exact hperm.cons _

end Listing

namespace Session

/-! ### One request -/

/-- An addition takes an id for the item that it adds, if it adds one. -/
theorem ids_add (s : Session) (t : Text) :
    ∃ count, (s.add t).2.ids = s.ids.skip count ∧
      (s.add t).2.mix.ids = s.mix.ids ++ s.ids.upcoming count := by
  rcases s.add_cases t with ⟨-, hadd⟩ | ⟨-, -, hadd⟩ | ⟨-, -, hadd⟩
  · rw [hadd]
    exact ⟨0, rfl, (List.append_nil _).symm⟩
  · rw [hadd]
    exact ⟨0, rfl, (List.append_nil _).symm⟩
  · rw [hadd]
    exact ⟨1, rfl, by simp [Mix.ids, Ids.upcoming]⟩

/-- Additions in a row take an id for each item that they add. -/
theorem ids_addAll (s : Session) (ts : List Text) :
    ∃ count, (s.addAll ts).2.ids = s.ids.skip count ∧
      (s.addAll ts).2.mix.ids = s.mix.ids ++ s.ids.upcoming count := by
  induction ts generalizing s with
  | nil => exact ⟨0, rfl, (List.append_nil _).symm⟩
  | cons t ts ih =>
    obtain ⟨first, hids, hmix⟩ := s.ids_add t
    obtain ⟨others, hids', hmix'⟩ := ih (s.add t).2
    refine ⟨first + others, ?_, ?_⟩
    · rw [addAll_cons, hids', hids, Ids.skip_skip]
    · rw [addAll_cons, hmix', hmix, hids, Ids.upcoming_add, List.append_assoc]

/-- A listing comes with ids of its own, and takes ids from the sequence for the blank ones. -/
theorem ids_load {s s' : Session} {listing : Text} (h : s.load listing = .ok s') :
    ∃ count, s'.ids = s.ids.skip count ∧
      s'.mix.ids.Perm (Listing.keptIds listing ++ s.ids.upcoming count) := by
  obtain ⟨records, hrecords, hrepair⟩ := Listing.read_eq_ok_iff.mp (load_eq_ok_iff.mp h)
  obtain ⟨hmix, hids⟩ := Prod.mk.inj hrepair
  rw [Listing.keptIds, hrecords, ← hmix, ← hids]
  exact Listing.ids_identify s.ids _

/-- A request takes some ids from the sequence. The ids of the mix after it are these and ids
that were there before, or, if a listing was loaded, these and the ones that came with it. -/
theorem ids_answer (s : Session) (request : Request) :
    ∃ count, (s.answer request).2.ids = s.ids.skip count ∧
      (Subperm (s.answer request).2.mix.ids (s.mix.ids ++ s.ids.upcoming count) ∨
        ∃ listing, request = .load listing ∧
          (s.answer request).2.mix.ids.Perm
            (Listing.keptIds listing ++ s.ids.upcoming count)) := by
  rcases s.answer_cases request with
    ⟨hkept, hids⟩ | ⟨t, -, hadd⟩ | ⟨output, -, hall⟩ | ⟨listing, hrequest, hload⟩
  · refine ⟨0, hids, .inl ?_⟩
    rw [Ids.upcoming, List.append_nil, Mix.ids_eq, Mix.ids_eq]
    exact subperm_map Prod.fst hkept
  · obtain ⟨count, hids, hmix⟩ := s.ids_add t
    rw [hadd]
    exact ⟨count, hids, .inl (by rw [hmix])⟩
  · -- A replacement begins with an empty mix, so all ids of the new one are taken for it.
    obtain ⟨count, hids, hmix⟩ := (start s.ids).ids_addAll (outputParts output)
    rw [hall]
    exact ⟨count, hids, .inl (by rw [hmix]; exact (List.sublist_append_right _ _).subperm)⟩
  · obtain ⟨count, hids, hmix⟩ := ids_load hload
    exact ⟨count, hids, .inr ⟨listing, hrequest, hmix⟩⟩

/-! ### Runs of requests -/

/-- A run of requests goes forward in the sequence of ids. -/
theorem ids_run (s : Session) (requests : List Request) :
    ∃ count, (s.run requests).ids = s.ids.skip count := by
  induction requests generalizing s with
  | nil => exact ⟨0, rfl⟩
  | cons request rest ih =>
    obtain ⟨first, hids, -⟩ := s.ids_answer request
    obtain ⟨others, hids'⟩ := ih (s.answer request).2
    rw [hids, Ids.skip_skip] at hids'
    exact ⟨first + others, hids'⟩

/-- The ids that are taken from the sequence in a run of requests. -/
def idsTaken (s : Session) (requests : List Request) : List Text :=
  s.ids.upcoming ((s.run requests).ids.spent - s.ids.spent)

/-- The ids that a run takes are as many as the sequence has gone forward. -/
theorem idsTaken_of_skip {s : Session} {requests : List Request} {count : Nat}
    (h : (s.run requests).ids = s.ids.skip count) :
    s.idsTaken requests = s.ids.upcoming count := by
  rw [idsTaken, h, Ids.skip, Nat.add_sub_cancel_left]

/-- The first requests take the first of them. -/
theorem idsTaken_append (s : Session) (past rest : List Request) :
    s.idsTaken (past ++ rest) = s.idsTaken past ++ (s.run past).idsTaken rest := by
  obtain ⟨first, hpast⟩ := s.ids_run past
  obtain ⟨others, hrest⟩ := (s.run past).ids_run rest
  have hall : (s.run (past ++ rest)).ids = s.ids.skip (first + others) := by
    rw [run_append, hrest, hpast, Ids.skip_skip]
  rw [idsTaken_of_skip hall, idsTaken_of_skip hpast, idsTaken_of_skip hrest, hpast,
    Ids.upcoming_add]

/-- A run takes the ids that its first request takes, then those of the rest. -/
theorem idsTaken_cons {s : Session} {request : Request} {count : Nat}
    (h : (s.answer request).2.ids = s.ids.skip count) (rest : List Request) :
    s.idsTaken (request :: rest) =
      s.ids.upcoming count ++ (s.answer request).2.idsTaken rest := by
  have hfirst : s.idsTaken [request] = s.ids.upcoming count := idsTaken_of_skip h
  rw [← hfirst]
  exact s.idsTaken_append [request] rest

/-- Every id that is taken from the sequence in a run is new: the ids that are taken are
different from each other (`nodup`), from those of the items at the start (`unused`), and from
those that came with a listing that was loaded before (`unloaded`). -/
structure FreshIds (s : Session) (requests : List Request) : Prop where
  nodup : (s.idsTaken requests).Nodup
  unused : ∀ id ∈ s.idsTaken requests, id ∉ s.mix.ids
  unloaded : ∀ past listing rest, requests = past ++ .load listing :: rest →
    ∀ id ∈ (s.run past).idsTaken (.load listing :: rest), id ∉ Listing.keptIds listing

namespace FreshIds

variable {s : Session}

/-- It is enough that no id that is taken comes with any of the listings. -/
theorem of_unloaded {requests : List Request} (hnodup : (s.idsTaken requests).Nodup)
    (hunused : ∀ id ∈ s.idsTaken requests, id ∉ s.mix.ids)
    (hunloaded : ∀ listing, .load listing ∈ requests →
      ∀ id ∈ s.idsTaken requests, id ∉ Listing.keptIds listing) : s.FreshIds requests := by
  refine ⟨hnodup, hunused, fun past listing rest hrequests id hid => ?_⟩
  subst hrequests
  refine hunloaded listing (by simp) id ?_
  rw [idsTaken_append]
  exact List.mem_append_right _ hid

/-- What is fresh for a run is fresh for what is left of it after the first request. -/
theorem tail {request : Request} {rest : List Request} (h : s.FreshIds (request :: rest)) :
    (s.answer request).2.FreshIds rest := by
  obtain ⟨count, hids, hmix⟩ := s.ids_answer request
  have htaken := idsTaken_cons hids rest
  obtain ⟨-, hnodup, hdisjoint⟩ := List.nodup_append.mp (htaken ▸ h.nodup)
  have hlater : ∀ id ∈ (s.answer request).2.idsTaken rest, id ∈ s.idsTaken (request :: rest) :=
    fun id hid => htaken ▸ List.mem_append_right _ hid
  have hnew : ∀ id ∈ (s.answer request).2.idsTaken rest, id ∉ s.ids.upcoming count :=
    fun id hid hmem => hdisjoint id hmem id hid rfl
  -- An id of the mix after the request was there before, came with a listing, or was just taken;
  -- an id that is taken later is none of these.
  refine ⟨hnodup, fun id hid hmem => ?_, fun past listing later hrest => ?_⟩
  · rcases hmix with hsub | ⟨listing, rfl, hperm⟩
    · rcases List.mem_append.mp (hsub.subset hmem) with hold | hnext
      · exact h.unused id (hlater id hid) hold
      · exact hnew id hid hnext
    · rcases List.mem_append.mp (hperm.subset hmem) with hkept | hnext
      · exact h.unloaded [] listing rest rfl id (hlater id hid) hkept
      · exact hnew id hid hnext
  · exact h.unloaded (request :: past) listing later (by rw [hrest, List.cons_append])

/-- What is fresh for a run is fresh for what is left of it after some of the requests. -/
theorem run {past rest : List Request} (h : s.FreshIds (past ++ rest)) :
    (s.run past).FreshIds rest := by
  induction past generalizing s with
  | nil => exact h
  | cons request past ih => exact ih h.tail

/-- What is fresh for a run is fresh for the first part of it. -/
theorem initial {past rest : List Request} (h : s.FreshIds (past ++ rest)) :
    s.FreshIds past := by
  have htaken := s.idsTaken_append past rest
  refine ⟨(List.nodup_append.mp (htaken ▸ h.nodup)).1, fun id hid => ?_, ?_⟩
  · exact h.unused id (htaken ▸ List.mem_append_left _ hid)
  · intro before listing after hpast id hid
    refine h.unloaded before listing (after ++ rest) ?_ id ?_
    · rw [hpast, List.append_assoc, List.cons_append]
    · rw [← List.cons_append, idsTaken_append]
      exact List.mem_append_left _ hid

/-- A request leaves different ids in the mix if there were different ones before, unless it
loads a listing with a repeated one. -/
theorem nodup_ids_answer {request : Request} {rest : List Request}
    (h : s.FreshIds (request :: rest)) (hnodup : s.mix.ids.Nodup)
    (hloaded : ∀ listing, request = .load listing → (Listing.keptIds listing).Nodup) :
    (s.answer request).2.mix.ids.Nodup := by
  obtain ⟨count, hids, hmix⟩ := s.ids_answer request
  have htaken := idsTaken_cons hids rest
  have hnext : ∀ id ∈ s.ids.upcoming count, id ∈ s.idsTaken (request :: rest) :=
    fun id hid => htaken ▸ List.mem_append_left _ hid
  have hupcoming : (s.ids.upcoming count).Nodup := (List.nodup_append.mp (htaken ▸ h.nodup)).1
  -- The ids that are taken are new both to the mix before and to a listing that is loaded.
  rcases hmix with hsub | ⟨listing, rfl, hperm⟩
  · obtain ⟨kept, hkept, hsublist⟩ := hsub
    refine hkept.nodup_iff.mp (List.Nodup.sublist hsublist ?_)
    exact List.nodup_append.mpr ⟨hnodup, hupcoming, fun id hid id' hid' heq =>
      h.unused id' (hnext id' hid') (heq ▸ hid)⟩
  · refine hperm.nodup_iff.mpr (List.nodup_append.mpr ⟨hloaded listing rfl, hupcoming, ?_⟩)
    exact fun id hid id' hid' heq =>
      h.unloaded [] listing rest rfl id' (hnext id' hid') (heq ▸ hid)

/-- So a run leaves different ids in the mix if there were different ones at the start, unless it
loads a listing with a repeated one. -/
theorem nodup_ids_run {requests : List Request} (h : s.FreshIds requests)
    (hnodup : s.mix.ids.Nodup)
    (hloaded : ∀ listing, .load listing ∈ requests → (Listing.keptIds listing).Nodup) :
    (s.run requests).mix.ids.Nodup := by
  induction requests generalizing s with
  | nil => exact hnodup
  | cons request rest ih =>
    have hfirst := h.nodup_ids_answer hnodup fun listing hrequest =>
      hloaded listing (hrequest ▸ List.mem_cons_self)
    exact ih h.tail hfirst fun listing hlisting => hloaded listing (List.mem_cons_of_mem _ hlisting)

end FreshIds

/-- Wherever requests lead from an empty mix, with ids that are neither blank nor taken already,
no item has a blank id. The items can be told apart by their ids at all times exactly when each
listing that is loaded has different ids in the records that are kept of it, the blank ones
left aside. -/
theorem identified_and_nodup_ids_run_iff {ids : Ids} (hids : ids.Visible)
    {requests : List Request} (hfresh : (start ids).FreshIds requests) :
    (∀ past, past <+: requests → ((start ids).run past).mix.Identified) ∧
      ((∀ past, past <+: requests → ((start ids).run past).mix.ids.Nodup) ↔
        ∀ listing, .load listing ∈ requests → (Listing.keptIds listing).Nodup) := by
  refine ⟨fun past _ => identified_run hids .empty past, fun h listing hlisting => ?_, ?_⟩
  · -- The mix right after the listing was loaded has the ids that came with it.
    obtain ⟨past, rest, rfl⟩ := List.append_of_mem hlisting
    have hafter := h (past ++ [.load listing]) ⟨rest, by simp⟩
    rw [run_append] at hafter
    cases hrecords : Listing.records? listing with
    | none =>
      rw [Listing.keptIds, hrecords]
      exact List.nodup_nil
    | some records =>
      obtain ⟨next, hload⟩ : ∃ next, ((start ids).run past).load listing = .ok next :=
        ⟨⟨_, _⟩, load_eq_ok_iff.mpr (Listing.read_eq_ok_iff.mpr ⟨records, hrecords, rfl⟩)⟩
      have hnext : (((start ids).run past).run [.load listing]) = next := by
        show (((start ids).run past).answer (.load listing)).2 = next
        rw [answer, hload]
      rw [hnext] at hafter
      obtain ⟨count, -, hperm⟩ := ids_load hload
      exact (List.nodup_append.mp (hperm.nodup_iff.mp hafter)).1
  · rintro h past ⟨rest, rfl⟩
    exact hfresh.initial.nodup_ids_run List.nodup_nil fun listing hlisting =>
      h listing (List.mem_append_left _ hlisting)

/-- Two records with one id and different texts. -/
def repeatedId : Text := "[[\"x\", \"A/TX\", true], [\"x\", \"B/TX\", true]]".toList

/-- Both are kept with the id that they have, and no new id is taken that could be to blame. -/
theorem not_nodup_ids_repeatedId :
    (Ids.ofSeed 0).Visible ∧ (start (Ids.ofSeed 0)).FreshIds [.load repeatedId] ∧
      ((start (Ids.ofSeed 0)).run [.load repeatedId]).mix.texts =
        ["A/TX".toList, "B/TX".toList] ∧
      ¬((start (Ids.ofSeed 0)).run [.load repeatedId]).mix.ids.Nodup := by
  have hload : (start (Ids.ofSeed 0)).load repeatedId = .ok
      ⟨⟨[⟨['x'], "A/TX".toList, true⟩, ⟨['x'], "B/TX".toList, true⟩]⟩, Ids.ofSeed 0⟩ := by cbv
  have hrun : (start (Ids.ofSeed 0)).run [.load repeatedId] =
      ⟨⟨[⟨['x'], "A/TX".toList, true⟩, ⟨['x'], "B/TX".toList, true⟩]⟩, Ids.ofSeed 0⟩ := by
    rw [run, List.foldl_cons, answer, hload]
    rfl
  have htaken : (start (Ids.ofSeed 0)).idsTaken [.load repeatedId] = [] := by
    rw [idsTaken, hrun]
    rfl
  have hfresh : (start (Ids.ofSeed 0)).FreshIds [.load repeatedId] :=
    .of_unloaded (by simp [htaken]) (by simp [htaken]) (by simp [htaken])
  rw [hrun]
  exact ⟨Ids.visible_ofSeed 0, hfresh, rfl, by decide⟩

/-- A record that has an id and one that has a blank one. -/
def blankId : Text := "[[\"7\", \"A/TX\", false], [\" \", \"B/TX\", true]]".toList

/-- The second gets an id of its own, and so does a formula that is added. -/
theorem nodup_ids_blankId :
    (∀ past, past <+: [.load blankId, .add "C/TX".toList, .moveUp 2, .remove 0] →
      ((start (Ids.ofSeed 0)).run past).mix.Identified) ∧
    ∀ past, past <+: [.load blankId, .add "C/TX".toList, .moveUp 2, .remove 0] →
      ((start (Ids.ofSeed 0)).run past).mix.ids.Nodup := by
  have hkept : Listing.keptIds blankId = [['7']] := by cbv
  have hload : (start (Ids.ofSeed 0)).load blankId =
      .ok ⟨⟨[⟨['7'], "A/TX".toList, false⟩, ⟨Ids.identifier 0, "B/TX".toList, true⟩]⟩,
        (Ids.ofSeed 0).spend⟩ := by cbv
  have hspent : ((start (Ids.ofSeed 0)).run
      [.load blankId, .add "C/TX".toList, .moveUp 2, .remove 0]).ids = (Ids.ofSeed 0).skip 2 := by
    rw [run, List.foldl_cons, answer, hload]
    rfl
  have htaken : (start (Ids.ofSeed 0)).idsTaken
      [.load blankId, .add "C/TX".toList, .moveUp 2, .remove 0] =
        [Ids.identifier 0, Ids.identifier 1] := idsTaken_of_skip hspent
  have hfresh : (start (Ids.ofSeed 0)).FreshIds
      [.load blankId, .add "C/TX".toList, .moveUp 2, .remove 0] := by
    refine .of_unloaded ?_ (fun _ _ => List.not_mem_nil) fun listing hlisting => ?_
    · rw [htaken]
      decide
    · obtain rfl : listing = blankId := by simpa using hlisting
      rw [htaken, hkept]
      decide
  obtain ⟨hidentified, hiff⟩ := identified_and_nodup_ids_run_iff (Ids.visible_ofSeed 0) hfresh
  refine ⟨hidentified, hiff.mpr fun listing hlisting => ?_⟩
  obtain rfl : listing = blankId := by simpa using hlisting
  rw [hkept]
  decide

end Session

end QueryMix
