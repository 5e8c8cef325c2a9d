import Mathlib.Data.List.Induction
import Mathlib.Data.List.Nodup
import QueryMix.Proofs.Mix.Fresh

/-!
# `QueryMix.Proofs.Mix.Conservation`: items are kept, and never changed in place

What becomes of the items is said request by request (`Request.Conserves`). Requests that
move items or sort them rearrange whole items. Marking keeps the sequence of entries. An
addition puts one new item behind all others, a removal takes out the item that it replies
with, and the two requests that begin anew keep nothing. A request that is refused, and one
that only asks, changes nothing at all. New items have ids that no item has had before
(`Session.conserves_answer`, `Session.FreshIds.conserves_run`). So there are only four things
that a request other than loading does to the entries (`Request.Conserves.entries_cases`).

Two facts about whole runs follow from these steps alone. An entry that is met later was there
before or has an id that was never met, so no id is ever attached to two texts. An entry stays
until a reply says that it is taken out. With different ids at the start it is there exactly
once (`Session.conserves_and_count_entries_run`).
-/

set_option autoImplicit false

namespace QueryMix

/-- The reply says that an entry was taken out: its item was removed, or all items were. -/
def Reply.TakesOut (entry : Text × Text) : Reply → Prop
  | .removed item => item.entry = entry
  | .cleared _ => True
  | .replaced _ => True
  | _ => False

namespace Request

/-- What a request and the reply to it say of the items `before` and `after`. An id is `Seen`
if some item has had it before. -/
def Conserves (Seen : Text → Prop) (before after : Mix) : Request → Except MixError Reply → Prop
  | .reorder _ _, .ok _ => after.items.Perm before.items
  | .moveUp _, .ok _ => after.items.Perm before.items
  | .moveDown _, .ok _ => after.items.Perm before.items
  | .sort _, .ok _ => after.items.Perm before.items
  | .select _ _, .ok _ => after.entries = before.entries
  | .toggleAll, .ok _ => after.entries = before.entries
  | .add t, .ok (.added (.added _)) =>
    ∃ id, ¬Seen id ∧ after.items = before.items ++ [⟨id, Text.trim t, true⟩]
  | .remove index, .ok (.removed item) =>
    before.items[index]? = some item ∧ after.items = before.items.eraseIdx index
  | .clear, .ok (.cleared _) => after.items = []
  | .replaceAll _, .ok (.replaced _) => ∀ item ∈ after.items, ¬Seen item.id
  | .load _, .ok _ => True
  | _, _ => after = before

variable {Seen : Text → Prop} {before after : Mix}

/-- A request that is refused changes nothing. -/
theorem conserves_error (request : Request) (e : MixError) :
    request.Conserves Seen before before (.error e) := by
  cases request with
  | _ => rfl

namespace Conserves

variable {request : Request} {reply : Except MixError Reply} {entry : Text × Text}

/-- What a request other than loading does to the entries is one of four things: it rearranges them,
it puts one with a new id behind them, it takes out the item that it replies with, or it takes out
all of them and puts entries with new ids in their place, if any. -/
theorem entries_cases (h : request.Conserves Seen before after reply)
    (hload : ∀ listing, request ≠ .load listing) :
    after.entries.Perm before.entries ∨
      (∃ added : Text × Text, ¬Seen added.1 ∧ after.entries = before.entries ++ [added]) ∨
      (∃ index item, reply = .ok (.removed item) ∧ before.items[index]? = some item ∧
        after.items = before.items.eraseIdx index) ∨
      ∃ r : Reply, reply = .ok r ∧ (∀ entry, r.TakesOut entry) ∧
        ∀ entry ∈ after.entries, ¬Seen entry.1 := by
  have unchanged (h : after = before) : after.entries.Perm before.entries := h ▸ .rfl
  have marked (h : after.entries = before.entries) : after.entries.Perm before.entries := h ▸ .rfl
  cases reply with
  | error e =>
    cases request with
    | _ => exact .inl (unchanged h)
  | ok r =>
    cases request with
    | reorder source target => exact .inl (List.Perm.map Item.entry h)
    | moveUp index => exact .inl (List.Perm.map Item.entry h)
    | moveDown index => exact .inl (List.Perm.map Item.entry h)
    | sort order => exact .inl (List.Perm.map Item.entry h)
    | select index selected => exact .inl (marked h)
    | toggleAll => exact .inl (marked h)
    | add t =>
      cases r with
      | added outcome =>
        cases outcome with
        | added index =>
          obtain ⟨id, hnew, hitems⟩ := h
          refine .inr (.inl ⟨(id, Text.trim t), hnew, ?_⟩)
          rw [Mix.entries, hitems, List.map_append]
          rfl
        | _ => exact .inl (unchanged h)
      | _ => exact .inl (unchanged h)
    | remove index =>
      cases r with
      | removed item => exact .inr (.inr (.inl ⟨index, item, rfl, h.1, h.2⟩))
      | _ => exact .inl (unchanged h)
    | clear =>
      cases r with
      | cleared count =>
        have hnone : after.entries = [] := congrArg (List.map Item.entry) h
        exact .inr (.inr (.inr ⟨.cleared count, rfl, fun _ => trivial, by simp [hnone]⟩))
      | _ => exact .inl (unchanged h)
    | replaceAll output =>
      cases r with
      | replaced report =>
        refine .inr (.inr (.inr ⟨.replaced report, rfl, fun _ => trivial, fun entry hentry => ?_⟩))
        obtain ⟨item, hitem, rfl⟩ := List.mem_map.mp hentry
        exact h item hitem
      | _ => exact .inl (unchanged h)
    | load listing => exact absurd rfl (hload listing)
    | _ =>
      -- The other requests only ask.
      exact .inl (unchanged h)

/-- An entry stays unless the reply says that it was taken out. -/
theorem mem_entries (h : request.Conserves Seen before after reply)
    (hload : ∀ listing, request ≠ .load listing)
    (hkept : ∀ r, reply = .ok r → ¬r.TakesOut entry) (hentry : entry ∈ before.entries) :
    entry ∈ after.entries := by
  rcases h.entries_cases hload with
    hperm | ⟨added, -, hentries⟩ | ⟨index, removed, rfl, hremoved, hitems⟩ | ⟨r, rfl, htaken, -⟩
  · exact hperm.mem_iff.mpr hentry
  · rw [hentries]
    exact List.mem_append_left _ hentry
  · -- The item with the entry is at another index than the one that was removed.
    obtain ⟨item, hitem, rfl⟩ := List.mem_map.mp hentry
    obtain ⟨i, hi⟩ := List.mem_iff_getElem?.mp hitem
    rw [Mix.entries, hitems]
    refine List.mem_map_of_mem (List.mem_eraseIdx_iff_getElem?.mpr ⟨i, ?_, hi⟩)
    rintro rfl
    cases hremoved.symm.trans hi
    exact hkept _ rfl rfl
  · exact absurd (htaken entry) (hkept r rfl)

/-- An entry was there before, or its id has never been met. -/
theorem of_mem_entries (h : request.Conserves Seen before after reply)
    (hload : ∀ listing, request ≠ .load listing) (hentry : entry ∈ after.entries) :
    entry ∈ before.entries ∨ ¬Seen entry.1 := by
  rcases h.entries_cases hload with
    hperm | ⟨added, hnew, hentries⟩ | ⟨index, removed, -, -, hitems⟩ | ⟨r, -, -, hfresh⟩
  · exact .inl (hperm.mem_iff.mp hentry)
  · rw [hentries] at hentry
    rcases List.mem_append.mp hentry with hold | hlast
    · exact .inl hold
    · rw [List.mem_singleton.mp hlast]
      exact .inr hnew
  · rw [Mix.entries, hitems] at hentry
    exact .inl (((List.eraseIdx_sublist _ _).map Item.entry).subset hentry)
  · exact .inr (hfresh entry hentry)

end Conserves

end Request

namespace Session

/-! ### One request -/

/-- Every request does to the items what is said of it, if the ids that it takes are new. -/
theorem conserves_answer (s : Session) (request : Request) {Seen : Text → Prop}
    (hnew : ∀ id ∈ s.idsTaken [request], ¬Seen id) :
    request.Conserves Seen s.mix (s.answer request).2.mix (s.answer request).1 := by
  -- The reply of the requests that give a new mix or are refused.
  have replaced {request : Request} {result : Except MixError Mix}
      (hresult : ∀ m, result = .ok m → request.Conserves Seen s.mix m (.ok .done)) :
      request.Conserves Seen s.mix (s.replaceMix result).2.mix (s.replaceMix result).1 := by
    cases result with
    | error e => exact request.conserves_error e
    | ok m => exact hresult m rfl
  cases request with
  | add t =>
    rcases s.add_cases t with ⟨-, hadd⟩ | ⟨-, -, hadd⟩ | ⟨-, -, hadd⟩
    · rw [answer, hadd]
      rfl
    · rw [answer, hadd]
      rfl
    · have htaken : s.idsTaken [.add t] = s.ids.upcoming 1 := by
        refine idsTaken_of_skip ?_
        show (s.add t).2.ids = s.ids.skip 1
        rw [hadd]
        rfl
      rw [answer, hadd]
      exact ⟨s.ids.next, hnew _ (htaken ▸ List.mem_singleton_self _), rfl⟩
  | list => rfl
  | remove index =>
    rw [answer]
    cases h : s.mix.remove index with
    | error e => rfl
    | ok removed =>
      obtain ⟨hitem, hitems⟩ := Mix.remove_eq_ok h
      obtain ⟨hlt, hget⟩ := Mix.item_eq_ok_iff.mp hitem
      exact ⟨List.getElem?_eq_some_iff.mpr ⟨hlt, hget⟩, hitems⟩
  | reorder source target => exact replaced fun m h => Mix.perm_of_reorder h
  | moveUp index => exact replaced fun m h => Mix.perm_of_reorder h
  | moveDown index => exact replaced fun m h => Mix.perm_of_reorder h
  | select index selected => exact replaced fun m h => Mix.entries_of_select h
  | toggleAll => exact Mix.entries_toggleAll s.mix
  | sort order => exact s.mix.perm_sort order
  | clear => rfl
  | join separator => rfl
  | replaceAll output =>
    obtain ⟨count, hids, hmix⟩ := (start s.ids).ids_addAll (outputParts output)
    cases h : s.replaceAll output with
    | error e =>
      rw [answer, h]
      rfl
    | ok replaced =>
      -- All ids of the new mix are taken while it is built.
      have hanswer : s.answer (.replaceAll output) = (.ok (.replaced replaced.1), replaced.2) := by
        rw [answer, h]
      have hreplaced := replaceAll_eq_ok h
      have htaken : s.idsTaken [.replaceAll output] = s.ids.upcoming count := by
        refine idsTaken_of_skip ?_
        show (s.answer (.replaceAll output)).2.ids = _
        rw [hanswer, hreplaced]
        exact hids
      rw [hanswer]
      intro item hitem
      refine hnew _ ?_
      rw [htaken]
      have hid : item.id ∈ replaced.2.mix.ids := List.mem_map_of_mem hitem
      rw [hreplaced, hmix] at hid
      exact hid
  | load listing =>
    rw [answer]
    cases s.load listing with
    | error e => rfl
    | ok next => trivial
  | decodeItem index => rfl
  | decodeSelected => rfl

/-! ### Runs of requests -/

/-- Some item has had the id at some time during a run of requests. -/
def Seen (s : Session) (requests : List Request) (id : Text) : Prop :=
  ∃ past, past <+: requests ∧ id ∈ (s.run past).mix.ids

/-- The replies to a run of requests. -/
def replies : Session → List Request → List (Except MixError Reply)
  | _, [] => []
  | s, request :: rest => (s.answer request).1 :: (s.answer request).2.replies rest

namespace FreshIds

variable {s : Session}

/-- No item has had an id before it is taken. -/
theorem not_seen {before rest : List Request} (h : s.FreshIds (before ++ rest)) {id : Text}
    (hid : id ∈ (s.run before).idsTaken rest) : ¬s.Seen before id := by
  rintro ⟨past, ⟨others, rfl⟩, hmem⟩
  rw [List.append_assoc] at h
  refine h.run.unused id ?_ hmem
  rw [idsTaken_append, ← run_append]
  exact List.mem_append_right _ hid

/-- In the course of a run each request does to the items what is said of it. -/
theorem conserves_run {before after : List Request} {request : Request}
    (h : s.FreshIds (before ++ request :: after)) :
    request.Conserves (s.Seen before) (s.run before).mix
      ((s.run before).answer request).2.mix ((s.run before).answer request).1 := by
  refine conserves_answer _ _ fun id hid => h.not_seen ?_
  rw [← List.singleton_append, idsTaken_append]
  exact List.mem_append_left _ hid

/-- What is in the mix after more requests was there before, or has an id that was not. -/
theorem of_mem_entries_run {past later : List Request} (h : s.FreshIds (past ++ later))
    (hload : ∀ listing, .load listing ∉ later) {entry : Text × Text}
    (hentry : entry ∈ (s.run (past ++ later)).mix.entries) :
    entry ∈ (s.run past).mix.entries ∨ entry.1 ∉ (s.run past).mix.ids := by
  -- From the last request backwards, since it is in the past that ids have been met.
  induction later using List.reverseRecOn with
  | nil =>
    rw [List.append_nil] at hentry
    exact .inl hentry
  | append_singleton later request ih =>
    rw [← List.append_assoc] at h hentry
    have hstep := h.conserves_run
    rw [run_append] at hentry
    rcases hstep.of_mem_entries (fun listing heq => hload listing (by simp [heq])) hentry with
      hold | hnew
    · exact ih h.initial (fun listing hlisting => hload listing (by simp [hlisting])) hold
    · exact .inr fun hmem => hnew ⟨past, List.prefix_append _ _, hmem⟩

/-- An id that is met twice has one text, if ids were different the first time. -/
theorem text_eq {past later : List Request} (h : s.FreshIds (past ++ later))
    (hload : ∀ listing, .load listing ∉ later) (hnodup : (s.run past).mix.ids.Nodup)
    {entry entry' : Text × Text} (hentry : entry ∈ (s.run past).mix.entries)
    (hentry' : entry' ∈ (s.run (past ++ later)).mix.entries) (hid : entry.1 = entry'.1) :
    entry.2 = entry'.2 := by
  rw [Mix.ids_eq] at hnodup
  rcases h.of_mem_entries_run hload hentry' with hold | hnew
  · rw [List.inj_on_of_nodup_map hnodup hentry hold hid]
  · refine absurd ?_ hnew
    rw [Mix.ids_eq, ← hid]
    exact List.mem_map_of_mem hentry

end FreshIds

/-- An entry stays as long as no reply says that it was taken out. -/
theorem mem_entries_run {s : Session} {requests : List Request}
    (hload : ∀ listing, .load listing ∉ requests) {entry : Text × Text}
    (hentry : entry ∈ s.mix.entries)
    (hkept : ∀ reply, .ok reply ∈ s.replies requests → ¬reply.TakesOut entry) :
    entry ∈ (s.run requests).mix.entries := by
  induction requests generalizing s with
  | nil => exact hentry
  | cons request rest ih =>
    -- For this it does not matter which ids are new.
    have hstep := s.conserves_answer request fun _ _ => not_false
    have hfirst : entry ∈ (s.answer request).2.mix.entries := by
      refine hstep.mem_entries ?_ ?_ hentry
      · rintro listing rfl
        exact hload listing List.mem_cons_self
      · intro reply hreply
        exact hkept reply (hreply ▸ List.mem_cons_self)
    exact ih (fun listing hlisting => hload listing (List.mem_cons_of_mem _ hlisting)) hfirst
      fun reply hreply => hkept reply (List.mem_cons_of_mem _ hreply)

/-- In a run of requests from items with different ids, with new ids for new items, each request
does to the items what is said of it. If no listing is loaded, no id is attached to two texts in
the whole run, and an entry that is there at some time and not taken out after that is there
exactly once at the end. -/
theorem conserves_and_count_entries_run {s : Session} {requests : List Request}
    (hfresh : s.FreshIds requests) (hnodup : s.mix.ids.Nodup) :
    (∀ before request after, requests = before ++ request :: after →
        request.Conserves (s.Seen before) (s.run before).mix
          ((s.run before).answer request).2.mix ((s.run before).answer request).1) ∧
      ((∀ listing, .load listing ∉ requests) →
        (∀ past past', past <+: requests → past' <+: requests →
          ∀ entry ∈ (s.run past).mix.entries, ∀ entry' ∈ (s.run past').mix.entries,
            entry.1 = entry'.1 → entry.2 = entry'.2) ∧
        ∀ before after, requests = before ++ after → ∀ entry ∈ (s.run before).mix.entries,
          (∀ reply, .ok reply ∈ (s.run before).replies after → ¬reply.TakesOut entry) →
            (s.run requests).mix.entries.count entry = 1) := by
  refine ⟨fun before request after h => (h ▸ hfresh).conserves_run, fun hload => ⟨?_, ?_⟩⟩
  · -- Of two times in the run one is before the other.
    have ordered {past past' : List Request} (hpast : past <+: past') (hpast' : past' <+: requests)
        {entry entry' : Text × Text} (hentry : entry ∈ (s.run past).mix.entries)
        (hentry' : entry' ∈ (s.run past').mix.entries) (hid : entry.1 = entry'.1) :
        entry.2 = entry'.2 := by
      obtain ⟨later, rfl⟩ := hpast
      obtain ⟨rest, rfl⟩ := hpast'
      have hids : (s.run past).mix.ids.Nodup := by
        refine hfresh.initial.initial.nodup_ids_run hnodup fun listing hlisting => ?_
        exact absurd (by simp [hlisting]) (hload listing)
      exact hfresh.initial.text_eq (fun listing hlisting => hload listing (by simp [hlisting]))
        hids hentry hentry' hid
    intro past past' hpast hpast' entry hentry entry' hentry' hid
    rcases List.prefix_or_prefix_of_prefix hpast hpast' with hle | hle
    · exact ordered hle hpast' hentry hentry' hid
    · exact (ordered hle hpast hentry' hentry hid.symm).symm
  · rintro before after rfl entry hentry hkept
    have hids : (s.run (before ++ after)).mix.ids.Nodup :=
      hfresh.nodup_ids_run hnodup fun listing hlisting => absurd hlisting (hload listing)
    have hmem : entry ∈ (s.run (before ++ after)).mix.entries := by
      rw [run_append]
      exact mem_entries_run
        (fun listing hlisting => hload listing (List.mem_append_right _ hlisting)) hentry hkept
    rw [Mix.ids_eq] at hids
    exact List.count_eq_one_of_mem (List.Nodup.of_map _ hids) hmem

/-- A mix of two formulas that came from a listing. -/
def twoLoaded : Session :=
  ⟨⟨[⟨['7'], "A/TX".toList, true⟩, ⟨['8'], "B/TX".toList, false⟩]⟩, Ids.ofSeed 0⟩

/-- What is asked after a formula was added: it is moved to the front, all are selected, the last
one is removed, the others are sorted, and a blank output text is refused. -/
def arranging : List Request :=
  [.reorder 2 0, .toggleAll, .remove 2, .sort .ascending, .replaceAll " ".toList]

/-- The formula that was added is there once in the end, with the id and the text that it was
given. -/
theorem count_entries_arranging :
    (∀ past past', past <+: .add " C/TX".toList :: arranging →
        past' <+: .add " C/TX".toList :: arranging →
        ∀ entry ∈ (twoLoaded.run past).mix.entries, ∀ entry' ∈ (twoLoaded.run past').mix.entries,
          entry.1 = entry'.1 → entry.2 = entry'.2) ∧
      (twoLoaded.run (.add " C/TX".toList :: arranging)).mix.entries.count
        (Ids.identifier 0, "C/TX".toList) = 1 := by
  have htaken : twoLoaded.idsTaken (.add " C/TX".toList :: arranging) = [Ids.identifier 0] := rfl
  have hload : ∀ listing, .load listing ∉ Request.add " C/TX".toList :: arranging := by
    simp [arranging]
  have hfresh : twoLoaded.FreshIds (.add " C/TX".toList :: arranging) := by
    refine .of_unloaded ?_ ?_ fun listing hlisting => absurd hlisting (hload listing)
    · rw [htaken]
      decide
    · rw [htaken]
      decide
  have hreplies : (twoLoaded.run [.add " C/TX".toList]).replies arranging =
      [.ok .done, .ok (.toggled (some true)), .ok (.removed ⟨['8'], "B/TX".toList, true⟩),
        .ok .done, .error .emptyOutput] := by rfl
  obtain ⟨-, hruns⟩ := conserves_and_count_entries_run hfresh (by decide)
  obtain ⟨htexts, hcount⟩ := hruns hload
  refine ⟨htexts, hcount [.add " C/TX".toList] arranging rfl _ (by decide) ?_⟩
  rw [hreplies]
  simp [Reply.TakesOut, Item.entry]

end Session

end QueryMix
