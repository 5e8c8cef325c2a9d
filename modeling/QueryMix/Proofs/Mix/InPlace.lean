import QueryMix.Proofs.Mix.Operations

/-!
# `QueryMix.Proofs.Mix.InPlace`: refusals, and requests carried out in place

A request is refused for the first of its indices that the mix does not have
(`Session.answer_outside`), and for no index if the mix has them all (`Session.answer_inside`).

`Session.answer` makes a new session out of the old one, and its indices are numbers of any size.
A machine has one session, which it changes step by step, and its indices have 64 bits. `InPlace`
is such work. Each step looks at the session or changes it, or it refuses to go on; then the
session stays as the steps before have left it, and nothing is taken back. A step has a fault
instead when it comes to an index that the list does not have, to a sum that needs more than 64
bits or to a difference below zero.

`InPlace.answer` carries out requests in such steps. It comes to the reply and to the session of
`Session.answer` (`InPlace.runIn_answer`): no step has a fault, on no mix and for no index, and
nothing has been changed when a request is refused.
-/

set_option autoImplicit false

namespace QueryMix

variable {s : Session} {index : Nat}

/-! ### Indices that the mix has, and others -/

/-- The indices that come with a request, in the order in which they are looked at. -/
def Request.indices : Request → List Nat
  | .remove index => [index]
  | .reorder source target => [source, target]
  | .moveUp index => [index]
  | .moveDown index => [index]
  | .select index _ => [index]
  | .decodeItem index => [index]
  | .add _ | .list | .toggleAll | .sort _ | .clear | .join _ | .replaceAll _ | .load _
  | .decodeSelected => []

namespace Mix

variable {m : Mix}

/-- A move is refused for its source first, then for its target. -/
theorem reorder_of_outside {source target : Nat}
    (h : [source, target].find? (fun i => m.size ≤ i) = some index) :
    m.reorder source target = .error (.indexOutOfRange index m.size) := by
  rw [reorder]
  by_cases hsource : m.size ≤ source
  · rw [List.find?_cons_of_pos (by simpa using hsource)] at h
    rw [item_of_le hsource, Option.some.inj h]
    rfl
  · rw [List.find?_cons_of_neg (by simpa using hsource)] at h
    have htarget : m.size ≤ index := by simpa using List.find?_some h
    have hindex : index = target := List.mem_singleton.mp (List.mem_of_find?_eq_some h)
    rw [item_of_lt (Nat.lt_of_not_le hsource), ← hindex, item_of_le htarget]
    rfl

/-- The index at which the first selected item is found is an index of the mix. -/
theorem lt_of_firstSelected? {item : Item} (h : m.firstSelected? = some (index, item)) :
    index < m.items.length := by
  unfold firstSelected? at h
  split at h
  · cases h
  · obtain ⟨found, hfound, heq⟩ := Option.map_eq_some_iff.mp h
    cases heq
    obtain ⟨hlt, -⟩ := List.getElem?_eq_some_iff.mp hfound
    exact hlt

/-- An item of the mix is decoded, or its text is no formula. -/
theorem decodeItem_of_lt (h : index < m.items.length) :
    m.decodeItem index = match Formula.decode m.items[index].text with
      | .ok f => .ok f
      | .error e => .error (.notAFormula e) := by
  rw [decodeItem, item_of_lt h]
  rfl

end Mix

namespace Session

/-- A request is refused for the first of its indices that the mix does not have. -/
theorem answer_outside {request : Request}
    (h : request.indices.find? (fun i => s.mix.size ≤ i) = some index) :
    s.answer request = (.error (.indexOutOfRange index s.mix.size), s) := by
  have hle : s.mix.size ≤ index := by simpa using List.find?_some h
  have hmem : index ∈ request.indices := List.mem_of_find?_eq_some h
  -- Moves by one place are refused for their source, wherever they would lead.
  have moved (target : Nat) :
      s.replaceMix (s.mix.reorder index target) =
        (.error (.indexOutOfRange index s.mix.size), s) := by
    rw [Mix.reorder_of_outside (List.find?_cons_of_pos (by simpa using hle))]
    rfl
  cases request with
  | reorder source target =>
    rw [answer, Mix.reorder_of_outside h]
    rfl
  | remove i =>
    cases List.mem_singleton.mp hmem
    rw [answer, Mix.remove, Mix.item_of_le hle]
    rfl
  | moveUp i =>
    cases List.mem_singleton.mp hmem
    exact moved _
  | moveDown i =>
    cases List.mem_singleton.mp hmem
    exact moved _
  | select i selected =>
    cases List.mem_singleton.mp hmem
    rw [answer, Mix.select, Mix.item_of_le hle]
    rfl
  | decodeItem i =>
    cases List.mem_singleton.mp hmem
    rw [answer, Mix.decodeItem, Mix.item_of_le hle]
    rfl
  | _ => cases hmem

/-- A request whose indices the mix has is not refused for an index. -/
theorem answer_inside {request : Request} (h : ∀ i ∈ request.indices, i < s.mix.size)
    (index size : Nat) : (s.answer request).1 ≠ .error (.indexOutOfRange index size) := by
  have moved {source target : Nat} (hsource : source < s.mix.items.length)
      (htarget : target < s.mix.items.length) :
      (s.replaceMix (s.mix.reorder source target)).1 ≠ .error (.indexOutOfRange index size) := by
    rw [Mix.reorder_of_lt hsource htarget]
    intro h
    cases h
  have decoded {i : Nat} (hlt : i < s.mix.items.length) :
      (s.mix.decodeItem i).map Reply.formula ≠ .error (.indexOutOfRange index size) := by
    rw [Mix.decodeItem_of_lt hlt]
    intro h
    split at h
    · cases h
    · cases h
  cases request with
  | reorder source target =>
    exact moved (h source List.mem_cons_self) (h target (by simp [Request.indices]))
  | remove i =>
    have hlt : i < s.mix.items.length := h i List.mem_cons_self
    rw [answer, Mix.remove, Mix.item_of_lt hlt]
    intro h
    cases h
  | moveUp i =>
    have hlt : i < s.mix.items.length := h i List.mem_cons_self
    exact moved hlt (by omega)
  | moveDown i =>
    have hlt : i < s.mix.items.length := h i List.mem_cons_self
    refine moved hlt ?_
    split
    · assumption
    · exact hlt
  | select i selected =>
    have hlt : i < s.mix.items.length := h i List.mem_cons_self
    rw [answer, Mix.select, Mix.item_of_lt hlt]
    intro h
    cases h
  | decodeItem i => exact decoded (h i List.mem_cons_self)
  | decodeSelected =>
    rw [answer, Mix.decodeSelected]
    cases hfirst : s.mix.firstSelected? with
    | none =>
      intro h
      cases h
    | some found => exact decoded (Mix.lt_of_firstSelected? hfirst)
  | join separator =>
    rw [answer, Mix.joinSelected]
    intro h
    split at h
    · cases h
    · cases h
  | replaceAll output =>
    rw [answer, replaceAll]
    by_cases hblank : Text.allBlank output = true
    · rw [if_pos hblank]
      intro h
      cases h
    · rw [if_neg hblank]
      intro h
      cases h
  | load listing =>
    rw [answer, load, Listing.read]
    cases Listing.records? listing with
    | none =>
      intro h
      cases h
    | some records =>
      intro h
      cases h
  | _ =>
    -- The other requests are never refused.
    intro h
    cases h

/-- Nothing came of a request: it was refused, or its text is blank or in the mix already. -/
def ComesToNothing : Except MixError Reply → Prop
  | .error _ => True
  | .ok (.added .duplicate) => True
  | .ok (.added .empty) => True
  | .ok _ => False

/-- Only additions are answered with what came of an addition. -/
theorem eq_add_of_added {request : Request} {outcome : AddOutcome}
    (h : (s.answer request).1 = .ok (.added outcome)) :
    ∃ t, request = .add t ∧ (s.add t).1 = outcome := by
  -- A new mix is replied to with `done`, and a result with a reply of its own.
  have replaced {result : Except MixError Mix}
      (h : (s.replaceMix result).1 = .ok (.added outcome)) : False := by
    cases result with
    | error e => cases h
    | ok m => cases h
  have mapped {α : Type} {f : α → Reply} (hf : ∀ a, f a ≠ .added outcome)
      {result : Except MixError α} (h : result.map f = .ok (.added outcome)) : False := by
    cases result with
    | error e => cases h
    | ok a => exact hf a (Except.ok.inj h)
  cases request with
  | add t => exact ⟨t, rfl, Reply.added.inj (Except.ok.inj h)⟩
  | reorder source target => exact (replaced h).elim
  | moveUp i => exact (replaced h).elim
  | moveDown i => exact (replaced h).elim
  | select i selected => exact (replaced h).elim
  | join separator => exact (mapped (fun _ => Reply.noConfusion) h).elim
  | decodeItem i => exact (mapped (fun _ => Reply.noConfusion) h).elim
  | decodeSelected => exact (mapped (fun _ => Reply.noConfusion) h).elim
  | remove i =>
    rw [answer] at h
    cases hremove : s.mix.remove i with
    | error e =>
      rw [hremove] at h
      cases h
    | ok removed =>
      rw [hremove] at h
      cases h
  | replaceAll output =>
    rw [answer] at h
    cases hreplace : s.replaceAll output with
    | error e =>
      rw [hreplace] at h
      cases h
    | ok replaced =>
      rw [hreplace] at h
      cases h
  | load listing =>
    rw [answer] at h
    cases hload : s.load listing with
    | error e =>
      rw [hload] at h
      cases h
    | ok next =>
      rw [hload] at h
      cases h
  | _ => cases h

/-- A request that comes to nothing leaves the session as it was. -/
theorem answer_of_comesToNothing {request : Request}
    (h : ComesToNothing (s.answer request).1) : (s.answer request).2 = s := by
  cases hreply : (s.answer request).1 with
  | error e => exact answer_of_error hreply
  | ok reply =>
    rw [hreply] at h
    cases reply with
    | added outcome =>
      obtain ⟨t, rfl, houtcome⟩ := eq_add_of_added hreply
      rcases s.add_cases t with ⟨-, hadd⟩ | ⟨-, -, hadd⟩ | ⟨-, -, hadd⟩
      · rw [answer, hadd]
      · rw [answer, hadd]
      · rw [hadd] at houtcome
        cases houtcome
        cases h
    | _ => cases h

end Session

/-! ### Requests carried out in place -/

/-- Work on a session that is changed in place. It comes to a result or is refused, and there is
a session either way; `none` is a fault. -/
abbrev InPlace (α : Type) := ExceptT MixError (StateT Session Option) α

namespace InPlace

section Steps

variable {α β : Type}

/-- What the work comes to on a session. -/
def runIn (s : Session) (w : InPlace α) : Option (Except MixError α × Session) := w.run.run s

/-- The work cannot go on. -/
def fault : InPlace α := ExceptT.mk fun _ => none

/-- The sum of two indices, which has to fit into 64 bits. -/
def plus (a b : Nat) : InPlace Nat := if a + b < UInt64.size then pure (a + b) else fault

/-- The difference of two indices, which must not be below zero. -/
def minus (a b : Nat) : InPlace Nat := if b ≤ a then pure (a - b) else fault

/-- The number of items. -/
def size : InPlace Nat := do return (← get).mix.size

/-- Refuse an index that the mix does not have. -/
def check (index : Nat) : InPlace Unit := do
  let n ← size
  if index < n then pure () else throw (.indexOutOfRange index n)

/-- The item at an index of the list. -/
def itemAt (index : Nat) : InPlace Item := do
  match (← get).mix.items[index]? with
  | some item => pure item
  | none => fault

/-- Change the list of items. -/
def change (f : List Item → List Item) : InPlace Unit :=
  modify fun s => { s with mix := ⟨f s.mix.items⟩ }

/-- Take the item at an index out of the list; the items after it move up. -/
def takeOut (index : Nat) : InPlace Item := do
  let item ← itemAt index
  change (·.eraseIdx index)
  return item

/-- Put an item into the list, at an index or at the end; the items from there on move down. -/
def putIn (index : Nat) (item : Item) : InPlace Unit := do
  let n ← size
  if index ≤ n then change (·.insertIdx index item) else fault

/-- Put an item in the place of the one at an index of the list. -/
def overwrite (index : Nat) (item : Item) : InPlace Unit := do
  let _ ← itemAt index
  change (·.set index item)

/-- Work on another session, which leaves the session at hand alone. -/
def aside (other : Session) (w : InPlace α) : InPlace (α × Session) :=
  ExceptT.mk fun s => (runIn other w).map fun (result, last) => (result.map (·, last), s)

end Steps

/-- Move the item at `source` so that it ends up at `target`. -/
def reorder (source target : Nat) : InPlace Reply := do
  check source
  check target
  if source ≠ target then
    let moved ← takeOut source
    putIn target moved
  return .done

/-- Add a text; the index that is told is that of the last item. -/
def add (t : Text) : InPlace AddOutcome := do
  let text := Text.trim t
  let s ← get
  if text.isEmpty then return .empty
  else if s.mix.contains text then return .duplicate
  else
    set (⟨⟨s.mix.items ++ [⟨s.ids.next, text, true⟩]⟩, s.ids.spend⟩ : Session)
    let n ← size
    let last ← minus n 1
    return .added last

/-- Add texts in turn, and go on counting from a report. -/
def addAll (report : ReplaceReport) : List Text → InPlace ReplaceReport
  | [] => return report
  | t :: rest => do
    match ← add t with
    | .added _ => addAll ⟨report.added + 1, report.duplicates⟩ rest
    | .duplicate => addAll ⟨report.added, report.duplicates + 1⟩ rest
    | .empty => addAll report rest

/-- Decode the formula at an index. -/
def decodeItem (index : Nat) : InPlace Reply := do
  check index
  let item ← itemAt index
  match Formula.decode item.text with
  | .ok f => return .formula f
  | .error e => throw (.notAFormula e)

/-- Carry out a request. -/
def answer : Request → InPlace Reply
  | .add t => do return .added (← add t)
  | .list => return .done
  | .remove index => do
    check index
    return .removed (← takeOut index)
  | .reorder source target => reorder source target
  | .moveUp index => reorder index (index - 1) -- from 0 to 0, not below
  | .moveDown index => do
    check index
    let next ← plus index 1
    let n ← size
    let last ← minus n 1
    reorder index (min next last)
  | .select index selected => do
    check index
    let item ← itemAt index
    overwrite index { item with selected }
    return .done
  | .toggleAll => do
    let s ← get
    set { s with mix := s.mix.toggleAll.2 }
    return .toggled s.mix.toggleAll.1
  | .sort order => do
    modify fun s => { s with mix := s.mix.sort order }
    return .done
  | .clear => do
    let n ← size
    change fun _ => []
    return .cleared n
  | .join separator => do
    match (← get).mix.joinSelected separator with
    | .ok t => return .text t
    | .error e => throw e
  | .replaceAll output => do
    if Text.allBlank output then throw .emptyOutput
    else
      let s ← get
      let (report, fresh) ← aside (Session.start s.ids)
        (addAll ⟨0, 0⟩ (Session.outputParts output))
      set fresh
      return .replaced report
  | .load listing => do
    match (← get).load listing with
    | .ok next =>
      set next
      return .done
    | .error e => throw e
  | .decodeItem index => decodeItem index
  | .decodeSelected => do
    match (← get).mix.firstSelected? with
    | some (index, _) => decodeItem index
    | none => throw .nothingSelected

section Runs

variable {α β : Type}

/-- Where some work has a result, what follows goes on from the session that it leaves. -/
theorem runIn_bind_ok {w : InPlace α} {a : α} {s' : Session} (h : runIn s w = some (.ok a, s'))
    (f : α → InPlace β) : runIn s (w >>= f) = runIn s' (f a) := by
  show Option.bind (runIn s w) _ = _
  rw [h]
  rfl

/-- Where it is refused, what follows is not done. -/
theorem runIn_bind_error {w : InPlace α} {e : MixError} {s' : Session}
    (h : runIn s w = some (.error e, s')) (f : α → InPlace β) :
    runIn s (w >>= f) = some (.error e, s') := by
  show Option.bind (runIn s w) _ = _
  rw [h]
  rfl

/-- Looking at the session leaves it as it is. -/
theorem runIn_get : runIn s get = some (.ok s, s) := rfl

/-- A session that is put in takes the place of the one at hand. -/
theorem runIn_set (s' : Session) : runIn s (set s') = some (.ok ⟨⟩, s') := rfl

/-- Counting the items changes nothing. -/
theorem runIn_size : runIn s size = some (.ok s.mix.size, s) := rfl

/-- An index of the mix passes the check. -/
theorem runIn_check_of_lt (h : index < s.mix.size) : runIn s (check index) = some (.ok (), s) := by
  show runIn s (if index < s.mix.size then pure () else throw _) = _
  rw [if_pos h]
  rfl

/-- Any other index is refused, with the number of items, and the session is as before. -/
theorem runIn_check_of_le (h : s.mix.size ≤ index) :
    runIn s (check index) = some (.error (.indexOutOfRange index s.mix.size), s) := by
  show runIn s (if index < s.mix.size then pure () else throw _) = _
  rw [if_neg (Nat.not_lt.mpr h)]
  rfl

/-- At an index of the list there is an item to look up. -/
theorem runIn_itemAt (h : index < s.mix.items.length) :
    runIn s (itemAt index) = some (.ok s.mix.items[index], s) := by
  show runIn s (match s.mix.items[index]? with
    | some item => pure item
    | none => fault) = _
  rw [List.getElem?_eq_getElem h]
  rfl

/-- An item at an index of the list is taken out of it without a fault. -/
theorem runIn_takeOut (h : index < s.mix.items.length) :
    runIn s (takeOut index) =
      some (.ok s.mix.items[index], { s with mix := ⟨s.mix.items.eraseIdx index⟩ }) := by
  rw [takeOut, runIn_bind_ok (runIn_itemAt h)]
  rfl

/-- An item is put in without a fault at any index of the list and right after its end. -/
theorem runIn_putIn (h : index ≤ s.mix.items.length) (item : Item) :
    runIn s (putIn index item) =
      some (.ok (), { s with mix := ⟨s.mix.items.insertIdx index item⟩ }) := by
  show runIn s (if index ≤ s.mix.items.length then change _ else fault) = _
  rw [if_pos h]
  rfl

/-- Only an item of the list can be replaced, and then there is no fault. -/
theorem runIn_overwrite (h : index < s.mix.items.length) (item : Item) :
    runIn s (overwrite index item) =
      some (.ok (), { s with mix := ⟨s.mix.items.set index item⟩ }) := by
  rw [overwrite, runIn_bind_ok (runIn_itemAt h)]
  rfl

/-- A sum that fits into 64 bits has no fault. -/
theorem runIn_plus {a b : Nat} (h : a + b < UInt64.size) :
    runIn s (plus a b) = some (.ok (a + b), s) := by
  rw [plus, if_pos h]
  rfl

/-- A difference that is not below zero has no fault. -/
theorem runIn_minus {a b : Nat} (h : b ≤ a) : runIn s (minus a b) = some (.ok (a - b), s) := by
  rw [minus, if_pos h]
  rfl

/-- Work on another session hands its result on, and leaves the session at hand alone. -/
theorem runIn_aside {other last : Session} {w : InPlace α} {a : α}
    (h : runIn other w = some (.ok a, last)) : runIn s (aside other w) = some (.ok (a, last), s) := by
  show (runIn other w).map _ = _
  rw [h]
  rfl

/-- A move takes the item out only when both indices have been checked, and the target is still
a place of the list then. -/
theorem runIn_reorder (source target : Nat) :
    runIn s (reorder source target) = some (s.replaceMix (s.mix.reorder source target)) := by
  rw [reorder]
  by_cases hsource : s.mix.size ≤ source
  · rw [runIn_bind_error (runIn_check_of_le hsource),
      Mix.reorder_of_outside (List.find?_cons_of_pos (by simpa using hsource))]
    rfl
  have hslt : source < s.mix.items.length := Nat.lt_of_not_le hsource
  rw [runIn_bind_ok (runIn_check_of_lt hslt)]
  by_cases htarget : s.mix.size ≤ target
  · have houtside : [source, target].find? (fun i => s.mix.size ≤ i) = some target := by
      simp [hsource, htarget]
    rw [runIn_bind_error (runIn_check_of_le htarget), Mix.reorder_of_outside houtside]
    rfl
  have htlt : target < s.mix.items.length := Nat.lt_of_not_le htarget
  rw [runIn_bind_ok (runIn_check_of_lt htlt), Mix.reorder_of_lt hslt htlt]
  by_cases heq : source = target
  · subst heq
    rw [if_neg (by simp), List.insertIdx_eraseIdx_getElem hslt]
    rfl
  · have hle : target ≤ (s.mix.items.eraseIdx source).length := by
      rw [List.length_eraseIdx_of_lt hslt]
      omega
    rw [if_pos heq, runIn_bind_ok (runIn_takeOut hslt), runIn_bind_ok (runIn_putIn hle _)]
    rfl

/-- The item that an addition has put at the end has an index. -/
theorem runIn_add (t : Text) : runIn s (add t) = some (.ok (s.add t).1, (s.add t).2) := by
  rw [add, runIn_bind_ok runIn_get]
  rcases s.add_cases t with ⟨ht, hadd⟩ | ⟨ht, hmem, hadd⟩ | ⟨ht, hnew, hadd⟩
  · rw [hadd, if_pos (by simp [ht])]
    rfl
  · rw [hadd, if_neg (by simp [ht]), if_pos (by rwa [Mix.contains_iff, Text.trim_trim])]
    rfl
  · rw [hadd, if_neg (by simp [ht]), if_neg (by rwa [Mix.contains_iff, Text.trim_trim]),
      runIn_bind_ok (runIn_set _), runIn_bind_ok runIn_size,
      runIn_bind_ok (runIn_minus (by simp [Mix.size]))]
    show some (Except.ok (AddOutcome.added ((s.mix.items ++ [_]).length - 1)), _) = _
    rw [List.length_append]
    rfl

/-- Additions in a row have no fault, and the report goes on counting from where it stood. -/
theorem runIn_addAll (report : ReplaceReport) (ts : List Text) :
    runIn s (addAll report ts) =
      some (.ok ⟨report.added + (s.addAll ts).1.added,
        report.duplicates + (s.addAll ts).1.duplicates⟩, (s.addAll ts).2) := by
  induction ts generalizing s report with
  | nil => rfl
  | cons t rest ih =>
    rw [addAll, runIn_bind_ok (runIn_add t), Session.addAll]
    obtain ⟨outcome, next⟩ := s.add t
    cases outcome with
    | added index =>
      rw [ih]
      simp only [Nat.add_assoc, Nat.add_comm 1]
    | duplicate =>
      rw [ih]
      simp only [Nat.add_assoc, Nat.add_comm 1]
    | empty => exact ih _

/-- A request with one index is refused when the index is checked, or goes on with an index of the
mix. -/
theorem runIn_checked {request : Request} (hindices : request.indices = [index])
    {w : InPlace Reply}
    (hinside : index < s.mix.items.length → runIn s w = some (s.answer request)) :
    runIn s (do check index; w) = some (s.answer request) := by
  by_cases hindex : s.mix.size ≤ index
  · have houtside : request.indices.find? (fun i => s.mix.size ≤ i) = some index := by
      rw [hindices]
      exact List.find?_cons_of_pos (by simpa using hindex)
    rw [runIn_bind_error (runIn_check_of_le hindex), Session.answer_outside houtside]
  · have hlt : index < s.mix.items.length := Nat.lt_of_not_le hindex
    rw [runIn_bind_ok (runIn_check_of_lt hlt)]
    exact hinside hlt

/-- The index is checked before the item is looked up, so decoding has no fault. -/
theorem runIn_decodeItem (index : Nat) :
    runIn s (decodeItem index) = some (s.answer (.decodeItem index)) := by
  refine runIn_checked rfl fun hlt => ?_
  rw [runIn_bind_ok (runIn_itemAt hlt), Session.answer, Mix.decodeItem_of_lt hlt]
  cases Formula.decode s.mix.items[index].text with
  | error e => rfl
  | ok f => rfl

/-- Requests that are carried out in place come to their answer: there is no fault, and nothing
has been changed when they are refused. -/
theorem runIn_answer (hsize : s.mix.size < UInt64.size) (request : Request) :
    runIn s (answer request) = some (s.answer request) := by
  cases request with
  | add t =>
    rw [answer, runIn_bind_ok (runIn_add t)]
    rfl
  | list => rfl
  | remove index =>
    refine runIn_checked rfl fun hlt => ?_
    rw [runIn_bind_ok (runIn_takeOut hlt), Session.answer, Mix.remove, Mix.item_of_lt hlt]
    rfl
  | reorder source target => exact runIn_reorder source target
  | moveUp index => exact runIn_reorder index (index - 1)
  | moveDown index =>
    refine runIn_checked rfl fun hlt => ?_
    -- The check comes first: it keeps the index below the number of items, and that above zero.
    have hsum : index + 1 < UInt64.size := Nat.lt_of_le_of_lt hlt hsize
    have hlast : 1 ≤ s.mix.size := Nat.one_le_of_lt hlt
    have htarget : min (index + 1) (s.mix.size - 1) =
        if index + 1 < s.mix.size then index + 1 else index := by
      change index < s.mix.size at hlt
      split <;> omega
    rw [runIn_bind_ok (runIn_plus hsum), runIn_bind_ok runIn_size,
      runIn_bind_ok (runIn_minus hlast), runIn_reorder, htarget]
    rfl
  | select index selected =>
    refine runIn_checked rfl fun hlt => ?_
    rw [runIn_bind_ok (runIn_itemAt hlt), runIn_bind_ok (runIn_overwrite hlt _), Session.answer,
      Mix.select, Mix.item_of_lt hlt]
    rfl
  | toggleAll => rfl
  | sort order => rfl
  | clear => rfl
  | join separator =>
    rw [answer, runIn_bind_ok runIn_get, Session.answer]
    cases s.mix.joinSelected separator with
    | error e => rfl
    | ok t => rfl
  | replaceAll output =>
    rw [answer, Session.answer, Session.replaceAll]
    by_cases hblank : Text.allBlank output = true
    · rw [if_pos hblank, if_pos hblank]
      rfl
    · rw [if_neg hblank, if_neg hblank, runIn_bind_ok runIn_get,
        runIn_bind_ok (runIn_aside (runIn_addAll _ _))]
      simp only [Nat.zero_add]
      rfl
  | load listing =>
    rw [answer, runIn_bind_ok runIn_get, Session.answer]
    cases s.load listing with
    | error e => rfl
    | ok next => rfl
  | decodeItem index => exact runIn_decodeItem index
  | decodeSelected =>
    rw [answer, runIn_bind_ok runIn_get, Session.answer, Mix.decodeSelected]
    cases s.mix.firstSelected? with
    | none => rfl
    | some found => exact runIn_decodeItem found.1

end Runs

/-- Requests can be carried out in place on every mix that fits into a machine, whatever their
indices are. They are refused for an index exactly when one of their indices is not one of the
mix, with the first such index and the number of items. And when a request comes to nothing, the
session is the same as before. -/
theorem refusals_exact_and_traceless (s : Session) (request : Request) :
    (s.mix.size < UInt64.size → runIn s (answer request) = some (s.answer request)) ∧
      (∀ index size, (s.answer request).1 = .error (.indexOutOfRange index size) ↔
        request.indices.find? (fun i => s.mix.size ≤ i) = some index ∧ size = s.mix.size) ∧
      (Session.ComesToNothing (s.answer request).1 → (s.answer request).2 = s) := by
  refine ⟨fun hsize => runIn_answer hsize request, ?_, Session.answer_of_comesToNothing⟩
  intro index size
  constructor
  · intro h
    cases hfind : request.indices.find? (fun i => s.mix.size ≤ i) with
    | none =>
      have hinside : ∀ i ∈ request.indices, i < s.mix.size := by simpa using hfind
      exact absurd h (Session.answer_inside hinside index size)
    | some outside =>
      rw [Session.answer_outside hfind] at h
      cases h
      exact ⟨rfl, rfl⟩
  · rintro ⟨hfind, rfl⟩
    rw [Session.answer_outside hfind]

/-- A session with one formula. -/
def oneFormula : Session := ((Session.start (Ids.ofSeed 0)).add "A/TX".toList).2

/-- The largest index of 64 bits leads to no sum that is too large, and an empty mix to no index
below zero. Of two indices that the mix does not have the first is told, and the text that the
mix has already is not added. -/
theorem refusals_oneFormula :
    oneFormula.mix.size < UInt64.size ∧
      runIn (Session.start (Ids.ofSeed 0)) (answer (.moveDown (UInt64.size - 1))) =
        some (.error (.indexOutOfRange (UInt64.size - 1) 0), Session.start (Ids.ofSeed 0)) ∧
      runIn oneFormula (answer (.reorder (UInt64.size - 1) 5)) =
        some (.error (.indexOutOfRange (UInt64.size - 1) 1), oneFormula) ∧
      runIn oneFormula (answer (.add " A/TX".toList)) =
        some (.ok (.added .duplicate), oneFormula) := by
  -- The three parts of the theorem, put together for one reply.
  have comesTo {s : Session} {request : Request} {reply : Except MixError Reply}
      (hsize : s.mix.size < UInt64.size) (hreply : (s.answer request).1 = reply)
      (hnothing : Session.ComesToNothing reply) :
      runIn s (answer request) = some (reply, s) := by
    obtain ⟨hrun, -, htrace⟩ := refusals_exact_and_traceless s request
    exact (hrun hsize).trans (congrArg some (Prod.ext hreply (htrace (hreply ▸ hnothing))))
  have hindex (s : Session) (request : Request) :=
    (refusals_exact_and_traceless s request).2.1 (UInt64.size - 1)
  exact ⟨by decide, comesTo (by decide) ((hindex _ _ 0).mpr ⟨rfl, rfl⟩) trivial,
    comesTo (by decide) ((hindex _ _ 1).mpr ⟨rfl, rfl⟩) trivial,
    comesTo (by decide) rfl trivial⟩

end InPlace

end QueryMix
