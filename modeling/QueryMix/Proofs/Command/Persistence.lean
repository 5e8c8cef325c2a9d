import QueryMix.Command.Run
import QueryMix.Proofs.Mix.Listing

/-!
# `QueryMix.Proofs.Command.Persistence`: a mix lives on in its file

Between two invocations of the program nothing of a mix is left but its file. A file stores a
session if opening it gives that session, with the same mix and the same ids to come
(`Stores`). An invocation answers its request on the session that is stored. Then either the
listing of the new mix is saved, which is read back as that mix, or nothing is saved, and the
request has changed nothing (`save_cases`). In both cases the file stores the session after the
request (`runLine_of_stores`), and so a run of invocations comes to the same as a run of
requests in one session (`runLines_eq_run`).

Invocations are given by their command lines, and `Asks` says which request a command line makes
on the mix of a file. The file may be named by different paths. What is said here holds if it
can be read and written: its path leads to a file of the directory, whether it is there or not.
-/

set_option autoImplicit false

namespace QueryMix

/-- Whether a path leads to a file does not depend on what the directory holds. -/
theorem Directory.place_of_file {dir : Directory} {path name : Text}
    (h : dir.place path = .file name) (other : Directory) : other.place path = .file name := by
  by_cases hempty : path.isEmpty = true
  · rw [place, if_pos hempty] at h
    cases h
  · rw [place, if_neg hempty] at h ⊢
    cases hcomponents : components path with
    | nil =>
      rw [hcomponents] at h
      cases h
    | cons first rest =>
      rw [hcomponents] at h
      cases rest with
      | nil => exact h
      | cons second rest => cases h

/-- What is stored where a path leads to a file. -/
theorem Directory.stored_of_file {dir : Directory} {path name : Text}
    (h : dir.place path = .file name) :
    dir.stored path = (dir.lookup? name).elim (.absent .notFound) .present := by
  simp only [stored, h]
  cases dir.lookup? name with
  | none => rfl
  | some bytes => rfl

namespace Command

open Trace (Note)

/-! ### One request -/

/-- The request only asks, or it adds a text that turned out to be blank or in the mix
already. -/
def Idle : Request → Reply → Prop
  | .list, _ => True
  | .join _, _ => True
  | .decodeItem _, _ => True
  | .decodeSelected, _ => True
  | .add _, .added .empty => True
  | .add _, .added .duplicate => True
  | _, _ => False

/-- What is not saved has not changed. -/
theorem eq_of_not_isSaved {s : Session} {request : Request} {reply : Reply}
    (h : (s.answer request).1 = .ok reply) (hsaved : isSaved request reply = false) :
    (s.answer request).2 = s := by
  cases request with
  | add t =>
    rcases s.add_cases t with ⟨-, hadd⟩ | ⟨-, -, hadd⟩ | ⟨-, -, hadd⟩
    · show (s.add t).2 = s
      rw [hadd]
    · show (s.add t).2 = s
      rw [hadd]
    · -- This addition is one that is saved.
      have hreply : reply = .added (.added s.mix.size) := by
        have h' : Except.ok (Reply.added (s.add t).1) = .ok reply := h
        rw [hadd] at h'
        exact (Except.ok.inj h').symm
      rw [hreply] at hsaved
      cases hsaved
  | list => rfl
  | join separator => rfl
  | decodeItem index => rfl
  | decodeSelected => rfl
  | _ => cases hsaved

section Answer

variable (s : Session) (opening : List Note) (request : Request)

/-- The program ends with the sequence of ids as the request leaves it. -/
theorem ids_answerRequest :
    (answerRequest s opening request).ids = (s.answer request).2.ids := by
  rw [answerRequest]
  split
  · next h => rw [h]; rfl
  · next h => rw [h]

/-- The program fails exactly when the request is refused. -/
theorem exitStatus_answerRequest : (answerRequest s opening request).exitStatus = 1 ↔
    ∃ e, (s.answer request).1 = .error e := by
  rw [answerRequest]
  split
  · next e next h =>
    rw [h]
    exact iff_of_true rfl ⟨e, rfl⟩
  · next reply next h =>
    rw [h]
    exact iff_of_false (by simp [Outcome.exitStatus]) (by simp)

/-- Either the listing of the mix after the request is saved, or the request has changed
nothing. -/
theorem save_cases :
    (answerRequest s opening request).save = some (s.answer request).2.mix.listing ∨
      ((answerRequest s opening request).save = none ∧ (s.answer request).2 = s) := by
  rw [answerRequest]
  split
  · next h => exact .inr ⟨rfl, Session.answer_of_error (congrArg Prod.fst h)⟩
  · next reply next h =>
    by_cases hsaved : isSaved request reply = true
    · refine .inl ?_
      rw [h]
      exact if_pos hsaved
    · exact .inr ⟨if_neg hsaved,
        eq_of_not_isSaved (congrArg Prod.fst h) (Bool.eq_false_iff.mpr hsaved)⟩

end Answer

/-- Nothing is saved for a request that only asks, nor for an addition that adds nothing. -/
theorem not_isSaved_of_idle {request : Request} {reply : Reply} (h : Idle request reply) :
    isSaved request reply = false := by
  cases request with
  | list => rfl
  | join separator => rfl
  | decodeItem index => rfl
  | decodeSelected => rfl
  | add t =>
    cases reply with
    | added outcome =>
      cases outcome with
      | empty => rfl
      | duplicate => rfl
      | added index => exact h.elim
    | _ => exact h.elim
  | _ => exact h.elim

/-- Nothing is saved when the request is refused or idle. -/
theorem save_eq_none {s : Session} {opening : List Note} {request : Request}
    (h : (answerRequest s opening request).exitStatus = 1 ∨
      ∃ reply, (s.answer request).1 = .ok reply ∧ Idle request reply) :
    (answerRequest s opening request).save = none := by
  rw [exitStatus_answerRequest] at h
  rw [answerRequest]
  split
  · rfl
  · next reply next hanswer =>
    rw [hanswer] at h
    rcases h with ⟨e, he⟩ | ⟨idle, heq, hidle⟩
    · cases he
    · cases heq
      exact if_neg (Bool.eq_false_iff.mp (not_isSaved_of_idle hidle))

/-! ### What a file stores -/

/-- Wherever a path leads to the file, it is opened as the session, if new ids are taken from
where the session takes them. -/
def Stores (dir : Directory) (name : Text) (s : Session) : Prop :=
  ∀ path, dir.place path = .file name →
    ∃ opening, openMix s.ids (dir.stored path) = .ok (s, opening)

/-- A file that is not there stores an empty mix. -/
theorem stores_start {dir : Directory} {name : Text} (h : dir.lookup? name = none) (ids : Ids) :
    Stores dir name (Session.start ids) := by
  intro path hplace
  refine ⟨[], ?_⟩
  rw [Directory.stored_of_file hplace, h]
  rfl

/-- A file with the listing of a mix stores that mix. -/
theorem stores_insert {s : Session} (htidy : s.mix.Tidy) (hid : s.mix.Identified)
    (dir : Directory) (name : Text) :
    Stores (dir.insert name (Directory.bytesOfText s.mix.listing)) name s := by
  intro path hplace
  have hload : (Session.start s.ids).load s.mix.listing = .ok s :=
    Session.load_eq_ok_iff.mpr (Listing.read_listing htidy hid s.ids)
  refine ⟨Trace.loadNotes s.mix.listing, ?_⟩
  rw [Directory.stored_of_file hplace, Directory.lookup?_insert, Option.elim_some]
  simp only [openMix, Directory.text_bytesOfText, hload]

/-- A request on a file that stores a session is answered as in the session, and what it saves
goes to the file. -/
theorem runIn_of_stores {dir : Directory} {path name : Text} {s : Session}
    (hplace : dir.place path = .file name) (hstores : Stores dir name s) (request : Request) :
    ∃ opening, runIn dir s.ids (.mix path request) =
      (answerRequest s opening request,
        match (answerRequest s opening request).save with
        | some listing => dir.insert name (Directory.bytesOfText listing)
        | none => dir) := by
  obtain ⟨opening, hopen⟩ := hstores path hplace
  have hrun : run s.ids (dir.stored path) (.mix path request) =
      answerRequest s opening request := by
    show runMix s.ids path (dir.stored path) request = _
    rw [runMix, hopen]
  refine ⟨opening, ?_⟩
  rw [runIn, path?]
  simp only [hrun, Directory.write, hplace]
  split
  · next h => rw [h]
  · next h => rw [h]

/-! ### Command lines -/

/-- The command line asks for the request on the mix that is stored in the file. -/
def Asks (dir : Directory) (name : Text) (line : List Text) (request : Request) : Prop :=
  ∃ invocation path, Invocation.read line = .ok invocation ∧
    invocation.command = .mix path request ∧ dir.place path = .file name

/-- Carry out a command line in a directory. -/
def runLine (dir : Directory) (ids : Ids) (line : List Text) :
    Except Stop (Outcome × Directory) := do
  let invocation ← Invocation.read line
  return runIn dir ids invocation.command

/-- Carry out command lines one after the other. Each takes its new ids from where the one
before has left off. -/
def runLines : Directory → Ids → List (List Text) → Except Stop (Directory × Ids)
  | dir, ids, [] => .ok (dir, ids)
  | dir, ids, line :: rest => do
    let (outcome, next) ← runLine dir ids line
    runLines next outcome.ids rest

/-- One command line: if the file stores a session, it stores the session after the request
then. -/
theorem runLine_of_stores {dir before : Directory} {name : Text} {line : List Text}
    {request : Request} (hline : Asks dir name line request) {s : Session}
    (hstores : Stores before name s) (htidy : (s.answer request).2.mix.Tidy)
    (hid : (s.answer request).2.mix.Identified) :
    ∃ outcome after, runLine before s.ids line = .ok (outcome, after) ∧
      outcome.ids = (s.answer request).2.ids ∧ Stores after name (s.answer request).2 ∧
      (outcome.exitStatus = 1 ↔ ∃ e, (s.answer request).1 = .error e) ∧
      ((outcome.exitStatus = 1 ∨ ∃ reply, (s.answer request).1 = .ok reply ∧ Idle request reply) →
        after = before) := by
  obtain ⟨invocation, path, hread, hcommand, hplace⟩ := hline
  obtain ⟨opening, hrun⟩ := runIn_of_stores (Directory.place_of_file hplace before) hstores request
  have hresult : runLine before s.ids line = .ok (runIn before s.ids invocation.command) := by
    rw [runLine, hread]
    rfl
  rw [hcommand, hrun] at hresult
  refine ⟨_, _, hresult, ids_answerRequest .., ?_, exitStatus_answerRequest .., fun h => ?_⟩
  · -- Either the new listing is in the file, or the old one still is and says the same.
    rcases save_cases s opening request with hsave | ⟨hsave, hsame⟩
    · rw [hsave]
      exact stores_insert htidy hid before name
    · rw [hsave, hsame]
      exact hstores
  · rw [save_eq_none h]

/-- A run of command lines on one file leaves the session in it that the requests lead to. -/
theorem runLines_of_stores {ids : Ids} (hids : ids.Visible) {dir : Directory} {name : Text}
    {lines : List (List Text)} {requests : List Request}
    (hlines : List.Forall₂ (Asks dir name) lines requests) {before : Directory}
    {past : List Request} (hstores : Stores before name ((Session.start ids).run past)) :
    ∃ after, runLines before ((Session.start ids).run past).ids lines =
        .ok (after, ((Session.start ids).run (past ++ requests)).ids) ∧
      Stores after name ((Session.start ids).run (past ++ requests)) := by
  -- The requests that are past grow as the command lines get fewer.
  induction hlines generalizing before past with
  | nil =>
    rw [List.append_nil]
    exact ⟨before, rfl, hstores⟩
  | @cons line request lines requests hline _ ih =>
    have hnext : (((Session.start ids).run past).answer request).2 =
        (Session.start ids).run (past ++ [request]) := (Session.run_append _ past [request]).symm
    obtain ⟨outcome, next, hfirst, hleft, hnextStores, -⟩ := runLine_of_stores hline hstores
      (hnext ▸ Session.tidy_run .empty _) (hnext ▸ Session.identified_run hids .empty _)
    rw [hnext] at hleft hnextStores
    obtain ⟨after, hrest, hafter⟩ := ih hnextStores
    rw [List.append_assoc, List.singleton_append] at hrest hafter
    refine ⟨after, ?_, hafter⟩
    rw [runLines, hfirst]
    show runLines next outcome.ids lines = _
    rw [hleft, hrest]

/-- Command lines that ask for requests on the mix of a file that is not there come to the same
as the requests themselves in a session that starts with an empty mix, if no new id is blank.
After each command line the file is opened as that session, with the same items and the same
ids to come. The program ends with 1 exactly when the request is refused in the session, and
then, or when the request only asks or adds nothing, it leaves all files as they were. -/
theorem runLines_eq_run {ids : Ids} (hids : ids.Visible) {dir : Directory} {name : Text}
    (habsent : dir.lookup? name = none) {lines : List (List Text)} {requests : List Request}
    (hlines : List.Forall₂ (Asks dir name) lines requests) {line : List Text} {request : Request}
    (hline : Asks dir name line request) :
    ∃ before outcome after,
      runLines dir ids lines = .ok (before, ((Session.start ids).run requests).ids) ∧
      runLine before ((Session.start ids).run requests).ids line = .ok (outcome, after) ∧
      (∀ path, after.place path = .file name → ∃ opening,
        openMix outcome.ids (after.stored path) =
          .ok ((Session.start ids).run (requests ++ [request]), opening)) ∧
      (outcome.exitStatus = 1 ↔
        ∃ e, (((Session.start ids).run requests).answer request).1 = .error e) ∧
      ((outcome.exitStatus = 1 ∨ ∃ reply,
          (((Session.start ids).run requests).answer request).1 = .ok reply ∧
            Idle request reply) →
        after = before) := by
  have hnext : (((Session.start ids).run requests).answer request).2 =
      (Session.start ids).run (requests ++ [request]) :=
    (Session.run_append _ requests [request]).symm
  have hstart : Stores dir name ((Session.start ids).run []) := stores_start habsent ids
  -- The lines before lead to a file that stores the session, and the last line goes on from there.
  obtain ⟨before, hbefore, hstores⟩ := runLines_of_stores hids hlines hstart
  rw [List.nil_append] at hbefore hstores
  obtain ⟨outcome, after, hafter, hleft, hnextStores, hstatus, hsame⟩ := runLine_of_stores hline
    hstores (hnext ▸ Session.tidy_run .empty _) (hnext ▸ Session.identified_run hids .empty _)
  rw [hnext] at hleft hnextStores
  refine ⟨before, outcome, after, hbefore, hafter, ?_, hstatus, hsame⟩
  rw [hleft]
  exact hnextStores

/-- Command lines that name one file in different ways. -/
def threeLines : List (List Text) :=
  [["mix".toList, "add".toList, " A/TX ".toList],
    ["mix".toList, "-s./mix.json".toList, "add".toList, "B/TX".toList],
    ["-v".toList, "mix".toList, "--store=mix.json".toList, "move".toList, "1".toList, "+0".toList]]

/-- They leave two formulas in the file, and a fourth one that asks for too much is refused there
and leaves the file as it is. -/
theorem runLines_threeLines :
    ∃ before outcome after,
      runLines .empty (Ids.ofSeed 0) threeLines = .ok (before, ⟨(Ids.ofSeed 0).name, 2⟩) ∧
      runLine before ⟨(Ids.ofSeed 0).name, 2⟩ ["mix".toList, "remove".toList, "7".toList] =
        .ok (outcome, after) ∧
      (∃ opening, openMix outcome.ids (after.stored "mix.json".toList) =
        .ok (⟨⟨[⟨Ids.identifier 1, "B/TX".toList, true⟩, ⟨Ids.identifier 0, "A/TX".toList, true⟩]⟩,
          ⟨(Ids.ofSeed 0).name, 2⟩⟩, opening)) ∧
      outcome.exitStatus = 1 ∧ after = before := by
  have habsent : Directory.empty.lookup? "mix.json".toList = none := rfl
  have hlines : List.Forall₂ (Asks .empty "mix.json".toList) threeLines
      [.add " A/TX ".toList, .add "B/TX".toList, .reorder 1 0] :=
    .cons ⟨_, _, rfl, rfl, rfl⟩ (.cons ⟨_, _, rfl, rfl, rfl⟩ (.cons ⟨_, _, rfl, rfl, rfl⟩ .nil))
  have hline : Asks .empty "mix.json".toList ["mix".toList, "remove".toList, "7".toList]
      (.remove 7) := ⟨_, _, rfl, rfl, rfl⟩
  obtain ⟨before, outcome, after, hbefore, hafter, hopen, hstatus, hsame⟩ :=
    runLines_eq_run (Ids.visible_ofSeed 0) habsent hlines hline
  have hfailed : outcome.exitStatus = 1 := hstatus.mpr ⟨.indexOutOfRange 7 2, rfl⟩
  exact ⟨before, outcome, after, hbefore, hafter, hopen _ rfl, hfailed, hsame (.inl hfailed)⟩

end Command

end QueryMix
