import QueryMix.Proofs.Mix.Tidy

/-!
# `QueryMix.Proofs.Mix.Additions`: what is left of many texts

Texts are put into a mix in two ways. They are added one after the other, each looked for among
the texts that are there; or they come as the records of a listing, each looked for among those
that were met before. Both ways pass over blank texts, trim the others, and keep the first
occurrence of each. `Text.unseen` says this once, as a filter and nothing more, and both are
shown to give it (`Session.addAll_adds`, `Listing.texts_keepFirst`).

A replacement adds the parts of an output text. Trimming the output text first makes no
difference to them, since they are trimmed anyway (`Session.visible_outputParts`). If the output
text was joined from texts without separators, these are what is added
(`Session.replaceAll_intercalate`).
-/

set_option autoImplicit false

namespace QueryMix

namespace Text

/-- The texts that are not blank, trimmed. -/
def visible (ts : List Text) : List Text := (ts.map trim).filter fun t => !t.isEmpty

/-- The first occurrence of each visible text, without those `seen` before. -/
def unseen (seen ts : List Text) : List Text :=
  ((visible ts).filter fun t => !seen.contains t).eraseDups

/-- A blank text is left out. -/
theorem visible_cons_of_blank {t : Text} (h : trim t = []) (ts : List Text) :
    visible (t :: ts) = visible ts := by
  simp [visible, h]

/-- A text that is not blank comes first, trimmed. -/
theorem visible_cons {t : Text} (h : trim t ≠ []) (ts : List Text) :
    visible (t :: ts) = trim t :: visible ts := by
  simp [visible, h]

/-- The visible texts are what is left of the texts by trimming, where something is left. -/
theorem mem_visible {u : Text} {ts : List Text} :
    u ∈ visible ts ↔ u ≠ [] ∧ ∃ t ∈ ts, trim t = u := by
  simp [visible, and_comm]

/-- Blanks around the texts make no difference. -/
theorem visible_congr {ts us : List Text} (h : ts.map trim = us.map trim) :
    visible ts = visible us := by
  rw [visible, h, visible]

/-- Texts that are trimmed and not empty are visible as they are. -/
theorem visible_eq_self {ts : List Text} (h : ∀ t ∈ ts, t ≠ [] ∧ trim t = t) :
    visible ts = ts := by
  have htrim : ts.map trim = ts := by
    rw [List.map_congr_left (g := id) fun t ht => (h t ht).2, List.map_id]
  rw [visible, htrim, List.filter_eq_self]
  intro t ht
  simp [(h t ht).1]

/-- If nothing was seen before, only repeats are left out. -/
@[simp] theorem unseen_nil (ts : List Text) : unseen [] ts = (visible ts).eraseDups := by
  simp [unseen]

/-- It does not matter how often a text was seen, and when. -/
theorem unseen_congr {seen seen' : List Text} (h : ∀ u, u ∈ seen ↔ u ∈ seen')
    (ts : List Text) : unseen seen ts = unseen seen' ts := by
  have hfilter : ((visible ts).filter fun u => !seen.contains u) =
      (visible ts).filter fun u => !seen'.contains u :=
    List.filter_congr fun u _ => by simp [h u]
  rw [unseen, hfilter, unseen]

section Cons

variable {seen : List Text} {t : Text}

/-- A blank text is left out. -/
theorem unseen_cons_of_blank (h : trim t = []) (ts : List Text) :
    unseen seen (t :: ts) = unseen seen ts := by
  rw [unseen, visible_cons_of_blank h, unseen]

/-- A text that was seen before is left out. -/
theorem unseen_cons_of_mem (h : trim t ≠ []) (hmem : trim t ∈ seen) (ts : List Text) :
    unseen seen (t :: ts) = unseen seen ts := by
  rw [unseen, visible_cons h, List.filter_cons_of_neg (by simpa using hmem), unseen]

/-- A text that is new comes first, and is left out of the rest. -/
theorem unseen_cons_of_not_mem (h : trim t ≠ []) (hnew : trim t ∉ seen) (ts : List Text) :
    unseen seen (t :: ts) = trim t :: unseen (trim t :: seen) ts := by
  have hrest (us : List Text) : (us.filter fun u => !seen.contains u).filter
      (fun u => !u == trim t) = us.filter fun u => !(trim t :: seen).contains u := by
    rw [List.filter_filter]
    exact List.filter_congr fun u _ => by rw [List.contains_cons, Bool.not_or]
  rw [unseen, visible_cons h, List.filter_cons_of_pos (by simpa using hnew), List.eraseDups_cons,
    hrest, unseen]

end Cons

/-- A list that repeats nothing is kept whole. -/
theorem eraseDups_of_nodup {ts : List Text} (h : ts.Nodup) : ts.eraseDups = ts := by
  induction ts with
  | nil => rfl
  | cons t ts ih =>
    obtain ⟨hnew, hts⟩ := List.nodup_cons.mp h
    have hkept : (ts.filter fun u => !u == t) = ts := by
      rw [List.filter_eq_self]
      intro u hu
      have hne : u ≠ t := fun heq => hnew (heq ▸ hu)
      simpa using hne
    rw [List.eraseDups_cons, hkept, ih hts]

/-! ### The trimmed parts of a text -/

section Parts

variable {sep : Char}

/-- A text has a single part, or a first part and the parts of the rest. -/
theorem splitOn_cases (sep : Char) (t : Text) :
    (sep ∉ t ∧ t.splitOn sep = [t]) ∨
      ∃ s rest, sep ∉ s ∧ t = s ++ sep :: rest ∧ t.splitOn sep = s :: rest.splitOn sep := by
  by_cases hmem : sep ∈ t
  · obtain ⟨s, rest, ht, hs⟩ := List.eq_append_cons_of_mem hmem
    refine .inr ⟨s, rest, hs, ht, ?_⟩
    rw [ht]
    exact List.splitOn_append_cons_self_of_not_mem hs rest
  · exact .inl ⟨hmem, List.splitOn_eq_singleton hmem⟩

/-- The characters of the parts are those of the text that do not separate. -/
theorem forall_mem_splitOn_iff {P : Char → Prop} (t : Text) :
    (∀ part ∈ t.splitOn sep, ∀ c ∈ part, P c) ↔ ∀ c ∈ t, c = sep ∨ P c := by
  have uncut {s : Text} (hs : sep ∉ s) : (∀ c ∈ s, P c) ↔ ∀ c ∈ s, c = sep ∨ P c :=
    forall₂_congr fun c hc => (or_iff_right (ne_of_mem_of_not_mem hc hs)).symm
  rcases splitOn_cases sep t with ⟨hmem, hparts⟩ | ⟨s, rest, hs, ht, hparts⟩
  · rw [hparts, List.forall_mem_singleton, uncut hmem]
  · have hlt : rest.length < t.length := by
      rw [ht, List.length_append, List.length_cons]
      omega
    rw [hparts, List.forall_mem_cons, forall_mem_splitOn_iff rest, ht, List.forall_mem_append,
      List.forall_mem_cons, uncut hs]
    simp
termination_by t.length

/-- The parts of a text that is split hold no separator. -/
theorem not_mem_of_mem_splitOn {t part : Text} (h : part ∈ t.splitOn sep) : sep ∉ part :=
  fun hmem => (forall_mem_splitOn_iff t).mpr (fun c _ => em (c = sep)) part h sep hmem rfl

variable (hblank : isBlank sep = false)

include hblank

/-- Blanks before a text make no difference to its trimmed parts. -/
theorem map_trim_splitOn_blanks_append {l : Text} (hl : ∀ c ∈ l, isBlank c = true) (t : Text) :
    ((l ++ t).splitOn sep).map trim = (t.splitOn sep).map trim := by
  have hnot : sep ∉ l := fun h => by simp [hl sep h] at hblank
  rcases splitOn_cases sep t with ⟨hmem, hparts⟩ | ⟨s, rest, hs, ht, hparts⟩
  · rw [List.splitOn_eq_singleton (by simp [hnot, hmem]), hparts, List.map_singleton,
      List.map_singleton, trim_blanks_append hl]
  · have hfirst : sep ∉ l ++ s := by simp [hnot, hs]
    rw [hparts, ht, ← List.append_assoc, List.splitOn_append_cons_self_of_not_mem hfirst,
      List.map_cons, List.map_cons, trim_blanks_append hl]

/-- Blanks after a text make no difference to them either. -/
theorem map_trim_splitOn_append_blanks {r : Text} (hr : ∀ c ∈ r, isBlank c = true) (t : Text) :
    ((t ++ r).splitOn sep).map trim = (t.splitOn sep).map trim := by
  have hnot : sep ∉ r := fun h => by simp [hr sep h] at hblank
  rcases splitOn_cases sep t with ⟨hmem, hparts⟩ | ⟨s, rest, -, ht, -⟩
  · rw [List.splitOn_eq_singleton (by simp [hnot, hmem]), hparts, List.map_singleton,
      List.map_singleton, trim_append_blanks hr]
  · -- The blanks follow what stands after the first separator, which is shorter.
    have hlt : rest.length < t.length := by
      rw [ht, List.length_append, List.length_cons]
      omega
    rw [ht, List.append_assoc, List.cons_append, List.splitOn_append_cons_self,
      List.splitOn_append_cons_self, List.map_append, List.map_append,
      map_trim_splitOn_append_blanks hr rest]
termination_by t.length

/-- The trimmed parts of a text are those of the trimmed text. -/
theorem map_trim_splitOn_trim (t : Text) :
    ((trim t).splitOn sep).map trim = (t.splitOn sep).map trim := by
  obtain ⟨l, r, ht, hl, hr⟩ := eq_blanks_trim_blanks t
  calc ((trim t).splitOn sep).map trim
      = ((l ++ trim t ++ r).splitOn sep).map trim := by
        rw [map_trim_splitOn_append_blanks hblank hr, map_trim_splitOn_blanks_append hblank hl]
    _ = (t.splitOn sep).map trim := by rw [← ht]

end Parts

end Text

/-! ### Texts that are added one after the other -/

namespace Session

/-- What is added is the texts that the mix does not have, each once, in their order and
selected. Every visible text counts as added or as a duplicate. -/
theorem addAll_adds (s : Session) (ts : List Text) :
    ∃ added : List Item, (s.addAll ts).2.mix.items = s.mix.items ++ added ∧
      added.map Item.text = Text.unseen s.mix.texts ts ∧
      (∀ item ∈ added, item.selected = true) ∧
      (s.addAll ts).1.added = added.length ∧
      (s.addAll ts).1.added + (s.addAll ts).1.duplicates = (Text.visible ts).length := by
  induction ts generalizing s with
  | nil => exact ⟨[], (List.append_nil _).symm, rfl, List.forall_mem_nil _, rfl, rfl⟩
  | cons t ts ih =>
    rw [addAll]
    rcases s.add_cases t with ⟨hblank, hadd⟩ | ⟨hne, hmem, hadd⟩ | ⟨hne, hnew, hadd⟩
    · rw [hadd, Text.unseen_cons_of_blank hblank, Text.visible_cons_of_blank hblank]
      exact ih s
    · obtain ⟨added, hitems, htexts, hselected, hcount, htotal⟩ := ih s
      rw [hadd, Text.unseen_cons_of_mem hne hmem, Text.visible_cons hne]
      refine ⟨added, hitems, htexts, hselected, hcount, ?_⟩
      simp only [List.length_cons]
      omega
    · obtain ⟨added, hitems, htexts, hselected, hcount, htotal⟩ :=
        ih ⟨⟨s.mix.items ++ [⟨s.ids.next, Text.trim t, true⟩]⟩, s.ids.spend⟩
      rw [hadd, Text.unseen_cons_of_not_mem hne hnew, Text.visible_cons hne]
      refine ⟨⟨s.ids.next, Text.trim t, true⟩ :: added, ?_, ?_, ?_, ?_, ?_⟩
      · simp only [hitems, List.append_assoc, List.singleton_append]
      · -- The new text stands last in the mix, and first among the texts that were seen.
        rw [List.map_cons, htexts]
        refine congrArg (Text.trim t :: ·) (Text.unseen_congr (fun u => ?_) ts)
        simp [Mix.texts, or_comm]
      · exact List.forall_mem_cons.mpr ⟨rfl, hselected⟩
      · simp only [hcount, List.length_cons]
      · simp only [List.length_cons]
        omega

/-- A mix that is built from nothing has the visible texts, each once. -/
theorem addAll_start (ids : Ids) (ts : List Text) :
    ((start ids).addAll ts).2.mix.texts = (Text.visible ts).eraseDups ∧
      (∀ item ∈ ((start ids).addAll ts).2.mix.items, item.selected = true) ∧
      ((start ids).addAll ts).1.added = (Text.visible ts).eraseDups.length ∧
      ((start ids).addAll ts).1.added + ((start ids).addAll ts).1.duplicates =
        (Text.visible ts).length := by
  obtain ⟨added, hitems, htexts, hselected, hcount, htotal⟩ := (start ids).addAll_adds ts
  have hall : ((start ids).addAll ts).2.mix.items = added := hitems
  have hfirst : added.map Item.text = (Text.visible ts).eraseDups := by
    rw [htexts]
    exact Text.unseen_nil ts
  rw [Mix.texts, hall, hcount]
  exact ⟨hfirst, hselected, by rw [← hfirst, List.length_map], hcount ▸ htotal⟩

/-- Requests to add texts add them one after the other. -/
theorem run_map_add (s : Session) (ts : List Text) :
    s.run (ts.map Request.add) = (s.addAll ts).2 := by
  induction ts generalizing s with
  | nil => rfl
  | cons t ts ih =>
    rw [addAll_cons]
    exact ih (s.add t).2

/-- The parts of an output text are what stands between its separators, blanks aside. -/
theorem visible_outputParts (output : Text) :
    Text.visible (outputParts output) = Text.visible (output.splitOn outputSeparator) :=
  Text.visible_congr (Text.map_trim_splitOn_trim (by decide) output)

/-- Texts that hold no separator replace a mix when they are joined, if one of them is visible. -/
theorem replaceAll_intercalate (s : Session) {ts : List Text}
    (hsep : ∀ t ∈ ts, outputSeparator ∉ t) (hvisible : ∃ t ∈ ts, Text.allBlank t = false) :
    ∃ report next, s.replaceAll ([outputSeparator].intercalate ts) = .ok (report, next) ∧
      next.mix.texts = (Text.visible ts).eraseDups ∧
      (∀ item ∈ next.mix.items, item.selected = true) ∧
      report.added = (Text.visible ts).eraseDups.length ∧
      report.added + report.duplicates = (Text.visible ts).length := by
  obtain ⟨t, ht, hblank⟩ := hvisible
  have hsplit : ([outputSeparator].intercalate ts).splitOn outputSeparator = ts :=
    List.splitOn_intercalate outputSeparator hsep (List.ne_nil_of_mem ht)
  -- A blank output text would have blank parts only.
  have hjoined : ¬Text.allBlank ([outputSeparator].intercalate ts) = true := by
    intro hnone
    have hall := Text.trim_eq_nil_iff.mp (List.isEmpty_iff.mp hnone)
    have hparts : ∀ part ∈ ([outputSeparator].intercalate ts).splitOn outputSeparator,
        ∀ c ∈ part, Text.isBlank c = true :=
      (Text.forall_mem_splitOn_iff _).mpr fun c hc => .inr (hall c hc)
    rw [hsplit] at hparts
    rw [Text.allBlank, Text.trim_eq_nil_iff.mpr (hparts t ht)] at hblank
    cases hblank
  have hbuilt := addAll_start s.ids (outputParts ([outputSeparator].intercalate ts))
  rw [visible_outputParts, hsplit] at hbuilt
  exact ⟨_, _, by rw [replaceAll, if_neg hjoined], hbuilt⟩

end Session

/-! ### The records of a listing -/

namespace Listing

/-- The repair of a listing keeps the first occurrence of each visible text. -/
theorem texts_keepFirst (seen : List Text) (records : List Item) :
    (keepFirst seen records).map Item.text = Text.unseen seen (records.map Item.text) := by
  induction records generalizing seen with
  | nil => rfl
  | cons record rest ih =>
    rw [keepFirst, List.map_cons]
    by_cases hblank : Text.trim record.text = []
    · rw [if_pos (by simp [hblank]), Text.unseen_cons_of_blank hblank, ih]
    · by_cases hmem : Text.trim record.text ∈ seen
      · rw [if_pos (by simp [hmem]), Text.unseen_cons_of_mem hblank hmem, ih]
      · rw [if_neg (by simp [hblank, hmem]), Text.unseen_cons_of_not_mem hblank hmem,
          List.map_cons, ih]

/-- What is kept of a record is everything but the blanks around its text, and the record is the
first with that text. -/
theorem find?_of_mem_keepFirst {seen : List Text} {records : List Item} {item : Item}
    (h : item ∈ keepFirst seen records) :
    ∃ record, records.find? (fun record => Text.trim record.text == item.text) = some record ∧
      item = { record with text := Text.trim record.text } := by
  induction records generalizing seen with
  | nil => cases h
  | cons record rest ih =>
    -- A record with another text is passed over by the search.
    have later {seen : List Text} (h : item ∈ keepFirst seen rest)
        (hother : Text.trim record.text ≠ item.text) :
        ∃ first, (record :: rest).find? (fun record => Text.trim record.text == item.text) =
            some first ∧ item = { first with text := Text.trim first.text } := by
      rw [List.find?_cons_of_neg (by simpa using hother)]
      exact ih h
    obtain ⟨hne, -, hunseen⟩ := text_of_mem_keepFirst h
    rw [keepFirst] at h
    split at h
    · next hskipped =>
      rw [Bool.or_eq_true, List.isEmpty_iff, List.contains_iff_mem] at hskipped
      refine later h fun heq => ?_
      rw [heq] at hskipped
      exact hskipped.elim hne hunseen
    · rcases List.mem_cons.mp h with rfl | hrest
      · exact ⟨record, by rw [List.find?_cons_of_pos (by simp)], rfl⟩
      · refine later hrest fun heq => ?_
        exact (text_of_mem_keepFirst hrest).2.2 (heq ▸ List.mem_cons_self)

/-- Giving new ids leaves the texts, the marks, and the ids that are not blank. -/
theorem of_mem_identify {ids : Ids} {items : List Item} {item : Item}
    (h : item ∈ (identify ids items).1) :
    ∃ kept ∈ items, item.text = kept.text ∧ item.selected = kept.selected ∧
      (Text.allBlank kept.id = false → item.id = kept.id) := by
  induction items generalizing ids with
  | nil => cases h
  | cons first rest ih =>
    rw [identify] at h
    split at h
    · next hblank =>
      rcases List.mem_cons.mp h with rfl | h
      · exact ⟨first, List.mem_cons_self, rfl, rfl, fun hid => by simp [hblank] at hid⟩
      · obtain ⟨kept, hmem, hkept⟩ := ih h
        exact ⟨kept, List.mem_cons_of_mem _ hmem, hkept⟩
    · rcases List.mem_cons.mp h with rfl | h
      · exact ⟨item, List.mem_cons_self, rfl, rfl, fun _ => rfl⟩
      · obtain ⟨kept, hmem, hkept⟩ := ih h
        exact ⟨kept, List.mem_cons_of_mem _ hmem, hkept⟩

end Listing

end QueryMix
