import Mathlib
import QueryMix.Proofs.Mix.Operations

/-!
# `QueryMix.Proofs.Mix.Tidy`: trimmed texts, none of them twice

A mix is tidy when each of its texts is trimmed and not empty and none occurs twice. There are
three places where this is brought about: an addition looks for the trimmed text among those
that are there, the replacement of a mix is made of additions, and the repair of a listing
keeps the first record of each trimmed text (`tidy_repair`). No request undoes it, so the mix
of a session is tidy at all times, and an addition then finds a duplicate exactly when the
trimmed text is the text of an item (`tidy_and_add_eq_duplicate_iff`).
-/

set_option autoImplicit false

namespace QueryMix

open List (Subperm)

namespace Mix

/-- Each text is trimmed and not empty, and none occurs twice. -/
structure Tidy (m : Mix) : Prop where
  ne_nil : ∀ t ∈ m.texts, t ≠ []
  trimmed : ∀ t ∈ m.texts, Text.trim t = t
  nodup : m.texts.Nodup

/-- An empty mix is tidy. -/
theorem tidy_empty : empty.Tidy where
  ne_nil := by simp [empty, texts]
  trimmed := by simp [empty, texts]
  nodup := List.nodup_nil

/-- Nothing is tidied by the order of the items, and nothing by an item that is left out. -/
theorem Tidy.of_subperm {m m' : Mix} (hm : m.Tidy) (h : Subperm m'.entries m.entries) :
    m'.Tidy := by
  have htexts : Subperm m'.texts m.texts := by
    rw [texts_eq, texts_eq]
    exact subperm_map Prod.snd h
  obtain ⟨kept, hperm, hsub⟩ := htexts
  have hmem : ∀ t ∈ m'.texts, t ∈ m.texts := fun t ht => hsub.subset (hperm.mem_iff.mpr ht)
  exact ⟨fun t ht => hm.ne_nil t (hmem t ht), fun t ht => hm.trimmed t (hmem t ht),
    hperm.nodup_iff.mp (hm.nodup.sublist hsub)⟩

/-- A trimmed text that is new can be put at the end. -/
theorem Tidy.append {m : Mix} (hm : m.Tidy) {id t : Text} (hne : Text.trim t ≠ [])
    (hnew : Text.trim t ∉ m.texts) (selected : Bool) :
    Tidy ⟨m.items ++ [⟨id, Text.trim t, selected⟩]⟩ := by
  have htexts : texts ⟨m.items ++ [⟨id, Text.trim t, selected⟩]⟩ = m.texts ++ [Text.trim t] := by
    simp [texts]
  have hmem : ∀ u ∈ m.texts ++ [Text.trim t], u ≠ [] ∧ Text.trim u = u := by
    intro u hu
    rcases List.mem_append.mp hu with hu | hu
    · exact ⟨hm.ne_nil u hu, hm.trimmed u hu⟩
    · rw [List.mem_singleton.mp hu]
      exact ⟨hne, Text.trim_trim t⟩
  have hnodup : (m.texts ++ [Text.trim t]).Nodup := by
    rw [List.nodup_append]
    refine ⟨hm.nodup, List.pairwise_singleton _ _, fun u hu v hv heq => ?_⟩
    rw [heq, List.mem_singleton.mp hv] at hu
    exact hnew hu
  rw [← htexts] at hmem hnodup
  exact ⟨fun u hu => (hmem u hu).1, fun u hu => (hmem u hu).2, hnodup⟩

/-- In a tidy mix an addition finds a duplicate exactly when the trimmed text is the text of
an item: a blank text is none. -/
theorem Tidy.add_eq_duplicate_iff {m : Mix} (hm : m.Tidy) {id t : Text} :
    (m.add id t).1 = .duplicate ↔ Text.trim t ∈ m.texts := by
  rcases m.add_cases id t with ⟨hblank, h⟩ | ⟨-, hmem, h⟩ | ⟨-, hnew, h⟩
  · rw [h, hblank]
    exact iff_of_false (by simp) fun hmem => hm.ne_nil [] hmem rfl
  · rw [h]
    exact iff_of_true rfl hmem
  · rw [h]
    exact iff_of_false (by simp) hnew

end Mix

/-! ### The repair of a listing -/

namespace Listing

/-- The records that are kept have texts that are trimmed, not empty, and not among those seen
before. -/
theorem text_of_mem_keepFirst {seen : List Text} {records : List Item} {item : Item}
    (h : item ∈ keepFirst seen records) :
    item.text ≠ [] ∧ Text.trim item.text = item.text ∧ item.text ∉ seen := by
  induction records generalizing seen with
  | nil => cases h
  | cons record rest ih =>
    rw [keepFirst] at h
    split at h
    · exact ih h
    · next hkept =>
      rw [Bool.or_eq_true, not_or, List.isEmpty_iff, List.contains_iff_mem] at hkept
      rcases List.mem_cons.mp h with rfl | h
      · exact ⟨hkept.1, Text.trim_trim _, hkept.2⟩
      · obtain ⟨hne, htrim, hseen⟩ := ih h
        exact ⟨hne, htrim, fun hmem => hseen (List.mem_cons_of_mem _ hmem)⟩

/-- Of each text one record is kept. -/
theorem nodup_keepFirst (seen : List Text) (records : List Item) :
    ((keepFirst seen records).map Item.text).Nodup := by
  induction records generalizing seen with
  | nil => exact List.nodup_nil
  | cons record rest ih =>
    rw [keepFirst]
    split
    · exact ih seen
    · rw [List.map_cons, List.nodup_cons]
      refine ⟨fun hmem => ?_, ih _⟩
      -- The text of the record is among those seen before the rest is gone through.
      obtain ⟨item, hitem, htext⟩ := List.mem_map.mp hmem
      have hseen := (text_of_mem_keepFirst hitem).2.2
      rw [htext] at hseen
      exact hseen List.mem_cons_self

/-- Records that are tidy already are all kept as they are. -/
theorem keepFirst_of_tidy {seen : List Text} {records : List Item}
    (h : Mix.Tidy ⟨records⟩) (hseen : ∀ item ∈ records, item.text ∉ seen) :
    keepFirst seen records = records := by
  induction records generalizing seen with
  | nil => rfl
  | cons record rest ih =>
    have hmem : record.text ∈ Mix.texts ⟨record :: rest⟩ := List.mem_cons_self
    have htrim : Text.trim record.text = record.text := h.trimmed _ hmem
    have hnew : record.text ∉ seen := hseen record List.mem_cons_self
    have hrest : Mix.Tidy ⟨rest⟩ :=
      h.of_subperm (subperm_map Item.entry (List.sublist_cons_self record rest).subperm)
    have hnodup : record.text ∉ rest.map Item.text := (List.nodup_cons.mp h.nodup).1
    -- From here on the text of the record counts as seen, and no later record has it.
    have hlater : ∀ item ∈ rest, item.text ∉ record.text :: seen := by
      intro item hitem hin
      rcases List.mem_cons.mp hin with heq | hin
      · exact hnodup (heq ▸ List.mem_map_of_mem hitem)
      · exact hseen item (List.mem_cons_of_mem _ hitem) hin
    rw [keepFirst, htrim, if_neg (by simp [h.ne_nil _ hmem, hnew]), ih hrest hlater]

/-- New ids for the blank ones leave the texts as they are. -/
theorem texts_identify (ids : Ids) (items : List Item) :
    (identify ids items).1.map Item.text = items.map Item.text := by
  induction items generalizing ids with
  | nil => rfl
  | cons item rest ih =>
    rw [identify]
    split
    · exact congrArg (item.text :: ·) (ih ids.spend)
    · exact congrArg (item.text :: ·) (ih ids)

/-- Whatever the records, their repair is tidy. -/
theorem tidy_repair (ids : Ids) (records : List Item) : (repair ids records).1.Tidy := by
  have htexts : (repair ids records).1.texts = (keepFirst [] records).map Item.text :=
    texts_identify ids _
  have hmem : ∀ t ∈ (repair ids records).1.texts, t ≠ [] ∧ Text.trim t = t := by
    intro t ht
    rw [htexts] at ht
    obtain ⟨item, hitem, rfl⟩ := List.mem_map.mp ht
    obtain ⟨hne, htrim, -⟩ := text_of_mem_keepFirst hitem
    exact ⟨hne, htrim⟩
  have hnodup : (repair ids records).1.texts.Nodup := by
    rw [htexts]
    exact nodup_keepFirst [] records
  exact ⟨fun t ht => (hmem t ht).1, fun t ht => (hmem t ht).2, hnodup⟩

/-- What is read from a listing is the repair of its records. -/
theorem read_eq_ok_iff {ids : Ids} {t : Text} {read : Mix × Ids} :
    Listing.read ids t = .ok read ↔
      ∃ records, records? t = some records ∧ repair ids records = read := by
  rw [Listing.read]
  cases records? t with
  | none => simp
  | some records => simp

end Listing

/-! ### Sessions -/

namespace Session

/-- A listing that is accepted opens a tidy mix, whatever its records are. -/
theorem tidy_load {s s' : Session} {listing : Text} (h : s.load listing = .ok s') :
    s'.mix.Tidy := by
  obtain ⟨records, -, hrepair⟩ := Listing.read_eq_ok_iff.mp (load_eq_ok_iff.mp h)
  have hmix : (Listing.repair s.ids records).1 = s'.mix := by rw [hrepair]
  rw [← hmix]
  exact Listing.tidy_repair s.ids records

/-- No request undoes what makes the mix of a session tidy. -/
theorem tidy_run {ids : Ids} {s : Session} (h : Opened ids s) (requests : List Request) :
    (s.run requests).mix.Tidy :=
  opened_induction (P := fun s => s.mix.Tidy)
    (fun _ _ hs hkept _ => hs.of_subperm hkept)
    (fun _ _ hs hne hnew => hs.append hne hnew true)
    (fun _ _ _ _ hload => tidy_load hload)
    Mix.tidy_empty h requests

/-- Wherever requests lead from a session that was opened with an empty mix or with a listing,
its mix is tidy. So an addition finds a duplicate exactly when the trimmed text is the text of
an item. -/
theorem tidy_and_add_eq_duplicate_iff {ids : Ids} {s : Session} (h : Opened ids s)
    (requests : List Request) :
    (s.run requests).mix.Tidy ∧
      ∀ t, ((s.run requests).add t).1 = .duplicate ↔
        Text.trim t ∈ (s.run requests).mix.texts := by
  have htidy := tidy_run h requests
  refine ⟨htidy, fun t => ?_⟩
  have houtcome : ((s.run requests).add t).1 =
      ((s.run requests).mix.add (s.run requests).ids.next t).1 := by
    rw [add]
    split
    · next hadd => rw [hadd]
    · next hadd => rw [hadd]
  rw [houtcome]
  exact htidy.add_eq_duplicate_iff

/-- A listing that was edited by hand, with a padded text, a repeat of it, and a blank one. -/
def editedListing : Text :=
  "[[\"7\", \" B/TX \", true], [\"8\", \"B/TX\", false], [\"9\", \" \", true]]".toList

/-- It is opened as a mix with one formula; after some requests, a refused one among them, the
mix is tidy and the formula that was added is found to be there. -/
theorem tidy_and_duplicate_editedListing :
    ∃ s, Opened (Ids.ofSeed 0) s ∧ s.mix.texts = ["B/TX".toList] ∧
      (s.run [.add "\tA/TX ".toList, .remove 7, .moveUp 1]).mix.texts
        = ["A/TX".toList, "B/TX".toList] ∧
      (s.run [.add "\tA/TX ".toList, .remove 7, .moveUp 1]).mix.Tidy ∧
      ((s.run [.add "\tA/TX ".toList, .remove 7, .moveUp 1]).add "A/TX".toList).1
        = .duplicate := by
  have hload : (start (Ids.ofSeed 0)).load editedListing =
      .ok ⟨⟨[⟨['7'], "B/TX".toList, true⟩]⟩, Ids.ofSeed 0⟩ := by cbv
  have htexts : (run ⟨⟨[⟨['7'], "B/TX".toList, true⟩]⟩, Ids.ofSeed 0⟩
      [.add "\tA/TX ".toList, .remove 7, .moveUp 1]).mix.texts
        = ["A/TX".toList, "B/TX".toList] := by rfl
  obtain ⟨htidy, hduplicate⟩ := tidy_and_add_eq_duplicate_iff (.listing hload)
    [.add "\tA/TX ".toList, .remove 7, .moveUp 1]
  refine ⟨_, .listing hload, rfl, htexts, htidy, (hduplicate _).mpr ?_⟩
  rw [htexts]
  decide

end Session

end QueryMix
