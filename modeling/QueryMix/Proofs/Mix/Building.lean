import QueryMix.Proofs.Mix.Additions
import QueryMix.Proofs.Mix.Listing

/-!
# `QueryMix.Proofs.Mix.Building`: a mix that is built from many texts

There are three ways to build a mix from a list of texts: to add them in turn to an empty mix,
to load a listing whose records have these texts, and to replace a mix by the output text that
joins them. All three give the same texts: trimmed, without blank ones, the first occurrence of
each (`Session.built_alike`). A listing brings the marks and ids of its records; the other two
select every item and give it a new id.

A replacement is meant to be refused when there is nothing to replace the mix by. But it looks
for blanks in the output text as a whole, and separators are not blanks. An output text of
separators and blanks alone is accepted, none of its parts is added, and the mix is lost. These
are the only output texts with which this happens (`Session.replacesOrKeeps_iff`).
-/

set_option autoImplicit false

namespace QueryMix

namespace Text

/-- Something is visible among the parts of a text exactly when the text has a character that
is neither a separator nor a blank. -/
theorem visible_splitOn_eq_nil_iff {sep : Char} {t : Text} :
    visible (t.splitOn sep) = [] ↔ ∀ c ∈ t, c = sep ∨ isBlank c = true := by
  rw [← forall_mem_splitOn_iff, List.eq_nil_iff_forall_not_mem]
  constructor
  · intro h part hpart c hc
    by_contra hvisible
    have hne : trim part ≠ [] := fun hnone => hvisible (trim_eq_nil_iff.mp hnone c hc)
    exact h (trim part) (mem_visible.mpr ⟨hne, part, hpart, rfl⟩)
  · intro h u hu
    obtain ⟨hne, part, hpart, rfl⟩ := mem_visible.mp hu
    exact hne (trim_eq_nil_iff.mpr (h part hpart))

end Text

namespace Session

/-! ### Replacing a mix -/

/-- A replacement is refused and changes nothing, or a formula at least is added and the mix has
as many formulas as were added. -/
def ReplacesOrKeeps (s : Session) (output : Text) : Prop :=
  (∃ e, s.answer (.replaceAll output) = (.error e, s)) ∨
    ∃ report next, s.answer (.replaceAll output) = (.ok (.replaced report), next) ∧
      1 ≤ report.added ∧ next.mix.size = report.added

/-- A separator at least, and nothing but separators and blanks. -/
def OnlySeparators (output : Text) : Prop :=
  outputSeparator ∈ output ∧ ∀ c ∈ output, c = outputSeparator ∨ Text.isBlank c = true

/-- A blank output text is refused. -/
theorem answer_replaceAll_of_blank (s : Session) {output : Text}
    (h : Text.allBlank output = true) :
    s.answer (.replaceAll output) = (.error .emptyOutput, s) := by
  rw [answer, replaceAll, if_pos h]

/-- Any other is accepted, and its visible parts make up the mix. -/
theorem answer_replaceAll_of_visible (s : Session) {output : Text}
    (h : Text.allBlank output = false) :
    ∃ report next, s.answer (.replaceAll output) = (.ok (.replaced report), next) ∧
      next.mix.size = report.added ∧
      report.added = (Text.visible (output.splitOn outputSeparator)).eraseDups.length := by
  obtain ⟨htexts, -, hadded, -⟩ := addAll_start s.ids (outputParts output)
  rw [visible_outputParts] at htexts hadded
  refine ⟨_, ((start s.ids).addAll (outputParts output)).2, ?_, ?_, hadded⟩
  · rw [answer, replaceAll, if_neg (by simp [h])]
  · rw [hadded, ← htexts, Mix.texts, List.length_map, Mix.size]

/-- A mix is kept or replaced, and not lost, exactly when the output text is not made of
separators and blanks alone. A blank output text is one of those that are refused. -/
theorem replacesOrKeeps_iff (s : Session) (output : Text) :
    s.ReplacesOrKeeps output ↔ ¬OnlySeparators output := by
  cases hblank : Text.allBlank output with
  | true =>
    refine iff_of_true (.inl ⟨_, s.answer_replaceAll_of_blank hblank⟩) fun honly => ?_
    -- Blanks are no separators.
    have hall := Text.trim_eq_nil_iff.mp (List.isEmpty_iff.mp hblank)
    exact absurd (hall outputSeparator honly.1) (by decide)
  | false =>
    obtain ⟨report, next, hanswer, hsize, hadded⟩ := s.answer_replaceAll_of_visible hblank
    constructor
    · rintro (⟨e, hrefused⟩ | ⟨report', next', hanswer', hpos, -⟩) honly
      · rw [hanswer] at hrefused
        cases hrefused
      · rw [hanswer] at hanswer'
        cases hanswer'
        rw [hadded, Text.visible_splitOn_eq_nil_iff.mpr honly.2] at hpos
        exact absurd hpos (by decide)
    · intro hnot
      refine .inr ⟨report, next, hanswer, ?_, hsize⟩
      cases hvisible : Text.visible (output.splitOn outputSeparator) with
      | cons t ts =>
        rw [hadded, hvisible, List.eraseDups_cons]
        exact Nat.le_add_left 1 _
      | nil =>
        -- The character that is no blank is a separator, and there are no others.
        have hall := Text.visible_splitOn_eq_nil_iff.mp hvisible
        refine absurd ⟨?_, hall⟩ hnot
        by_contra hno
        have hnone : Text.trim output = [] := Text.trim_eq_nil_iff.mpr fun c hc =>
          (hall c hc).resolve_left (ne_of_mem_of_not_mem hc hno)
        rw [Text.allBlank, hnone] at hblank
        cases hblank

/-- A mix with a formula is lost when it is replaced by a single separator. -/
theorem not_replacesOrKeeps_separator :
    (start (Ids.ofSeed 0)).run [.add "A/TX".toList, .replaceAll "*".toList] =
        ⟨Mix.empty, (Ids.ofSeed 0).spend⟩ ∧
      ¬((start (Ids.ofSeed 0)).run [.add "A/TX".toList]).ReplacesOrKeeps "*".toList := by
  have hanswer : ((start (Ids.ofSeed 0)).run [.add "A/TX".toList]).answer
      (.replaceAll "*".toList) = (.ok (.replaced ⟨0, 0⟩), ⟨Mix.empty, (Ids.ofSeed 0).spend⟩) := rfl
  refine ⟨rfl, ?_⟩
  rintro (⟨e, h⟩ | ⟨report, next, h, hpos, -⟩)
  · rw [hanswer] at h
    cases h
  · rw [hanswer] at h
    cases h
    exact absurd hpos (by decide)

/-! ### Three ways to build a mix -/

/-- The records of a listing give a mix with the visible texts among theirs, each once. Each item
has the mark of the first record with its text, and its id unless that is blank. -/
theorem load_eq_ok_of_records? (s : Session) {listing : Text} {records : List Item}
    (h : Listing.records? listing = some records) :
    ∃ next, s.load listing = .ok next ∧
      next.mix.texts = (Text.visible (records.map Item.text)).eraseDups ∧
      ∀ item ∈ next.mix.items, ∃ record,
        records.find? (fun record => Text.trim record.text == item.text) = some record ∧
          item.selected = record.selected ∧
          (Text.allBlank record.id = false → item.id = record.id) := by
  obtain ⟨next, hnext⟩ : ∃ next : Session, (next.mix, next.ids) = Listing.repair s.ids records :=
    ⟨⟨_, _⟩, rfl⟩
  have hmix : next.mix = (Listing.repair s.ids records).1 := by rw [← hnext]
  refine ⟨next, load_eq_ok_iff.mpr (Listing.read_eq_ok_iff.mpr ⟨records, h, hnext.symm⟩), ?_, ?_⟩
  · calc next.mix.texts
        = (Listing.keepFirst [] records).map Item.text := by
          rw [hmix]
          exact Listing.texts_identify s.ids _
      _ = (Text.visible (records.map Item.text)).eraseDups := by
          rw [Listing.texts_keepFirst, Text.unseen_nil]
  · intro item hitem
    rw [hmix] at hitem
    obtain ⟨kept, hkept, htext, hselected, hid⟩ := Listing.of_mem_identify hitem
    obtain ⟨record, hfirst, rfl⟩ := Listing.find?_of_mem_keepFirst hkept
    exact ⟨record, by rw [htext]; exact hfirst, hselected, hid⟩

/-- Texts that are added in turn to an empty mix, that are the texts of the records of a listing,
or that are joined to an output text, build mixes with the same texts: the visible ones, trimmed,
the first occurrence of each. With a listing each item has the mark of the first record with its
text, and its id unless that is blank. An output text can stand for texts that hold no separator
and are not all blank; every item is selected then, and every visible text that is not added is
counted as a duplicate. -/
theorem built_alike (ids : Ids) (ts : List Text) :
    ((start ids).run (ts.map Request.add)).mix.texts = (Text.visible ts).eraseDups ∧
      (∀ (s : Session) (listing : Text) (records : List Item),
        Listing.records? listing = some records → records.map Item.text = ts →
          ∃ next, s.load listing = .ok next ∧
            next.mix.texts = (Text.visible ts).eraseDups ∧
            ∀ item ∈ next.mix.items, ∃ record,
              records.find? (fun record => Text.trim record.text == item.text) = some record ∧
                item.selected = record.selected ∧
                (Text.allBlank record.id = false → item.id = record.id)) ∧
      ∀ s : Session, (∀ t ∈ ts, outputSeparator ∉ t) → (∃ t ∈ ts, Text.allBlank t = false) →
        ∃ report next, s.replaceAll ([outputSeparator].intercalate ts) = .ok (report, next) ∧
          next.mix.texts = (Text.visible ts).eraseDups ∧
          (∀ item ∈ next.mix.items, item.selected = true) ∧
          report.added = (Text.visible ts).eraseDups.length ∧
          report.added + report.duplicates = (Text.visible ts).length := by
  refine ⟨?_, fun s listing records hrecords htexts => ?_, fun s hsep hvisible => ?_⟩
  · rw [run_map_add]
    exact (addAll_start ids ts).1
  · rw [← htexts]
    exact s.load_eq_ok_of_records? hrecords
  · exact s.replaceAll_intercalate hsep hvisible

/-- Texts with a blank one and a repeat in other padding. -/
def paddedTexts : List Text := [" B/TX".toList, " ".toList, "A/TX".toList, "B/TX\t".toList]

/-- Records with these texts, one of them without an id. -/
def paddedRecords : List Item :=
  [⟨['7'], " B/TX".toList, false⟩, ⟨['8'], " ".toList, true⟩, ⟨[], "A/TX".toList, true⟩,
    ⟨['9'], "B/TX\t".toList, true⟩]

/-- Two texts are kept of the four, whichever way they come in, and the first record of the text
that is repeated decides on its mark and id. -/
theorem built_alike_paddedTexts :
    ((start (Ids.ofSeed 0)).run (paddedTexts.map Request.add)).mix.texts =
        ["B/TX".toList, "A/TX".toList] ∧
      (∃ next, (start (Ids.ofSeed 0)).load (Listing.print paddedRecords) = .ok next ∧
        next.mix.texts = ["B/TX".toList, "A/TX".toList] ∧
        ∃ item ∈ next.mix.items, item.text = "B/TX".toList ∧ item.id = ['7'] ∧
          item.selected = false) ∧
      ∃ report next, (start (Ids.ofSeed 0)).replaceAll
          ([outputSeparator].intercalate paddedTexts) = .ok (report, next) ∧
        next.mix.texts = ["B/TX".toList, "A/TX".toList] ∧
        (∀ item ∈ next.mix.items, item.selected = true) ∧
        report.added = 2 ∧ report.added + report.duplicates = 3 := by
  have hfirst : (Text.visible paddedTexts).eraseDups = ["B/TX".toList, "A/TX".toList] := by cbv
  have hall : (Text.visible paddedTexts).length = 3 := by cbv
  obtain ⟨hadded, hloaded, hreplaced⟩ := built_alike (Ids.ofSeed 0) paddedTexts
  rw [hfirst] at hadded
  refine ⟨hadded, ?_, ?_⟩
  · obtain ⟨next, hload, htexts, hitems⟩ := hloaded (start (Ids.ofSeed 0)) _ _
      (Listing.records?_print paddedRecords) rfl
    rw [hfirst] at htexts
    have hmem : "B/TX".toList ∈ next.mix.texts := htexts ▸ List.mem_cons_self
    obtain ⟨item, hitem, htext⟩ := List.mem_map.mp hmem
    obtain ⟨record, hrecord, hselected, hid⟩ := hitems item hitem
    -- The search for the text stops at the first of the four records.
    rw [htext] at hrecord
    obtain rfl : _ = record := Option.some.inj hrecord
    exact ⟨next, hload, htexts, item, hitem, htext, hid (by decide), hselected⟩
  · obtain ⟨report, next, hreplace, htexts, hselected, hcount, htotal⟩ :=
      hreplaced (start (Ids.ofSeed 0)) (by decide) (by decide)
    rw [hfirst] at htexts hcount
    exact ⟨report, next, hreplace, htexts, hselected, hcount, htotal.trans hall⟩

end Session

end QueryMix
