import QueryMix.Proofs.Formula.Written
import QueryMix.Proofs.Mix.Additions

/-!
# `QueryMix.Proofs.Mix.Output`: an output text is split where it was joined

The output text of a mix is its selected texts with separators between them, and nothing in
it tells a separator that was put there from one that belongs to a text. So splitting gives
the texts back only if none of them holds a separator (`replaceAll_output`). The texts of a
tidy mix are different from each other and trimmed, so none of them is dropped or changed when
the parts are added again.

Where the texts of a mix come from is followed through a run of requests: each was there
at the start, or is what trimming leaves of a text that a request brings
(`mem_texts_run`). A replacement brings parts of an output text, which hold no separator
whatever the output text. If the other texts that are brought are written by the encoder,
they hold none either, and the output text of the mix is split where it was joined
(`written_and_replaceAll_output`).
-/

set_option autoImplicit false

namespace QueryMix

/-! ### Texts that are brought -/

/-- The texts that a request brings, as they are given: to be added, as parts of an output
text, or as the texts of the records that are kept of a listing. -/
def Request.brings : Request → List Text
  | .add t => [t]
  | .replaceAll output => Session.outputParts output
  | .load listing =>
    match Listing.records? listing with
    | some records => (Listing.keepFirst [] records).map Item.text
    | none => []
  | _ => []

/-- Every text that the request brings is written by the encoder. Nothing is asked of a
replacement by an output text. -/
def Request.BringsWritten (request : Request) : Prop :=
  (∃ output, request = .replaceAll output) ∨ ∀ t ∈ request.brings, Formula.IsWritten t

namespace Session

/-- A text that an addition leaves in the mix was in it before, or it is the one that was added. -/
theorem mem_texts_add {s : Session} {t u : Text} (h : u ∈ (s.add t).2.mix.texts) :
    u ∈ s.mix.texts ∨ u = Text.trim t := by
  rcases s.add_cases t with ⟨-, hadd⟩ | ⟨-, -, hadd⟩ | ⟨-, -, hadd⟩
  · rw [hadd] at h
    exact .inl h
  · rw [hadd] at h
    exact .inl h
  · rw [hadd] at h
    simpa [Mix.texts] using h

/-- The same holds of additions in a row. -/
theorem mem_texts_addAll {s : Session} {ts : List Text} {u : Text}
    (h : u ∈ (s.addAll ts).2.mix.texts) : u ∈ s.mix.texts ∨ ∃ t ∈ ts, u = Text.trim t := by
  induction ts generalizing s with
  | nil => exact .inl h
  | cons t ts ih =>
    rw [addAll_cons] at h
    rcases ih h with h | ⟨v, hv, hu⟩
    · exact (mem_texts_add h).imp_right fun hu => ⟨t, List.mem_cons_self, hu⟩
    · exact .inr ⟨v, List.mem_cons_of_mem _ hv, hu⟩

/-- A text that a request leaves in the mix was in it before, or the request brings it. -/
theorem mem_texts_answer {s : Session} {request : Request} {u : Text}
    (h : u ∈ (s.answer request).2.mix.texts) :
    u ∈ s.mix.texts ∨ ∃ t ∈ request.brings, u = Text.trim t := by
  rcases s.answer_cases request with
    ⟨hkept, -⟩ | ⟨t, rfl, hadd⟩ | ⟨output, rfl, hall⟩ | ⟨listing, rfl, hload⟩
  · rw [Mix.texts_eq] at h ⊢
    exact .inl ((subperm_map Prod.snd hkept).subset h)
  · rw [hadd] at h
    exact (mem_texts_add h).imp_right fun hu => ⟨t, List.mem_singleton_self t, hu⟩
  · rw [hall] at h
    exact .inr ((mem_texts_addAll h).resolve_left List.not_mem_nil)
  · obtain ⟨records, hrecords, hrepair⟩ := Listing.read_eq_ok_iff.mp (load_eq_ok_iff.mp hload)
    have hmix : (Listing.repair s.ids records).1 = (s.answer (.load listing)).2.mix := by
      rw [hrepair]
    rw [← hmix] at h
    -- The texts of a listing are those of the records that are kept of it.
    have hkept : u ∈ (Listing.keepFirst [] records).map Item.text := by
      rwa [← Listing.texts_identify s.ids]
    obtain ⟨item, hitem, rfl⟩ := List.mem_map.mp hkept
    refine .inr ⟨item.text, ?_, (Listing.text_of_mem_keepFirst hitem).2.1.symm⟩
    rw [Request.brings, hrecords]
    exact hkept

/-- A text that is in the mix after a run of requests was in it before, or one of the requests
brings it. -/
theorem mem_texts_run {s : Session} {requests : List Request} {u : Text}
    (h : u ∈ (s.run requests).mix.texts) :
    u ∈ s.mix.texts ∨ ∃ request ∈ requests, ∃ t ∈ request.brings, u = Text.trim t := by
  induction requests generalizing s with
  | nil => exact .inl h
  | cons request rest ih =>
    rcases ih h with h | ⟨later, hlater, hbrings⟩
    · exact (mem_texts_answer h).imp_right fun hbrings => ⟨request, List.mem_cons_self, hbrings⟩
    · exact .inr ⟨later, List.mem_cons_of_mem _ hlater, hbrings⟩

/-- The parts of an output text hold no separator, and written texts hold none either. -/
theorem separator_not_mem_run {ids : Ids} {requests : List Request}
    (h : ∀ request ∈ requests, request.BringsWritten) {u : Text}
    (hu : u ∈ ((start ids).run requests).mix.texts) : outputSeparator ∉ u := by
  rcases mem_texts_run hu with hempty | ⟨request, hrequest, t, ht, rfl⟩
  · cases hempty
  · refine fun hsep => ?_
    have hmem : outputSeparator ∈ t := (Text.trim_sublist t).subset hsep
    rcases h request hrequest with ⟨output, rfl⟩ | hwritten
    · exact Text.not_mem_of_mem_splitOn ht hmem
    · obtain ⟨config, mode, words, counts, hencode⟩ := hwritten t ht
      exact Formula.separator_not_mem_of_encode hencode hmem

end Session

/-! ### Splitting what was joined -/

namespace Mix

/-- The selected texts of a tidy mix are trimmed, not empty, and different from each other. -/
theorem Tidy.selectedTexts {m : Mix} (h : m.Tidy) :
    (∀ t ∈ m.selectedTexts, t ≠ [] ∧ Text.trim t = t) ∧ m.selectedTexts.Nodup := by
  have hsub : m.selectedTexts.Sublist m.texts := List.filter_sublist.map Item.text
  exact ⟨fun t ht => ⟨h.ne_nil t (hsub.subset ht), h.trimmed t (hsub.subset ht)⟩,
    h.nodup.sublist hsub⟩

/-- Something is selected if there is an output text, which joins the selected texts. -/
theorem output_eq_ok {m : Mix} {output : Text} (h : m.output = .ok output) :
    m.selectedTexts ≠ [] ∧ output = [outputSeparator].intercalate m.selectedTexts := by
  rw [Mix.output, joinSelected] at h
  split at h
  · cases h
  · next hne => exact ⟨by simpa using hne, (Except.ok.inj h).symm⟩

end Mix

namespace Session

/-- If no text of a tidy mix holds a separator, a session whose mix is replaced by its output
text has just its selected texts, in their order and all selected. -/
theorem replaceAll_output {m : Mix} (htidy : m.Tidy) (hsep : ∀ t ∈ m.texts, outputSeparator ∉ t)
    {output : Text} (h : m.output = .ok output) (s : Session) :
    ∃ next, s.replaceAll output = .ok (⟨m.selectedTexts.length, 0⟩, next) ∧
      next.mix.texts = m.selectedTexts ∧ ∀ item ∈ next.mix.items, item.selected = true := by
  obtain ⟨hne, rfl⟩ := Mix.output_eq_ok h
  obtain ⟨htexts, hnodup⟩ := htidy.selectedTexts
  have hclean : ∀ t ∈ m.selectedTexts, outputSeparator ∉ t := by
    intro t ht
    obtain ⟨item, hitem, rfl⟩ := List.mem_map.mp ht
    exact hsep _ (List.mem_map_of_mem (List.mem_of_mem_filter hitem))
  have hvisible : ∃ t ∈ m.selectedTexts, Text.allBlank t = false := by
    obtain ⟨t, ht⟩ := List.exists_mem_of_ne_nil _ hne
    obtain ⟨htne, htrim⟩ := htexts t ht
    exact ⟨t, ht, by rw [Text.allBlank, htrim]; simpa using htne⟩
  obtain ⟨⟨added, duplicates⟩, next, hreplaced, hnext, hselected, hadded, htotal⟩ :=
    s.replaceAll_intercalate hclean hvisible
  -- The selected texts are visible as they are, and there is no repeat among them.
  rw [Text.visible_eq_self htexts] at htotal
  rw [Text.visible_eq_self htexts, Text.eraseDups_of_nodup hnodup] at hnext hadded
  simp only at hadded htotal
  obtain rfl : duplicates = 0 := by omega
  exact ⟨next, by rw [hreplaced, hadded], hnext, hselected⟩

/-- What is written is not empty, has no blanks at its ends, holds no separator, and is balanced.
So the output text of a mix is split where it was joined if requests that bring only written
texts have led to the mix: when the mix of any session is replaced by that text, as many
formulas are added as were selected, none is found to be there already, and the new mix has
just the selected texts, in their order and all selected. -/
theorem written_and_replaceAll_output :
    (∀ config mode words counts t, Formula.encode config mode words counts = .ok t →
      t ≠ [] ∧ Text.trim t = t ∧ outputSeparator ∉ t ∧ Bracket.isBalanced t = true) ∧
    ∀ (ids : Ids) (requests : List Request), (∀ request ∈ requests, request.BringsWritten) →
      ∀ output, ((start ids).run requests).mix.output = .ok output → ∀ s : Session, ∃ next,
        s.replaceAll output =
            .ok (⟨((start ids).run requests).mix.selectedTexts.length, 0⟩, next) ∧
          next.mix.texts = ((start ids).run requests).mix.selectedTexts ∧
          ∀ item ∈ next.mix.items, item.selected = true := by
  refine ⟨fun config mode words counts t h => ?_, fun ids requests hwritten output h => ?_⟩
  · have hslot := Formula.isSlot_of_encode h
    exact ⟨hslot.ne_nil, hslot.trimmed, Formula.separator_not_mem_of_encode h, hslot.balanced⟩
  · exact replaceAll_output (tidy_run .empty requests)
      (fun u hu => separator_not_mem_run hwritten hu) h

/-- Requests that bring formulas in all three ways: as parts of an output text, by a listing, and
by themselves. -/
def gathering : List Request :=
  [.replaceAll "X/TX * *X/TX".toList, .load "[[\"7\", \" [A/FT+A/CP]\", false]]".toList,
    .add "B,3N,C/TX".toList, .add "D/TX".toList, .moveUp 2]

/-- Two of the formulas that are gathered are selected. They replace a mix that has one of them
already. -/
theorem replaceAll_output_gathering : ∃ next,
    ((start (Ids.ofSeed 0)).run [.add "D/TX".toList]).replaceAll
        "D/TX*B,3N,C/TX".toList = .ok (⟨2, 0⟩, next) ∧
      next.mix.texts = ["D/TX".toList, "B,3N,C/TX".toList] ∧
      ∀ item ∈ next.mix.items, item.selected = true := by
  have hkept : Request.brings (.load "[[\"7\", \" [A/FT+A/CP]\", false]]".toList) =
      ["[A/FT+A/CP]".toList] := by cbv
  have hcode : Formula.IsWritten "[A/FT+A/CP]".toList :=
    ⟨Config.literal, .classification, ["Ａ".toList], [], by cbv⟩
  have hpair : Formula.IsWritten "B,3N,C/TX".toList :=
    ⟨Config.literal, .pair, ["Ｂ".toList, "(C)".toList], ["３".toList], by cbv⟩
  have hsingle : Formula.IsWritten "D/TX".toList :=
    ⟨Config.literal, .single, ["D".toList], [], by cbv⟩
  have hwritten : ∀ request ∈ gathering, request.BringsWritten := by
    simp only [gathering, List.forall_mem_cons, Request.BringsWritten, hkept]
    exact ⟨.inl ⟨_, rfl⟩, .inr (by simpa using hcode), .inr (by simpa [Request.brings] using hpair),
      .inr (by simpa [Request.brings] using hsingle), .inr (by simp [Request.brings]), by simp⟩
  -- What the mix was before the listing is loaded leaves no trace but in the ids.
  have hloaded (s : Session) :
      (s.answer (.load "[[\"7\", \" [A/FT+A/CP]\", false]]".toList)).2 =
        ⟨⟨[⟨['7'], "[A/FT+A/CP]".toList, false⟩]⟩, s.ids⟩ := by
    have hload : s.load "[[\"7\", \" [A/FT+A/CP]\", false]]".toList =
        .ok ⟨⟨[⟨['7'], "[A/FT+A/CP]".toList, false⟩]⟩, s.ids⟩ := by cbv
    rw [answer, hload]
  have hmix : ((start (Ids.ofSeed 0)).run gathering).mix =
      ⟨[⟨['7'], "[A/FT+A/CP]".toList, false⟩, ⟨Ids.identifier 2, "D/TX".toList, true⟩,
        ⟨Ids.identifier 1, "B,3N,C/TX".toList, true⟩]⟩ := by
    rw [gathering, run, List.foldl_cons, List.foldl_cons, hloaded]
    rfl
  have houtput : ((start (Ids.ofSeed 0)).run gathering).mix.output =
      .ok "D/TX*B,3N,C/TX".toList := by
    rw [hmix]
    rfl
  obtain ⟨next, hreplaced, htexts, hmarks⟩ :=
    written_and_replaceAll_output.2 (Ids.ofSeed 0) gathering hwritten _ houtput
      ((start (Ids.ofSeed 0)).run [.add "D/TX".toList])
  rw [hmix] at hreplaced htexts
  exact ⟨next, hreplaced, htexts, hmarks⟩

end Session

end QueryMix
