import QueryMix.Proofs.Json.Literal
import QueryMix.Proofs.Mix.Tidy

/-!
# `QueryMix.Proofs.Mix.Listing`: a listing gives back the mix it was written from

The printed record of an item is a run of tokens, and the tokens of a printed listing are
these runs between brackets and commas (`Listing.feed?_print`). They make up a value whose
members give the items back one by one, so the records of a printed listing are the items it
was printed from, whatever characters are in their ids and texts (`Listing.records?_print`).

Reading also puts right what it has read. That changes nothing in a mix that is tidy and has no
blank id, and the mix of a session is so at all times as long as no new id is blank
(`Session.read_listing_run`).
-/

set_option autoImplicit false

namespace QueryMix

open Json (Token Scan Value Frame Reading)
open List (Subperm)

/-! ### From items to tokens and values -/

namespace Item

/-- The tokens of the record of an item. -/
def tokens (item : Item) : List Token :=
  [.openObject,
    .text (some "id".toList), .colon, .text (some item.id), .comma,
    .text (some "text".toList), .colon, .text (some item.text), .comma,
    .text (some "selected".toList), .colon, .bool item.selected,
    .closeObject]

/-- The value of the record of an item. -/
def value (item : Item) : Value :=
  .object
    [(some "id".toList, .text (some item.id)), (some "text".toList, .text (some item.text)),
      (some "selected".toList, .bool item.selected)]

/-- The printed record of an item is scanned as the tokens of the record, and the scanner ends
between tokens. -/
theorem feed?_print (item : Item) :
    Scan.between.feed? item.print = some (item.tokens, .between) := by
  have hmark : Scan.between.feed? (if item.selected then "true" else "false").toList =
      some ([.bool item.selected], .between) := by
    cases item.selected with
    | true => rfl
    | false => rfl
  have hid : Scan.between.feed? "  \x7b\n    \"id\": ".toList =
      some ([.openObject, .text (some "id".toList), .colon], .between) := rfl
  have htext : Scan.between.feed? ",\n    \"text\": ".toList =
      some ([.comma, .text (some "text".toList), .colon], .between) := rfl
  have hselected : Scan.between.feed? ",\n    \"selected\": ".toList =
      some ([.comma, .text (some "selected".toList), .colon], .between) := rfl
  have hend : Scan.between.feed? "\n  \x7d".toList = some ([.closeObject], .between) := rfl
  have hfirst := Scan.feed?_append hid (Scan.feed?_literal item.id)
  have hsecond := Scan.feed?_append (Scan.feed?_append hfirst htext) (Scan.feed?_literal item.text)
  exact Scan.feed?_append (Scan.feed?_append (Scan.feed?_append hsecond hselected) hmark) hend

/-- Where a value must come, the tokens of a record make up its value. -/
theorem foldlM_tokens (around : List Frame) (item : Item) :
    item.tokens.foldlM Reading.step (.value around) = some (.after around item.value) := rfl

/-- Among the values of a record, each key finds its own. -/
theorem ofValue?_value (item : Item) : ofValue? item.value = some item := rfl

end Item

namespace Listing

section Printed

variable (items : List Item)

/-- Printed records with a comma and a line break between them are scanned one after the other. -/
theorem feed?_intercalate :
    Scan.between.feed? (",\n".toList.intercalate (items.map Item.print)) =
      some ([Token.comma].intercalate (items.map Item.tokens), .between) := by
  induction items with
  | nil => rfl
  | cons item rest ih =>
    cases rest with
    | nil => simpa using item.feed?_print
    | cons second rest =>
      have hseparator : Scan.between.feed? ",\n".toList = some ([.comma], .between) := rfl
      have hrest := Scan.feed?_append (Scan.feed?_append item.feed?_print hseparator) ih
      simpa using hrest

/-- The tokens of a printed listing. -/
theorem feed?_print : Scan.between.feed? (print items) =
    some (.openArray :: ([Token.comma].intercalate (items.map Item.tokens) ++ [Token.closeArray]),
      .between) := by
  cases items with
  | nil => rfl
  | cons item rest =>
    have hopen : Scan.between.feed? "[\n".toList = some ([.openArray], .between) := rfl
    have hclose : Scan.between.feed? "\n]".toList = some ([.closeArray], .between) := rfl
    exact Scan.feed?_append (Scan.feed?_append hopen (feed?_intercalate (item :: rest))) hclose

/-- After some members of an array, the records that are left and the end of the array. -/
theorem foldlM_members (around : List Frame) (members : List Value) (item : Item) :
    ([Token.comma].intercalate ((item :: items).map Item.tokens) ++ [Token.closeArray]).foldlM
        Reading.step (.value (.array members :: around)) =
      some (.after around (.array (members.reverse ++ (item :: items).map Item.value))) := by
  -- The members that have been read wait last first, so each record goes to the front of them.
  induction items generalizing members item with
  | nil =>
    rw [List.map_singleton, List.intercalate_singleton, List.foldlM_append,
      Item.foldlM_tokens]
    show some (Reading.after around (.array (item.value :: members).reverse)) = _
    rw [List.reverse_cons]
    rfl
  | cons second rest ih =>
    have htokens : [Token.comma].intercalate ((item :: second :: rest).map Item.tokens) =
        item.tokens ++ .comma :: [Token.comma].intercalate ((second :: rest).map Item.tokens) := by
      simp
    rw [htokens, List.append_assoc, List.foldlM_append, Item.foldlM_tokens]
    -- The comma asks for the next member, after one member more.
    show ([Token.comma].intercalate ((second :: rest).map Item.tokens) ++ [Token.closeArray]).foldlM
      Reading.step (.value (.array (item.value :: members) :: around)) = _
    rw [ih, List.reverse_cons, List.append_assoc]
    rfl

/-- Where the first member of an array or its end may come, a record is a member. -/
theorem foldlM_firstMember (around : List Frame) (item : Item) (rest : List Token) :
    ([Token.comma].intercalate ((item :: items).map Item.tokens) ++ rest).foldlM
        Reading.step (.firstMember around) =
      ([Token.comma].intercalate ((item :: items).map Item.tokens) ++ rest).foldlM
        Reading.step (.value (.array [] :: around)) := by
  cases items with
  | nil => rfl
  | cons second items => rfl

/-- A printed listing is the array of the values of its items. -/
theorem ofText?_print : Value.ofText? (print items) = some (.array (items.map Item.value)) := by
  have hend : Scan.between.finish = some [] := rfl
  have htokens := Scan.tokens?_of_feed? (feed?_print items) hend
  rw [List.append_nil] at htokens
  rw [Value.ofText?, Token.ofText?, htokens, Option.bind_eq_bind, Option.bind_some,
    Value.ofTokens?, Option.bind_eq_bind, Option.bind_eq_some_iff]
  refine ⟨.after [] (.array (items.map Item.value)), ?_, rfl⟩
  cases items with
  | nil => rfl
  | cons item rest =>
    -- The first record stands where the end of the array could stand too.
    have hmembers := foldlM_members rest [] [] item
    rw [← foldlM_firstMember] at hmembers
    exact hmembers

/-- The records of a printed listing are the items it was printed from. -/
theorem records?_print : records? (print items) = some items := by
  have hmembers : (items.map Item.value).mapM Item.ofValue? = some items := by
    induction items with
    | nil => rfl
    | cons item rest ih => simp [Item.ofValue?_value, ih]
  rw [records?, ofText?_print]
  exact hmembers

end Printed

/-! ### What is read is put right -/

end Listing

/-- No id of the sequence is blank. -/
def Ids.Visible (ids : Ids) : Prop := ∀ n, Text.allBlank (ids.name n) = false

/-- Identifiers hold a hyphen. -/
theorem Ids.visible_ofSeed (seed : Nat) : (ofSeed seed).Visible := by
  intro n
  have hhyphen : '-' ∈ identifier (seed + n) := by simp [identifier]
  show (Text.trim (identifier (seed + n))).isEmpty = false
  rw [List.isEmpty_eq_false_iff, Ne, Text.trim_eq_nil_iff]
  intro hblank
  exact absurd (hblank _ hhyphen) (by decide)

/-- No item has a blank id. -/
def Mix.Identified (m : Mix) : Prop := ∀ item ∈ m.items, Text.allBlank item.id = false

/-- Ids go with the items that are kept. -/
theorem Mix.Identified.of_subperm {m m' : Mix} (hm : m.Identified)
    (h : Subperm m'.entries m.entries) : m'.Identified := by
  intro item hitem
  obtain ⟨kept, hkept, hentry⟩ :=
    List.mem_map.mp (h.subset (List.mem_map_of_mem hitem))
  have hid : kept.id = item.id := congrArg Prod.fst hentry
  rw [← hid]
  exact hm kept hkept

namespace Listing

/-- Every blank id is replaced. -/
theorem identified_identify {ids : Ids} (hids : ids.Visible) (items : List Item) :
    Mix.Identified ⟨(identify ids items).1⟩ ∧ (identify ids items).2.Visible := by
  induction items generalizing ids with
  | nil => exact ⟨fun _ hitem => (nomatch hitem), hids⟩
  | cons item rest ih =>
    rw [identify]
    split
    · have hspend : ids.spend.Visible := hids
      obtain ⟨hrest, hlast⟩ := ih hspend
      exact ⟨List.forall_mem_cons.mpr ⟨hids ids.spent, hrest⟩, hlast⟩
    · next hid =>
      obtain ⟨hrest, hlast⟩ := ih hids
      exact ⟨List.forall_mem_cons.mpr ⟨Bool.eq_false_iff.mpr hid, hrest⟩, hlast⟩

/-- No item that has an id gets a new one. -/
theorem identify_eq_self {items : List Item} (h : Mix.Identified ⟨items⟩) (ids : Ids) :
    identify ids items = (items, ids) := by
  induction items with
  | nil => rfl
  | cons item rest ih =>
    obtain ⟨hitem, hrest⟩ := List.forall_mem_cons.mp h
    rw [identify, if_neg (Bool.eq_false_iff.mp hitem), ih hrest]

/-- A mix that is tidy and has no blank id is read from its listing as it is. -/
theorem read_listing {m : Mix} (htidy : m.Tidy) (hid : m.Identified) (ids : Ids) :
    Listing.read ids m.listing = .ok (m, ids) := by
  have hkept : keepFirst [] m.items = m.items :=
    keepFirst_of_tidy htidy fun item _ => List.not_mem_nil
  rw [read_eq_ok_iff]
  refine ⟨m.items, records?_print m.items, ?_⟩
  rw [repair, hkept, identify_eq_self hid]

end Listing

namespace Session

/-- A session whose new ids are not blank never has an item with a blank id. -/
theorem identified_run {ids : Ids} (hids : ids.Visible) {s : Session} (h : Opened ids s)
    (requests : List Request) : (s.run requests).mix.Identified := by
  -- The ids that are still to come go along, since an addition takes the next of them.
  refine (opened_induction (P := fun s => s.mix.Identified ∧ s.ids.Visible)
    ?_ ?_ ?_ ⟨fun _ hitem => (nomatch hitem), hids⟩ h requests).1
  · intro s s' hs hkept hsame
    rw [hsame]
    exact ⟨hs.1.of_subperm hkept, hs.2⟩
  · intro s t hs _ _
    refine ⟨fun item hitem => ?_, hs.2⟩
    rcases List.mem_append.mp hitem with hitem | hitem
    · exact hs.1 item hitem
    · rw [List.mem_singleton.mp hitem]
      exact hs.2 s.ids.spent
  · intro s s' listing hs hload
    obtain ⟨records, -, hrepair⟩ := Listing.read_eq_ok_iff.mp (load_eq_ok_iff.mp hload)
    have hnext := Listing.identified_identify hs.2 (Listing.keepFirst [] records)
    obtain ⟨hmix, hids⟩ := Prod.mk.inj hrepair
    rwa [hmix, hids] at hnext

/-- Wherever requests lead from a session that was opened with an empty mix or with a listing,
the listing of its mix is read back as that mix: the same items in the same order, with the
same ids, texts and marks, whatever characters they hold. All that is asked of the source of
ids is that it gives no blank ones. -/
theorem read_listing_run {ids : Ids} (hids : ids.Visible) {s : Session} (h : Opened ids s)
    (requests : List Request) (ids' : Ids) :
    Listing.read ids' (s.run requests).mix.listing = .ok ((s.run requests).mix, ids') :=
  Listing.read_listing (tidy_run h requests) (identified_run hids h requests) ids'

/-- Two records as other programs may write them: one with a quote and a character beyond the
first 65536 in its id, and one with a blank id and control characters in its text. -/
def foreignListing : Text :=
  "[[\"\\\"\\ud835\\udd4f\", \"A/TX\", false], [\" \", \"B\\n\\u0001/TX\", true]]".toList

/-- Its first record keeps its id and the second gets one. The mix is read back from its own
listing after a formula was added and one was moved. -/
theorem read_listing_run_foreignListing :
    ∃ s, Opened (Ids.ofSeed 0) s ∧
      s.mix.items = [⟨"\"𝕏".toList, "A/TX".toList, false⟩,
        ⟨Ids.identifier 0, "B\n\x01/TX".toList, true⟩] ∧
      Listing.read (Ids.ofSeed 9)
          (s.run [.add "\\ \t𝕏/TX".toList, .moveUp 2]).mix.listing =
        .ok ((s.run [.add "\\ \t𝕏/TX".toList, .moveUp 2]).mix, Ids.ofSeed 9) := by
  have hload : (start (Ids.ofSeed 0)).load foreignListing =
      .ok ⟨⟨[⟨"\"𝕏".toList, "A/TX".toList, false⟩,
        ⟨Ids.identifier 0, "B\n\x01/TX".toList, true⟩]⟩, (Ids.ofSeed 0).spend⟩ := by cbv
  exact ⟨_, .listing hload, rfl, read_listing_run (Ids.visible_ofSeed 0) (.listing hload) _ _⟩

end Session

end QueryMix
