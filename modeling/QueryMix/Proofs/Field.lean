import QueryMix.Field
import QueryMix.Proofs.Bracket.Split
import QueryMix.Proofs.Text.Ending
import QueryMix.Proofs.Text.Width

/-!
# `QueryMix.Proofs.Field`: where a text is cut after a suffix

`splitAfter?` cuts at a `+` at top level whose left side ends in the suffix
(`splitAfter?_eq_some`). It takes the first one, so a left side that has the suffix is always
found if no such `+` stands inside it (`splitAfter?_append_plus`). A suffix may be in any case
of letters: whatever the case, it holds no brackets, blanks or `+`, so dropping it leaves the
reading of brackets as it is (`strictAfter?_dropEnding?`), and it is dropped from any text that
it was put after (`dropEnding?_append_of_foldCase`).
-/

set_option autoImplicit false

namespace QueryMix.Field

open QueryMix.Bracket QueryMix.Nesting

/-- A suffix holds no brackets. -/
theorem roleOf_of_mem_suffix (field : Field) : ∀ c ∈ field.suffix, roleOf c = .plain := by
  cases field <;> simp [suffix, roleOf]

/-- No suffix is empty. -/
theorem suffix_ne_nil (field : Field) : field.suffix ≠ [] := by
  cases field <;> decide

/-- A suffix has no blanks at its ends. -/
@[simp] theorem trim_suffix (field : Field) : Text.trim field.suffix = field.suffix := by
  cases field <;> rfl

/-- A suffix holds no `+`. -/
theorem plus_not_mem_suffix (field : Field) : '+' ∉ field.suffix := by
  cases field <;> decide

/-- A field is known by its suffix, even when the case of letters is lost. -/
theorem eq_of_foldCase_suffix {field field' : Field}
    (h : Text.foldCase field.suffix = Text.foldCase field'.suffix) : field = field' := by
  revert h
  cases field <;> cases field' <;> decide

/-- What holds no `+` adds none to the text that it is put after. -/
theorem splitTop_append_of_not_mem {t e : Text} (h : splitTop '+' t = [t]) (he : '+' ∉ e) :
    splitTop '+' (t ++ e) = [t ++ e] := by
  rw [splitTop, splitFrom_append_of_uncut h, splitFrom_of_not_mem he]
  rfl

/-- A suffix adds no `+` to the text that it is put after. -/
theorem splitTop_append_suffix {t : Text} (h : splitTop '+' t = [t]) (field : Field) :
    splitTop '+' (t ++ field.suffix) = [t ++ field.suffix] :=
  splitTop_append_of_not_mem h (plus_not_mem_suffix field)

/-- What stands before the `+` that was found: a part that ends at top level and, with what
was seen before it, has the suffix. -/
theorem splitAfterFrom_eq_some {field : Field} {nest : Nesting} {seen t l r : Text}
    (h : splitAfterFrom field nest seen t = some (l, r)) :
    ∃ s : Text, t = s ++ '+' :: r ∧ l = seen.reverse ++ s ∧ after nest s = [] ∧
      Text.hasEnding l field.suffix = true := by
  induction t generalizing nest seen with
  | nil => cases h
  | cons c t ih =>
    rw [splitAfterFrom] at h
    split at h
    · next hc =>
      rw [Bool.and_eq_true, Bool.and_eq_true, beq_iff_eq, List.isEmpty_iff] at hc
      obtain ⟨⟨rfl, rfl⟩, hend⟩ := hc
      obtain ⟨rfl, rfl⟩ := Prod.mk.inj (Option.some.inj h)
      exact ⟨[], rfl, (List.append_nil _).symm, rfl, hend⟩
    · obtain ⟨s, rfl, rfl, hafter, hend⟩ := ih h
      exact ⟨c :: s, rfl, by simp, hafter, hend⟩

/-- A `+` that was found stands at top level, and what precedes it has the suffix. -/
theorem splitAfter?_eq_some {field : Field} {t l r : Text}
    (h : field.splitAfter? t = some (l, r)) :
    t = l ++ '+' :: r ∧ after [] l = [] ∧ Text.hasEnding l field.suffix = true := by
  obtain ⟨s, rfl, rfl, hafter, hend⟩ := splitAfterFrom_eq_some h
  exact ⟨rfl, hafter, hend⟩

/-- No `+` at top level directly follows the suffix. -/
def Unsplit (field : Field) (t : Text) : Prop :=
  ∀ u v : Text, t = u ++ '+' :: v → after [] u = [] → Text.hasEnding u field.suffix = false

/-- A text without `+` at top level has none that follows the suffix. -/
theorem unsplit_of_uncut {t : Text} (h : splitTop '+' t = [t]) (field : Field) :
    field.Unsplit t := by
  intro u v ht hafter
  rw [ht] at h
  exact absurd hafter (after_ne_nil_of_uncut (by decide) h)

/-- What is put after a text and holds no `+` changes nothing about this. -/
theorem Unsplit.append {field : Field} {t : Text} (h : field.Unsplit t) {e : Text}
    (he : '+' ∉ e) : field.Unsplit (t ++ e) := by
  intro u v hte hafter
  rcases List.append_eq_append_iff.mp hte with ⟨w, hu, hw⟩ | ⟨w, ht, hw⟩
  · exact absurd (by simp [hw]) he
  · cases w with
    | nil =>
      rw [List.nil_append] at hw
      exact absurd (hw ▸ List.mem_cons_self) he
    | cons c w =>
      rw [← (List.cons.inj hw).1] at ht
      exact h u w ht hafter

/-- If what is seen up to a `+` inside `s` never has the suffix, and what is seen up to the end of
`s` has it, the search passes over `s` and cuts at the `+` after it. -/
theorem splitAfterFrom_append_plus {field : Field} {nest : Nesting} {seen s : Text}
    (hfirst : ∀ u v : Text, s = u ++ '+' :: v → after nest u = [] →
      Text.hasEnding (seen.reverse ++ u) field.suffix = false)
    (hafter : after nest s = [])
    (hend : Text.hasEnding (seen.reverse ++ s) field.suffix = true) (r : Text) :
    splitAfterFrom field nest seen (s ++ '+' :: r) = some (seen.reverse ++ s, r) := by
  induction s generalizing nest seen with
  | nil =>
    rw [after_nil] at hafter
    rw [List.append_nil] at hend ⊢
    rw [List.nil_append, splitAfterFrom, if_pos (by simp [hafter, hend])]
  | cons c s ih =>
    -- The place before `c` is one of those where the test must fail.
    have htest :
        ¬(c == '+' && nest.isEmpty && Text.hasEnding seen.reverse field.suffix) = true := by
      intro htest
      rw [Bool.and_eq_true, Bool.and_eq_true, beq_iff_eq, List.isEmpty_iff] at htest
      have hnot := hfirst [] s (by rw [htest.1.1]; rfl) htest.1.2
      rw [List.append_nil, htest.2] at hnot
      cases hnot
    have hseen (u : Text) : (c :: seen).reverse ++ u = seen.reverse ++ c :: u := by simp
    have hlater : ∀ u v : Text, s = u ++ '+' :: v → after (nest.step c) u = [] →
        Text.hasEnding ((c :: seen).reverse ++ u) field.suffix = false := by
      intro u v hs hu
      rw [hseen]
      exact hfirst (c :: u) v (by rw [hs]; rfl) hu
    rw [List.cons_append, splitAfterFrom, if_neg htest,
      ih hlater hafter (by rw [hseen]; exact hend), hseen]

/-- A left side that has the suffix and ends at top level is found, if there is no place
inside it where it could be cut. -/
theorem splitAfter?_append_plus {field : Field} {s : Text} (hunsplit : field.Unsplit s)
    (hafter : after [] s = []) (hend : Text.hasEnding s field.suffix = true) (r : Text) :
    field.splitAfter? (s ++ '+' :: r) = some (s, r) := by
  have hseen (u : Text) : ([] : Text).reverse ++ u = u := rfl
  refine splitAfterFrom_append_plus (fun u v hs hu => ?_) hafter (by rw [hseen]; exact hend) r
  rw [hseen]
  exact hunsplit u v hs hu

/-! ### Suffixes in any case of letters -/

section AnyCase

variable {field : Field} {e : Text} (he : Text.foldCase e = Text.foldCase field.suffix)

include he

/-- What is a suffix up to the case of letters is made of capitals and of the characters of the
suffix in small letters. -/
theorem isUpper_or_mem_of_foldCase {c : Char} (hc : c ∈ e) :
    c.isUpper = true ∨ c ∈ Text.foldCase field.suffix := by
  by_cases hupper : c.isUpper = true
  · exact .inl hupper
  · have hlower : c.toLower = c :=
      dif_neg (of_decide_eq_false (Bool.eq_false_iff.mpr hupper))
    rw [← he, ← hlower]
    exact .inr (List.mem_map_of_mem hc)

/-- So it has no character that is neither alphanumeric nor in the suffix. -/
theorem not_of_foldCase {p : Char → Bool} (hupper : ∀ c : Char, c.isAlphanum = true → p c = false)
    (hsuffix : (Text.foldCase field.suffix).any p = false) : ∀ c ∈ e, p c = false := by
  intro c hc
  rcases isUpper_or_mem_of_foldCase he hc with h | h
  · have halphanum : ((c.isUpper || c.isLower) || c.isDigit) = true := by simp [h]
    exact hupper c halphanum
  · exact Bool.eq_false_iff.mpr (List.any_eq_false.mp hsuffix c h)

/-- It holds no brackets. -/
theorem roleOf_of_foldCase : ∀ c ∈ e, roleOf c = .plain := by
  intro c hc
  have hnone : isBracket c = false :=
    not_of_foldCase he (p := isBracket)
      (fun d hd => isBracket_eq_false_iff.mpr (Text.roleOf_of_isAlphanum hd))
      (by cases field <;> decide) c hc
  exact isBracket_eq_false_iff.mp hnone

/-- It holds no `+`. -/
theorem plus_not_mem_of_foldCase : '+' ∉ e := by
  intro hmem
  have hnone := not_of_foldCase he (p := (· == '+'))
    (fun c hc => by
      rw [beq_eq_false_iff_ne]
      rintro rfl
      cases hc)
    (by cases field <;> decide) '+' hmem
  cases hnone

/-- Trimming leaves it alone. -/
theorem trim_of_foldCase : Text.trim e = e := by
  have hblank : ∀ c ∈ e, Text.isBlank c = false :=
    not_of_foldCase he (fun c hc => Text.isBlank_of_isAlphanum hc) (by cases field <;> decide)
  exact Text.trim_eq_self_iff.mpr ⟨fun c hc => hblank c (List.mem_of_mem_head? hc),
    fun c hc => hblank c (List.mem_of_getLast? hc)⟩

/-- It is not empty. -/
theorem ne_nil_of_foldCase : e ≠ [] := by
  rintro rfl
  revert he
  cases field <;> decide

/-- Trimming works only at the start of a text that ends with it. -/
theorem trim_append_of_foldCase (s : Text) : Text.trim (s ++ e) = Text.trimStart s ++ e :=
  Text.trim_append_of_trimmed (trim_of_foldCase he) (ne_nil_of_foldCase he) s

/-- It is dropped like the suffix. -/
theorem dropEnding?_append_of_foldCase (s : Text) :
    Text.dropEnding? (s ++ e) field.suffix = some (Text.trim s) :=
  Text.dropEnding?_eq_some_iff.mpr
    ⟨Text.trimStart s, e, trim_append_of_foldCase he s, (Text.trim_trimStart s).symm, he⟩

end AnyCase

/-- A text that ends in a suffix ends in it when it is trimmed. -/
theorem hasEnding_trim {field : Field} {t : Text} (h : Text.hasEnding t field.suffix = true) :
    Text.hasEnding (Text.trim t) field.suffix = true := by
  obtain ⟨s, e, rfl, he⟩ := Text.hasEnding_iff_append.mp h
  rw [trim_append_of_foldCase he]
  exact Text.hasEnding_iff_append.mpr ⟨_, e, rfl, he⟩

/-- All suffixes are of one length, so a text ends in one of them at most. -/
theorem eq_of_hasEnding {field field' : Field} {t : Text}
    (h : Text.hasEnding t field.suffix = true) (h' : Text.hasEnding t field'.suffix = true) :
    field = field' := by
  obtain ⟨s, e, rfl, he⟩ := Text.hasEnding_iff_append.mp h
  have hlen : field'.suffix.length = e.length := by
    have hfold := congrArg List.length he
    rw [Text.foldCase, Text.foldCase, List.length_map, List.length_map] at hfold
    rw [hfold]
    cases field <;> cases field' <;> rfl
  exact eq_of_foldCase_suffix (he.symm.trans (Text.foldCase_eq_of_hasEnding hlen h').symm)

/-! ### Dropping a suffix -/

/-- A suffix plays no part in the reading of brackets. -/
theorem strictAfter?_dropEnding? {field : Field} {t core : Text}
    (h : Text.dropEnding? t field.suffix = some core) (nest : Nesting) :
    strictAfter? nest core = strictAfter? nest t := by
  obtain ⟨s, e, ht, rfl, he⟩ := Text.dropEnding?_eq_some_iff.mp h
  calc strictAfter? nest (Text.trim s)
      = strictAfter? nest (s ++ e) := by
        rw [strictAfter?_trim, strictAfter?_append_plain (roleOf_of_foldCase he)]
    _ = strictAfter? nest t := by rw [← ht, strictAfter?_trim]

/-- Dropping a suffix changes nothing about the balance of a text. -/
theorem isBalanced_of_dropEnding? {field : Field} {t core : Text}
    (h : Text.dropEnding? t field.suffix = some core) : isBalanced core = isBalanced t := by
  rw [Bool.eq_iff_iff, isBalanced_iff, isBalanced_iff, strictAfter?_dropEnding? h]

end QueryMix.Field
