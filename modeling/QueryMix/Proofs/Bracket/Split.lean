import QueryMix.Bracket.Split
import QueryMix.Proofs.Bracket.Balance

/-!
# `QueryMix.Proofs.Bracket.Split`: the parts of a text and the text itself

Joining the parts of a text gives the text back (`intercalate_splitTop`). A text either is
its own only part or is cut at its first separator at top level (`splitFrom_cases`), and a
separator after a part that ends at top level is always a cut (`splitFrom_append_sep`). From
these two facts follow when a separator stands at top level (`containsTop_iff`), which lists
of parts are recovered after they were joined (`splitTop_intercalate_append`: only the last of
them may leave a bracket open), and that a text is balanced exactly when its parts are
(`isBalanced_iff_forall_mem_splitTop`). Blanks around a text make no difference to its trimmed
parts (`map_trim_splitTop_trim`).

No cut falls inside a region: the inside of a region is passed over by the splitter
(`splitFrom_of_strictAfter?`).
-/

set_option autoImplicit false

namespace QueryMix.Bracket

open Nesting

/-- The characters that are no brackets are the plain ones. -/
theorem isBracket_eq_false_iff {c : Char} : isBracket c = false ↔ roleOf c = .plain := by
  simp [isBracket]

/-- A plain character leaves the nesting as it is. -/
theorem step_plain (nest : Nesting) {c : Char} (h : roleOf c = .plain) : nest.step c = nest := by
  simp [step, h]

/-- A character that is no cut is the first one of the part at hand. -/
theorem splitFrom_cons_of_not {sep c : Char} {nest : Nesting} {t : Text}
    (h : ¬(c = sep ∧ nest = [] ∧ isBracket c = false)) :
    splitFrom sep nest (c :: t) = (splitFrom sep (nest.step c) t).modifyHead (c :: ·) := by
  rw [splitFrom, if_neg h]

/-- Putting a character before the first part puts it before the joined text. -/
theorem intercalate_modifyHead_cons (sep c : Char) {ts : List Text} (h : ts ≠ []) :
    [sep].intercalate (ts.modifyHead (c :: ·)) = c :: [sep].intercalate ts := by
  match ts, h with
  | [t], _ => simp [List.intercalate]
  | t :: u :: us, _ => simp [List.intercalate_cons_cons]

/-- The parts of the text that follows a nesting, joined, are the text. -/
theorem intercalate_splitFrom (sep : Char) (nest : Nesting) (t : Text) :
    [sep].intercalate (splitFrom sep nest t) = t := by
  induction t generalizing nest with
  | nil => rfl
  | cons c t ih =>
    by_cases hc : c = sep ∧ nest = [] ∧ isBracket c = false
    · obtain ⟨p, ps, hps⟩ := List.exists_cons_of_ne_nil (splitFrom_ne_nil sep nest t)
      rw [splitFrom, if_pos hc, hps, List.intercalate_cons_cons, ← hps, ih, hc.1]
      rfl
    · rw [splitFrom_cons_of_not hc,
        intercalate_modifyHead_cons sep c (splitFrom_ne_nil _ _ _), ih]

/-- The parts of a text, joined, are the text. -/
theorem intercalate_splitTop (sep : Char) (t : Text) :
    [sep].intercalate (splitTop sep t) = t := intercalate_splitFrom sep [] t

/-- A text has no cut at all, or it is cut first after a part that ends at top level and has
no cut. -/
theorem splitFrom_cases (sep : Char) (nest : Nesting) (t : Text) :
    splitFrom sep nest t = [t] ∨
      ∃ s r : Text, t = s ++ sep :: r ∧ splitFrom sep nest t = s :: splitTop sep r ∧
        after nest s = [] ∧ splitFrom sep nest s = [s] := by
  induction t generalizing nest with
  | nil => exact .inl rfl
  | cons c t ih =>
    by_cases hc : c = sep ∧ nest = [] ∧ isBracket c = false
    · obtain ⟨rfl, rfl, hb⟩ := hc
      refine .inr ⟨[], t, rfl, ?_, rfl, rfl⟩
      rw [splitFrom, if_pos ⟨rfl, rfl, hb⟩]
      rfl
    · rcases ih (nest.step c) with h | ⟨s, r, rfl, hsplit, hafter, hs⟩
      · exact .inl (by rw [splitFrom_cons_of_not hc, h]; rfl)
      · refine .inr ⟨c :: s, r, rfl, ?_, hafter, ?_⟩
        · rw [splitFrom_cons_of_not hc, hsplit]
          rfl
        · rw [splitFrom_cons_of_not hc, hs]
          rfl

/-- What comes before the first cut of a text, if it has one. -/
theorem splitTop_cases (sep : Char) (t : Text) :
    splitTop sep t = [t] ∨
      ∃ s r : Text, t = s ++ sep :: r ∧ splitTop sep t = s :: splitTop sep r ∧
        after [] s = [] ∧ splitTop sep s = [s] := splitFrom_cases sep [] t

/-- A text of two parts is cut once, where the first part has come to top level. -/
theorem eq_of_splitTop_eq_two {sep : Char} {t p q : Text} (h : splitTop sep t = [p, q]) :
    t = p ++ sep :: q ∧ after [] p = [] := by
  have ht : t = p ++ sep :: q := by
    rw [← intercalate_splitTop sep t, h, List.intercalate_cons_cons, List.intercalate_singleton,
      List.append_assoc]
    rfl
  rcases splitTop_cases sep t with hs | ⟨s, r, -, hsplit, hafter, -⟩
  · rw [hs] at h
    cases h
  · rw [hsplit] at h
    rw [← (List.cons.inj h).1]
    exact ⟨(List.cons.inj h).1 ▸ ht, hafter⟩

/-- A text without the separator has no cut. -/
theorem splitFrom_of_not_mem {sep : Char} {t : Text} (h : sep ∉ t) (nest : Nesting) :
    splitFrom sep nest t = [t] := by
  rcases splitFrom_cases sep nest t with hs | ⟨s, r, rfl, -⟩
  · exact hs
  · exact absurd (by simp) h

/-- A part leaves characters out and keeps the order of the others. -/
theorem sublist_of_mem_splitTop {sep : Char} {t p : Text} (h : p ∈ splitTop sep t) :
    p.Sublist t := by
  rcases splitTop_cases sep t with hs | ⟨s, r, ht, hsplit, -⟩
  · rw [hs, List.mem_singleton] at h
    exact h ▸ List.Sublist.refl _
  · have hlt : r.length < t.length := by
      rw [ht, List.length_append, List.length_cons]
      omega
    rw [hsplit] at h
    rw [ht]
    rcases List.mem_cons.mp h with rfl | h
    · exact List.sublist_append_left _ _
    · exact (sublist_of_mem_splitTop h).trans
        ((List.sublist_cons_self _ _).trans (List.sublist_append_right _ _))
termination_by t.length

/-- All parts of a text but the last end at top level. -/
theorem exists_last_splitTop (sep : Char) (t : Text) :
    ∃ front last, splitTop sep t = front ++ [last] ∧ ∀ p ∈ front, after [] p = [] := by
  rcases splitTop_cases sep t with hs | ⟨s, r, ht, hsplit, hafter, -⟩
  · exact ⟨[], t, hs, by simp⟩
  · -- What follows the first cut is shorter.
    have hlt : r.length < t.length := by
      rw [ht, List.length_append, List.length_cons]
      omega
    obtain ⟨front, last, hr, hfront⟩ := exists_last_splitTop sep r
    refine ⟨s :: front, last, ?_, ?_⟩
    · rw [hsplit, hr]
      rfl
    · intro p hp
      rcases List.mem_cons.mp hp with rfl | hp
      · exact hafter
      · exact hfront p hp
termination_by t.length

/-- A text has no cut when there is none at its first character and none after it. -/
theorem uncut_cons {sep c : Char} {nest : Nesting} {s : Text}
    (h : splitFrom sep nest (c :: s) = [c :: s]) :
    ¬(c = sep ∧ nest = [] ∧ isBracket c = false) ∧ splitFrom sep (nest.step c) s = [s] := by
  have hc : ¬(c = sep ∧ nest = [] ∧ isBracket c = false) := by
    intro hcut
    rw [splitFrom, if_pos hcut] at h
    exact absurd (List.cons.inj h).1 (by simp)
  refine ⟨hc, ?_⟩
  obtain ⟨p, ps, hps⟩ := List.exists_cons_of_ne_nil (splitFrom_ne_nil sep (nest.step c) s)
  rw [splitFrom_cons_of_not hc, hps, List.modifyHead_cons, List.cons.injEq,
    List.cons.injEq] at h
  rw [hps, h.1.2, h.2]

/-- After a text without a cut the splitter goes on at the nesting that the text leaves. -/
theorem splitFrom_append_of_uncut {sep : Char} {nest : Nesting} {s : Text}
    (h : splitFrom sep nest s = [s]) (t : Text) :
    splitFrom sep nest (s ++ t) = (splitFrom sep (after nest s) t).modifyHead (s ++ ·) := by
  induction s generalizing nest with
  | nil =>
    cases hs : splitFrom sep nest t with
    | nil => exact absurd hs (splitFrom_ne_nil _ _ _)
    | cons p ps => simp [hs]
  | cons c s ih =>
    obtain ⟨hc, hs⟩ := uncut_cons h
    rw [List.cons_append, splitFrom_cons_of_not hc, ih hs, after_cons,
      List.modifyHead_modifyHead]
    rfl

/-- The separator is never found inside regions that stay open around the text. -/
theorem splitFrom_of_strictAfter? {sep : Char} {inner inner' outer : Nesting} {t : Text}
    (h : strictAfter? inner t = some inner') (hne : outer ≠ []) :
    splitFrom sep (inner ++ outer) t = [t] := by
  -- The nesting has `outer` at its end throughout, so it is never empty and nothing is cut.
  induction t generalizing inner with
  | nil => rfl
  | cons c t ih =>
    rw [strictAfter?_cons, Option.bind_eq_some_iff] at h
    obtain ⟨mid, hstep, hrest⟩ := h
    have hmid : (inner ++ outer).step c = mid ++ outer := by
      have hone : strictAfter? inner [c] = some mid := by rw [strictAfter?_cons, hstep]; rfl
      exact after_eq_of_strictAfter? (strictAfter?_frame hone outer)
    rw [splitFrom_cons_of_not (by simp [hne]), hmid, ih hrest]
    rfl

/-- A region has no cut. -/
theorem splitTop_enclosed (sep : Char) (b : Bracket) {inside : Text}
    (h : isBalanced inside = true) :
    splitTop sep (b.opener :: (inside ++ [b.closer])) = [b.opener :: (inside ++ [b.closer])] := by
  have hread : strictAfter? [] inside = some [] := isBalanced_iff.mp h
  have hopen : Nesting.step [] b.opener = [b] := by simp [step]
  have hin : splitFrom sep [b] inside = [inside] :=
    splitFrom_of_strictAfter? hread (List.cons_ne_nil b [])
  have hclose : splitFrom sep [b] [b.closer] = [[b.closer]] := by
    rw [splitFrom_cons_of_not (by simp)]
    rfl
  rw [splitTop, splitFrom_cons_of_not (by simp [isBracket]), hopen,
    splitFrom_append_of_uncut hin, after_of_isBalanced h, hclose]
  rfl

/-- A separator at top level cannot be found in a text exactly when the text has no cut. -/
theorem containsTop_eq_false_iff {sep : Char} {t : Text} :
    containsTop sep t = false ↔ splitTop sep t = [t] := by
  constructor
  · intro h
    rcases splitTop_cases sep t with hs | ⟨s, r, -, hsplit, -, -⟩
    · exact hs
    · obtain ⟨p, ps, hps⟩ := List.exists_cons_of_ne_nil (splitFrom_ne_nil sep [] r)
      rw [containsTop, hsplit, splitTop, hps] at h
      simp at h
  · intro h
    rw [containsTop, h]
    rfl

/-! ### Separators that are no brackets -/

section Plain

variable {sep : Char} (hsep : roleOf sep = .plain)

include hsep

/-- A separator at top level is a cut. -/
theorem splitFrom_sep (t : Text) : splitFrom sep [] (sep :: t) = [] :: splitTop sep t := by
  rw [splitFrom, if_pos ⟨rfl, rfl, isBracket_eq_false_iff.mpr hsep⟩]
  rfl

/-- A separator after a part that ends at top level is a cut. -/
theorem splitFrom_append_sep {nest : Nesting} {s : Text} (h : after nest s = []) (t : Text) :
    splitFrom sep nest (s ++ sep :: t) = splitFrom sep nest s ++ splitTop sep t := by
  -- The induction is on the part before the separator, whose nesting changes as it is read.
  induction s generalizing nest with
  | nil =>
    rw [after_nil] at h
    rw [h, List.nil_append, splitFrom_sep hsep]
    rfl
  | cons c s ih =>
    by_cases hc : c = sep ∧ nest = [] ∧ isBracket c = false
    · obtain ⟨rfl, rfl, -⟩ := hc
      rw [after_cons, step_plain _ hsep] at h
      rw [List.cons_append, splitFrom_sep hsep, splitFrom_sep hsep]
      exact congrArg ([] :: ·) (ih h)
    · obtain ⟨p, ps, hps⟩ := List.exists_cons_of_ne_nil (splitFrom_ne_nil sep (nest.step c) s)
      rw [List.cons_append, splitFrom_cons_of_not hc, splitFrom_cons_of_not hc, ih h, hps]
      rfl

/-- A separator after a part that ends at top level is a cut. -/
theorem splitTop_append_sep {s : Text} (h : after [] s = []) (t : Text) :
    splitTop sep (s ++ sep :: t) = splitTop sep s ++ splitTop sep t :=
  splitFrom_append_sep hsep h t

/-- A text of two parts has them on the two sides of its only separator at top level. -/
theorem eq_of_splitTop_eq_pair {l r p q : Text} (h : after [] l = [])
    (hparts : splitTop sep (l ++ sep :: r) = [p, q]) : l = p ∧ r = q := by
  rw [splitTop_append_sep hsep h] at hparts
  obtain ⟨x, xs, hl⟩ := List.exists_cons_of_ne_nil (splitFrom_ne_nil sep [] l)
  obtain ⟨y, ys, hr⟩ := List.exists_cons_of_ne_nil (splitFrom_ne_nil sep [] r)
  -- Each side has a part at least, so each has one.
  have hlen := congrArg List.length hparts
  rw [splitTop, splitTop, hl, hr] at hparts hlen
  simp only [List.length_append, List.length_cons, List.length_nil] at hlen
  have hxs : xs = [] := List.length_eq_zero_iff.mp (by omega)
  have hys : ys = [] := List.length_eq_zero_iff.mp (by omega)
  rw [hxs] at hl hparts
  rw [hys] at hr hparts
  have hback := intercalate_splitTop sep l
  have hback' := intercalate_splitTop sep r
  rw [splitTop, hl] at hback
  rw [splitTop, hr] at hback'
  simp only [List.cons_append, List.nil_append, List.cons.injEq, and_true] at hparts
  simp only [List.intercalate_singleton] at hback hback'
  exact ⟨hback.symm.trans hparts.1, hback'.symm.trans hparts.2⟩

/-- A separator stands at top level where what precedes it ends at top level. -/
theorem containsTop_iff {t : Text} :
    containsTop sep t = true ↔ ∃ s r : Text, t = s ++ sep :: r ∧ after [] s = [] := by
  constructor
  · intro h
    rcases splitTop_cases sep t with hs | ⟨s, r, ht, -, hafter, -⟩
    · rw [containsTop_eq_false_iff.mpr hs] at h
      cases h
    · exact ⟨s, r, ht, hafter⟩
  · rintro ⟨s, r, rfl, hafter⟩
    have hs : 0 < (splitTop sep s).length :=
      List.length_pos_iff.mpr (splitFrom_ne_nil sep [] s)
    have hr : 0 < (splitTop sep r).length :=
      List.length_pos_iff.mpr (splitFrom_ne_nil sep [] r)
    rw [containsTop, splitTop_append_sep hsep hafter, List.length_append]
    exact decide_eq_true (by omega)

/-- A text has no cut exactly when the separator stands nowhere in it at top level. -/
theorem splitTop_eq_singleton_iff {t : Text} :
    splitTop sep t = [t] ↔ ∀ s r : Text, t = s ++ sep :: r → after [] s ≠ [] := by
  rw [← containsTop_eq_false_iff, ← Bool.not_eq_true, containsTop_iff hsep]
  simp only [not_exists, not_and, ne_eq]

/-- A separator in a text without a cut does not stand at top level. -/
theorem after_ne_nil_of_uncut {s r : Text} (h : splitTop sep (s ++ sep :: r) = [s ++ sep :: r]) :
    after [] s ≠ [] := (splitTop_eq_singleton_iff hsep).mp h s r rfl

/-- Joined parts are recovered when none of them has a cut and all but the last end at top
level. -/
theorem splitTop_intercalate_append {ts : List Text} {last : Text}
    (h : ∀ t ∈ ts, after [] t = [] ∧ splitTop sep t = [t]) (hlast : splitTop sep last = [last]) :
    splitTop sep ([sep].intercalate (ts ++ [last])) = ts ++ [last] := by
  induction ts with
  | nil => rw [List.nil_append, List.intercalate_singleton, hlast]
  | cons t ts ih =>
    obtain ⟨hafter, hsplit⟩ := h t List.mem_cons_self
    obtain ⟨u, us, hrest⟩ := List.exists_cons_of_ne_nil (show ts ++ [last] ≠ [] by simp)
    have ih := ih fun v hv => h v (List.mem_cons_of_mem _ hv)
    rw [hrest] at ih
    rw [List.cons_append, hrest, List.intercalate_cons_cons, List.append_assoc,
      List.singleton_append, splitTop_append_sep hsep hafter, hsplit, ih]
    rfl

/-- Joined parts are recovered when each of them has no cut and ends at top level. -/
theorem splitTop_intercalate {ts : List Text} (hne : ts ≠ [])
    (h : ∀ t ∈ ts, after [] t = [] ∧ splitTop sep t = [t]) :
    splitTop sep ([sep].intercalate ts) = ts := by
  rw [← List.dropLast_concat_getLast hne]
  exact splitTop_intercalate_append hsep (fun t ht => h t (List.dropLast_subset _ ht))
    (h _ (List.getLast_mem hne)).2

/-- A text is balanced exactly when its parts are. -/
theorem isBalanced_iff_forall_mem_splitTop (t : Text) :
    isBalanced t = true ↔ ∀ p ∈ splitTop sep t, isBalanced p = true := by
  rcases splitTop_cases sep t with hs | ⟨s, r, ht, hsplit, hafter, -⟩
  · rw [hs]
    simp
  · -- The text is cut into `s` and `r`, and `r` is shorter.
    have hlt : r.length < t.length := by
      rw [ht, List.length_append, List.length_cons]
      omega
    rw [hsplit, List.forall_mem_cons, ← isBalanced_iff_forall_mem_splitTop r, ht,
      isBalanced_append_iff hafter, isBalanced_cons_plain hsep]
termination_by t.length

end Plain

/-- A text that is put before another and has neither brackets nor separators changes
nothing about the number of parts. -/
theorem length_splitTop_append_left {sep : Char} {s : Text} (hs : ∀ c ∈ s, roleOf c = .plain)
    (hnot : sep ∉ s) (t : Text) :
    (splitTop sep (s ++ t)).length = (splitTop sep t).length := by
  rw [splitTop, splitFrom_append_of_uncut (splitFrom_of_not_mem hnot []),
    after_of_isBalanced (isBalanced_of_plain hs), List.length_modifyHead]
  rfl

/-- A text without separators that is put after another changes nothing about the number of
parts. -/
theorem length_splitFrom_append_right {sep : Char} {t : Text} (hnot : sep ∉ t) (nest : Nesting)
    (s : Text) : (splitFrom sep nest (s ++ t)).length = (splitFrom sep nest s).length := by
  induction s generalizing nest with
  | nil => rw [List.nil_append, splitFrom_of_not_mem hnot]; rfl
  | cons c s ih =>
    by_cases hc : c = sep ∧ nest = [] ∧ isBracket c = false
    · rw [List.cons_append, splitFrom, if_pos hc, splitFrom, if_pos hc, List.length_cons,
        List.length_cons, ih]
    · rw [List.cons_append, splitFrom_cons_of_not hc, splitFrom_cons_of_not hc,
        List.length_modifyHead, List.length_modifyHead, ih]

/-- Trimming keeps every separator that stands at top level, and makes none. -/
theorem containsTop_trim {sep : Char} (hblank : Text.isBlank sep = false) (t : Text) :
    containsTop sep (Text.trim t) = containsTop sep t := by
  obtain ⟨l, r, ht, hl, hr⟩ := Text.eq_blanks_trim_blanks t
  have hnotl : sep ∉ l := fun h => by simp [hl sep h] at hblank
  have hnotr : sep ∉ r := fun h => by simp [hr sep h] at hblank
  have hlen : (splitTop sep t).length = (splitTop sep (Text.trim t)).length := by
    calc (splitTop sep t).length
        = (splitTop sep (l ++ Text.trim t ++ r)).length := by rw [← ht]
      _ = (splitTop sep (l ++ Text.trim t)).length :=
          length_splitFrom_append_right hnotr [] _
      _ = (splitTop sep (Text.trim t)).length :=
          length_splitTop_append_left (fun c hc => roleOf_of_isBlank (hl c hc)) hnotl _
  rw [containsTop, containsTop, hlen]

/-- Blanks around a text make no difference to the separators that it shows. -/
theorem containsTop_congr {sep : Char} (hblank : Text.isBlank sep = false) {s t : Text}
    (h : Text.trim s = Text.trim t) : containsTop sep s = containsTop sep t := by
  rw [← containsTop_trim hblank s, h, containsTop_trim hblank]

/-! ### Parts without the blanks around them -/

section Trimmed

variable {sep : Char} (hsep : roleOf sep = .plain) (hblank : Text.isBlank sep = false)

include hblank in
/-- Blanks before a text make no difference to its trimmed parts. -/
theorem map_trim_splitTop_blanks_append {l : Text} (hl : ∀ c ∈ l, Text.isBlank c = true)
    (t : Text) :
    (splitTop sep (l ++ t)).map Text.trim = (splitTop sep t).map Text.trim := by
  have hnot : sep ∉ l := fun h => by simp [hl sep h] at hblank
  have hafter : after [] l = [] :=
    after_of_isBalanced (isBalanced_of_plain fun c hc => roleOf_of_isBlank (hl c hc)) []
  -- The blanks go to the first part, which the trimming takes them from.
  obtain ⟨p, ps, hps⟩ := List.exists_cons_of_ne_nil (splitFrom_ne_nil sep [] t)
  rw [splitTop, splitFrom_append_of_uncut (splitFrom_of_not_mem hnot []), hafter, splitTop, hps,
    List.modifyHead_cons, List.map_cons, List.map_cons, Text.trim_blanks_append hl]

include hsep hblank in
/-- Blanks after a text make no difference to them either. -/
theorem map_trim_splitTop_append_blanks {r : Text} (hr : ∀ c ∈ r, Text.isBlank c = true)
    (t : Text) :
    (splitTop sep (t ++ r)).map Text.trim = (splitTop sep t).map Text.trim := by
  have hnot : sep ∉ r := fun h => by simp [hr sep h] at hblank
  rcases splitTop_cases sep t with hs | ⟨s, q, ht, -, hafter, -⟩
  · have hsr : splitTop sep (t ++ r) = [t ++ r] := by
      rw [splitTop, splitFrom_append_of_uncut hs, splitFrom_of_not_mem hnot]
      rfl
    rw [hsr, hs, List.map_singleton, List.map_singleton, Text.trim_append_blanks hr]
  · -- The blanks follow what stands after the first cut, which is shorter.
    have hlt : q.length < t.length := by
      rw [ht, List.length_append, List.length_cons]
      omega
    rw [ht, List.append_assoc, List.cons_append, splitTop_append_sep hsep hafter,
      splitTop_append_sep hsep hafter, List.map_append, List.map_append,
      map_trim_splitTop_append_blanks hr q]
termination_by t.length

include hsep hblank in
/-- The trimmed parts of a text are those of the trimmed text. -/
theorem map_trim_splitTop_trim (t : Text) :
    (splitTop sep (Text.trim t)).map Text.trim = (splitTop sep t).map Text.trim := by
  obtain ⟨l, r, ht, hl, hr⟩ := Text.eq_blanks_trim_blanks t
  calc (splitTop sep (Text.trim t)).map Text.trim
      = (splitTop sep (l ++ Text.trim t ++ r)).map Text.trim := by
        rw [map_trim_splitTop_append_blanks hsep hblank hr,
          map_trim_splitTop_blanks_append hblank hl]
    _ = (splitTop sep t).map Text.trim := by rw [← ht]

end Trimmed

end QueryMix.Bracket
