import QueryMix.Trace.Caret

/-!
# `QueryMix.Proofs.Trace.Caret`: what the caret stands under

A place in a text is shown by two lines, the quoted text and a caret (`splitOn_pointBetween`). The
caret ought to stand under the character that follows the place. It does so after characters that
are displayed as they are. But its column is the number of characters before the place, and a line
break or a tab before the place takes two columns in the line above. So for each of them the caret
stands one column too far to the left (`length_shownUpTo`), and it is under the character exactly
when there is none of them (`caretBelow_iff`).

How many bytes the characters before the place take makes no difference, nor does what follows.
-/

set_option autoImplicit false

namespace QueryMix.Trace

/-- The quoted text up to the place after `before`. -/
def shownUpTo (before : Text) : Text := '\'' :: before.flatMap showInLine

/-- The place at `offset` has a character after it and is shown by two lines: one displays the text
up to the place, then that character, and then what is left; the other has a caret in the column in
which the character is displayed. -/
def CaretBelow (t : Text) (offset : Nat) : Prop :=
  ∃ (before rest : Text) (c : Char) (right last : Text),
    Text.cutAt? t offset = some (before, c :: rest) ∧
      (pointAt t offset).splitOn '\n' = [shownUpTo before ++ (showInLine c ++ right), last] ∧
      last[(shownUpTo before).length]? = some '^'

/-! ### The two lines -/

/-- Line breaks and tabs are shown by two characters each, all others by one. -/
theorem length_showInLine (c : Char) :
    (showInLine c).length = 1 + ([c].count '\n' + [c].count '\t') := by
  unfold showInLine
  split
  · next h => rw [h]; rfl
  · next hbreak =>
    split
    · next h => rw [h]; rfl
    · next htab => simp [hbreak, htab]

/-- The column of the character after a place: one for the quotation mark, one for each character
before the place, and one more for each line break and each tab among these. -/
theorem length_shownUpTo (before : Text) :
    (shownUpTo before).length = before.length + 1 + (before.count '\n' + before.count '\t') := by
  induction before with
  | nil => rfl
  | cons c before ih =>
    -- What `c` adds to the length of the display it adds to the counts as well.
    have hcount (d : Char) : (c :: before).count d = [c].count d + before.count d := by
      rw [← List.count_append, List.singleton_append]
    have hc := length_showInLine c
    simp only [shownUpTo, List.length_cons, List.flatMap_cons, List.length_append] at ih ⊢
    rw [hcount, hcount]
    omega

/-- The quoted text is its beginning, the display of a character, and the rest. -/
theorem quotedLine_append_cons (before rest : Text) (c : Char) :
    quotedLine (before ++ c :: rest) =
      shownUpTo before ++ (showInLine c ++ (rest.flatMap showInLine ++ ['\''])) := by
  simp [quotedLine, shownUpTo]

/-- A displayed character is on one line. -/
theorem newline_not_mem_showInLine (c : Char) : '\n' ∉ showInLine c := by
  unfold showInLine
  split
  · decide
  · next hbreak =>
    split
    · decide
    · rw [List.mem_singleton]
      exact fun h => hbreak h.symm

/-- A quoted text is on one line. -/
theorem newline_not_mem_quotedLine (t : Text) : '\n' ∉ quotedLine t := by
  simp only [quotedLine, List.mem_cons, List.mem_append, List.mem_flatMap, List.not_mem_nil,
    or_false, not_or, not_exists, not_and]
  exact ⟨by decide, fun c _ => newline_not_mem_showInLine c, by decide⟩

/-- A place is shown by two lines, and in the second there are blanks before the caret. -/
theorem splitOn_pointBetween (before rest : Text) :
    (pointBetween before rest).splitOn '\n' =
      [quotedLine (before ++ rest), List.replicate (before.length + 1) ' ' ++ ['^']] := by
  have hjoin : pointBetween before rest = ['\n'].intercalate
      [quotedLine (before ++ rest), List.replicate (before.length + 1) ' ' ++ ['^']] := by
    simp [pointBetween, List.intercalate_cons_cons, List.replicate_succ]
  rw [hjoin]
  refine List.splitOn_intercalate '\n' (fun line hline => ?_) (List.cons_ne_nil _ _)
  simp only [List.mem_cons, List.not_mem_nil, or_false] at hline
  rcases hline with rfl | rfl
  · exact newline_not_mem_quotedLine _
  · simp

/-- After blanks the caret stands in one column only. -/
theorem caret_getElem?_iff {width column : Nat} :
    (List.replicate width ' ' ++ ['^'])[column]? = some '^' ↔ column = width := by
  constructor
  · intro h
    rcases Nat.lt_trichotomy column width with hlt | heq | hgt
    · simp [List.getElem?_append_left, hlt] at h
    · exact heq
    · rw [List.getElem?_eq_none (by simp; omega)] at h
      cases h
  · rintro rfl
    simp

/-! ### The column of the caret -/

variable {t before rest : Text} {c : Char} {offset : Nat}

/-- The caret is under the character exactly when as many columns as characters precede the
display of the character. -/
theorem caretBelow_iff_length (h : Text.cutAt? t offset = some (before, c :: rest)) :
    CaretBelow t offset ↔ (shownUpTo before).length = before.length + 1 := by
  obtain ⟨rfl, rfl⟩ := Text.cutAt?_eq_some_iff.mp h
  have hlines : (pointAt (before ++ c :: rest) (Text.size before)).splitOn '\n' =
      [shownUpTo before ++ (showInLine c ++ (rest.flatMap showInLine ++ ['\''])),
        List.replicate (before.length + 1) ' ' ++ ['^']] := by
    rw [pointAt, h]
    dsimp only
    rw [splitOn_pointBetween, quotedLine_append_cons]
  constructor
  · rintro ⟨before', rest', c', right, last, hcut, hshown, hcaret⟩
    -- The place is given by its offset, so it is the same one.
    rw [h] at hcut
    obtain ⟨rfl, -⟩ := Prod.mk.inj (Option.some.inj hcut)
    rw [hlines] at hshown
    obtain rfl : _ = last := by simpa using (List.cons.inj hshown).2
    exact caret_getElem?_iff.mp hcaret
  · intro hlen
    exact ⟨before, rest, c, _, _, h, hlines, caret_getElem?_iff.mpr hlen⟩

/-- Of a place that a character follows, the caret is under that character exactly when there is
neither a line break nor a tab before the place. -/
theorem caretBelow_iff (h : Text.cutAt? t offset = some (before, c :: rest)) :
    CaretBelow t offset ↔ '\n' ∉ before ∧ '\t' ∉ before := by
  rw [caretBelow_iff_length h, length_shownUpTo, ← List.count_eq_zero, ← List.count_eq_zero]
  omega

/-- Characters of two and four bytes before the place take one column each, and a tab at the place
itself is in the right column. -/
theorem caretBelow_wide : CaretBelow "é😀\tx\n".toList 6 ∧ ¬CaretBelow "é😀\tx\n".toList 7 := by
  have htab : Text.cutAt? "é😀\tx\n".toList 6 = some ("é😀".toList, '\t' :: "x\n".toList) := by
    decide
  have hx : Text.cutAt? "é😀\tx\n".toList 7 = some ("é😀\t".toList, 'x' :: "\n".toList) := by
    decide
  refine ⟨(caretBelow_iff htab).mpr (by decide), ?_⟩
  rw [caretBelow_iff hx]
  decide

/-- After a line break the caret is not under the character but one column before it, under the
second character of the line break's display. -/
theorem not_caretBelow_lineBreak :
    Text.cutAt? "\nA".toList 1 = some ("\n".toList, "A".toList) ∧
      pointAt "\nA".toList 1 = "'\\nA'\n  ^".toList ∧ ¬CaretBelow "\nA".toList 1 := by
  have hcut : Text.cutAt? "\nA".toList 1 = some ("\n".toList, "A".toList) := by decide
  refine ⟨hcut, by decide, ?_⟩
  rw [caretBelow_iff_length hcut]
  decide

end QueryMix.Trace
