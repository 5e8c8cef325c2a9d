import QueryMix.Proofs.Formula.Decode

/-!
# `QueryMix.Proofs.Formula.Spelling`: the texts that a formula can be typed as

`Spells t f` is the grammar of formulas as a user may type them. Words stand in slots, with
round brackets around them or not; there may be blanks around the whole text, around every
slot, and around every bracket, comma and suffix; the letters of counts and suffixes may be in
any case. There is one place without blanks: the `+` of a parallel formula directly follows
the suffix.

Every text of the grammar is read as the formula that it spells (`decode_of_spells`). The
stages that come earlier do not take it: they are told apart by the number of comma parts and
by the suffixes, and neither blanks nor the case of letters make a difference to these.
-/

set_option autoImplicit false

namespace QueryMix

open QueryMix.Bracket QueryMix.Nesting

/-- The text with blanks around it, or without any. -/
def Text.Padded (core t : Text) : Prop :=
  ∃ l r : Text, (∀ c ∈ l, isBlank c = true) ∧ (∀ c ∈ r, isBlank c = true) ∧ t = l ++ core ++ r

/-- The text with the suffix of a field, in any case of letters and with blanks around both. -/
def Field.Suffixed (field : Field) (core t : Text) : Prop :=
  ∃ x e : Text, Text.Padded core x ∧ Text.foldCase e = Text.foldCase field.suffix ∧
    Text.Padded (x ++ e) t

namespace Formula

/-- A word that can be typed: trimmed, balanced, and something is left of it without the round
brackets around it. -/
structure IsWord (a : Text) : Prop where
  trimmed : Text.trim a = a
  balanced : isBalanced a = true
  visible : unwrap a ≠ []

/-- A slot between commas, with a word that shows no comma. -/
structure WordSlot (a x : Text) : Prop where
  word : IsWord a
  uncut : containsTop ',' a = false
  padded : Text.Padded a x

/-- A slot between commas, whatever is left of what stands in it. -/
structure BetweenCommas (x : Text) : Prop where
  balanced : isBalanced x = true
  uncut : containsTop ',' x = false

/-- A slot between commas, with a count. -/
structure CountSlot (d x : Text) : Prop where
  digits : Count.isDigits d = true
  padded : ∃ n, (n = 'N' ∨ n = 'n') ∧ Text.Padded (d ++ [n]) x

/-- A text that may have the full-text suffix. -/
def MaySuffixed (core t : Text) : Prop := Text.Padded core t ∨ Field.fullText.Suffixed core t

/-- The texts that spell a formula. -/
inductive Spells : Text → Formula → Prop
  /-- `A/TX` -/
  | single {a t : Text} (ha : IsWord a) (huncut : containsTop ',' a = false)
      (hshape : serialShaped a = false) (ht : Field.fullText.Suffixed a t) :
      Spells t ⟨.single, [unwrap a], []⟩
  /-- `A,nN,B/TX` -/
  | pair {a b d x m y t : Text} (ha : WordSlot a x) (hd : CountSlot d m) (hb : WordSlot b y)
      (ht : Field.fullText.Suffixed ([','].intercalate [x, m, y]) t) :
      Spells t ⟨.pair, [unwrap a, unwrap b], [d]⟩
  /-- `{A,nN,B,nN,C}` -/
  | serial {a b c d d' x m y n z t : Text} (ha : WordSlot a x) (hd : CountSlot d m)
      (hb : WordSlot b y) (hd' : CountSlot d' n) (hc : WordSlot c z)
      (ht : MaySuffixed ('{' :: ([','].intercalate [x, m, y, n, z] ++ ['}'])) t) :
      Spells t ⟨.serial, [unwrap a, unwrap b, unwrap c], [d]⟩
  /-- `{A,B,C},nN` -/
  | collection {a b c d x y z g m t : Text} (ha : WordSlot a x) (hb : WordSlot b y)
      (hc : WordSlot c z) (hg : Text.Padded ('{' :: ([','].intercalate [x, y, z] ++ ['}'])) g)
      (hd : CountSlot d m) (ht : MaySuffixed ([','].intercalate [g, m]) t) :
      Spells t ⟨.collection, [unwrap a, unwrap b, unwrap c], [d]⟩
  /-- `[A/TX+B,nN,C/TX]` -/
  | parallel {a b c d x e y m z side t : Text} (ha : IsWord a)
      (hunsplit : Field.fullText.Unsplit a) (hx : Text.Padded a x)
      (he : Text.foldCase e = Text.foldCase Field.fullText.suffix) (hb : WordSlot b y)
      (hd : CountSlot d m) (hc : WordSlot c z)
      (hside : Field.fullText.Suffixed ([','].intercalate [y, m, z]) side)
      (ht : Text.Padded ('[' :: (x ++ e ++ '+' :: side ++ [']'])) t) :
      Spells t ⟨.parallel, [unwrap a, unwrap b, unwrap c], [d]⟩
  /-- `[A/FT+A/CP]` -/
  | classification {a l r t : Text} (ha : IsWord a) (huncut : containsTop '+' a = false)
      (hl : Field.fTerm.Suffixed a l) (hr : Field.cpc.Suffixed a r)
      (ht : Text.Padded ('[' :: (l ++ '+' :: r ++ [']'])) t) :
      Spells t ⟨.classification, [unwrapOnce a], []⟩

end Formula

/-! ### Blanks and suffixes -/

/-- Trimming takes the blanks off that stand around a text. -/
theorem Text.Padded.trim_eq {core t : Text} (h : Text.Padded core t) :
    Text.trim t = Text.trim core := by
  obtain ⟨l, r, hl, hr, rfl⟩ := h
  rw [Text.trim_append_blanks hr, Text.trim_blanks_append hl]

/-- Blanks around a text make no difference to its balance. -/
theorem Text.Padded.isBalanced_eq {core t : Text} (h : Text.Padded core t) :
    isBalanced t = isBalanced core := by
  rw [← isBalanced_trim t, h.trim_eq, isBalanced_trim]

/-- A text is what trimming leaves of it, with blanks around it. -/
theorem Text.padded_trim (t : Text) : Text.Padded (Text.trim t) t := by
  obtain ⟨l, r, ht, hl, hr⟩ := Text.eq_blanks_trim_blanks t
  exact ⟨l, r, hl, hr, ht⟩

/-- What has a suffix after it is left when the suffix is dropped. -/
theorem Field.Suffixed.dropEnding? {field : Field} {core t : Text}
    (h : field.Suffixed core t) : Text.dropEnding? t field.suffix = some (Text.trim core) := by
  obtain ⟨x, e, hx, he, ht⟩ := h
  rw [Text.dropEnding?_congr ht.trim_eq, Field.dropEnding?_append_of_foldCase he, hx.trim_eq]

/-- What is left when a suffix is dropped had the suffix after it. -/
theorem Field.suffixed_of_dropEnding? {field : Field} {core t : Text}
    (h : Text.dropEnding? t field.suffix = some core) : field.Suffixed core t := by
  obtain ⟨s, e, ht, rfl, he⟩ := Text.dropEnding?_eq_some_iff.mp h
  exact ⟨s, e, Text.padded_trim s, he, ht ▸ Text.padded_trim t⟩

/-- Something stands before the blanks at the end: the suffix at least. -/
theorem Field.Suffixed.trim_ne_nil {field : Field} {core t : Text}
    (h : field.Suffixed core t) : Text.trim t ≠ [] := by
  obtain ⟨s, e, ht, -, he⟩ := Text.dropEnding?_eq_some_iff.mp h.dropEnding?
  rw [ht]
  exact List.append_ne_nil_of_right_ne_nil s (Field.ne_nil_of_foldCase he)

/-- A suffix and blanks add no `+`. -/
theorem Field.Suffixed.containsTop_plus {field : Field} {core t : Text}
    (h : field.Suffixed core t) (huncut : containsTop '+' core = false) :
    containsTop '+' t = false := by
  obtain ⟨x, e, hx, he, ht⟩ := h
  have hxcut : containsTop '+' x = false := by
    rw [containsTop_congr (by decide) hx.trim_eq, huncut]
  rw [containsTop_congr (by decide) ht.trim_eq]
  exact containsTop_eq_false_iff.mpr (Field.splitTop_append_of_not_mem
    (containsTop_eq_false_iff.mp hxcut) (Field.plus_not_mem_of_foldCase he))

namespace Formula

/-! ### Slots -/

/-- A word is not empty, as something is left of it without its round brackets. -/
theorem IsWord.ne_nil {a : Text} (h : IsWord a) : a ≠ [] := by
  rintro rfl
  exact h.visible (unwrap_eq_self rfl rfl)

/-- A word can stand in a slot. -/
theorem IsWord.isSlot {a : Text} (h : IsWord a) : IsSlot a := ⟨h.ne_nil, h.trimmed, h.balanced⟩

section Slots

variable {a d x : Text}

/-- A slot with a word in it is balanced. -/
theorem WordSlot.isBalanced (h : WordSlot a x) : Bracket.isBalanced x = true := by
  rw [h.padded.isBalanced_eq, h.word.balanced]

/-- A slot with a word in it makes up one part, the word. -/
theorem WordSlot.commaParts (h : WordSlot a x) : commaParts x = [a] := by
  rw [← commaParts_trim, h.padded.trim_eq, commaParts_trim, commaParts_of_uncut h.uncut,
    h.word.trimmed]

/-- A slot with a word in it can stand between commas. -/
theorem WordSlot.between (h : WordSlot a x) : BetweenCommas x where
  balanced := h.isBalanced
  uncut := by rw [containsTop_congr (by decide) h.padded.trim_eq, h.uncut]

/-- Blanks around the word make no difference to what is left of it. -/
theorem WordSlot.unwrap_eq (h : WordSlot a x) : unwrap x = unwrap a := by
  rw [← unwrap_trim, h.padded.trim_eq, unwrap_trim]

/-- The count of a slot is read. -/
theorem CountSlot.digits?_eq (h : CountSlot d x) : Count.digits? x = some d := by
  obtain ⟨n, hn, hx⟩ := h.padded
  have hletter : Text.trim [n] = [n] := by rcases hn with rfl | rfl <;> rfl
  have htrim : Text.trim x = d ++ [n] := by
    rw [hx.trim_eq]
    exact Text.trim_append (Count.trim_of_isDigits h.digits) hletter
      (Count.ne_nil_of_isDigits h.digits) (by simp)
  exact Count.digits?_eq_some_iff.mpr ⟨h.digits, n, hn, htrim⟩

/-- A slot with a count in it is balanced. -/
theorem CountSlot.isBalanced (h : CountSlot d x) : Bracket.isBalanced x = true :=
  Count.isBalanced_of_digits? h.digits?_eq

/-- A slot with a count in it makes up one part. -/
theorem CountSlot.commaParts (h : CountSlot d x) : commaParts x = [Text.trim x] :=
  commaParts_of_uncut (containsTop_eq_false_iff.mpr
    (splitFrom_of_not_mem (Count.comma_not_mem_of_digits? h.digits?_eq) []))

/-- The part that is made of the slot of a count is read too. -/
theorem CountSlot.digits?_trim (h : CountSlot d x) : Count.digits? (Text.trim x) = some d := by
  rw [Count.digits?_trim, h.digits?_eq]

end Slots

/-! ### Shapes without square brackets -/

section Shapes

variable {a b c d d' x m y n z t : Text}

/-- A word with the suffix is read as a single word, if it shows no comma and does not have the
shape of a serial formula. -/
theorem decode_single (ha : IsWord a) (huncut : containsTop ',' a = false)
    (hshape : serialShaped a = false) (ht : Field.fullText.Suffixed a t) :
    decode t = .ok ⟨.single, [unwrap a], []⟩ := by
  have hdrop := ht.dropEnding?
  rw [ha.trimmed] at hdrop
  have hparts : Formula.commaParts a = [a] := by rw [commaParts_of_uncut huncut, ha.trimmed]
  have hcollection : collection? a = none := collection?_eq_none_of_length (by simp [hparts])
  have hserial : serial? a = none := by
    rw [← Option.not_isSome_iff_eq_none, isSome_serial?, hshape]
    simp
  have hflat := flat?_eq_some_iff.mpr (.inl ⟨a, hparts, ha.visible, rfl⟩)
  rw [decode_eq_ok_iff_of_dropEnding? hdrop, hcollection, hserial, hflat]
  rfl

/-- Two words with a count between them make up three parts, whatever the words look like. -/
theorem commaParts_counted (ha : WordSlot a x) (hd : CountSlot d m) (hb : WordSlot b y) :
    Formula.commaParts (Text.trim ([','].intercalate [x, m, y])) = [a, Text.trim m, b] := by
  have hbal : ∀ u ∈ [x, m, y], isBalanced u = true := by
    simp [ha.isBalanced, hd.isBalanced, hb.isBalanced]
  rw [commaParts_trim, commaParts_intercalate (by simp) hbal]
  simp [ha.commaParts, hd.commaParts, hb.commaParts]

/-- Two words with a count between them and the suffix are read as a pair. -/
theorem decode_pair (ha : WordSlot a x) (hd : CountSlot d m) (hb : WordSlot b y)
    (ht : Field.fullText.Suffixed ([','].intercalate [x, m, y]) t) :
    decode t = .ok ⟨.pair, [unwrap a, unwrap b], [d]⟩ := by
  let core := Text.trim ([','].intercalate [x, m, y])
  have hparts : Formula.commaParts core = [a, Text.trim m, b] := commaParts_counted ha hd hb
  have hcollection : collection? core = none := collection?_eq_none_of_length (by simp [hparts])
  have hserial : serial? core = none := serial?_eq_none_of_length (by simp [hparts])
  have hflat := flat?_eq_some_iff.mpr (.inr ⟨a, Text.trim m, b, d, hparts, hd.digits?_trim,
    ha.word.visible, hb.word.visible, rfl⟩)
  rw [decode_eq_ok_iff_of_dropEnding? ht.dropEnding?, hcollection, hserial, hflat]
  rfl

/-- A text that begins with a brace and ends in a brace or in the letter of a count is read by
the last three stages, with the suffix or without it. -/
theorem decode_eq_ok_iff_of_maySuffixed {core rest s : Text} {last : Char} {f : Formula}
    (ht : MaySuffixed core t) (hfirst : Text.trim core = '{' :: rest)
    (hlast : Text.trim core = s ++ [last]) (hx : last.toLower ≠ 'x') :
    decode t = .ok f ↔
      (collection? (Text.trim core)).or
        ((serial? (Text.trim core)).or (flat? (Text.trim core))) = some f := by
  rcases ht with ht | ht
  · have hsquare : squareInside? (Text.trim t) = none := by
      rw [ht.trim_eq, hfirst]
      rfl
    have hdrop : dropSuffix (Text.trim t) = Text.trim core := by
      have hnone : Text.dropEnding? (Text.trim core) Field.fullText.suffix = none := by
        rw [Option.eq_none_iff_forall_ne_some]
        intro u hu
        obtain ⟨s', e, hcore, -, he⟩ := Text.dropEnding?_eq_some_iff.mp hu
        rw [Text.trim_trim, hlast] at hcore
        -- With the case of letters folded, the suffix ends in `x` and the text does not.
        have hfold := congrArg (fun v => (Text.foldCase v).getLast?) hcore
        simp only [Text.foldCase_append, he] at hfold
        have hend : (Text.foldCase Field.fullText.suffix).getLast? = some 'x' := rfl
        rw [List.getLast?_append, List.getLast?_append, hend] at hfold
        exact hx (Option.some.inj hfold)
      rw [ht.trim_eq, dropSuffix, hnone]
      rfl
    rw [decode_eq_ok_iff_of_not_square hsquare, hdrop]
  · exact decode_eq_ok_iff_of_dropEnding? ht.dropEnding?

/-- A serial formula is read from any three slots with counts between them. -/
theorem decode_serial_slots (hx : BetweenCommas x) (hd : CountSlot d m) (hy : BetweenCommas y)
    (hd' : CountSlot d' n) (hz : BetweenCommas z)
    (ht : MaySuffixed ('{' :: ([','].intercalate [x, m, y, n, z] ++ ['}'])) t) :
    decode t = .ok ⟨.serial, [x, y, z].map unwrap, [d]⟩ := by
  let inside := [','].intercalate [x, m, y, n, z]
  have hbal : ∀ u ∈ [x, m, y, n, z], isBalanced u = true := by
    simp [hx.balanced, hd.isBalanced, hy.balanced, hd'.isBalanced, hz.balanced]
  have hparts : Formula.commaParts inside =
      [Text.trim x, Text.trim m, Text.trim y, Text.trim n, Text.trim z] := by
    rw [commaParts_intercalate (by simp) hbal]
    simp [commaParts_of_uncut hx.uncut, hd.commaParts, commaParts_of_uncut hy.uncut,
      hd'.commaParts, commaParts_of_uncut hz.uncut]
  have htrim : Text.trim ('{' :: (inside ++ ['}'])) = '{' :: (inside ++ ['}']) :=
    trim_enclosed curly inside
  have hinside : enclosed? curly ('{' :: (inside ++ ['}'])) = some inside :=
    enclosed?_enclosed (isBalanced_intercalate roleOf_comma hbal)
  -- The braces keep the commas inside, so the whole is one part and no collection.
  have hcollection : collection? ('{' :: (inside ++ ['}'])) = none :=
    collection?_eq_none_of_length (by rw [length_commaParts_of_enclosed? hinside]; decide)
  have hserial := serial?_eq_some_iff.mpr ⟨inside, _, _, _, _, _, d, d', hinside, hparts,
    hd.digits?_trim, hd'.digits?_trim, rfl⟩
  rw [decode_eq_ok_iff_of_maySuffixed (s := '{' :: inside) ht htrim htrim (by decide), htrim,
    hcollection, hserial]
  simp

/-- Three words with counts between them, in braces, are read as a serial formula with the first of
the counts. -/
theorem decode_serial (ha : WordSlot a x) (hd : CountSlot d m) (hb : WordSlot b y)
    (hd' : CountSlot d' n) (hc : WordSlot c z)
    (ht : MaySuffixed ('{' :: ([','].intercalate [x, m, y, n, z] ++ ['}'])) t) :
    decode t = .ok ⟨.serial, [unwrap a, unwrap b, unwrap c], [d]⟩ := by
  have hslots := decode_serial_slots ha.between hd hb.between hd' hc.between ht
  rwa [List.map_cons, List.map_cons, List.map_singleton, ha.unwrap_eq, hb.unwrap_eq,
    hc.unwrap_eq] at hslots

/-- What is read of a collection begins with the brace group and ends with the letter of the
count; the blanks around the comma between them stay. -/
theorem trim_intercalate_count {inside g : Text} (hg : Text.Padded ('{' :: (inside ++ ['}'])) g)
    (hd : CountSlot d m) :
    ∃ rest count s : Text, ∃ n : Char,
      Text.trim ([','].intercalate [g, m]) = '{' :: (inside ++ '}' :: rest) ∧
        Text.trim rest = ',' :: count ∧ Count.digits? count = some d ∧
        Text.trim ([','].intercalate [g, m]) = s ++ [n] ∧ n.toLower ≠ 'x' := by
  obtain ⟨l, r, hl, hr, hg⟩ := hg
  obtain ⟨-, n, hn, hcount⟩ := Count.digits?_eq_some_iff.mp hd.digits?_eq
  obtain ⟨l', r', hm, hl', hr'⟩ := Text.eq_blanks_trim_blanks m
  have htrimCount : Text.trim (Text.trim m) = Text.trim m := Text.trim_trim m
  have hcountNe : Text.trim m ≠ [] := by simp [hcount]
  -- The blanks between the brace group and the count are inside the text, so they are not trimmed.
  let between := r ++ ',' :: l'
  have hwhole : Text.trim ([','].intercalate [g, m]) =
      '{' :: (inside ++ '}' :: (between ++ Text.trim m)) := by
    have hcore : [','].intercalate [g, m] =
        l ++ ('{' :: (inside ++ '}' :: (between ++ Text.trim m))) ++ r' := by
      calc [','].intercalate [g, m]
          = g ++ ',' :: (l' ++ Text.trim m ++ r') := by rw [← hm]; simp
        _ = l ++ ('{' :: (inside ++ '}' :: (between ++ Text.trim m))) ++ r' := by
          simp [hg, between]
    have hbrace : Text.trim ['{'] = ['{'] := rfl
    have hends := Text.trim_append_append (m := inside ++ '}' :: between) hbrace htrimCount
      (by simp) hcountNe
    rw [hcore, Text.trim_append_blanks hr', Text.trim_blanks_append hl]
    simpa using hends
  refine ⟨between ++ Text.trim m, l' ++ Text.trim m, '{' :: (inside ++ '}' :: (between ++ d)), n,
    hwhole, ?_, ?_, ?_, ?_⟩
  · have hcomma : Text.trim [','] = [','] := rfl
    have hends := Text.trim_append_append (m := l') hcomma htrimCount (by simp) hcountNe
    have hbetween : between ++ Text.trim m = r ++ ([','] ++ l' ++ Text.trim m) := by
      simp [between]
    rw [hbetween, Text.trim_blanks_append hr, hends]
    rfl
  · rw [← Count.digits?_trim, Text.trim_blanks_append hl', htrimCount, hd.digits?_trim]
  · rw [hwhole, hcount]
    simp
  · rcases hn with rfl | rfl <;> decide

/-- Three words in braces and a count after them are read as a collection. -/
theorem decode_collection {g : Text} (ha : WordSlot a x) (hb : WordSlot b y)
    (hc : WordSlot c z) (hg : Text.Padded ('{' :: ([','].intercalate [x, y, z] ++ ['}'])) g)
    (hd : CountSlot d m) (ht : MaySuffixed ([','].intercalate [g, m]) t) :
    decode t = .ok ⟨.collection, [unwrap a, unwrap b, unwrap c], [d]⟩ := by
  let inside := [','].intercalate [x, y, z]
  have hbal : ∀ u ∈ [x, y, z], isBalanced u = true := by
    simp [ha.isBalanced, hb.isBalanced, hc.isBalanced]
  have hparts : Formula.commaParts inside = [a, b, c] := by
    rw [commaParts_intercalate (by simp) hbal]
    simp [ha.commaParts, hb.commaParts, hc.commaParts]
  obtain ⟨rest, count, s, n, hcore, hrest, hcount, hlast, hn⟩ := trim_intercalate_count hg hd
  have hbody : collectionBody? ('{' :: (inside ++ '}' :: rest)) = some (inside, d) :=
    collectionBody?_eq_some_iff.mpr
      ⟨rest, count, rfl, isBalanced_intercalate roleOf_comma hbal, hrest, hcount⟩
  have hvisible : ∀ w ∈ [a, b, c], unwrap w ≠ [] := by
    simp [ha.word.visible, hb.word.visible, hc.word.visible]
  have hcollection :=
    collection?_eq_some_iff.mpr ⟨inside, d, a, b, c, hbody, hparts, hvisible, rfl⟩
  rw [decode_eq_ok_iff_of_maySuffixed ht hcore hlast hn, hcore, hcollection]
  rfl

end Shapes

/-! ### Shapes in square brackets -/

/-- A word beside a pair, each with the suffix, is read as a parallel formula in square brackets.
The word must hold no `+` that could be taken for the one between the sides. -/
theorem decode_parallel {a b c d x e y m z side t : Text} (ha : IsWord a)
    (hunsplit : Field.fullText.Unsplit a) (hx : Text.Padded a x)
    (he : Text.foldCase e = Text.foldCase Field.fullText.suffix) (hb : WordSlot b y)
    (hd : CountSlot d m) (hc : WordSlot c z)
    (hside : Field.fullText.Suffixed ([','].intercalate [y, m, z]) side)
    (ht : Text.Padded ('[' :: (x ++ e ++ '+' :: side ++ [']'])) t) :
    decode t = .ok ⟨.parallel, [unwrap a, unwrap b, unwrap c], [d]⟩ := by
  obtain ⟨l, r, hl, hr, hx⟩ := hx
  -- The blanks before the first word are trimmed with the inside of the brackets; those between
  -- the word and its suffix stay, and go when the suffix is dropped.
  let left := a ++ (r ++ e)
  have hinside : Text.trim (x ++ e ++ '+' :: side) = left ++ '+' :: Text.trimEnd side := by
    have hends := Text.trim_of_visible_ends (ha.trimmed.symm ▸ ha.ne_nil) hside.trim_ne_nil
      (r ++ e ++ ['+'])
    rw [Text.trimStart_eq_self (Text.trim_eq_self_iff.mp ha.trimmed).1] at hends
    have hsplit : x ++ e ++ '+' :: side = l ++ (a ++ (r ++ e ++ ['+']) ++ side) := by simp [hx]
    rw [hsplit, Text.trim_blanks_append hl, hends]
    simp [left]
  have hleft : Text.dropEnding? left Field.fullText.suffix = some a := by
    have hdrop := Field.dropEnding?_append_of_foldCase he (a ++ r)
    rwa [Text.trim_append_blanks hr, ha.trimmed, List.append_assoc] at hdrop
  have hafter : after [] left = [] :=
    after_of_isBalanced ((Field.isBalanced_of_dropEnding? hleft).symm.trans ha.balanced) []
  have hend : Text.hasEnding left Field.fullText.suffix = true :=
    Text.hasEnding_iff_append.mpr ⟨a ++ r, e, (List.append_assoc _ _ _).symm, he⟩
  -- No cut is possible in the word by assumption, and none after it for want of a `+`.
  have hplus : '+' ∉ r ++ e := by
    rw [List.mem_append, not_or]
    exact ⟨fun hmem => absurd (hr _ hmem) (by decide), Field.plus_not_mem_of_foldCase he⟩
  have hright : Text.dropEnding? (Text.trimEnd side) Field.fullText.suffix =
      some (Text.trim ([','].intercalate [y, m, z])) := by
    rw [Text.dropEnding?_congr (Text.trim_trimEnd side), hside.dropEnding?]
  have hsides := parallelSides?_append_plus hafter (hunsplit.append hplus) hend hleft hright
  have hparts := commaParts_counted hb hd hc
  have hvisible : ∀ w ∈ [a, b, c], unwrap w ≠ [] := by
    simp [ha.visible, hb.word.visible, hc.word.visible]
  have hparallel := parallel?_eq_some_iff.mpr
    ⟨a, _, b, Text.trim m, c, d, hsides, hparts, hd.digits?_trim, hvisible, rfl⟩
  refine decode_square (ht.trim_eq.trans (trim_enclosed square _)) ?_
  rw [hinside, hparallel]
  rfl

/-- A classification is read from any code without a `+`, also if nothing is left of it without
its brackets. -/
theorem decode_classification {a l r t : Text} (ha : IsSlot a)
    (huncut : containsTop '+' a = false) (hl : Field.fTerm.Suffixed a l)
    (hr : Field.cpc.Suffixed a r) (ht : Text.Padded ('[' :: (l ++ '+' :: r ++ [']'])) t) :
    decode t = .ok ⟨.classification, [unwrapOnce a], []⟩ := by
  have hinside : Text.trim (l ++ '+' :: r) = Text.trimStart l ++ '+' :: Text.trimEnd r := by
    have hends := Text.trim_of_visible_ends hl.trim_ne_nil hr.trim_ne_nil ['+']
    simpa using hends
  have hleft : Text.dropEnding? (Text.trimStart l) Field.fTerm.suffix = some a := by
    rw [Text.dropEnding?_congr (Text.trim_trimStart l), hl.dropEnding?, ha.trimmed]
  have hright : Text.dropEnding? (Text.trimEnd r) Field.cpc.suffix = some a := by
    rw [Text.dropEnding?_congr (Text.trim_trimEnd r), hr.dropEnding?, ha.trimmed]
  have hafter : after [] (Text.trimStart l) = [] :=
    after_of_isBalanced ((Field.isBalanced_of_dropEnding? hleft).symm.trans ha.balanced) []
  -- Neither side shows a `+`, since the code does not.
  have hcutl : splitTop '+' (Text.trimStart l) = [Text.trimStart l] := by
    rw [← containsTop_eq_false_iff, containsTop_congr (by decide) (Text.trim_trimStart l),
      hl.containsTop_plus huncut]
  have hcutr : splitTop '+' (Text.trimEnd r) = [Text.trimEnd r] := by
    rw [← containsTop_eq_false_iff, containsTop_congr (by decide) (Text.trim_trimEnd r),
      hr.containsTop_plus huncut]
  refine decode_square_of_classBases? (ht.trim_eq.trans (trim_enclosed square _)) ?_ ha.ne_nil
  rw [hinside]
  -- Blanks and suffixes gone, the two sides are the same code.
  exact classBases?_append_plus hafter hcutl hcutr hleft hright

/-- Every text of the grammar is read as the formula that it spells. -/
theorem decode_of_spells {t : Text} {f : Formula} (h : Spells t f) : decode t = .ok f := by
  cases h with
  | single ha huncut hshape ht => exact decode_single ha huncut hshape ht
  | pair ha hd hb ht => exact decode_pair ha hd hb ht
  | serial ha hd hb hd' hc ht => exact decode_serial ha hd hb hd' hc ht
  | collection ha hb hc hg hd ht => exact decode_collection ha hb hc hg hd ht
  | parallel ha hunsplit hx he hb hd hc hside ht =>
    exact decode_parallel ha hunsplit hx he hb hd hc hside ht
  | classification ha huncut hl hr ht =>
    exact decode_classification ha.isSlot huncut hl hr ht

/-- A parallel formula with blanks wherever they may stand and in mixed case. -/
theorem decode_of_spells_parallel :
    decode "\t[ (A+B) /tX+ C , 05n , D /Tx ]\n".toList =
      .ok ⟨.parallel, ["A+B".toList, "C".toList, "D".toList], ["05".toList]⟩ := by
  have hA : unwrap "(A+B)".toList = "A+B".toList := by cbv
  have hC : unwrap "C".toList = "C".toList := by cbv
  have hD : unwrap "D".toList = "D".toList := by cbv
  have hblank : ∀ c ∈ [' '], Text.isBlank c = true := List.forall_mem_singleton.mpr rfl
  have hnone : ∀ c ∈ ([] : Text), Text.isBlank c = true := List.forall_mem_nil _
  have ha : IsWord "(A+B)".toList := ⟨by decide, by decide, by rw [hA]; decide⟩
  have hx : Text.Padded "(A+B)".toList " (A+B) ".toList := ⟨[' '], [' '], hblank, hblank, rfl⟩
  have hunsplit : Field.fullText.Unsplit "(A+B)".toList := Field.unsplit_of_uncut (by decide) _
  have hb : WordSlot "C".toList " C ".toList :=
    ⟨⟨by decide, by decide, by rw [hC]; decide⟩, by decide, [' '], [' '], hblank, hblank, rfl⟩
  have hd : CountSlot "05".toList " 05n ".toList :=
    ⟨by decide, 'n', .inr rfl, [' '], [' '], hblank, hblank, rfl⟩
  have hc : WordSlot "D".toList " D ".toList :=
    ⟨⟨by decide, by decide, by rw [hD]; decide⟩, by decide, [' '], [' '], hblank, hblank, rfl⟩
  have hside : Field.fullText.Suffixed
      ([','].intercalate [" C ".toList, " 05n ".toList, " D ".toList])
        " C , 05n , D /Tx ".toList :=
    ⟨" C , 05n , D ".toList, "/Tx".toList, ⟨[], [], hnone, hnone, rfl⟩, by decide,
      [], [' '], hnone, hblank, rfl⟩
  have ht : Text.Padded
      ('[' :: (" (A+B) ".toList ++ "/tX".toList ++ '+' :: " C , 05n , D /Tx ".toList ++ [']']))
        "\t[ (A+B) /tX+ C , 05n , D /Tx ]\n".toList :=
    ⟨['\t'], ['\n'], List.forall_mem_singleton.mpr rfl, List.forall_mem_singleton.mpr rfl, rfl⟩
  have h := decode_of_spells (.parallel ha hunsplit hx (by decide) hb hd hc hside ht)
  rwa [hA, hC, hD] at h

end Formula

end QueryMix
