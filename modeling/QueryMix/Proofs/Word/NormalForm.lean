import QueryMix.Proofs.Text.Order
import QueryMix.Proofs.Text.Width
import QueryMix.Proofs.Word.Alternatives

/-!
# `QueryMix.Proofs.Word.NormalForm`: the normal form of a mix word

The tokens of a word are tokens in the sense of `IsToken`, in all the widths
(`isToken_of_mem_tokens`), and folding a token gives the alternative it stands for. They are
listed as a sorted set, which is what sorting before and after the widening and dropping
adjacent repeats comes to (`tokens_eq_destutter_sorted`). Joined tokens are read back: taking
the round brackets off the joined text leaves the tokens with `+` between them
(`unwrap_join`), if they are balanced.

The normal form depends on the set of alternatives only (`normalize_congr`), and if the brackets
of the word are balanced, the normal form has the alternatives of the word again, with or
without its round brackets (`mem_alternatives_normalize`, `mem_alternatives_unwrap_normalize`).
So it can stand for the word when it is normalized another time (`normalize_unwrap_normalize`).

For a word with unbalanced brackets the normal form can be balanced all the same. This
happens exactly when the tokens, longest first, read one after the other inside one pair of
round brackets, leave just that pair open (`isBalanced_normalize_iff`).
-/

set_option autoImplicit false

namespace QueryMix.Word

open QueryMix.Bracket QueryMix.Nesting

/-! ### Joined texts -/

/-- The characters of a joined text. -/
theorem mem_intercalate {sep c : Char} {ts : List Text} (h : c ∈ [sep].intercalate ts) :
    c = sep ∨ ∃ t ∈ ts, c ∈ t := by
  match ts with
  | [] => cases h
  | [t] => exact .inr ⟨t, List.mem_singleton_self t, by simpa [List.intercalate] using h⟩
  | t :: u :: us =>
    rw [List.intercalate_cons_cons, List.append_assoc, List.mem_append, List.singleton_append,
      List.mem_cons] at h
    rcases h with h | h | h
    · exact .inr ⟨t, List.mem_cons_self, h⟩
    · exact .inl h
    · rcases mem_intercalate h with h | ⟨w, hw, hc⟩
      · exact .inl h
      · exact .inr ⟨w, List.mem_cons_of_mem _ hw, hc⟩

/-- Folding a joined text folds what was joined. -/
theorem toHalfWidth_intercalate (ts : List Text) :
    Text.toHalfWidth (['+'].intercalate ts) = ['+'].intercalate (ts.map Text.toHalfWidth) := by
  match ts with
  | [] => rfl
  | [t] => simp [List.intercalate]
  | t :: u :: us =>
    rw [List.intercalate_cons_cons, Text.toHalfWidth_append, Text.toHalfWidth_append,
      toHalfWidth_intercalate (u :: us)]
    show _ = ['+'].intercalate
      (Text.toHalfWidth t :: Text.toHalfWidth u :: us.map Text.toHalfWidth)
    rw [List.intercalate_cons_cons]
    rfl

/-- Folding two texts with a `+` between them folds the two texts. -/
theorem toHalfWidth_append_plus (s t : Text) :
    Text.toHalfWidth (s ++ '+' :: t) = Text.toHalfWidth s ++ '+' :: Text.toHalfWidth t := by
  rw [Text.toHalfWidth_append, Text.toHalfWidth_cons, show Text.halfWidthChar '+' = '+' by decide]

/-- Folding a text in round brackets folds the text. -/
theorem toHalfWidth_enclosed (t : Text) :
    Text.toHalfWidth ('(' :: (t ++ [')'])) = '(' :: (Text.toHalfWidth t ++ [')']) := by
  rw [Text.toHalfWidth_cons, Text.toHalfWidth_append, show Text.halfWidthChar '(' = '(' by decide,
    show Text.toHalfWidth [')'] = [')'] by decide]

/-- A joined text is read as its parts are read, one after the other. -/
theorem strictAfter?_intercalate (nest : Nesting) (ts : List Text) :
    strictAfter? nest (['+'].intercalate ts) = ts.foldlM strictAfter? nest := by
  match ts with
  | [] => rfl
  | [t] => simp [List.intercalate]
  | t :: u :: us =>
    rw [List.intercalate_cons_cons, strictAfter?_append, strictAfter?_append, List.foldlM_cons]
    cases strictAfter? nest t with
    | none => rfl
    | some mid =>
      rw [Option.bind_some, strictAfter?_cons, strictStep?_plain mid roleOf_plus]
      exact strictAfter?_intercalate mid (u :: us)

/-- Two tokens or more are joined in one pair of round brackets. -/
theorem join_of_two_le {ts : List Text} (h : 2 ≤ ts.length) :
    join ts = '(' :: (['+'].intercalate ts ++ [')']) := by
  match ts, h with
  | _ :: _ :: _, _ => rfl

/-- Joined tokens stand alone or in one pair of round brackets. -/
theorem join_cases (ts : List Text) :
    join ts = ['+'].intercalate ts ∨ join ts = '(' :: (['+'].intercalate ts ++ [')']) := by
  match ts with
  | [] => exact .inl rfl
  | [t] => exact .inl (List.intercalate_singleton ..).symm
  | t :: u :: us => exact .inr rfl

/-- Trimming leaves a word that was made of tokens alone. -/
theorem trim_join {ts : List Text} (h : ∀ t ∈ ts, IsToken t) : Text.trim (join ts) = join ts := by
  match ts with
  | [] => rfl
  | [t] => exact (h t List.mem_cons_self).trimmed
  | t :: u :: us => exact trim_enclosed round _

/-- The characters of a word that was made of tokens. -/
theorem mem_join {c : Char} {ts : List Text} (h : c ∈ join ts) :
    c = '(' ∨ c = '+' ∨ c = ')' ∨ ∃ t ∈ ts, c ∈ t := by
  match ts with
  | [] => cases h
  | [t] => exact .inr (.inr (.inr ⟨t, List.mem_singleton_self t, h⟩))
  | t :: u :: us =>
    rw [join_of_two_le (by simp), List.mem_cons, List.mem_append, List.mem_singleton] at h
    rcases h with h | h | h
    · exact .inl h
    · rcases mem_intercalate h with h | h
      · exact .inr (.inl h)
      · exact .inr (.inr (.inr h))
    · exact .inr (.inr (.inl h))

section Balanced

variable {ts : List Text} (h : ∀ t ∈ ts, IsToken t ∧ isBalanced t = true)

include h

/-- Balanced tokens with `+` between them are balanced. -/
theorem isBalanced_joined : isBalanced (['+'].intercalate ts) = true :=
  isBalanced_intercalate roleOf_plus fun t ht => (h t ht).2

/-- Joined balanced tokens are not enclosed in round brackets. -/
theorem enclosed?_intercalate : enclosed? round (['+'].intercalate ts) = none := by
  match ts with
  | [] => rfl
  | [t] => simpa [List.intercalate] using (h t List.mem_cons_self).1.bare
  | t :: u :: us =>
    have htop : containsTop '+' (['+'].intercalate (t :: u :: us)) = true := by
      rw [containsTop, splitTop_intercalate roleOf_plus (List.cons_ne_nil t (u :: us))
        fun v hv => ⟨after_of_isBalanced (h v hv).2 [], (h v hv).1.uncut⟩]
      simp
    exact enclosed?_eq_none_of_containsTop htop round

/-- A word that was made of balanced tokens is balanced. -/
theorem isBalanced_join : isBalanced (join ts) = true := by
  match ts with
  | [] => rfl
  | [t] => exact (h t List.mem_cons_self).2
  | t :: u :: us => exact isBalanced_enclosed round (isBalanced_joined h)

/-- Without its round brackets such a word is its tokens with `+` between them. -/
theorem unwrap_join : unwrap (join ts) = ['+'].intercalate ts := by
  have hinside : unwrap (['+'].intercalate ts) = ['+'].intercalate ts :=
    unwrap_eq_self (Text.trim_intercalate fun t ht => ⟨(h t ht).1.ne_nil, (h t ht).1.trimmed⟩)
      (enclosed?_intercalate h)
  match ts with
  | [] => exact hinside
  | [t] => simpa [join, List.intercalate] using hinside
  | t :: u :: us =>
    rw [join_of_two_le (by simp), unwrap_enclosed (isBalanced_joined h), hinside]

/-- Such a word shows no `+` at top level. -/
theorem splitTop_join : splitTop '+' (join ts) = [join ts] := by
  match ts with
  | [] => rfl
  | [t] => exact (h t List.mem_cons_self).1.uncut
  | t :: u :: us => exact splitTop_enclosed '+' round (isBalanced_joined h)

end Balanced

/-! ### The tokens of a word -/

/-- A text is alphanumeric when it has a character at least, and ASCII letters and digits only. -/
theorem isAlphanumeric_iff {t : Text} :
    Text.isAlphanumeric t = true ↔ t ≠ [] ∧ ∀ c ∈ t, c.isAlphanum = true := by
  simp [Text.isAlphanumeric]

/-- An alternative is written as it is and, if variants are asked for and it is alphanumeric, in
full width. -/
theorem mem_widths {variants : Bool} {u a : Text} :
    u ∈ widths variants a ↔
      u = a ∨ (variants = true ∧ Text.isAlphanumeric a = true ∧ u = Text.toFullWidth a) := by
  rw [widths]
  split
  · next h =>
    rw [Bool.and_eq_true] at h
    simp [h.1, h.2]
  · next h =>
    rw [Bool.and_eq_true] at h
    simp only [List.mem_singleton]
    tauto

/-- The tokens of a word are its alternatives in all their widths. -/
theorem mem_tokens {variants : Bool} {raw u : Text} :
    u ∈ tokens variants raw ↔
      ∃ a ∈ alternatives (Text.toHalfWidth raw), u ∈ widths variants a := by
  rw [tokens, Text.mem_sortedSet, List.mem_flatMap]

/-- The tokens of a word are its alternatives, sorted, widened, sorted again and freed from
adjacent repeats. -/
theorem tokens_eq_destutter_sorted (variants : Bool) (raw : Text) :
    tokens variants raw =
      (Text.sorted ((Text.sorted (alternatives (Text.toHalfWidth raw))).flatMap
        (widths variants))).destutter (· ≠ ·) := by
  rw [tokens, Text.destutter_sorted]
  exact Text.sortedSet_congr fun u => by simp only [List.mem_flatMap, Text.mem_sorted]

/-- An alternative of a folded text is left alone by folding. -/
theorem toHalfWidth_of_mem_alternatives {raw a : Text}
    (h : a ∈ alternatives (Text.toHalfWidth raw)) : Text.toHalfWidth a = a :=
  Text.toHalfWidth_of_subset (sublist_of_mem_alternatives h).subset

/-- Folding a width of an alternative gives the alternative. -/
theorem toHalfWidth_of_mem_widths {variants : Bool} {raw a u : Text}
    (ha : a ∈ alternatives (Text.toHalfWidth raw)) (hu : u ∈ widths variants a) :
    Text.toHalfWidth u = a := by
  rcases mem_widths.mp hu with rfl | ⟨-, -, rfl⟩
  · exact toHalfWidth_of_mem_alternatives ha
  · rw [Text.toHalfWidth_toFullWidth, toHalfWidth_of_mem_alternatives ha]

/-- The folded tokens of a word are its alternatives. -/
theorem mem_map_toHalfWidth_tokens {variants : Bool} {raw a : Text} :
    a ∈ (tokens variants raw).map Text.toHalfWidth ↔ a ∈ alternatives (Text.toHalfWidth raw) := by
  rw [List.mem_map]
  constructor
  · rintro ⟨u, hu, rfl⟩
    obtain ⟨b, hb, hub⟩ := mem_tokens.mp hu
    rw [toHalfWidth_of_mem_widths hb hub]
    exact hb
  · intro ha
    exact ⟨a, mem_tokens.mpr ⟨a, ha, mem_widths.mpr (.inl rfl)⟩, toHalfWidth_of_mem_alternatives ha⟩

/-- A text without brackets, blanks and `+` is a token. -/
theorem isToken_of_plain {t : Text} (hne : t ≠ [])
    (h : ∀ c ∈ t, roleOf c = .plain ∧ Text.isBlank c = false ∧ c ≠ '+') : IsToken t where
  ne_nil := hne
  trimmed := Text.trim_eq_self_iff.mpr
    ⟨fun c hc => (h c (List.mem_of_mem_head? hc)).2.1,
      fun c hc => (h c (List.mem_of_getLast? hc)).2.1⟩
  bare := by
    cases he : enclosed? round t with
    | none => rfl
    | some inside =>
      have hmem : round.opener ∈ t := by
        rw [(enclosed?_eq_some_iff.mp he).1]
        exact List.mem_cons_self
      exact absurd (h _ hmem).1 (by simp)
  uncut := splitFrom_of_not_mem (fun hmem => (h '+' hmem).2.2 rfl) []

/-- The full-width form of an ASCII alphanumeric text is a token. -/
theorem isToken_toFullWidth {a : Text} (h : Text.isAlphanumeric a = true) :
    IsToken (Text.toFullWidth a) := by
  obtain ⟨hne, hall⟩ := isAlphanumeric_iff.mp h
  refine isToken_of_plain (by simpa [Text.toFullWidth] using hne) fun c hc => ?_
  obtain ⟨d, hd, rfl⟩ := List.mem_map.mp hc
  have hcode := Text.toNat_fullWidthChar_of_isAlphanum (hall d hd)
  refine ⟨Text.roleOf_fullWidthChar_of_isAlphanum (hall d hd),
    Text.isBlank_fullWidthChar_of_isAlphanum (hall d hd), fun heq => ?_⟩
  rw [heq] at hcode
  simp at hcode

/-- Every token of a word is a token. -/
theorem isToken_of_mem_tokens {variants : Bool} {raw u : Text} (h : u ∈ tokens variants raw) :
    IsToken u := by
  obtain ⟨a, ha, hu⟩ := mem_tokens.mp h
  rcases mem_widths.mp hu with rfl | ⟨-, halnum, rfl⟩
  · exact isToken_of_mem_alternatives ha
  · exact isToken_toFullWidth halnum

/-- Folding a token neither makes nor loses a bracket: an alternative is folded already, and a
variant is made of letters and digits. -/
theorem keepsRoles_of_mem_tokens {variants : Bool} {raw u : Text}
    (h : u ∈ tokens variants raw) : Text.KeepsRoles u := by
  intro c hc
  obtain ⟨a, ha, hu⟩ := mem_tokens.mp h
  rcases mem_widths.mp hu with rfl | ⟨-, halnum, rfl⟩
  · rw [Text.toHalfWidth_eq_self_iff.mp (toHalfWidth_of_mem_alternatives ha) c hc]
  · obtain ⟨d, hd, rfl⟩ := List.mem_map.mp hc
    have hd' := (isAlphanumeric_iff.mp halnum).2 d hd
    rw [Text.halfWidthChar_fullWidthChar, Text.halfWidthChar_of_isAlphanum hd',
      Text.roleOf_of_isAlphanum hd', Text.roleOf_fullWidthChar_of_isAlphanum hd']

/-- The tokens of a word with balanced brackets are balanced. -/
theorem isBalanced_of_mem_tokens {variants : Bool} {raw u : Text}
    (hbal : isBalanced (Text.toHalfWidth raw) = true) (h : u ∈ tokens variants raw) :
    isBalanced u = true := by
  obtain ⟨a, ha, hu⟩ := mem_tokens.mp h
  rw [← Text.isBalanced_toHalfWidth (keepsRoles_of_mem_tokens h),
    toHalfWidth_of_mem_widths ha hu]
  exact (isBalanced_iff_forall_mem_alternatives _).mp hbal a ha

/-! ### The normal form -/

/-- The normal form has no blanks at its ends. -/
theorem trim_normalize (variants : Bool) (raw : Text) :
    Text.trim (normalize variants raw) = normalize variants raw :=
  trim_join fun _ h => isToken_of_mem_tokens h

/-- A word of blanks has the empty normal form. -/
theorem normalize_of_allBlank (variants : Bool) {raw : Text} (h : Text.allBlank raw = true) :
    normalize variants raw = [] := by
  have hblank : ∀ c ∈ Text.toHalfWidth raw, Text.isBlank c = true :=
    Text.trim_eq_nil_iff.mp (List.isEmpty_iff.mp ((Text.allBlank_toHalfWidth raw).trans h))
  rw [normalize, tokens, alternatives_of_blanks hblank]
  rfl

/-- Words with the same alternatives have the same normal form: the sorted set forgets in which
order and how often they are typed. -/
theorem normalize_congr {variants : Bool} {u v : Text}
    (h : ∀ a, a ∈ alternatives (Text.toHalfWidth u) ↔ a ∈ alternatives (Text.toHalfWidth v)) :
    normalize variants u = normalize variants v := by
  have htokens : tokens variants u = tokens variants v :=
    Text.sortedSet_congr fun t => by simp only [List.mem_flatMap, h]
  rw [normalize, htokens, normalize]

/-- A word and its folded form have one normal form. -/
@[simp] theorem normalize_toHalfWidth (variants : Bool) (raw : Text) :
    normalize variants (Text.toHalfWidth raw) = normalize variants raw :=
  normalize_congr fun a => by rw [Text.toHalfWidth_toHalfWidth]

/-- So have a code and its folded form. -/
@[simp] theorem normalizeCode_toHalfWidth (raw : Text) :
    normalizeCode (Text.toHalfWidth raw) = normalizeCode raw := by
  rw [normalizeCode, Text.toHalfWidth_toHalfWidth, normalizeCode]

/-- Folding a normal form neither makes nor loses a bracket. -/
theorem keepsRoles_normalize (variants : Bool) (raw : Text) :
    Text.KeepsRoles (normalize variants raw) := by
  intro c hc
  rcases mem_join hc with rfl | rfl | rfl | ⟨u, hu, hcu⟩
  · decide
  · decide
  · decide
  · exact keepsRoles_of_mem_tokens hu c hcu

section Balanced

variable {raw : Text} (hbal : isBalanced (Text.toHalfWidth raw) = true)

include hbal

/-- The tokens of a word with balanced brackets are balanced tokens. -/
theorem tokens_balanced (variants : Bool) :
    ∀ t ∈ tokens variants raw, IsToken t ∧ isBalanced t = true :=
  fun _ h => ⟨isToken_of_mem_tokens h, isBalanced_of_mem_tokens hbal h⟩

/-- The normal form of a word with balanced brackets shows no `+` at top level. -/
theorem splitTop_normalize (variants : Bool) :
    splitTop '+' (normalize variants raw) = [normalize variants raw] :=
  splitTop_join (tokens_balanced hbal variants)

/-- Joined and folded, the tokens of a word are read as the alternatives they stand for. -/
theorem alternatives_joined_tokens (variants : Bool) :
    alternatives (Text.toHalfWidth (['+'].intercalate (tokens variants raw))) =
      (tokens variants raw).map Text.toHalfWidth := by
  -- Folding takes each token to its alternative, and alternatives are balanced tokens.
  rw [toHalfWidth_intercalate]
  refine alternatives_intercalate fun t ht => ?_
  have ha : t ∈ alternatives (Text.toHalfWidth raw) := mem_map_toHalfWidth_tokens.mp ht
  exact ⟨isToken_of_mem_alternatives ha,
    (isBalanced_iff_forall_mem_alternatives _).mp hbal t ha⟩

/-- The alternatives of a normal form without its round brackets are those of the word. -/
theorem mem_alternatives_unwrap_normalize {variants : Bool} {a : Text} :
    a ∈ alternatives (Text.toHalfWidth (unwrap (normalize variants raw))) ↔
      a ∈ alternatives (Text.toHalfWidth raw) := by
  rw [normalize, unwrap_join (tokens_balanced hbal variants), alternatives_joined_tokens hbal,
    mem_map_toHalfWidth_tokens]

/-- The alternatives of a normal form are those of the word. -/
theorem mem_alternatives_normalize {variants : Bool} {a : Text} :
    a ∈ alternatives (Text.toHalfWidth (normalize variants raw)) ↔
      a ∈ alternatives (Text.toHalfWidth raw) := by
  let joined := ['+'].intercalate (tokens variants raw)
  have hjoined : a ∈ alternatives (Text.toHalfWidth joined) ↔
      a ∈ alternatives (Text.toHalfWidth raw) := by
    rw [alternatives_joined_tokens hbal, mem_map_toHalfWidth_tokens]
  -- The round brackets around several tokens are taken off again before they are read.
  rcases join_cases (tokens variants raw) with hjoin | hjoin
  · rw [normalize, hjoin]
    exact hjoined
  · have hbracket : isBalanced (Text.toHalfWidth joined) = true := by
      refine isBalanced_of_alternatives_subset hbal fun b hb => ?_
      rw [alternatives_joined_tokens hbal] at hb
      exact mem_map_toHalfWidth_tokens.mp hb
    rw [normalize, hjoin, toHalfWidth_enclosed, alternatives_enclosed hbracket]
    exact hjoined

/-- The brackets of a folded normal form are balanced. -/
theorem isBalanced_toHalfWidth_normalize (variants : Bool) :
    isBalanced (Text.toHalfWidth (normalize variants raw)) = true :=
  isBalanced_of_alternatives_subset hbal fun _ ha => (mem_alternatives_normalize hbal).mp ha

/-- Normalizing a normal form without its round brackets gives what normalizing the word
gives, whichever width variants were asked for. -/
theorem normalize_unwrap_normalize (variants variants' : Bool) :
    normalize variants' (unwrap (normalize variants raw)) = normalize variants' raw :=
  normalize_congr fun _ => mem_alternatives_unwrap_normalize hbal

end Balanced

/-! ### Words with unbalanced brackets -/

/-- The tokens of the word, longest first, read one after the other inside one pair of round
brackets, leave just that pair open. -/
def Mended (variants : Bool) (raw : Text) : Prop :=
  2 ≤ (tokens variants raw).length ∧
    (tokens variants raw).foldlM strictAfter? [round] = some [round]

instance (variants : Bool) (raw : Text) : Decidable (Mended variants raw) :=
  inferInstanceAs (Decidable (_ ∧ _))

/-- Several tokens make up a balanced word exactly when they leave just the outer pair of
round brackets open. -/
theorem isBalanced_join_iff {ts : List Text} (h : 2 ≤ ts.length) :
    isBalanced (join ts) = true ↔ ts.foldlM strictAfter? [round] = some [round] := by
  rw [join_of_two_le h, isBalanced_iff, strictAfter?_cons,
    show strictStep? [] '(' = some [round] from rfl, Option.bind_some, strictAfter?_append,
    strictAfter?_intercalate, Option.bind_eq_some_iff]
  constructor
  · rintro ⟨nest, hread, hclose⟩
    rw [strictAfter?_cons, Option.bind_eq_some_iff] at hclose
    obtain ⟨mid, hstep, hmid⟩ := hclose
    rw [strictAfter?_nil, Option.some.injEq] at hmid
    rw [hread]
    -- The last character is a round closer, so just a round region is open before it.
    rcases strictStep?_cases hstep with ⟨b, hb, -⟩ | ⟨b, hb, rfl⟩ | ⟨hb, -⟩
    · cases b <;> exact absurd hb (by decide)
    · have hround : b.closer = round.closer := (roleOf_eq_closes_iff.mp hb).symm
      cases b with
      | round => rw [hmid]
      | curly => exact absurd hround (by decide)
      | square => exact absurd hround (by decide)
    · exact absurd hb (by decide)
  · intro hread
    exact ⟨[round], hread, rfl⟩

/-- The normal form of a word is balanced if the brackets of the word are, or if its tokens
happen to balance in the order in which they are joined. -/
theorem isBalanced_normalize_iff (variants : Bool) (raw : Text) :
    isBalanced (normalize variants raw) = true ↔
      isBalanced (Text.toHalfWidth raw) = true ∨ Mended variants raw := by
  by_cases hbal : isBalanced (Text.toHalfWidth raw) = true
  · simp [hbal, normalize, isBalanced_join (tokens_balanced hbal variants)]
  · -- One of the alternatives is not balanced, and it is a token of the word.
    have hex : ∃ a ∈ alternatives (Text.toHalfWidth raw), isBalanced a ≠ true := by
      by_contra hall
      push Not at hall
      exact hbal ((isBalanced_iff_forall_mem_alternatives _).mpr hall)
    obtain ⟨a, ha, hnot⟩ := hex
    have htok : a ∈ tokens variants raw := mem_tokens.mpr ⟨a, ha, mem_widths.mpr (.inl rfl)⟩
    simp only [hbal, Bool.false_eq_true, false_or, Mended]
    by_cases hlen : 2 ≤ (tokens variants raw).length
    · rw [normalize, isBalanced_join_iff hlen]
      simp [hlen]
    · -- A single token stands alone in the normal form, and it is the unbalanced one.
      have hone : tokens variants raw = [a] := by
        match hts : tokens variants raw with
        | [] => rw [hts] at htok; cases htok
        | [t] => rw [hts, List.mem_singleton] at htok; rw [htok]
        | t :: u :: us => rw [hts] at hlen; simp at hlen
      simp [normalize, hone, join, hnot]

end QueryMix.Word
