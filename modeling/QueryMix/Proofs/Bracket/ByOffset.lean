import QueryMix.Proofs.Bracket.Layers
import QueryMix.Proofs.Bracket.Matching
import QueryMix.Proofs.Field
import QueryMix.Proofs.Text.ByOffset

/-!
# `QueryMix.Proofs.Bracket.ByOffset`: brackets scanned by checked offsets

The scanners of brackets, done with the offsets of the characters: the splitter keeps the offset at
which a part begins, the search for a match counts from the opener on, a layer of brackets is the
first and the last byte of a text. Each scanner comes to what its namesake in the library comes to,
and no slice, sum or difference on the way has a fault, whatever the text holds and whatever offset
is asked for.

The loops go through the characters that are left with what has been read before them. The lemma
about a loop says what it comes to after any beginning of the text (`splitLoop_eq`,
`matchLoop_eq`, `splitAfterLoop_eq`).
-/

set_option autoImplicit false

namespace QueryMix.ByOffset

open QueryMix.Bracket (roleOf isBracket isBracket_eq_false_iff splitFrom splitFrom_cons_of_not
  splitFrom_ne_nil step_plain enclosed? enclosed?_eq_some_iff)
open Text (size isPlace charsFrom trim)

/-! ### Cutting at a separator -/

/-- Go on cutting: the characters that are left, what is open before them, where the part at hand
begins, and the parts before it. -/
def splitLoop (sep : Char) (t : Text) :
    List (Nat × Char) → Nesting → Nat → List Text → Checked (List Text)
  | [], _, start, parts => do
    let last ← slice t start (size t)
    return parts ++ [last]
  | (offset, c) :: rest, nest, start, parts =>
    if isBracket c then splitLoop sep t rest (nest.step c) start parts
    else if c = sep ∧ nest = [] then do
      let part ← slice t start offset
      let next ← plus t offset c.utf8Size
      splitLoop sep t rest nest next (parts ++ [part])
    else splitLoop sep t rest nest start parts

/-- The parts of a text between its separators at top level. -/
def splitTop (sep : Char) (t : Text) : Checked (List Text) :=
  splitLoop sep t (charsFrom 0 t) [] 0 []

/-- When `before` and `part` have been read, and the part at hand begins after `before`, the loop
comes to the parts so far and those that the splitter finds in the rest. The first of these goes on
from `part`. -/
theorem splitLoop_eq {t : Text} (sep : Char) (before part rest : Text)
    (ht : t = before ++ (part ++ rest)) (nest : Nesting) (parts : List Text) :
    splitLoop sep t (charsFrom (size before + size part) rest) nest (size before) parts =
      .ok (parts ++ (splitFrom sep nest rest).modifyHead (part ++ ·)) := by
  induction rest generalizing before part nest parts with
  | nil =>
    rw [List.append_nil] at ht
    rw [charsFrom, splitLoop, ht, slice_back]
    simp [splitFrom, pure, Except.pure]
  | cons c rest ih =>
    -- A character that is no cut belongs to the part at hand.
    have further (hcut : ¬(c = sep ∧ nest = [] ∧ isBracket c = false)) :
        splitLoop sep t (charsFrom (size before + size part + c.utf8Size) rest) (nest.step c)
          (size before) parts =
        .ok (parts ++ (splitFrom sep nest (c :: rest)).modifyHead (part ++ ·)) := by
      have hnext := ih before (part ++ [c]) (by simp [ht]) (nest.step c) parts
      rw [Text.size_concat, ← Nat.add_assoc] at hnext
      rw [hnext, splitFrom_cons_of_not hcut, List.modifyHead_modifyHead]
      simp [Function.comp_def]
    rw [charsFrom, splitLoop]
    by_cases hbracket : isBracket c = true
    · rw [if_pos hbracket]
      exact further (by simp [hbracket])
    · rw [Bool.not_eq_true] at hbracket
      rw [if_neg (by simp [hbracket])]
      split
      · next hcut =>
        obtain ⟨rfl, rfl⟩ := hcut
        have hslice : slice t (size before) (size before + size part) = .ok part := by
          rw [ht]
          exact slice_append before part (c :: rest)
        have hplus : plus t (size before + size part) c.utf8Size =
            .ok (size before + size part + c.utf8Size) :=
          plus_of_le (by simp only [ht, Text.size_append, Text.size_cons]; omega)
        have hnext := ih (before ++ part ++ [c]) [] (by simp [ht]) [] (parts ++ [part])
        rw [Text.size_concat, Text.size_append, Text.size_nil, Nat.add_zero] at hnext
        rw [hslice, ok_bind, hplus, ok_bind, hnext, splitFrom, if_pos ⟨rfl, rfl, hbracket⟩]
        obtain ⟨p, ps, hps⟩ := List.exists_cons_of_ne_nil (splitFrom_ne_nil c [] rest)
        simp [hps]
      · next hcut =>
        have hrest := further (by rintro ⟨hc, hnest, -⟩; exact hcut ⟨hc, hnest⟩)
        rw [step_plain _ (isBracket_eq_false_iff.mp hbracket)] at hrest
        exact hrest

/-- The splitter has no fault on any text, and finds the parts that it finds in the library. -/
theorem splitTop_eq (sep : Char) (t : Text) : splitTop sep t = .ok (Bracket.splitTop sep t) := by
  have h := splitLoop_eq sep [] [] t rfl [] []
  obtain ⟨p, ps, hps⟩ := List.exists_cons_of_ne_nil (splitFrom_ne_nil sep [] t)
  rw [splitTop, Bracket.splitTop]
  simpa [hps] using h

/-! ### The closer that matches an opener -/

/-- Go on looking for the end of the outermost region that is open, after `origin`. The place of a
closer that does not fit is shown before the search is given up. -/
def matchLoop (t : Text) (origin : Nat) : List (Nat × Char) → Nesting → Attempt Nat
  | [], _ => failure
  | (offset, c) :: rest, nest =>
    match roleOf c with
    | .opens b => matchLoop t origin rest (b :: nest)
    | .closes b =>
      if nest.head? = some b then
        if nest.tail = [] then plus t origin offset else matchLoop t origin rest nest.tail
      else do
        let place ← plus t origin offset
        let _shown ← pointAt t place
        failure
    | .plain => matchLoop t origin rest nest

/-- The offset of the closer that matches the opener at `offset`. -/
def matchingPlace? (t : Text) (offset : Nat) : Attempt Nat :=
  if size t ≤ offset ∨ isPlace t offset = false then failure
  else do
    let text ← slice t offset (size t)
    let c ← given text.head?
    match roleOf c with
    | .opens b =>
      let origin ← plus t offset c.utf8Size
      let rest ← slice t origin (size t)
      matchLoop t origin (charsFrom 0 rest) [b]
    | _ => failure

/-- The offset at which a region ends that has been read from `origin` on, if it ends. -/
def endPlace? (origin : Nat) : Region → Option Nat
  | .closed inside _ => some (origin + size inside)
  | _ => none

/-- A region with one more character at its start ends as many bytes further on as the character
has. -/
theorem endPlace?_extend (origin : Nat) (c : Char) (r : Region) :
    endPlace? origin (r.extend c) = endPlace? (origin + c.utf8Size) r := by
  cases r with
  | closed inside rest => simp [Region.extend, endPlace?, Nat.add_assoc]
  | mismatched inside rest => rfl
  | unclosed => rfl

/-- The match of the opener that a text begins with is where its region ends. -/
theorem matchingPlace?_opener (b : Bracket) (text : Text) :
    Bracket.matchingPlace? (b.opener :: text) 0 = endPlace? 1 (Region.read b [] text) := by
  rw [Bracket.matchingPlace?, Text.cutAt?]
  simp only [Bracket.roleOf_opener, Bracket.utf8Size_opener, Nat.zero_add]
  cases Region.read b [] text <;> rfl

/-- The inside of the region that a text begins with and what follows it are cut out by the place of
its closer. -/
theorem cuts_around_match {b : Bracket} {t inside rest : Text}
    (ht : t = b.opener :: (inside ++ b.closer :: rest)) :
    plus t (1 + size inside) 1 = .ok (1 + size inside + 1) ∧
      slice t (1 + size inside + 1) (size t) = .ok rest ∧
      slice t 1 (1 + size inside) = .ok inside := by
  have hupto : size (b.opener :: (inside ++ [b.closer])) = 1 + size inside + 1 := by
    simp [Nat.add_assoc]
  have hcut : t = b.opener :: (inside ++ [b.closer]) ++ rest := by simp [ht]
  have hsize : 1 + size inside + 1 + size rest = size t := by
    rw [hcut, Text.size_append, hupto]
  refine ⟨plus_of_le (by omega), ?_, ?_⟩
  · exact slice_eq_ok_iff.mpr ⟨_, [], by simpa using hcut, hupto, hsize⟩
  · exact slice_eq_ok_iff.mpr ⟨[b.opener], b.closer :: rest, ht, by simp, rfl⟩

/-- The loop counts from the end of `before`. When it has read `read`, it comes to the place where
the outermost region that is open ends in the rest, or to nothing if it does not end there. -/
theorem matchLoop_eq {t : Text} (before read rest : Text) (ht : t = before ++ (read ++ rest))
    (innermost : Bracket) (outer : Nesting) :
    matchLoop t (size before) (charsFrom (size read) rest) (innermost :: outer) =
      given (endPlace? (size before + size read) (Region.read innermost outer rest)) := by
  induction rest generalizing read innermost outer with
  | nil => rfl
  | cons c rest ih =>
    -- Inside the region, the next character only moves the place that is counted to.
    have further (b : Bracket) (nest : Nesting) :
        matchLoop t (size before) (charsFrom (size read + c.utf8Size) rest) (b :: nest) =
          given (endPlace? (size before + size read)
            ((Region.read b nest rest).extend c)) := by
      have hnext := ih (read ++ [c]) (by simp [ht]) b nest
      rw [Text.size_concat] at hnext
      rw [hnext, endPlace?_extend, Nat.add_assoc]
    have hplus : plus t (size before) (size read) = .ok (size before + size read) :=
      plus_of_le (by simp only [ht, Text.size_append]; omega)
    rw [charsFrom, matchLoop]
    unfold Region.read
    cases roleOf c with
    | opens b => exact further b (innermost :: outer)
    | closes b =>
      by_cases hb : b = innermost
      · subst hb
        cases outer with
        | nil => simp [hplus, endPlace?]; rfl
        | cons next others => simpa using further next others
      · have hne : innermost ≠ b := fun h => hb h.symm
        simp [hne, hb, hplus, pointAt_eq]
        rfl
    | plain => exact further innermost outer

/-- The search has no fault for any offset, be it a place of the text or not. -/
theorem matchingPlace?_eq (t : Text) (offset : Nat) :
    matchingPlace? t offset = given (Bracket.matchingPlace? t offset) := by
  rw [matchingPlace?, Bracket.matchingPlace?]
  cases hcut : Text.cutAt? t offset with
  | none =>
    rw [if_pos (.inr (by simp [isPlace, hcut]))]
    rfl
  | some parts =>
    obtain ⟨before, after⟩ := parts
    obtain ⟨rfl, rfl⟩ := Text.cutAt?_eq_some_iff.mp hcut
    -- An offset at the end of the text has no opener after it.
    cases after with
    | nil =>
      rw [if_pos (.inl (by simp))]
      rfl
    | cons c rest =>
      have hinside : ¬(size (before ++ c :: rest) ≤ size before ∨
          isPlace (before ++ c :: rest) (size before) = false) := by
        have hc : 0 < c.utf8Size := Char.utf8Size_pos c
        rw [Text.isPlace_append, Text.size_append, Text.size_cons]
        simp only [Bool.true_eq_false, or_false]
        omega
      rw [if_neg hinside, slice_back, lift_ok_bind, List.head?_cons,
        given_some_bind]
      dsimp only
      -- Only an opener starts the loop, which then counts from the place after it.
      cases hc : roleOf c with
      | opens b =>
        have hplus : plus (before ++ c :: rest) (size before) c.utf8Size =
            .ok (size before + c.utf8Size) :=
          plus_of_le (by simp only [Text.size_append, Text.size_cons]; omega)
        have hrest : slice (before ++ c :: rest) (size before + c.utf8Size)
            (size (before ++ c :: rest)) = .ok rest :=
          slice_eq_ok_iff.mpr ⟨before ++ [c], [], by simp, by simp, by simp [Nat.add_assoc]⟩
        have hloop := matchLoop_eq (t := before ++ c :: rest) (before ++ [c]) [] rest (by simp) b []
        rw [Text.size_concat, Text.size_nil, Nat.add_zero] at hloop
        simp only [hplus, hrest, lift_ok_bind, hloop]
        cases Region.read b [] rest with
        | closed inside back => rfl
        | mismatched inside back => rfl
        | unclosed => rfl
      | closes b => rfl
      | plain => rfl

/-! ### Regions from end to end -/

/-- Is the text one region from its first character, an `opening` bracket, to its last? -/
def isEnclosed (opening : Char) (t : Text) : Checked Bool :=
  if t.head? = some opening ∧ 2 ≤ size t then do
    let found ← (matchingPlace? t 0).run
    let last ← minus (size t) 1
    return found == some last
  else return false

/-- Take round brackets off, as long as there are any around the text. -/
def unwrapLoop (t : Text) : Checked Text :=
  match isEnclosed '(' t with
  | .error fault => .error fault
  | .ok false => .ok t
  | .ok true =>
    match _layer : withoutEnds t with
    | .error fault => .error fault
    | .ok inside => unwrapLoop (trim inside)
termination_by t.length
decreasing_by
  exact Nat.lt_of_le_of_lt (Text.length_trim_le _) (length_lt_of_withoutEnds _layer)

/-- The trimmed text without the round brackets around it. -/
def unwrap (t : Text) : Checked Text := unwrapLoop (trim t)

/-- The trimmed text without the outermost pair of round brackets around it. -/
def unwrapOnce (t : Text) : Checked Text := do
  let core := trim t
  if ← isEnclosed '(' core then
    let inside ← withoutEnds core
    return trim inside
  else return core

/-- What is left of a region without its first and its last byte is its inside. -/
theorem withoutEnds_of_enclosed? {b : Bracket} {t inside : Text} (h : enclosed? b t = some inside) :
    withoutEnds t = .ok inside := by
  obtain ⟨rfl, -⟩ := enclosed?_eq_some_iff.mp h
  exact withoutEnds_enclosed (Bracket.utf8Size_opener b) (Bracket.utf8Size_closer b) inside

/-- A text is one region when the match of its first character is its last. -/
theorem isEnclosed_iff_matchingPlace? {opening : Char} {t : Text} :
    Bracket.isEnclosed opening t = true ↔
      (t.head? = some opening ∧ 2 ≤ size t) ∧
        Bracket.matchingPlace? t 0 = some (size t - 1) := by
  rw [Bracket.matchingPlace?_eq_some_iff, Bracket.isEnclosed]
  constructor
  · intro h
    split at h
    · next b hrole =>
      obtain ⟨inside, hinside⟩ := Option.isSome_iff_exists.mp h
      obtain ⟨rfl, hbal⟩ := enclosed?_eq_some_iff.mp hinside
      have hsize : size (b.opener :: (inside ++ [b.closer])) = 1 + size inside + 1 := by
        simp [Nat.add_comm]
      refine ⟨⟨by rw [Bracket.roleOf_eq_opens_iff.mp hrole]; rfl, by omega⟩, ?_⟩
      exact ⟨b, [], inside, [], rfl, rfl, by omega, hbal⟩
    · cases h
  · rintro ⟨⟨hhead, hle⟩, b, before, inside, rest, rfl, hbefore, hlast, hbal⟩
    obtain rfl := Text.size_eq_zero_iff.mp hbefore
    obtain rfl : b.opener = opening := Option.some.inj hhead
    -- Nothing follows the match.
    obtain rfl : rest = [] := by
      refine Text.size_eq_zero_iff.mp ?_
      simp only [List.nil_append, Text.size_cons, Text.size_append, Bracket.utf8Size_opener,
        Bracket.utf8Size_closer] at hlast
      omega
    rw [Bracket.roleOf_opener]
    exact Option.isSome_iff_exists.mpr ⟨inside, enclosed?_eq_some_iff.mpr ⟨rfl, hbal⟩⟩

/-- The test has no fault: it looks at the last byte only if there are two bytes at least. -/
theorem isEnclosed_eq (opening : Char) (t : Text) :
    isEnclosed opening t = .ok (Bracket.isEnclosed opening t) := by
  rw [isEnclosed]
  split
  · next hfirst =>
    rw [matchingPlace?_eq, run_given, ok_bind, minus_of_le (by omega), ok_bind]
    refine congrArg Except.ok (Bool.eq_iff_iff.mpr ?_)
    rw [beq_iff_eq, isEnclosed_iff_matchingPlace?]
    exact ⟨fun h => ⟨hfirst, h⟩, fun h => h.2⟩
  · next hfirst =>
    have hnot : Bracket.isEnclosed opening t = false := by
      rw [← Bool.not_eq_true]
      exact fun h => hfirst (isEnclosed_iff_matchingPlace?.mp h).1
    rw [hnot]
    rfl

/-- On a trimmed text the loop takes off what `unwrap` takes off. The induction is on the length of
the text, which each layer makes smaller. -/
theorem unwrapLoop_eq {t : Text} (ht : trim t = t) :
    unwrapLoop t = .ok (Bracket.unwrap t) := by
  rw [unwrapLoop, isEnclosed_eq, Bracket.isEnclosed_round]
  cases h : enclosed? .round t with
  | none =>
    rw [Bracket.unwrap_eq_self ht h]
    rfl
  | some inside =>
    have hlt := Bracket.length_lt_of_enclosed? h
    have hrest := unwrapLoop_eq (Text.trim_trim inside)
    rw [Bracket.unwrap_trim] at hrest
    rw [Bracket.unwrap_of_some (by rw [ht]; exact h), Option.isSome_some]
    dsimp only
    split
    · next fault hfault =>
      -- There are brackets around the text to cut off, so this cannot have a fault.
      rw [withoutEnds_of_enclosed? h] at hfault
      cases hfault
    · next core hcore =>
      rw [withoutEnds_of_enclosed? h] at hcore
      rw [← Except.ok.inj hcore, hrest]
termination_by t.length
decreasing_by exact Nat.lt_of_le_of_lt (Text.length_trim_le _) hlt

/-- Taking off all layers has no fault. -/
theorem unwrap_eq (t : Text) : unwrap t = .ok (Bracket.unwrap t) := by
  rw [unwrap, unwrapLoop_eq (Text.trim_trim t), Bracket.unwrap_trim]

/-- Neither has taking off the outermost one. -/
theorem unwrapOnce_eq (t : Text) : unwrapOnce t = .ok (Bracket.unwrapOnce t) := by
  dsimp only [unwrapOnce, Bracket.unwrapOnce]
  rw [isEnclosed_eq, Bracket.isEnclosed_round, ok_bind]
  cases h : enclosed? .round (trim t) with
  | none => rfl
  | some inside =>
    rw [Option.isSome_some, if_pos rfl, withoutEnds_of_enclosed? h]
    rfl

/-! ### Cutting after a suffix -/

/-- Go on looking for a `+` at top level that directly follows the suffix. The place that is found
is shown. -/
def splitAfterLoop (field : Field) (t : Text) :
    List (Nat × Char) → Nesting → Attempt (Text × Text)
  | [], _ => failure
  | (offset, c) :: rest, nest =>
    if isBracket c then splitAfterLoop field t rest (nest.step c)
    else if c = '+' ∧ nest = [] then do
      let left ← slice t 0 offset
      if ← hasEnding left field.suffix then
        let _shown ← pointAt t offset
        let next ← plus t offset 1
        let right ← slice t next (size t)
        return (left, right)
      else splitAfterLoop field t rest nest
    else splitAfterLoop field t rest nest

/-- The two sides of the first `+` at top level that directly follows the suffix. -/
def splitAfter? (field : Field) (t : Text) : Attempt (Text × Text) :=
  splitAfterLoop field t (charsFrom 0 t) []

/-- When `before` has been read, the loop comes to the cut that is found in the rest; its left side
goes on from `before`. -/
theorem splitAfterLoop_eq {t : Text} (before rest : Text) (ht : t = before ++ rest) (field : Field)
    (nest : Nesting) :
    splitAfterLoop field t (charsFrom (size before) rest) nest =
      given (field.splitAfterFrom nest before.reverse rest) := by
  induction rest generalizing before nest with
  | nil => rfl
  | cons c rest ih =>
    -- A character at which there is no cut belongs to the left side of a later one.
    have further (nest' : Nesting) :
        splitAfterLoop field t (charsFrom (size before + c.utf8Size) rest) nest' =
          given (field.splitAfterFrom nest' (c :: before.reverse) rest) := by
      have hnext := ih (before ++ [c]) (by simp [ht]) nest'
      rw [Text.size_concat, List.reverse_append] at hnext
      exact hnext
    rw [charsFrom, splitAfterLoop, Field.splitAfterFrom, List.reverse_reverse]
    -- The loop tests for brackets first; the library need not, as `+` is none.
    by_cases hbracket : isBracket c = true
    · have hplus : c ≠ '+' := by
        rintro rfl
        cases hbracket
      rw [if_pos hbracket, further, if_neg (by simp [hplus])]
    · rw [Bool.not_eq_true] at hbracket
      have hstep : nest.step c = nest := step_plain _ (isBracket_eq_false_iff.mp hbracket)
      rw [if_neg (by simp [hbracket]), hstep]
      split
      · next hcut =>
        obtain ⟨rfl, rfl⟩ := hcut
        have hleft : slice t 0 (size before) = .ok before := by
          rw [ht]
          exact slice_front before ('+' :: rest)
        rw [hleft, lift_ok_bind, hasEnding_eq, lift_ok_bind]
        cases hend : Text.hasEnding before field.suffix with
        | false => simpa using further []
        | true =>
          have hone : '+'.utf8Size = 1 := rfl
          have hplus : plus t (size before) 1 = .ok (size before + 1) :=
            plus_of_le (by simp only [ht, Text.size_append, Text.size_cons, hone]; omega)
          have hright : slice t (size before + 1) (size t) = .ok rest :=
            slice_eq_ok_iff.mpr ⟨before ++ ['+'], [], by simp [ht], by simp [hone],
              by simp [ht, hone, Nat.add_assoc]⟩
          rw [if_pos rfl, pointAt_eq, lift_ok_bind, hplus, lift_ok_bind, hright, lift_ok_bind]
          simp
          rfl
      · next hcut =>
        have hnot :
            ¬(c == '+' && nest.isEmpty && Text.hasEnding before field.suffix) = true := by
          rw [Bool.and_eq_true, Bool.and_eq_true, beq_iff_eq, List.isEmpty_iff]
          exact fun h => hcut h.1
        rw [further, if_neg hnot]

/-- The cut after a suffix has no fault: the `+` that it is made at is one byte. -/
theorem splitAfter?_eq (field : Field) (t : Text) :
    splitAfter? field t = given (field.splitAfter? t) :=
  splitAfterLoop_eq [] t rfl field []

end QueryMix.ByOffset
