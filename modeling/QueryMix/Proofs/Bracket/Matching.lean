import QueryMix.Proofs.Bracket.Region
import QueryMix.Proofs.Text.Place

/-!
# `QueryMix.Proofs.Bracket.Matching`: the closer that matches an opener

`matchingPlace?` reads on from an opener with the list of the open regions, and gives up at the
first closer of a wrong kind. `IsMatch` says what it is looking for by the two places alone: an
opener, a closer of its kind, and a balanced text between them. A place has one match at most, and
it is the one that is found (`matchingPlace?_eq_some_iff_isMatch`). The two readings of the text
between the brackets, the one that looks for the end of a region and the one that decides balance,
meet in `Region.read_eq_closed_iff`.

What stands before the opener shifts the answer and does nothing else
(`matchingPlace?_append`); what stands after the closer does nothing at all
(`matchingPlace?_of_rest`).
-/

set_option autoImplicit false

namespace QueryMix.Bracket

open Text (size charAt? slice? cutAt?_append append_inj_of_size charAt?_eq_some_iff
  slice?_eq_some_iff)

variable {t : Text} {i j : Nat}

/-- At `i` an opener stands, at `j` after it the closer of its kind, and the text between the two
is balanced. -/
def IsMatch (t : Text) (i j : Nat) : Prop :=
  i < j ∧ ∃ b inside, charAt? t i = some (opener b) ∧ charAt? t j = some (closer b) ∧
    slice? t (i + 1) j = some inside ∧ isBalanced inside = true

/-- Brackets take one byte. -/
@[simp] theorem utf8Size_opener (b : Bracket) : b.opener.utf8Size = 1 := by cases b <;> rfl

/-- Closers take one byte, too. -/
@[simp] theorem utf8Size_closer (b : Bracket) : b.closer.utf8Size = 1 := by cases b <;> rfl

/-- The text taken apart at two places that match: what precedes the opener, what is enclosed and
what follows the closer. -/
def Encloses (t : Text) (i j : Nat) : Prop :=
  ∃ (b : Bracket) (before inside rest : Text),
    t = before ++ b.opener :: (inside ++ b.closer :: rest) ∧ size before = i ∧
      i + 1 + size inside = j ∧ isBalanced inside = true

/-- Two places match exactly when the text can be taken apart at them. -/
theorem isMatch_iff_encloses : IsMatch t i j ↔ Encloses t i j := by
  constructor
  · rintro ⟨-, b, inside, hopen, hclose, hslice, hbal⟩
    obtain ⟨before, after, rfl, rfl⟩ := charAt?_eq_some_iff.mp hopen
    obtain ⟨upto, rest, hupto, rfl⟩ := charAt?_eq_some_iff.mp hclose
    obtain ⟨front, back, hfront, hsize, hinside⟩ := slice?_eq_some_iff.mp hslice
    -- The slice starts right after the opener and ends right before the closer.
    have hafter : before ++ [b.opener] ++ after = front ++ (inside ++ back) := by
      rw [← hfront, List.append_assoc]
      rfl
    obtain ⟨rfl, rfl⟩ := append_inj_of_size hafter (by simp [hsize])
    have hback : before ++ [b.opener] ++ inside ++ back = upto ++ b.closer :: rest := by
      rw [← hupto, List.append_assoc, List.append_assoc]
      rfl
    obtain ⟨rfl, rfl⟩ := append_inj_of_size hback (by simp [← hinside, Nat.add_assoc])
    exact ⟨b, before, inside, rest, rfl, rfl, hinside, hbal⟩
  · rintro ⟨b, before, inside, rest, rfl, rfl, rfl, hbal⟩
    refine ⟨by omega, b, inside, ?_, ?_, ?_, hbal⟩
    · exact charAt?_eq_some_iff.mpr ⟨before, _, rfl, rfl⟩
    · exact charAt?_eq_some_iff.mpr ⟨before ++ b.opener :: inside, rest, by simp, by simp; omega⟩
    · exact slice?_eq_some_iff.mpr ⟨before ++ [b.opener], b.closer :: rest, by simp, by simp, rfl⟩

/-- The search finds a place exactly when the text can be taken apart at the two places. -/
theorem matchingPlace?_eq_some_iff : matchingPlace? t i = some j ↔ Encloses t i j := by
  constructor
  · intro h
    unfold matchingPlace? at h
    split at h
    · next before c after hcut =>
      obtain ⟨rfl, rfl⟩ := Text.cutAt?_eq_some_iff.mp hcut
      split at h
      · next b hc =>
        obtain rfl := roleOf_eq_opens_iff.mp hc
        split at h
        · next inside rest hread =>
          obtain ⟨rfl, hbal⟩ := Region.read_eq_closed_iff.mp hread
          rw [utf8Size_opener] at h
          exact ⟨b, before, inside, rest, rfl, rfl, Option.some.inj h, hbal⟩
        · cases h
      · cases h
    · cases h
  · rintro ⟨b, before, inside, rest, rfl, rfl, rfl, hbal⟩
    -- What is read behind the opener ends at the closer, as the text between them is balanced.
    have hread : Region.read b [] (inside ++ b.closer :: rest) = .closed inside rest :=
      Region.read_eq_closed_iff.mpr ⟨rfl, hbal⟩
    rw [matchingPlace?, cutAt?_append]
    simp only [roleOf_opener, hread, utf8Size_opener]

/-- The place that is found is the place that matches. -/
theorem matchingPlace?_eq_some_iff_isMatch : matchingPlace? t i = some j ↔ IsMatch t i j :=
  matchingPlace?_eq_some_iff.trans isMatch_iff_encloses.symm

/-- What precedes the opener shifts the answer by its size. -/
theorem matchingPlace?_append (before after : Text) :
    matchingPlace? (before ++ after) (size before) =
      (matchingPlace? after 0).map (size before + ·) := by
  refine Option.ext fun j => ?_
  rw [matchingPlace?_eq_some_iff, Option.map_eq_some_iff]
  constructor
  · rintro ⟨b, before', inside, rest, ht, hsize, rfl, hbal⟩
    obtain ⟨rfl, rfl⟩ := append_inj_of_size ht hsize.symm
    have halone : Encloses (b.opener :: (inside ++ b.closer :: rest)) 0 (0 + 1 + size inside) :=
      ⟨b, [], inside, rest, rfl, rfl, rfl, hbal⟩
    exact ⟨_, matchingPlace?_eq_some_iff.mpr halone, by omega⟩
  · rintro ⟨k, hk, rfl⟩
    obtain ⟨b, before', inside, rest, rfl, hsize, rfl, hbal⟩ := matchingPlace?_eq_some_iff.mp hk
    obtain rfl := Text.size_eq_zero_iff.mp hsize
    exact ⟨b, before, inside, rest, rfl, rfl, by omega, hbal⟩

/-- What follows the closer makes no difference. -/
theorem matchingPlace?_of_rest {upto rest : Text} {c : Char}
    (h : matchingPlace? (upto ++ c :: rest) i = some (size upto)) (rest' : Text) :
    matchingPlace? (upto ++ c :: rest') i = some (size upto) := by
  obtain ⟨b, before, inside, rest'', ht, rfl, hsize, hbal⟩ := matchingPlace?_eq_some_iff.mp h
  have hclose : upto ++ c :: rest = before ++ b.opener :: inside ++ b.closer :: rest'' := by
    rw [ht, List.append_assoc]
    rfl
  obtain ⟨rfl, hrest⟩ := append_inj_of_size hclose (by simp [← hsize, Nat.add_assoc])
  cases hrest
  exact matchingPlace?_eq_some_iff.mpr
    ⟨b, before, inside, rest', by simp, rfl, hsize, hbal⟩

/-- The match of a bracket is where the two places say it is, and there is one match at most. It
depends on nothing before the opener, which only shifts it, and on nothing after the closer. -/
theorem matchingPlace?_exact (t : Text) (i : Nat) :
    (∀ j, matchingPlace? t i = some j ↔ IsMatch t i j) ∧
      (∀ j j', IsMatch t i j → IsMatch t i j' → j = j') ∧
      (∀ before after : Text, matchingPlace? (before ++ after) (size before) =
        (matchingPlace? after 0).map (size before + ·)) ∧
      ∀ (upto rest rest' : Text) (c : Char),
        matchingPlace? (upto ++ c :: rest) i = some (size upto) ↔
          matchingPlace? (upto ++ c :: rest') i = some (size upto) := by
  refine ⟨fun j => matchingPlace?_eq_some_iff_isMatch, ?_, matchingPlace?_append, ?_⟩
  · intro j j' h h'
    rw [← matchingPlace?_eq_some_iff_isMatch] at h h'
    exact Option.some.inj (h.symm.trans h')
  · intro upto rest rest' c
    exact ⟨fun h => matchingPlace?_of_rest h rest', fun h => matchingPlace?_of_rest h rest⟩

/-- The offsets count bytes: the region starts after a character of two bytes and holds one of
three. The stray closers around it make no difference. -/
theorem matchingPlace?_exact_wide :
    matchingPlace? "é)(Ａ[b]{})]".toList 3 = some 12 ∧ IsMatch "é)(Ａ[b]{})]".toList 3 12 ∧
      ∀ j, IsMatch "é)(Ａ[b]{})]".toList 3 j → 12 = j := by
  obtain ⟨hiff, hunique, -, -⟩ := matchingPlace?_exact "é)(Ａ[b]{})]".toList 3
  have h : matchingPlace? "é)(Ａ[b]{})]".toList 3 = some 12 := by decide
  exact ⟨h, (hiff 12).mp h, fun j => hunique 12 j ((hiff 12).mp h)⟩

end QueryMix.Bracket
