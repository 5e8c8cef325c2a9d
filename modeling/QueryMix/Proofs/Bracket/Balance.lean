import QueryMix.Bracket.Basic
import QueryMix.Proofs.Text.Trim

/-!
# `QueryMix.Proofs.Bracket.Balance`: the strict reading of brackets

`strictAfter?` reads a text from a nesting on and stops at the first closer that does not fit.
A text is balanced when the strict reading from top level comes back to top level
(`isBalanced_iff`). The reading of two texts in a row is the reading of one and then of the
other (`strictAfter?_append`), and what lies outside the open regions plays no part in it
(`strictAfter?_frame`), until it closes one of them (`strictAfter?_outer`). So a balanced text
leaves every nesting as it is (`strictAfter?_of_isBalanced`), and it can be put in or taken
out anywhere (`isBalanced_append_left`, `isBalanced_append_right`).

Where the strict reading goes through, the tolerant reading takes the same way
(`after_eq_of_strictAfter?`). A text cut where the tolerant reading is at top level is
balanced exactly when its two parts are (`isBalanced_append_iff`).
-/

set_option autoImplicit false

namespace QueryMix

open QueryMix.Bracket

namespace Nesting

/-- The nesting after one more character, if that is no closer that does not fit. -/
def strictStep? (nest : Nesting) (c : Char) : Option Nesting :=
  match roleOf c with
  | .opens b => some (b :: nest)
  | .closes b => if nest.head? = some b then some nest.tail else none
  | .plain => some nest

/-- The nesting after a whole text, if every closer in it fits. -/
def strictAfter? (nest : Nesting) (t : Text) : Option Nesting := t.foldlM strictStep? nest

@[simp] theorem strictAfter?_nil (nest : Nesting) : strictAfter? nest [] = some nest := rfl

/-- A text is read on from where its first character leads, if the character is taken. -/
theorem strictAfter?_cons (nest : Nesting) (c : Char) (t : Text) :
    strictAfter? nest (c :: t) = (strictStep? nest c).bind (strictAfter? · t) := rfl

/-- The reading of two texts in a row is the reading of one and then of the other. -/
theorem strictAfter?_append (nest : Nesting) (s t : Text) :
    strictAfter? nest (s ++ t) = (strictAfter? nest s).bind (strictAfter? · t) :=
  List.foldlM_append

/-- An opener is always taken: its region is open inside the others. -/
theorem strictStep?_opener (nest : Nesting) (b : Bracket) :
    strictStep? nest b.opener = some (b :: nest) := by
  simp [strictStep?]

/-- A closer of the kind of the innermost region is taken and closes that region. -/
theorem strictStep?_closer (nest : Nesting) (b : Bracket) :
    strictStep? (b :: nest) b.closer = some nest := by
  simp [strictStep?]

/-- A character that is no bracket is taken and changes nothing. -/
theorem strictStep?_plain (nest : Nesting) {c : Char} (h : roleOf c = .plain) :
    strictStep? nest c = some nest := by
  simp [strictStep?, h]

/-- What a character that the strict reading takes does to the nesting. -/
theorem strictStep?_cases {nest nest' : Nesting} {c : Char}
    (h : strictStep? nest c = some nest') :
    (∃ b, roleOf c = .opens b ∧ nest' = b :: nest) ∨
      (∃ b, roleOf c = .closes b ∧ nest = b :: nest') ∨ (roleOf c = .plain ∧ nest' = nest) := by
  unfold strictStep? at h
  split at h
  · next b hc => exact .inl ⟨b, hc, (Option.some.inj h).symm⟩
  · next b hc =>
    split at h
    · next hhead =>
      obtain ⟨outer, rfl⟩ := List.head?_eq_some_iff.mp hhead
      exact .inr (.inl ⟨b, hc, congrArg (b :: ·) (Option.some.inj h)⟩)
    · cases h
  · next hc => exact .inr (.inr ⟨hc, (Option.some.inj h).symm⟩)

/-- The regions outside those that a text opens and closes play no part in its reading. -/
theorem strictAfter?_frame {nest nest' : Nesting} {t : Text}
    (h : strictAfter? nest t = some nest') (outer : Nesting) :
    strictAfter? (nest ++ outer) t = some (nest' ++ outer) := by
  -- Each step changes the innermost region only, and the steps through `t` never reach `outer`.
  induction t generalizing nest with
  | nil =>
    rw [strictAfter?_nil, Option.some.injEq] at h
    rw [h, strictAfter?_nil]
  | cons c t ih =>
    rw [strictAfter?_cons, Option.bind_eq_some_iff] at h
    obtain ⟨mid, hstep, hrest⟩ := h
    rw [strictAfter?_cons]
    rcases strictStep?_cases hstep with ⟨b, hc, rfl⟩ | ⟨b, hc, rfl⟩ | ⟨hc, rfl⟩
    · rw [roleOf_eq_opens_iff.mp hc, strictStep?_opener]
      exact ih hrest
    · rw [roleOf_eq_closes_iff.mp hc, List.cons_append, strictStep?_closer]
      exact ih hrest
    · rw [strictStep?_plain _ hc]
      exact ih hrest

/-- A text that is read inside a region leaves the region open, or it closes the region and goes
on outside. -/
theorem strictAfter?_outer {inner nest' : Nesting} {b : Bracket} {t : Text}
    (h : strictAfter? (inner ++ [b]) t = some nest') :
    (∃ inner', strictAfter? inner t = some inner' ∧ nest' = inner' ++ [b]) ∨
      ∃ u v : Text, t = u ++ b.closer :: v ∧ strictAfter? inner u = some [] ∧
        strictAfter? [] v = some nest' := by
  -- The induction is on the text; `inner` is what is open inside the region `b`.
  induction t generalizing inner with
  | nil =>
    rw [strictAfter?_nil, Option.some.injEq] at h
    exact .inl ⟨inner, rfl, h.symm⟩
  | cons c t ih =>
    -- A character that leaves `b` open does the same to `inner` alone.
    have further (next : Nesting) (hc : strictStep? inner c = some next)
        (hrest : strictAfter? (next ++ [b]) t = some nest') :
        (∃ inner', strictAfter? inner (c :: t) = some inner' ∧ nest' = inner' ++ [b]) ∨
          ∃ u v : Text, c :: t = u ++ b.closer :: v ∧ strictAfter? inner u = some [] ∧
            strictAfter? [] v = some nest' := by
      rcases ih hrest with ⟨inner', hread, rfl⟩ | ⟨u, v, rfl, hu, hv⟩
      · exact .inl ⟨inner', by rw [strictAfter?_cons, hc]; exact hread, rfl⟩
      · exact .inr ⟨c :: u, v, rfl, by rw [strictAfter?_cons, hc]; exact hu, hv⟩
    rw [strictAfter?_cons, Option.bind_eq_some_iff] at h
    obtain ⟨mid, hstep, hrest⟩ := h
    rcases strictStep?_cases hstep with ⟨b', hc, rfl⟩ | ⟨b', hc, hnest⟩ | ⟨hc, rfl⟩
    · exact further (b' :: inner)
        (by rw [roleOf_eq_opens_iff.mp hc, strictStep?_opener]) hrest
    · cases inner with
      | nil =>
        obtain ⟨rfl, rfl⟩ := List.cons.inj hnest
        exact .inr ⟨[], t, by rw [roleOf_eq_closes_iff.mp hc]; rfl, rfl, hrest⟩
      | cons innermost others =>
        obtain ⟨rfl, rfl⟩ := List.cons.inj hnest
        exact further others
          (by rw [roleOf_eq_closes_iff.mp hc, strictStep?_closer]) hrest
    · exact further inner (strictStep?_plain inner hc) hrest

/-- Where the strict reading goes through, the tolerant reading takes the same way. -/
theorem after_eq_of_strictAfter? {nest nest' : Nesting} {t : Text}
    (h : strictAfter? nest t = some nest') : after nest t = nest' := by
  induction t generalizing nest with
  | nil =>
    rw [strictAfter?_nil, Option.some.injEq] at h
    exact h
  | cons c t ih =>
    rw [strictAfter?_cons, Option.bind_eq_some_iff] at h
    obtain ⟨mid, hstep, hrest⟩ := h
    rw [after_cons, ← ih hrest]
    congr 1
    rcases strictStep?_cases hstep with ⟨b, hc, rfl⟩ | ⟨b, hc, rfl⟩ | ⟨hc, rfl⟩
    · simp [step, hc]
    · simp [step, hc]
    · simp [step, hc]

/-- Characters that are no brackets leave the nesting as it is. -/
theorem strictAfter?_of_plain {t : Text} (h : ∀ c ∈ t, roleOf c = .plain) (nest : Nesting) :
    strictAfter? nest t = some nest := by
  induction t with
  | nil => rfl
  | cons c t ih =>
    rw [strictAfter?_cons, strictStep?_plain nest (h c List.mem_cons_self)]
    exact ih fun d hd => h d (List.mem_cons_of_mem _ hd)

/-- Characters that are no brackets make no difference at the end of a text. -/
theorem strictAfter?_append_plain {t : Text} (h : ∀ c ∈ t, roleOf c = .plain) (nest : Nesting)
    (s : Text) : strictAfter? nest (s ++ t) = strictAfter? nest s := by
  rw [strictAfter?_append]
  cases strictAfter? nest s with
  | none => rfl
  | some nest' => exact strictAfter?_of_plain h nest'

/-- The reading depends on the roles of the characters alone. -/
theorem strictAfter?_map {f : Char → Char} {t : Text}
    (h : ∀ c ∈ t, roleOf (f c) = roleOf c) (nest : Nesting) :
    strictAfter? nest (t.map f) = strictAfter? nest t := by
  induction t generalizing nest with
  | nil => rfl
  | cons c t ih =>
    have hc : strictStep? nest (f c) = strictStep? nest c := by
      unfold strictStep?
      rw [h c List.mem_cons_self]
    rw [List.map_cons, strictAfter?_cons, strictAfter?_cons, hc]
    congr 1
    funext mid
    exact ih (fun d hd => h d (List.mem_cons_of_mem _ hd)) mid

end Nesting

namespace Bracket

open Nesting

/-- The check goes through exactly when the strict reading comes back to top level. -/
theorem balancedFrom_iff {nest : Nesting} {t : Text} :
    balancedFrom nest t = true ↔ strictAfter? nest t = some [] := by
  induction t generalizing nest with
  | nil => simp [balancedFrom]
  | cons c t ih =>
    rw [strictAfter?_cons]
    unfold balancedFrom strictStep?
    cases roleOf c with
    | opens b => exact ih
    | closes b =>
      -- Both readings refuse a closer at top level and one of another kind than is open.
      cases nest with
      | nil => simp
      | cons innermost outer =>
        by_cases hb : innermost = b
        · simpa [hb] using ih
        · simp [hb]
    | plain => exact ih

/-- A text is balanced when the strict reading of it comes back to top level. -/
theorem isBalanced_iff {t : Text} : isBalanced t = true ↔ strictAfter? [] t = some [] :=
  balancedFrom_iff

@[simp] theorem isBalanced_nil : isBalanced [] = true := rfl

/-- A balanced text leaves every nesting as it is. -/
theorem strictAfter?_of_isBalanced {t : Text} (h : isBalanced t = true) (nest : Nesting) :
    strictAfter? nest t = some nest :=
  strictAfter?_frame (isBalanced_iff.mp h) nest

/-- A balanced text leaves every nesting as it is in the tolerant reading too. -/
theorem after_of_isBalanced {t : Text} (h : isBalanced t = true) (nest : Nesting) :
    after nest t = nest :=
  after_eq_of_strictAfter? (strictAfter?_of_isBalanced h nest)

/-- A text without brackets is balanced. -/
theorem isBalanced_of_plain {t : Text} (h : ∀ c ∈ t, roleOf c = .plain) :
    isBalanced t = true := isBalanced_iff.mpr (strictAfter?_of_plain h [])

/-- A balanced text can be taken off the start. -/
theorem isBalanced_append_left {s : Text} (h : isBalanced s = true) (t : Text) :
    isBalanced (s ++ t) = isBalanced t := by
  rw [Bool.eq_iff_iff, isBalanced_iff, isBalanced_iff, strictAfter?_append,
    strictAfter?_of_isBalanced h]
  rfl

/-- A balanced text can be taken off the end. -/
theorem isBalanced_append_right {t : Text} (h : isBalanced t = true) (s : Text) :
    isBalanced (s ++ t) = isBalanced s := by
  rw [Bool.eq_iff_iff, isBalanced_iff, isBalanced_iff, strictAfter?_append]
  cases hs : strictAfter? [] s with
  | none => rfl
  | some nest => rw [Option.bind_some, strictAfter?_of_isBalanced h]

/-- A character that is no bracket can be taken off the start. -/
theorem isBalanced_cons_plain {c : Char} (h : roleOf c = .plain) (t : Text) :
    isBalanced (c :: t) = isBalanced t :=
  isBalanced_append_left (isBalanced_of_plain (t := [c]) (by simpa using h)) t

/-- Balanced texts that are joined by a character that is no bracket are balanced. -/
theorem isBalanced_intercalate {sep : Char} (hsep : roleOf sep = .plain) {ts : List Text}
    (h : ∀ t ∈ ts, isBalanced t = true) : isBalanced ([sep].intercalate ts) = true := by
  match ts with
  | [] => rfl
  | [t] => simpa [List.intercalate] using h t List.mem_cons_self
  | t :: u :: us =>
    have ih : isBalanced ([sep].intercalate (u :: us)) = true :=
      isBalanced_intercalate hsep fun v hv => h v (List.mem_cons_of_mem _ hv)
    rw [List.intercalate_cons_cons, List.append_assoc,
      isBalanced_append_left (h t List.mem_cons_self), List.singleton_append,
      isBalanced_cons_plain hsep, ih]

/-- Where the tolerant reading is at top level, a text is balanced exactly when what comes
before and what comes after are. -/
theorem isBalanced_append_iff {s t : Text} (h : after [] s = []) :
    isBalanced (s ++ t) = true ↔ isBalanced s = true ∧ isBalanced t = true := by
  constructor
  · intro hst
    have hread := isBalanced_iff.mp hst
    rw [strictAfter?_append, Option.bind_eq_some_iff] at hread
    obtain ⟨nest, hs, ht⟩ := hread
    have hnest : nest = [] := (after_eq_of_strictAfter? hs).symm.trans h
    rw [hnest] at hs ht
    exact ⟨isBalanced_iff.mpr hs, isBalanced_iff.mpr ht⟩
  · rintro ⟨hs, ht⟩
    rw [isBalanced_append_left hs, ht]

/-- A region around a balanced text is balanced. -/
theorem isBalanced_enclosed {inside : Text} (b : Bracket) (h : isBalanced inside = true) :
    isBalanced (b.opener :: (inside ++ [b.closer])) = true := by
  rw [isBalanced_iff, strictAfter?_cons, strictStep?_opener, Option.bind_some,
    strictAfter?_append, strictAfter?_of_isBalanced h, Option.bind_some, strictAfter?_cons,
    strictStep?_closer]
  rfl

/-- In a balanced text that begins with an opener and ends with the closer of its kind, just a
region of that kind is open before the last character. It need not be the one that the first
character opens. -/
theorem strictAfter?_of_isBalanced_ends {b : Bracket} {inside : Text}
    (h : isBalanced (b.opener :: (inside ++ [b.closer])) = true) :
    strictAfter? [b] inside = some [b] := by
  rw [isBalanced_iff, strictAfter?_cons, strictStep?_opener, Option.bind_some,
    strictAfter?_append, Option.bind_eq_some_iff] at h
  obtain ⟨nest, hnest, hlast⟩ := h
  rw [strictAfter?_cons, Option.bind_eq_some_iff] at hlast
  obtain ⟨last, hclose, hend⟩ := hlast
  cases hend
  rcases strictStep?_cases hclose with ⟨b', -, hnil⟩ | ⟨b', hb, rfl⟩ | ⟨hb, -⟩
  · cases hnil
  · rw [roleOf_closer] at hb
    cases hb
    exact hnest
  · rw [roleOf_closer] at hb
    cases hb

/-- Trimming leaves a text that begins and ends with brackets alone. -/
theorem trim_enclosed (b : Bracket) (inside : Text) :
    Text.trim (b.opener :: (inside ++ [b.closer])) = b.opener :: (inside ++ [b.closer]) :=
  Text.trim_append_append (s := [b.opener]) (t := [b.closer]) (by cases b <;> rfl)
    (by cases b <;> rfl) (by simp) (by simp)

/-- Balance depends on the roles of the characters alone. -/
theorem isBalanced_map {f : Char → Char} {t : Text} (h : ∀ c ∈ t, roleOf (f c) = roleOf c) :
    isBalanced (t.map f) = isBalanced t := by
  rw [Bool.eq_iff_iff, isBalanced_iff, isBalanced_iff, strictAfter?_map h]

/-- A character with a property that none of the brackets has is no bracket. -/
theorem roleOf_eq_plain_of {p : Char → Bool}
    (hp : ∀ b : Bracket, p b.opener = false ∧ p b.closer = false) {c : Char} (h : p c = true) :
    roleOf c = .plain := by
  cases hc : roleOf c with
  | opens b =>
    rw [roleOf_eq_opens_iff.mp hc, (hp b).1] at h
    cases h
  | closes b =>
    rw [roleOf_eq_closes_iff.mp hc, (hp b).2] at h
    cases h
  | plain => rfl

/-- Blanks are no brackets. -/
theorem roleOf_of_isBlank {c : Char} (h : Text.isBlank c = true) : roleOf c = .plain :=
  roleOf_eq_plain_of (fun b => by cases b <;> decide) h

/-- Blanks play no part in the reading of brackets. -/
theorem strictAfter?_trim (nest : Nesting) (t : Text) :
    strictAfter? nest (Text.trim t) = strictAfter? nest t := by
  obtain ⟨l, r, ht, hl, hr⟩ := Text.eq_blanks_trim_blanks t
  have hleft : strictAfter? nest l = some nest :=
    strictAfter?_of_plain (fun c hc => roleOf_of_isBlank (hl c hc)) nest
  calc strictAfter? nest (Text.trim t)
      = strictAfter? nest (l ++ Text.trim t) := by rw [strictAfter?_append, hleft]; rfl
    _ = strictAfter? nest (l ++ Text.trim t ++ r) :=
        (strictAfter?_append_plain (fun c hc => roleOf_of_isBlank (hr c hc)) nest _).symm
    _ = strictAfter? nest t := by rw [← ht]

/-- Trimming changes nothing about the balance of a text. -/
@[simp] theorem isBalanced_trim (t : Text) : isBalanced (Text.trim t) = isBalanced t := by
  rw [Bool.eq_iff_iff, isBalanced_iff, isBalanced_iff, strictAfter?_trim]

end Bracket

end QueryMix
