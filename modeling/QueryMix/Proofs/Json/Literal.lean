import Mathlib.Data.List.Forall2
import QueryMix.Json.Token

/-!
# `QueryMix.Proofs.Json.Literal`: a written literal is read back as its text

The scanner is followed through a part of a text by `Scan.feed?`, which gives the tokens that
the part completes and what the scanner is in after it. Parts are put together by
`Scan.feed?_append`, so what is known of the parts of a written text gives its tokens.

Every character can stand in a literal, as itself or by an escape. The pieces that the scanner
collects stand for the characters one by one (`Scan.feed?_escape`); those of control characters
may be units, but they are never half of a pair, so the pieces join to the text again
(`feed?_literal`).
-/

set_option autoImplicit false

namespace QueryMix.Json

namespace Scan

/-- The tokens that a part of a text completes, and what the scanner is in after it. -/
def feed? (scan : Scan) : Text → Option (List Token × Scan)
  | [] => some ([], scan)
  | c :: rest => do
    let (done, next) ← scan.step c
    let (others, last) ← feed? next rest
    return (done ++ others, last)

section Parts

variable {scan next last : Scan} {s t : Text} {tokens others : List Token}

/-- One character, and then the rest. -/
theorem feed?_cons_eq_some_iff {c : Char} :
    scan.feed? (c :: t) = some (tokens, last) ↔
      ∃ done next others, scan.step c = some (done, next) ∧
        next.feed? t = some (others, last) ∧ done ++ others = tokens := by
  rw [feed?, Option.bind_eq_bind, Option.bind_eq_some_iff]
  constructor
  · rintro ⟨⟨done, next⟩, hc, h⟩
    obtain ⟨⟨others, last'⟩, ht, h⟩ := Option.bind_eq_some_iff.mp h
    cases h
    exact ⟨done, next, others, hc, ht, rfl⟩
  · rintro ⟨done, next, others, hc, ht, rfl⟩
    exact ⟨_, hc, Option.bind_eq_some_iff.mpr ⟨_, ht, rfl⟩⟩

/-- Two parts of a text, one after the other. -/
theorem feed?_append (hs : scan.feed? s = some (tokens, next))
    (ht : next.feed? t = some (others, last)) :
    scan.feed? (s ++ t) = some (tokens ++ others, last) := by
  induction s generalizing scan tokens with
  | nil =>
    cases hs
    exact ht
  | cons c s ih =>
    obtain ⟨done, middle, rest, hc, hrest, rfl⟩ := feed?_cons_eq_some_iff.mp hs
    exact feed?_cons_eq_some_iff.mpr
      ⟨done, middle, rest ++ others, hc, ih hrest, (List.append_assoc _ _ _).symm⟩

/-- A whole text, if the scanner may stop after it. -/
theorem tokens?_of_feed? (hs : scan.feed? s = some (tokens, next))
    (hend : next.finish = some others) : scan.tokens? s = some (tokens ++ others) := by
  induction s generalizing scan tokens with
  | nil =>
    cases hs
    exact hend
  | cons c s ih =>
    obtain ⟨done, middle, rest, hc, hrest, rfl⟩ := feed?_cons_eq_some_iff.mp hs
    refine Option.bind_eq_some_iff.mpr ⟨_, hc, Option.bind_eq_some_iff.mpr ⟨_, ih hrest, ?_⟩⟩
    rw [List.append_assoc]
    rfl

end Parts

end Scan

/-! ### Characters and pieces -/

/-- A piece stands for a character: it is the character, or its UTF-16 unit. Units are left to
control characters. -/
inductive LiteralPiece.StandsFor : LiteralPiece → Char → Prop
  | char (c : Char) : StandsFor (.char c) c
  | unit {c : Char} (h : c.toNat < 0x20) : StandsFor (.unit c.toNat) c

/-- A unit below the surrogates is a character of its own and takes no part in a pair. -/
theorem join?_unit_cons {u : Nat} (hu : u < 0xD800) (rest : List LiteralPiece) :
    join? (.unit u :: rest) = (join? rest).map (Char.ofNat u :: ·) := by
  have hleading : isLeading u = false := by simp [isLeading]; omega
  have htrailing : isTrailing u = false := by simp [isTrailing]; omega
  cases rest with
  | nil => simp [join?, hleading, htrailing]
  | cons piece rest =>
    cases piece with
    | char c => simp [join?, hleading, htrailing]
    | unit v => simp [join?, hleading, htrailing]

/-- Pieces that stand for the characters of a text join to the text. -/
theorem join?_of_standsFor {pieces : List LiteralPiece} {t : Text}
    (h : List.Forall₂ LiteralPiece.StandsFor pieces t) : join? pieces = some t := by
  induction h with
  | nil => rfl
  | cons hpiece _ ih =>
    cases hpiece with
    | char c => rw [join?, ih, Option.map_some]
    | unit hc => rw [join?_unit_cons (by omega), ih, Option.map_some, Char.ofNat_toNat]

/-- The sixteen digits are read as the values that they are printed for. -/
theorem hexValue?_digitChar : ∀ d < 16, hexValue? (Nat.digitChar d) = some d := by decide

namespace Scan

/-- Whatever a character is written as, the scanner gets one piece of it, which stands for the
character. -/
theorem feed?_escape (c : Char) : ∃ piece, LiteralPiece.StandsFor piece c ∧
    ∀ pieces, (literal pieces).feed? (Json.escape c) = some ([], literal (piece :: pieces)) := by
  rw [Json.escape]
  -- The seven escapes of one letter are all read by the table of the scanner.
  iterate 7
    split
    · next h =>
      subst h
      exact ⟨_, .char _, fun _ => rfl⟩
  split
  · next hcontrol =>
    refine ⟨_, .unit hcontrol, fun pieces => ?_⟩
    have hhigh := hexValue?_digitChar (c.toNat / 16) (by omega)
    have hlow := hexValue?_digitChar (c.toNat % 16) (by omega)
    have hvalue : c.toNat / 16 * 16 + c.toNat % 16 = c.toNat := Nat.div_add_mod' _ _
    have hzero : hexValue? '0' = some 0 := rfl
    simp [feed?, step, hzero, hhigh, hlow, hvalue]
  · next hquote hbackslash _ _ _ _ _ hcontrol =>
    refine ⟨_, .char c, fun pieces => ?_⟩
    simp [feed?, step, hquote, hbackslash, hcontrol]

/-- The characters between the quotes, one after the other. -/
theorem feed?_flatMap_escape (t : Text) (pieces : List LiteralPiece) :
    ∃ read, List.Forall₂ LiteralPiece.StandsFor read t ∧
      (literal pieces).feed? (t.flatMap Json.escape) = some ([], literal (read.reverse ++ pieces)) := by
  induction t generalizing pieces with
  | nil => exact ⟨[], .nil, rfl⟩
  | cons c t ih =>
    obtain ⟨piece, hpiece, hc⟩ := feed?_escape c
    obtain ⟨read, hread, ht⟩ := ih (piece :: pieces)
    refine ⟨piece :: read, .cons hpiece hread, ?_⟩
    rw [List.flatMap_cons, List.reverse_cons, List.append_assoc]
    exact feed?_append (hc pieces) ht

/-- A written literal is one token, with the text that was written. -/
theorem feed?_literal (t : Text) :
    between.feed? (Json.literal t) = some ([.text (some t)], between) := by
  obtain ⟨read, hread, hinside⟩ := feed?_flatMap_escape t []
  rw [List.append_nil] at hinside
  have hquote : (literal read.reverse).feed? ['"'] = some ([.text (some t)], between) := by
    rw [← join?_of_standsFor hread]
    simp [feed?, step]
  exact feed?_cons_eq_some_iff.mpr ⟨[], _, _, rfl, feed?_append hinside hquote, rfl⟩

end Scan

/-- The text may hold anything: quotes, control characters, characters beyond the first
65536. -/
example : Scan.between.feed? (literal "\"\\\n\x01π𝕏".toList) =
    some ([.text (some "\"\\\n\x01π𝕏".toList)], .between) := by rfl

end QueryMix.Json
