import Mathlib
import QueryMix.Proofs.Bracket.Layers
import QueryMix.Proofs.Text.Place
import QueryMix.Proofs.Word.Alternatives

/-!
# `QueryMix.Proofs.Word.Search`: the search for alternatives comes to an end

`alternatives` says what is found in a text. `search` finds it: it goes through the parts of the
text, and where a part shows a `+` once its round brackets are off, it calls itself for what is left
of the part before it goes on. It keeps a record of these calls, and it gives up where more of them
are open at a time than it is allowed.

A call is always for a shorter text (`Call.Shortens`). The parts of a text show no `+` at top level,
so a part that shows one afterwards has lost a pair of round brackets, and these brackets were part
of the text as well (`sublist_of_containsTop_unwrap`). The splitter reads brackets in the tolerant
way and the pair is found by the strict one; that they agree on regions is all that is needed, and
nothing is asked of the balance of the text.

So a text of `n` characters needs no more than `n / 2` calls inside each other, and the search that
is allowed so many comes to the alternatives of the text (`search_ends`).
-/

set_option autoImplicit false

namespace QueryMix.Word

open QueryMix.Bracket
open Text (size)

/-- The search for the alternatives of `inner`, on the way through `outer`. -/
structure Call where
  outer : Text
  inner : Text
deriving DecidableEq, Repr

/-- The call is for a shorter text, in characters and in bytes. -/
structure Call.Shortens (call : Call) : Prop where
  length_lt : call.inner.length < call.outer.length
  size_lt : size call.inner < size call.outer

/-- The calls that have been made and the alternatives that have been found, in this order. -/
structure Progress where
  calls : List Call
  found : List Text
deriving DecidableEq, Repr

/-- One part of `t`: an empty one is passed over, one that shows a `+` at top level is searched, any
other one is an alternative. Its brackets are taken off first. -/
def searchPart (searchInner : Text → Progress → Option Progress) (t : Text) (sofar : Progress)
    (part : Text) : Option Progress :=
  let piece := unwrap part
  if piece = [] then some sofar
  else if containsTop '+' piece = true then
    searchInner piece { sofar with calls := sofar.calls ++ [⟨t, piece⟩] }
  else some { sofar with found := sofar.found ++ [piece] }

/-- The search through a text with at most `depth` searches open at a time, this one among them.
Nothing comes of it where more are needed. -/
def search : Nat → Text → Progress → Option Progress
  | 0, _, _ => none
  | depth + 1, t, sofar => (splitTop '+' t).foldlM (searchPart (search depth) t) sofar

/-! ### A call is for a shorter text -/

/-- A part that shows a `+` at top level once its brackets are off had brackets to lose. What is
left of it, in one pair of brackets, is what the text is when some characters are left out. -/
theorem sublist_of_containsTop_unwrap {t part : Text} (hpart : part ∈ splitTop '+' t)
    (htop : containsTop '+' (unwrap part) = true) :
    ('(' :: (unwrap part ++ [')'])).Sublist t := by
  cases h : enclosed? round (Text.trim part) with
  | none =>
    -- Only blanks would have come off, and they hide no `+`.
    rw [unwrap_of_none h, containsTop_trim (by decide),
      containsTop_eq_false_iff.mpr (splitTop_of_mem_splitTop hpart)] at htop
    cases htop
  | some inside =>
    have hbrackets : ('(' :: (unwrap inside ++ [')'])).Sublist ('(' :: (inside ++ [')'])) :=
      ((unwrap_sublist inside).append_right [')']).cons_cons '('
    have hcore : Text.trim part = '(' :: (inside ++ [')']) := (enclosed?_eq_some_iff.mp h).1
    rw [unwrap_of_some h]
    rw [← hcore] at hbrackets
    exact hbrackets.trans ((Text.trim_sublist part).trans (sublist_of_mem_splitTop hpart))

/-- The brackets that such a part has lost are two characters. -/
theorem length_add_two_le {t part : Text} (hpart : part ∈ splitTop '+' t)
    (htop : containsTop '+' (unwrap part) = true) : (unwrap part).length + 2 ≤ t.length := by
  have hlen := (sublist_of_containsTop_unwrap hpart htop).length_le
  simp only [List.length_cons, List.length_append, List.length_nil] at hlen
  omega

/-- The call that is made for such a part is for a shorter text. -/
theorem shortens_of_containsTop_unwrap {t part : Text} (hpart : part ∈ splitTop '+' t)
    (htop : containsTop '+' (unwrap part) = true) : (Call.mk t (unwrap part)).Shortens where
  length_lt := by
    have := length_add_two_le hpart htop
    show (unwrap part).length < t.length
    omega
  size_lt := by
    have hsize := Text.size_le_of_sublist (sublist_of_containsTop_unwrap hpart htop)
    have hone : 0 < '('.utf8Size := Char.utf8Size_pos _
    simp only [Text.size_cons, Text.size_append] at hsize
    show size (unwrap part) < size t
    omega

/-- The calls that the search makes on its way through a text, those that are made inside a call
after that call. -/
def calls (t : Text) : List Call :=
  (splitTop '+' t).attach.flatMap fun ⟨part, _hpart⟩ =>
    if _htop : containsTop '+' (unwrap part) = true then
      ⟨t, unwrap part⟩ :: calls (unwrap part)
    else []
termination_by t.length
decreasing_by exact length_lt_of_containsTop_unwrap _hpart _htop

/-- The calls, part by part. -/
theorem calls_eq (t : Text) :
    calls t = (splitTop '+' t).flatMap fun part =>
      if containsTop '+' (unwrap part) = true then ⟨t, unwrap part⟩ :: calls (unwrap part)
      else [] := by
  rw [calls]
  simp only [dite_eq_ite]
  rw [List.flatMap_subtype (g := fun part =>
    if containsTop '+' (unwrap part) = true then ⟨t, unwrap part⟩ :: calls (unwrap part)
    else []) (fun _ _ => rfl), List.unattach_attach]

/-- Every call is for a shorter text. -/
theorem shortens_of_mem_calls {t : Text} {call : Call} (h : call ∈ calls t) : call.Shortens := by
  rw [calls_eq, List.mem_flatMap] at h
  obtain ⟨part, hpart, hcall⟩ := h
  split at hcall
  · next htop =>
    rcases List.mem_cons.mp hcall with rfl | hinner
    · exact shortens_of_containsTop_unwrap hpart htop
    · have := length_lt_of_containsTop_unwrap hpart htop
      exact shortens_of_mem_calls hinner
  · cases hcall
termination_by t.length

/-! ### What the search comes to -/

/-- If every part adds its calls and its alternatives to the progress, all parts add theirs one
after the other. -/
theorem foldlM_of_adds {step : Progress → Text → Option Progress} {added : Text → List Call}
    {foundIn : Text → List Text} {parts : List Text}
    (h : ∀ part ∈ parts, ∀ sofar,
      step sofar part = some ⟨sofar.calls ++ added part, sofar.found ++ foundIn part⟩)
    (sofar : Progress) :
    parts.foldlM step sofar =
      some ⟨sofar.calls ++ parts.flatMap added, sofar.found ++ parts.flatMap foundIn⟩ := by
  induction parts generalizing sofar with
  | nil => simp
  | cons part parts ih =>
    have hrest := ih fun p hp => h p (List.mem_cons_of_mem _ hp)
    rw [List.foldlM_cons, h part List.mem_cons_self, Option.bind_eq_bind, Option.bind_some, hrest]
    simp

/-- What one part adds, if the search for what is left of it comes to its end. -/
theorem searchPart_eq {searchInner : Text → Progress → Option Progress} {t part : Text}
    (hinner : containsTop '+' (unwrap part) = true → ∀ sofar, searchInner (unwrap part) sofar =
      some ⟨sofar.calls ++ calls (unwrap part), sofar.found ++ alternatives (unwrap part)⟩)
    (sofar : Progress) :
    searchPart searchInner t sofar part =
      some ⟨sofar.calls ++
          (if containsTop '+' (unwrap part) = true then ⟨t, unwrap part⟩ :: calls (unwrap part)
          else []),
        sofar.found ++
          (if containsTop '+' (unwrap part) = true then alternatives (unwrap part)
          else if unwrap part = [] then [] else [unwrap part])⟩ := by
  rw [searchPart]
  -- Nothing is searched or added for a part of which nothing is left.
  by_cases hnil : unwrap part = []
  · have htop : containsTop '+' ([] : Text) = false := rfl
    simp [hnil, htop]
  · by_cases htop : containsTop '+' (unwrap part) = true
    · simp [hnil, htop, hinner htop]
    · simp [hnil, htop]

/-- A search that may have more than half as many searches open as the text has characters comes to
the alternatives. -/
theorem search_eq {depth : Nat} {t : Text} (h : t.length < 2 * depth) (sofar : Progress) :
    search depth t sofar =
      some ⟨sofar.calls ++ calls t, sofar.found ++ alternatives t⟩ := by
  induction depth generalizing t sofar with
  | zero => exact absurd h (Nat.not_lt_zero _)
  | succ depth ih =>
    rw [search, calls_eq, alternatives_eq]
    refine foldlM_of_adds (fun part hpart => searchPart_eq fun htop => ?_) sofar
    -- The call has lost two characters, and one of the open calls that are allowed is this one.
    have := length_add_two_le hpart htop
    exact ih (by omega)

/-- The search ends on every text, with the alternatives of the text, whatever number of open
searches above half the number of characters it is allowed. All calls that it makes, also those
inside a call, are for shorter texts. What it finds is not empty, has no blanks at its ends, is not
enclosed in round brackets and shows no `+` at top level. -/
theorem search_ends (t : Text) :
    (∀ depth, t.length < 2 * depth → ∀ sofar,
      search depth t sofar = some ⟨sofar.calls ++ calls t, sofar.found ++ alternatives t⟩) ∧
      (∀ call ∈ calls t, call.Shortens) ∧
      ∀ a ∈ alternatives t,
        a ≠ [] ∧ Text.trim a = a ∧ isEnclosed '(' a = false ∧ containsTop '+' a = false := by
  refine ⟨fun depth h => search_eq h, fun call => shortens_of_mem_calls, fun a ha => ?_⟩
  have htoken := isToken_of_mem_alternatives ha
  exact ⟨htoken.ne_nil, htoken.trimmed, isEnclosed_round_of_none htoken.bare,
    containsTop_eq_false_iff.mpr htoken.uncut⟩

/-- The part with brackets is searched, and a part of that again; the stray closer and the opener
that is never closed are in the parts next to it. -/
theorem search_ends_malformed :
    "x)+((a+(b+c)))+[d+e".toList.length < 2 * 10 ∧
      calls "x)+((a+(b+c)))+[d+e".toList =
        [⟨"x)+((a+(b+c)))+[d+e".toList, "a+(b+c)".toList⟩, ⟨"a+(b+c)".toList, "b+c".toList⟩] ∧
      search 10 "x)+((a+(b+c)))+[d+e".toList ⟨[], []⟩ =
        some ⟨calls "x)+((a+(b+c)))+[d+e".toList,
          ["x)".toList, "a".toList, "b".toList, "c".toList, "[d+e".toList]⟩ ∧
      (∀ call ∈ calls "x)+((a+(b+c)))+[d+e".toList, call.Shortens) ∧
      containsTop '+' "[d+e".toList = false := by
  obtain ⟨hsearch, hshort, htoken⟩ := search_ends "x)+((a+(b+c)))+[d+e".toList
  have hlen : "x)+((a+(b+c)))+[d+e".toList.length < 2 * 10 := by decide
  have hfound : alternatives "x)+((a+(b+c)))+[d+e".toList =
      ["x)".toList, "a".toList, "b".toList, "c".toList, "[d+e".toList] := by cbv
  have hrun := hsearch 10 hlen ⟨[], []⟩
  rw [hfound, List.nil_append, List.nil_append] at hrun
  have hlast : "[d+e".toList ∈ alternatives "x)+((a+(b+c)))+[d+e".toList := by
    rw [hfound]
    simp
  exact ⟨hlen, by cbv, hrun, hshort, (htoken _ hlast).2.2.2⟩

end QueryMix.Word
