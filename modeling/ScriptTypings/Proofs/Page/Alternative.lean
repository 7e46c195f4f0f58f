import Mathlib.Data.List.Basic
import ScriptTypings.Page.TypeSpelling
import ScriptTypings.Proofs.Text.Trim

/-!
# Parts and pieces of type texts

A text is cut at its bars, and a piece between bars into a name and the languages in brackets behind
it. White space around a text shows in none of its parts, texts joined by a mark are the parts of
the whole again, and the brackets at the end of a piece are found whatever stands before them.
-/

namespace ScriptTypings

open Text

namespace Alternative

/-! ### Parts -/

theorem trimEnd_cons (c : Char) (s : List Char) :
    trimEnd (c :: s) = if (trimEnd s).isEmpty then trimEnd [c] else c :: trimEnd s := by
  have hcut : ((c :: s).reverse.dropWhile isBlank) =
      if (s.reverse.dropWhile isBlank).isEmpty then [c].dropWhile isBlank
      else s.reverse.dropWhile isBlank ++ [c] := by
    rw [List.reverse_cons, List.dropWhile_append]
  rw [trimEnd, hcut, trimEnd, List.isEmpty_reverse]
  split
  · rfl
  · simp

/-- White space at the end of a text is white space at the end of its last part. -/
theorem map_trimEnd_splitOnChar_concat {mark c : Char} (hc : isBlank c = true)
    (hmark : isBlank mark = false) (s : List Char) :
    (splitOnChar mark (s ++ [c])).map trimEnd = (splitOnChar mark s).map trimEnd := by
  have hne : c ≠ mark := fun h => by rw [← h, hc] at hmark; cases hmark
  have hblank : trimEnd [c] = [] := by
    have hall : AllBlank [c] := fun d hd => List.mem_singleton.mp hd ▸ hc
    exact trimEnd_of_allBlank hall
  simp only [splitOnChar_eq_splitOn]
  induction s with
  | nil => simp [List.splitOn, List.splitOnP_cons_eq_if_modifyHead, hne, hblank]; rfl
  | cons d s ih =>
    simp only [List.cons_append, List.splitOn, List.splitOnP_cons_eq_if_modifyHead] at ih ⊢
    split
    · simp [ih]
    · cases hsplit : List.splitOnP (· == mark) s with
      | nil => exact absurd hsplit (List.splitOnP_ne_nil _ _)
      | cons part parts =>
        cases hlong : List.splitOnP (· == mark) (s ++ [c]) with
        | nil => exact absurd hlong (List.splitOnP_ne_nil _ _)
        | cons part' parts' =>
          -- `d` joins the first part of both, and trimming this part gives the same by induction
          simp only [hsplit, hlong, List.map_cons, List.cons.injEq] at ih
          simp only [List.modifyHead_cons, List.map_cons]
          rw [trimEnd_cons d part, trimEnd_cons d part', ih.1, ih.2]

variable {mark : Char} (hmark : isBlank mark = false)

include hmark

theorem parts_cons_of_isBlank {c : Char} (hc : isBlank c = true) (s : List Char) :
    parts mark (c :: s) = parts mark s := by
  have hne : c ≠ mark := fun h => by rw [← h, hc] at hmark; cases hmark
  have hall : AllBlank [c] := fun d hd => List.mem_singleton.mp hd ▸ hc
  rw [parts, parts, splitOnChar, if_neg hne]
  cases hsplit : splitOnChar mark s with
  | nil => exact absurd (splitOnChar_eq_splitOn mark s ▸ hsplit) (List.splitOn_ne_nil _ _)
  | cons part parts =>
    have htrim : trim (c :: part) = trim part :=
      congrArg trimEnd (trimStart_append_of_allBlank hall part)
    simp only [List.map_cons, htrim]

theorem parts_concat_of_isBlank {c : Char} (hc : isBlank c = true) (s : List Char) :
    parts mark (s ++ [c]) = parts mark s := by
  have htrim : ∀ pieces : List (List Char), pieces.map trim = (pieces.map trimEnd).map trim :=
    fun pieces => by simp [trim_trimEnd]
  rw [parts, parts, htrim, map_trimEnd_splitOnChar_concat hc hmark, ← htrim]

/-- White space around a text does not show in its parts. -/
theorem parts_trim (s : List Char) : parts mark (trim s) = parts mark s := by
  obtain ⟨lead, trail, hlead, htrail, hs⟩ := exists_trim s
  -- white space goes one character at a time, on either side
  have hfront : ∀ rest, parts mark (lead ++ rest) = parts mark rest := by
    intro rest
    clear hs
    induction lead with
    | nil => rfl
    | cons c lead ih =>
      rw [List.cons_append, parts_cons_of_isBlank hmark (hlead c List.mem_cons_self)]
      exact ih fun d hd => hlead d (List.mem_cons_of_mem _ hd)
  have hback : ∀ rest, parts mark (rest ++ trail) = parts mark rest := by
    clear hs
    induction trail with
    | nil => exact fun rest => by rw [List.append_nil]
    | cons c trail ih =>
      intro rest
      rw [List.append_cons, ih fun d hd => htrail d (List.mem_cons_of_mem _ hd),
        parts_concat_of_isBlank hmark (htrail c List.mem_cons_self)]
  conv_rhs => rw [hs]
  rw [hback, hfront]

omit hmark

/-- Texts that are joined by a mark which none of them has are the parts of the whole. -/
theorem parts_intercalate {texts : List (List Char)} (h : ∀ text ∈ texts, mark ∉ text) :
    parts mark ([mark].intercalate texts) = (texts.map trim).filter fun part => !part.isEmpty := by
  cases texts with
  | nil => rfl
  | cons text texts =>
    rw [parts, splitOnChar_eq_splitOn, List.splitOn_intercalate mark h (List.cons_ne_nil _ _)]

/-- What holds of all characters of some texts and of the mark between them holds of the whole. -/
theorem of_mem_intercalate {P : Char → Prop} (hmark : P mark) {texts : List (List Char)}
    (h : ∀ text ∈ texts, ∀ c ∈ text, P c) : ∀ c ∈ [mark].intercalate texts, P c := by
  induction texts with
  | nil => exact nofun
  | cons text texts ih =>
    intro c hc
    cases texts with
    | nil =>
      rw [List.intercalate_singleton] at hc
      exact h text List.mem_cons_self c hc
    | cons second texts =>
      rw [List.intercalate_cons_cons] at hc
      rcases List.mem_append.mp hc with hc | hc
      · rcases List.mem_append.mp hc with hc | hc
        · exact h text List.mem_cons_self c hc
        · exact List.mem_singleton.mp hc ▸ hmark
      · exact ih (fun other hother => h other (List.mem_cons_of_mem _ hother)) c hc

/-! ### Pieces -/

/-- A bracket at the end of a text is found whatever stands before it. -/
theorem brackets?_append (before : List Char) {inside : List Char}
    (h : ∀ c ∈ inside, c ≠ '[' ∧ c ≠ ']') :
    brackets? (before ++ '[' :: (inside ++ [']'])) = some (before, inside) := by
  have hreverse : (before ++ '[' :: (inside ++ [']'])).reverse =
      ']' :: (inside.reverse ++ '[' :: before.reverse) := by simp
  have hinside : ∀ c ∈ inside.reverse, (decide (c ≠ '[') && decide (c ≠ ']')) = true := by
    intro c hc
    have hmarks := h c (List.mem_reverse.mp hc)
    simp [hmarks.1, hmarks.2]
  rw [brackets?, hreverse]
  simp only [List.takeWhile_append_of_pos hinside, List.dropWhile_append_of_pos hinside]
  simp

/-- A text that ends without a bracket has none. -/
theorem brackets?_of_noBracket {s : List Char} (h : ∀ c ∈ s, c ≠ '[' ∧ c ≠ ']') :
    brackets? s = none := by
  rw [brackets?]
  split
  · rename_i rest hreverse
    have hmem : ']' ∈ s := by
      rw [← List.mem_reverse, hreverse]
      exact List.mem_cons_self
    exact absurd rfl (h _ hmem).2
  · rfl

end Alternative

end ScriptTypings
