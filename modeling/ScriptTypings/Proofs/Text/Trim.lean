import Mathlib.Data.List.Basic
import ScriptTypings.Text.Blank
import ScriptTypings.Text.Search

/-!
# Trimmed texts and their parts

Trimming takes white space from both ends of a text, and nothing else. A text is trimmed if its
first and its last character are no white space.
-/

namespace ScriptTypings.Text

/-- A text of white space only. -/
def AllBlank (s : List Char) : Prop :=
  ∀ c ∈ s, isBlank c = true

/-! ### Trimming -/

theorem trimStart_append_of_allBlank {b : List Char} (h : AllBlank b) (s : List Char) :
    trimStart (b ++ s) = trimStart s :=
  List.dropWhile_append_of_pos h

theorem trimEnd_append_of_allBlank {b : List Char} (h : AllBlank b) (s : List Char) :
    trimEnd (s ++ b) = trimEnd s := by
  have hreverse : ∀ c ∈ b.reverse, isBlank c = true := fun c hc => h c (List.mem_reverse.mp hc)
  rw [trimEnd, trimEnd, List.reverse_append, List.dropWhile_append_of_pos hreverse]

theorem trimStart_of_allBlank {b : List Char} (h : AllBlank b) : trimStart b = [] := by
  simpa [trimStart] using trimStart_append_of_allBlank h []

theorem trim_append_of_allBlank {b : List Char} (h : AllBlank b) (s : List Char) :
    trim (s ++ b) = trim s := by
  have hcut : trimStart (s ++ b) =
      if (trimStart s).isEmpty then trimStart b else trimStart s ++ b := List.dropWhile_append
  rw [trim, hcut]
  split
  · rename_i hempty
    rw [trimStart_of_allBlank h, trim, List.isEmpty_iff.mp hempty]
  · rw [trimEnd_append_of_allBlank h]
    rfl

/-- White space is trimmed from the end behind the last other character. -/
theorem trimEnd_append_cons {c : Char} (hc : isBlank c = false) (s t : List Char) :
    trimEnd (s ++ c :: t) = s ++ c :: trimEnd t := by
  have hkept : (c :: s.reverse).dropWhile isBlank = c :: s.reverse :=
    List.dropWhile_cons_of_neg (by simp [hc])
  have hreverse : (s ++ c :: t).reverse = t.reverse ++ c :: s.reverse := by simp
  rw [trimEnd, hreverse, List.dropWhile_append, hkept, trimEnd]
  split
  · rename_i hempty
    rw [List.isEmpty_iff.mp hempty]
    simp
  · simp

/-- White space is trimmed from the start in front of the first other character. -/
theorem trimStart_append_cons {c : Char} (hc : isBlank c = false) (s t : List Char) :
    trimStart (s ++ c :: t) = trimStart s ++ c :: t := by
  have hkept : (c :: t).dropWhile isBlank = c :: t := List.dropWhile_cons_of_neg (by simp [hc])
  rw [trimStart, List.dropWhile_append, hkept, trimStart]
  split
  · rename_i hempty
    rw [List.isEmpty_iff.mp hempty]
    rfl
  · rfl

theorem trimEnd_of_allBlank {b : List Char} (h : AllBlank b) : trimEnd b = [] :=
  trimEnd_append_of_allBlank h []

/-- What is left after trimming is nothing or ends with a character that is no white space. -/
theorem trimEnd_cases (s : List Char) :
    trimEnd s = [] ∨ ∃ front c, trimEnd s = front ++ [c] ∧ isBlank c = false := by
  rcases List.eq_nil_or_concat' (trimEnd s) with hnil | ⟨front, c, hfront⟩
  · exact .inl hnil
  · have hlast := List.head?_dropWhile_not isBlank s.reverse
    rw [← List.getLast?_reverse, show (s.reverse.dropWhile isBlank).reverse = trimEnd s from rfl,
      hfront, List.getLast?_concat] at hlast
    exact .inr ⟨front, c, hfront, hlast⟩

theorem trim_cons_of_not_isBlank {c : Char} (hc : isBlank c = false) (s : List Char) :
    trim (c :: s) = c :: trimEnd s := by
  have hstart : trimStart (c :: s) = c :: s := List.dropWhile_cons_of_neg (by simp [hc])
  rw [trim, hstart]
  exact trimEnd_append_cons hc [] s

/-- Only white space is trimmed. -/
theorem exists_trimEnd (s : List Char) : ∃ b, AllBlank b ∧ s = trimEnd s ++ b := by
  refine ⟨(s.reverse.takeWhile isBlank).reverse, fun c hc => ?_, ?_⟩
  · have hall := List.all_takeWhile (p := isBlank) (l := s.reverse)
    exact List.all_eq_true.mp hall c (List.mem_reverse.mp hc)
  · rw [trimEnd, ← List.reverse_append, List.takeWhile_append_dropWhile, List.reverse_reverse]

theorem exists_trim (s : List Char) :
    ∃ lead trail, AllBlank lead ∧ AllBlank trail ∧ s = lead ++ trim s ++ trail := by
  obtain ⟨trail, htrail, hend⟩ := exists_trimEnd (trimStart s)
  refine ⟨s.takeWhile isBlank, trail, fun c hc => ?_, htrail, ?_⟩
  · exact List.all_eq_true.mp List.all_takeWhile c hc
  · have hstart : s = s.takeWhile isBlank ++ trimStart s := List.takeWhile_append_dropWhile.symm
    rw [List.append_assoc, trim, ← hend]
    exact hstart

theorem trim_trimEnd (s : List Char) : trim (trimEnd s) = trim s := by
  obtain ⟨b, hb, hs⟩ := exists_trimEnd s
  conv_rhs => rw [hs]
  rw [trim_append_of_allBlank hb]

theorem trim_trimStart (s : List Char) : trim (trimStart s) = trim s := by
  have hlead : AllBlank (s.takeWhile isBlank) := fun c hc =>
    List.all_eq_true.mp List.all_takeWhile c hc
  have hs : s.takeWhile isBlank ++ trimStart s = s := List.takeWhile_append_dropWhile
  conv_rhs => rw [← hs, trim, trimStart_append_of_allBlank hlead]
  rfl

/-- A character of a text is white space or stands in the trimmed text. -/
theorem mem_trim_of_mem {s : List Char} {c : Char} (h : c ∈ s) (hc : isBlank c = false) :
    c ∈ trim s := by
  obtain ⟨lead, trail, hlead, htrail, hs⟩ := exists_trim s
  rw [hs] at h
  rcases List.mem_append.mp h with h | h
  · rcases List.mem_append.mp h with h | h
    · rw [hlead c h] at hc
      cases hc
    · exact h
  · rw [htrail c h] at hc
    cases hc

/-- A text whose first and last characters are no white space. -/
structure IsTrimmed (s : List Char) : Prop where
  head : ∀ c ∈ s.head?, isBlank c = false
  last : ∀ c ∈ s.getLast?, isBlank c = false

theorem IsTrimmed.trim_eq {s : List Char} (h : IsTrimmed s) : trim s = s := by
  have hstart : trimStart s = s := by
    cases s with
    | nil => rfl
    | cons c rest => exact List.dropWhile_cons_of_neg (by simp [h.head c rfl])
  have hend : trimEnd s = s := by
    rw [trimEnd]
    cases hreverse : s.reverse with
    | nil => rw [List.reverse_eq_nil_iff.mp hreverse]; rfl
    | cons c rest =>
      have hlast : s.getLast? = some c := by
        rw [← List.head?_reverse, hreverse]
        rfl
      rw [List.dropWhile_cons_of_neg (by simp [h.last c hlast]), ← hreverse, List.reverse_reverse]
  rw [trim, hstart, hend]

theorem trim_eq_nil_iff {s : List Char} : trim s = [] ↔ AllBlank s := by
  constructor
  · intro h c hc
    by_contra hblank
    exact List.not_mem_nil (h ▸ mem_trim_of_mem hc (Bool.eq_false_iff.mpr hblank))
  · intro h
    rw [trim, trimStart_of_allBlank h]
    rfl

theorem isPrefix_trimEnd (s : List Char) : trimEnd s <+: s := by
  rw [trimEnd, ← List.reverse_suffix, List.reverse_reverse]
  exact List.dropWhile_suffix _

theorem isTrimmed_trim (s : List Char) : IsTrimmed (trim s) := by
  refine ⟨fun c hc => ?_, fun c hc => ?_⟩
  · obtain ⟨rest, hrest⟩ := isPrefix_trimEnd (trimStart s)
    have hhead : (trimStart s).head? = some c := by
      rw [← hrest, List.head?_append, show (trimEnd (trimStart s)).head? = some c from hc]
      rfl
    have hfirst := List.head?_dropWhile_not isBlank s
    rw [show List.dropWhile isBlank s = trimStart s from rfl, hhead] at hfirst
    exact hfirst
  · rw [Option.mem_def, trim] at hc
    rcases trimEnd_cases (trimStart s) with hnil | ⟨front, d, hfront, hd⟩
    · rw [hnil] at hc
      cases hc
    · rw [hfront, List.getLast?_concat] at hc
      exact Option.some.inj hc ▸ hd

/-- To be trimmed is to have nothing to trim. -/
theorem trim_eq_self_iff {s : List Char} : trim s = s ↔ IsTrimmed s :=
  ⟨fun h => h ▸ isTrimmed_trim s, IsTrimmed.trim_eq⟩

/-- A text is trimmed if its first part begins and its last part ends without white space. -/
theorem isTrimmed_append {s t : List Char} (hs : s ≠ []) (ht : t ≠ [])
    (hhead : ∀ c ∈ s.head?, isBlank c = false) (hlast : ∀ c ∈ t.getLast?, isBlank c = false) :
    IsTrimmed (s ++ t) where
  head := by rwa [List.head?_append_of_ne_nil _ hs]
  last := by rwa [List.getLast?_append_of_ne_nil _ ht]

theorem trim_trim (s : List Char) : trim (trim s) = trim s :=
  (isTrimmed_trim s).trim_eq

/-! ### Cutting -/

theorem eq_append_of_dropLead? {lead s rest : List Char} (h : dropLead? lead s = some rest) :
    s = lead ++ rest := by
  induction lead generalizing s with
  | nil => exact Option.some.inj h
  | cons a lead ih =>
    cases s with
    | nil => cases h
    | cons c s =>
      rw [dropLead?] at h
      split at h
      · rename_i hac
        rw [hac, List.cons_append, ← ih h]
      · cases h

/-- The parts that a needle cuts a text into, with the needle between them. -/
theorem eq_append_of_splitAt? {needle s before after : List Char}
    (h : splitAt? needle s = some (before, after)) : s = before ++ needle ++ after := by
  induction s generalizing before after with
  | nil =>
    rw [splitAt?] at h
    split at h
    · rename_i hempty
      obtain ⟨rfl, rfl⟩ := Prod.mk.inj (Option.some.inj h)
      rw [List.isEmpty_iff.mp hempty]
      rfl
    · cases h
  | cons c rest ih =>
    rw [splitAt?] at h
    split at h
    · rename_i hlead
      obtain ⟨rfl, rfl⟩ := Prod.mk.inj (Option.some.inj h)
      rw [eq_append_of_dropLead? hlead]
      rfl
    · obtain ⟨⟨before', after'⟩, hsplit, hparts⟩ := Option.map_eq_some_iff.mp h
      obtain ⟨rfl, rfl⟩ := Prod.mk.inj hparts
      rw [ih hsplit]
      rfl

theorem splitOnChar_eq_splitOn (mark : Char) (s : List Char) :
    splitOnChar mark s = s.splitOn mark := by
  induction s with
  | nil => rfl
  | cons c rest ih =>
    rw [splitOnChar, List.splitOn, List.splitOnP_cons_eq_if_modifyHead, ih]
    by_cases hc : c = mark
    · simp [hc, List.splitOn]
    · rw [if_neg hc, if_neg (by simpa using hc)]
      cases hrest : rest.splitOn mark with
      | nil => exact absurd hrest (List.splitOn_ne_nil _ _)
      | cons part parts =>
        rw [List.splitOn] at hrest
        rw [hrest]
        rfl

end ScriptTypings.Text
