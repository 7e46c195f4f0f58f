import ScriptTypings.Identifier
import ScriptTypings.Proofs.Text.Classes
import ScriptTypings.Proofs.Text.LowerCase
import ScriptTypings.Proofs.Text.Search

/-!
# Identifiers of ASCII characters

The lower-case form of an ASCII text is got character by character, so it can be cut and put
together wherever the text can (`lower_append_of_isAscii`). What begins with a name of plain
characters still begins with it when decorations are removed (`exists_canonicalChars_append`).
-/

namespace ScriptTypings

namespace Text

/-- The characters of two texts. Those of a literal are given by `String.toList_ofList`: nothing has
to be decoded for it. -/
theorem toList_append_of {a b : String} {s t : List Char} (ha : a.toList = s) (hb : b.toList = t) :
    (a ++ b).toList = s ++ t := by
  rw [String.toList_append, ha, hb]

/-- A text of ASCII characters. -/
def IsAscii (s : List Char) : Prop :=
  ∀ c ∈ s, c.toNat < 128

instance (s : List Char) : Decidable (IsAscii s) :=
  List.decidableBAll (fun c : Char => c.toNat < 128) s

theorem IsAscii.append {s t : List Char} (hs : IsAscii s) (ht : IsAscii t) : IsAscii (s ++ t) :=
  List.forall_mem_append.mpr ⟨hs, ht⟩

theorem IsAscii.left {s t : List Char} (h : IsAscii (s ++ t)) : IsAscii s :=
  (List.forall_mem_append.mp h).1

theorem IsAscii.right {s t : List Char} (h : IsAscii (s ++ t)) : IsAscii t :=
  (List.forall_mem_append.mp h).2

theorem lowerFrom_of_isAscii {s : List Char} (h : IsAscii s) (before : List Char) :
    lowerFrom before s = s.map lowerChar := by
  induction s generalizing before with
  | nil => rfl
  | cons c rest ih =>
    have hc : c.toNat < 128 := h c List.mem_cons_self
    have hsigma : c ≠ 'Σ' := by
      rintro rfl
      exact absurd hc (by decide)
    have hdot : c ≠ 'İ' := by
      rintro rfl
      exact absurd hc (by decide)
    rw [lowerFrom, if_neg hsigma, if_neg hdot, ih fun d hd => h d (List.mem_cons_of_mem _ hd)]
    rfl

theorem lower_of_isAscii {s : List Char} (h : IsAscii s) : lower s = s.map lowerChar :=
  lowerFrom_of_isAscii h []

theorem isAscii_lower {s : List Char} (h : IsAscii s) : IsAscii (lower s) := by
  intro d hd
  rw [lower_of_isAscii h] at hd
  obtain ⟨c, hc, rfl⟩ := List.mem_map.mp hd
  exact of_toNat_lt (P := fun c => (lowerChar c).toNat < 128) (by decide +kernel) (h c hc)

/-- The forms of a sigma are no ASCII characters. -/
theorem not_mem_of_isAscii_lowerFrom {before s : List Char} (h : IsAscii (lowerFrom before s)) :
    'Σ' ∉ s := by
  induction s generalizing before with
  | nil => exact List.not_mem_nil
  | cons c s ih =>
    rw [lowerFrom] at h
    rw [List.mem_cons, not_or]
    refine ⟨?_, ih h.right⟩
    rintro rfl
    have hsigma := h.left
    rw [if_pos rfl] at hsigma
    split at hsigma
    · exact absurd (hsigma 'ς' List.mem_cons_self) (by decide)
    · exact absurd (hsigma 'σ' List.mem_cons_self) (by decide)

/-- The parts of an ASCII text may be put in lower case one by one. -/
theorem lower_append_of_isAscii {s t : List Char} (hs : IsAscii s) (ht : IsAscii t) :
    lower (s ++ t) = lower s ++ lower t := by
  rw [lower_of_isAscii (hs.append ht), List.map_append, lower_of_isAscii hs, lower_of_isAscii ht]

/-- An ASCII text at the end of another one has its own lower-case form, whatever stands before. -/
theorem exists_lower_append {t : List Char} (ht : IsAscii t) (s : List Char) :
    ∃ front, lower (s ++ t) = front ++ lower t := by
  obtain ⟨front, hfront⟩ := exists_lowerFrom_append [] s t
  exact ⟨front, by rw [lower, hfront, lowerFrom_of_isAscii ht, lower_of_isAscii ht]⟩

/-- Where the lower-case form of an ASCII text is put together from two parts, so is the text. -/
theorem exists_of_lower_eq_append {s before after : List Char} (h : IsAscii s)
    (hlower : lower s = before ++ after) :
    lower (s.take before.length) = before ∧ lower (s.drop before.length) = after := by
  have hparts : IsAscii (s.take before.length ++ s.drop before.length) := by
    rw [List.take_append_drop]
    exact h
  rw [lower_of_isAscii h] at hlower
  rw [lower_of_isAscii hparts.left, lower_of_isAscii hparts.right, List.map_take, List.map_drop,
    hlower]
  exact ⟨List.take_left, List.drop_left⟩

theorem mem_of_mem_trim {s : List Char} {c : Char} (h : c ∈ trim s) : c ∈ s := by
  obtain ⟨lead, trail, -, -, hs⟩ := exists_trim s
  rw [hs]
  exact List.mem_append_left _ (List.mem_append_right _ h)

/-- A text that a mark follows does not reach beyond that mark, unless the mark stands in it. -/
theorem isPrefix_of_isPrefix_append_cons {w p r : List Char} {mark : Char} (hmark : mark ∉ w)
    (h : w <+: p ++ mark :: r) : w <+: p := by
  rcases List.prefix_or_prefix_of_prefix h (List.prefix_append p (mark :: r)) with hw | hp
  · exact hw
  · obtain ⟨tail, rfl⟩ := hp
    have htail : tail <+: mark :: r := (List.prefix_append_right_inj p).mp h
    cases tail with
    | nil => simp
    | cons c tail =>
      obtain ⟨rfl, -⟩ := List.cons_prefix_cons.mp htail
      exact absurd (List.mem_append_right p List.mem_cons_self) hmark

/-- What stands behind the last mark follows that mark, if there is one. -/
theorem exists_eq_append_afterLast {mark : Char} {s : List Char}
    (h : (afterLast mark s).length ≠ s.length) :
    ∃ before, s = before ++ mark :: afterLast mark s := by
  have hreverse : s.reverse = (afterLast mark s).reverse ++ s.reverse.dropWhile (· ≠ mark) := by
    rw [afterLast, List.reverse_reverse, List.takeWhile_append_dropWhile]
  cases hdrop : s.reverse.dropWhile (· ≠ mark) with
  | nil =>
    rw [hdrop, List.append_nil] at hreverse
    exact absurd (congrArg List.length (List.reverse_injective hreverse)).symm h
  | cons c rest =>
    have hfirst := List.head?_dropWhile_not (· ≠ mark) s.reverse
    rw [hdrop] at hfirst
    have hc : c = mark := by simpa using hfirst
    refine ⟨rest.reverse, ?_⟩
    rw [hdrop, hc] at hreverse
    simpa using congrArg List.reverse hreverse

theorem afterLast_append_cons {mark : Char} {t : List Char} (h : mark ∉ t) (s : List Char) :
    afterLast mark (s ++ mark :: t) = t := by
  have hall : ∀ c ∈ t.reverse, decide (c ≠ mark) = true := by
    intro c hc
    rw [decide_eq_true_eq]
    rintro rfl
    exact h (List.mem_reverse.mp hc)
  have hstop : (mark :: s.reverse).takeWhile (· ≠ mark) = [] :=
    List.takeWhile_cons_of_neg (by simp)
  rw [afterLast, List.reverse_append, List.reverse_cons, List.append_assoc, List.singleton_append,
    List.takeWhile_append_of_pos hall, hstop, List.append_nil, List.reverse_reverse]

/-- The lower-case form of a text ends with a space and a word where the text ends with a space and
some spelling of the word. -/
theorem endsWith_lower_iff {word s : List Char} (hspace : ' ' ∉ word)
    (hsigma : 'σ' ∉ word ∧ 'ς' ∉ word) : endsWith (lower s) (' ' :: word) = true ↔
      ∃ front spelled, s = front ++ ' ' :: spelled ∧ lower spelled = word := by
  have hlower : ∀ front spelled : List Char, ∃ front' before,
      lower (front ++ ' ' :: spelled) = front' ++ ' ' :: lowerFrom before spelled := by
    intro front spelled
    obtain ⟨front', hfront⟩ := exists_lowerFrom_append [] front (' ' :: spelled)
    exact ⟨front', _, hfront⟩
  rw [endsWith, List.isSuffixOf_iff_suffix]
  constructor
  · rintro ⟨front, hfront⟩
    have hmem : ' ' ∈ s := by
      have hlower : ' ' ∈ lower s := hfront ▸ List.mem_append_right _ List.mem_cons_self
      exact mem_of_mem_lowerFrom (by decide) hlower
    obtain ⟨front', spelled, rfl, hspelled⟩ := exists_eq_append_cons_of_mem hmem
    obtain ⟨before', before, hcut⟩ := hlower front' spelled
    have hlast : ' ' ∉ lowerFrom before spelled :=
      fun h => hspelled (mem_of_mem_lowerFrom (by decide) h)
    have hword : lowerFrom before spelled = word := by
      rw [← afterLast_append_cons hlast before', ← hcut, ← hfront, afterLast_append_cons hspace]
    refine ⟨front', spelled, rfl, ?_⟩
    have hnot := not_mem_of_lowerFrom (hword ▸ hsigma)
    rw [lower, lowerFrom_of_not_mem hnot, ← lowerFrom_of_not_mem hnot before, hword]
  · rintro ⟨front, spelled, rfl, rfl⟩
    obtain ⟨front', before, hcut⟩ := hlower front spelled
    have hnot := not_mem_of_lowerFrom hsigma
    rw [hcut, lowerFrom_of_not_mem hnot, lower, lowerFrom_of_not_mem hnot]
    exact List.suffix_append _ _

end Text

namespace Identifier

open Text

/-- Characters that no removal of decorations touches. -/
def IsPlain (s : List Char) : Prop :=
  ∀ c ∈ s, c ≠ '(' ∧ c ≠ tick ∧ isBlank c = false

theorem upTo_append {s : List Char} (h : IsPlain s) (rest : List Char) :
    upTo ['('] (s ++ rest) = s ++ upTo ['('] rest := by
  induction s with
  | nil => rfl
  | cons c s ih =>
    have hlead : dropLead? ['('] (c :: (s ++ rest)) = none := by
      rw [dropLead?, if_neg (h c List.mem_cons_self).1.symm]
    have htail := ih fun d hd => h d (List.mem_cons_of_mem _ hd)
    rw [upTo] at htail
    rw [List.cons_append, upTo, splitAt?, hlead]
    dsimp only
    cases hsplit : splitAt? ['('] (s ++ rest) with
    | none =>
      rw [hsplit] at htail
      rw [Option.map_none]
      exact congrArg (c :: ·) htail
    | some cut =>
      rw [hsplit] at htail
      rw [Option.map_some]
      exact congrArg (c :: ·) htail

theorem dropTicks_append {s : List Char} (h : IsPlain s) (rest : List Char) :
    dropTicks 0 false (s ++ rest) = s ++ dropTicks 0 false rest := by
  induction s with
  | nil => rfl
  | cons c s ih =>
    rw [List.cons_append, dropTicks, if_neg (h c List.mem_cons_self).2.1,
      ih fun d hd => h d (List.mem_cons_of_mem _ hd)]
    simp

/-- What begins with plain characters begins with them when decorations are removed. -/
theorem exists_canonicalChars_append {s : List Char} (h : IsPlain s) (hne : s ≠ [])
    (rest : List Char) : ∃ kept, canonicalChars (s ++ rest) = s ++ kept := by
  rw [canonicalChars, upTo_append h, dropTicks_append h]
  generalize dropTicks 0 false (upTo ['('] rest) = behind
  have hstart : trimStart (s ++ behind) = s ++ behind := by
    cases s with
    | nil => exact absurd rfl hne
    | cons c s => exact List.dropWhile_cons_of_neg (by simp [(h c List.mem_cons_self).2.2])
  have hreverse : s.reverse.dropWhile isBlank = s.reverse := by
    cases hlast : s.reverse with
    | nil => rfl
    | cons c front =>
      have hmem : c ∈ s := List.mem_reverse.mp (hlast ▸ List.mem_cons_self)
      exact List.dropWhile_cons_of_neg (by simp [(h c hmem).2.2])
  have hend : trimEnd (s ++ behind) = s ++ trimEnd behind := by
    rw [trimEnd, List.reverse_append, List.dropWhile_append]
    split
    · rename_i hempty
      rw [hreverse, trimEnd, List.isEmpty_iff.mp hempty]
      simp
    · rw [List.reverse_append, List.reverse_reverse, trimEnd]
  exact ⟨trimEnd behind, by rw [trim, hstart, hend]⟩

theorem mem_of_mem_dropTicks {ticks : Nat} {removing : Bool} {s : List Char} {c : Char}
    (h : c ∈ dropTicks ticks removing s) : c = tick ∨ c ∈ s := by
  induction s generalizing ticks removing with
  | nil => exact .inl (List.eq_of_mem_replicate h)
  | cons d s ih =>
    rw [dropTicks] at h
    split at h
    · exact (ih h).imp_right (List.mem_cons_of_mem _)
    · split at h
      · exact (ih h).imp_right (List.mem_cons_of_mem _)
      · rcases List.mem_append.mp h with h | h
        · exact .inl (List.eq_of_mem_replicate h)
        · rcases List.mem_cons.mp h with rfl | h
          · exact .inr List.mem_cons_self
          · exact (ih h).imp_right (List.mem_cons_of_mem _)

theorem isAscii_canonicalChars {s : List Char} (h : IsAscii s) : IsAscii (canonicalChars s) := by
  have hcut : IsAscii (upTo ['('] s) := by
    unfold upTo
    split
    · rename_i before after hsplit
      rw [eq_append_of_splitAt? hsplit, List.append_assoc] at h
      exact h.left
    · exact h
  intro c hc
  rcases mem_of_mem_dropTicks (mem_of_mem_trim hc) with rfl | hc
  · decide
  · exact hcut c hc

end Identifier

end ScriptTypings
