import ScriptTypings.Identifier
import ScriptTypings.Proofs.Text.LowerCase

/-!
# Names that differ in their first letter

A name and its form in camel case are the same up to case (`lowered_camelCase`), so names of
different lower-case forms stay apart in camel case. What stands before a sigma decides its form;
therefore a character that has a lower-case form must have case, and so must that form. Classes of
characters are read from the bits of a number, which keeps the check of the case data short.
-/

namespace ScriptTypings.Text

/-! ### Characters with case -/

/-- The code points of some ranges as the bits of a number. -/
def rangesMask : List (Nat × Nat) → Nat
  | [] => 0
  | range :: ranges => ((1 <<< (range.2 + 1 - range.1) - 1) <<< range.1) ||| rangesMask ranges

theorem testBit_rangesMask (ranges : List (Nat × Nat)) (n : Nat) :
    (rangesMask ranges).testBit n = inRanges ranges n := by
  induction ranges with
  | nil => simp [rangesMask, inRanges]
  | cons range ranges ih =>
    rw [rangesMask, Nat.testBit_or, ih, Nat.testBit_shiftLeft, Nat.one_shiftLeft,
      Nat.testBit_two_pow_sub_one]
    simp only [inRanges, List.any_cons]
    congr 1
    grind

/-- Whether the character of a code point makes a sigma behind it the last one of a word. -/
def endsWord (n : Nat) : Bool :=
  (rangesMask casedRanges).testBit n && !(rangesMask caseIgnorableRanges).testBit n

theorem casedNearby_cons_of_endsWord {c : Char} (h : endsWord c.toNat = true)
    (before : List Char) : casedNearby (c :: before) = true := by
  rw [endsWord, testBit_rangesMask, testBit_rangesMask, Bool.and_eq_true, Bool.not_eq_true'] at h
  rw [casedNearby, h.2, h.1]
  rfl

/-- The code points of a run. -/
def CaseRun.points (run : CaseRun) : List Nat :=
  (List.range ((run.2.1 - run.1) / run.2.2.1 + 1)).map fun i => run.1 + run.2.2.1 * i

theorem CaseRun.Holds.mem_points {run : CaseRun} {n : Nat} (h : run.Holds n) : n ∈ run.points := by
  obtain ⟨hfirst, hlast, hstep⟩ := h
  refine List.mem_map.mpr ⟨(n - run.1) / run.2.2.1, List.mem_range.mpr ?_, ?_⟩
  · exact Nat.lt_succ_of_le (Nat.div_le_div_right (Nat.sub_le_sub_right hlast _))
  · rw [Nat.mul_div_cancel' (Nat.dvd_of_mod_eq_zero hstep)]
    omega

/-- The characters of a run have case, and so have those that it leads to. -/
theorem CaseRun.endsWord_of_holds {run : CaseRun} (hrun : run ∈ lowerRuns) {n : Nat}
    (h : run.Holds n) : endsWord n = true ∧ endsWord (run.target n) = true := by
  -- all code points of all runs, and where they lead to, are looked up in the two masks
  have hall : (lowerRuns.all fun run : CaseRun =>
      run.points.all fun n => endsWord n && endsWord (CaseRun.target run n)) = true := by
    decide +kernel
  have hpoint := List.all_eq_true.mp (List.all_eq_true.mp hall run hrun) n h.mem_points
  exact Bool.and_eq_true_iff.mp hpoint

/-- A sigma does not tell a character from its lower-case form. -/
theorem casedNearby_lowerChar (c : Char) (before : List Char) :
    casedNearby (lowerChar c :: before) = casedNearby (c :: before) := by
  rcases lowerChar_cases c with ⟨hsame, -⟩ | ⟨run, hrun, hholds, htarget⟩
  · rw [hsame]
  · obtain ⟨hupper, hlower⟩ := CaseRun.endsWord_of_holds hrun hholds
    rw [casedNearby_cons_of_endsWord hupper, casedNearby_cons_of_endsWord (htarget ▸ hlower)]

/-! ### Lower case part by part -/

/-- Of the characters before a text only those matter that decide about a sigma. -/
theorem lowerFrom_congr {before before' : List Char}
    (h : casedNearby before = casedNearby before') (s : List Char) :
    lowerFrom before s = lowerFrom before' s := by
  induction s generalizing before before' with
  | nil => rfl
  | cons c rest ih =>
    have hrest : casedNearby (c :: before) = casedNearby (c :: before') := by
      simp only [casedNearby, h]
    rw [lowerFrom, lowerFrom, h, ih hrest]

/-- What is in lower case already is passed over. -/
theorem lowerFrom_append_of_isLower {s : List Char} (h : ∀ c ∈ s, IsLower c)
    (before rest : List Char) :
    lowerFrom before (s ++ rest) = s ++ lowerFrom (s.reverse ++ before) rest := by
  induction s generalizing before with
  | nil => rfl
  | cons c s ih =>
    have hc := h c List.mem_cons_self
    rw [List.cons_append, lowerFrom, if_neg hc.2.1, if_neg hc.2.2, hc.lowerChar,
      ih fun d hd => h d (List.mem_cons_of_mem _ hd)]
    simp

/-- A sigma does not tell the first letter of a text from its lower-case form. -/
theorem casedNearby_reverse_lower (c : Char) :
    casedNearby (lower [c]).reverse = casedNearby [c] := by
  -- the two letters whose lower-case form is not `lowerChar` are looked at by themselves
  by_cases hsigma : c = 'Σ'
  · subst hsigma
    decide +kernel
  · by_cases hdot : c = 'İ'
    · subst hdot
      decide +kernel
    · have hlower : lower [c] = [lowerChar c] := by
        rw [lower, lowerFrom, if_neg hsigma, if_neg hdot]
        rfl
      rw [hlower]
      exact casedNearby_lowerChar c []

/-- The first letter of a text may be put in lower case before the text is. -/
theorem lower_lower_append (c : Char) (rest : List Char) :
    lower (lower [c] ++ rest) = lower (c :: rest) := by
  have hfirst : lower (c :: rest) = lower [c] ++ lowerFrom [c] rest := by
    by_cases hsigma : c = 'Σ'
    · subst hsigma
      rfl
    · simp only [lower, lowerFrom, if_neg hsigma, List.append_nil]
  have hlower : ∀ d ∈ lower [c], IsLower d := fun _ => isLower_of_mem_lowerFrom
  have hpassed : lower (lower [c] ++ rest) =
      lower [c] ++ lowerFrom ((lower [c]).reverse ++ []) rest :=
    lowerFrom_append_of_isLower hlower [] rest
  rw [hfirst, hpassed, List.append_nil]
  exact congrArg (lower [c] ++ ·) (lowerFrom_congr (casedNearby_reverse_lower c) rest)

/-- A name in camel case is the same name up to case. -/
theorem lowered_camelCase (name : String) : lowered (Identifier.camelCase name) = lowered name := by
  rw [lowered, lowered, Identifier.camelCase]
  cases hname : name.toList with
  | nil => rfl
  | cons c rest =>
    dsimp only
    rw [String.toList_ofList, lower_lower_append]

end ScriptTypings.Text
