import ScriptTypings.Text.LowerCase

/-!
# Lower case is reached once

The lower-case form of a text is its own lower-case form (`lowered_lowered`). The case data are
checked run by run: the code points that a run leads to lie in no run themselves.
-/

namespace ScriptTypings.Text

/-- A run of code points: the first and the last one, the step, and the shift to lower case. -/
abbrev CaseRun := Nat × Nat × Nat × Int

/-- Where a run takes a code point. -/
def CaseRun.target (run : CaseRun) (n : Nat) : Nat :=
  Int.toNat (n + run.2.2.2)

/-- Whether the targets of a run that lie between `low` and `high` are outside of another run. The
flag tells that all of them are as even, or as odd, as `low` is. -/
def CaseRun.misses (alike : Bool) (low high : Nat) (run : CaseRun) : Bool :=
  Nat.blt high run.1 || (Nat.blt run.2.1 low ||
    (Nat.beq run.2.2.1 2 && (alike && Nat.beq ((low + run.1) % 2) 1)))

/-- Whether the targets of a run are characters that have no other lower-case form. -/
def CaseRun.isSettled (run : CaseRun) : Bool :=
  let low := run.target run.1
  let high := run.target run.2.1
  (run.2.2.1 = 1 || run.2.2.1 = 2) && (0 : Int) ≤ run.1 + run.2.2.2 &&
    (Nat.blt high 0xD800 || (Nat.blt 0xDFFF low && Nat.blt high 0x110000)) &&
    (Nat.blt high 304 || Nat.blt 304 low) &&
    lowerRuns.all (CaseRun.misses (run.2.2.1 = 2 || run.1 = run.2.1) low high)

/-- Whether a code point belongs to a run. -/
def CaseRun.Holds (run : CaseRun) (n : Nat) : Prop :=
  run.1 ≤ n ∧ n ≤ run.2.1 ∧ (n - run.1) % run.2.2.1 = 0

theorem isSettled_of_mem {run : CaseRun} (h : run ∈ lowerRuns) : run.isSettled = true := by
  have hall : lowerRuns.all CaseRun.isSettled = true := by decide +kernel
  exact List.all_eq_true.mp hall run h

theorem exists_of_lowerShift?_eq_some {n : Nat} {runs : List CaseRun} {shift : Int}
    (h : lowerShift? n runs = some shift) : ∃ run ∈ runs, run.Holds n ∧ run.2.2.2 = shift := by
  induction runs with
  | nil => simp [lowerShift?] at h
  | cons run runs ih =>
    obtain ⟨first, last, step, d⟩ := run
    rw [lowerShift?] at h
    split at h
    · rename_i hit
      simp only [Bool.and_eq_true, decide_eq_true_eq] at hit
      exact ⟨_, List.mem_cons_self, ⟨hit.1.1, hit.1.2, hit.2⟩, Option.some.inj h⟩
    · obtain ⟨run, hrun, hholds⟩ := ih h
      exact ⟨run, List.mem_cons_of_mem _ hrun, hholds⟩

theorem lowerShift?_eq_none {n : Nat} {runs : List CaseRun}
    (h : ∀ run ∈ runs, ¬ run.Holds n) : lowerShift? n runs = none := by
  induction runs with
  | nil => rfl
  | cons run runs ih =>
    have hrun := h run List.mem_cons_self
    obtain ⟨first, last, step, d⟩ := run
    rw [lowerShift?, if_neg, ih fun run hrun => h run (List.mem_cons_of_mem _ hrun)]
    simp only [Bool.and_eq_true, decide_eq_true_eq, and_assoc]
    exact hrun

/-- A target that a run misses does not belong to it. -/
theorem CaseRun.not_holds_of_misses {other : CaseRun} {n low high : Nat} {alike : Bool}
    (hmiss : other.misses alike low high = true) (hlow : low ≤ n) (hhigh : n ≤ high)
    (halike : alike = true → n % 2 = low % 2) : ¬ other.Holds n := by
  rintro ⟨h1, h2, h3⟩
  simp only [misses, Bool.or_eq_true, Bool.and_eq_true, Nat.blt_eq, Nat.beq_eq] at hmiss
  rcases hmiss with h | h | ⟨hstep, halk, hodd⟩
  · omega
  · omega
  · have := halike halk
    rw [hstep] at h3
    omega

/-- What a run does to a code point that belongs to it. -/
theorem CaseRun.target_spec {run : CaseRun} (hrun : run ∈ lowerRuns) {n : Nat}
    (h : run.Holds n) :
    (run.target n).isValidChar ∧ run.target n ≠ 304 ∧
      lowerShift? (run.target n) lowerRuns = none := by
  have hset := isSettled_of_mem hrun
  obtain ⟨h1, h2, h3⟩ := h
  simp only [isSettled, target, Bool.and_eq_true, Bool.or_eq_true, decide_eq_true_eq,
    Nat.blt_eq] at hset
  obtain ⟨⟨⟨⟨hstep, hpos⟩, hvalid⟩, hdot⟩, hmiss⟩ := hset
  have hlow : Int.toNat (run.1 + run.2.2.2) ≤ run.target n := by
    rw [target]
    omega
  have hhigh : run.target n ≤ Int.toNat (run.2.1 + run.2.2.2) := by
    rw [target]
    omega
  refine ⟨?_, by omega, ?_⟩
  · show run.target n < 0xD800 ∨ 0xDFFF < run.target n ∧ run.target n < 0x110000
    omega
  · refine lowerShift?_eq_none fun other hother => ?_
    refine not_holds_of_misses (List.all_eq_true.mp hmiss other hother) hlow hhigh fun halike => ?_
    simp only [Bool.or_eq_true, decide_eq_true_eq] at halike
    rw [target]
    rcases halike with htwo | hone
    · rw [htwo] at h3
      omega
    · have hn : n = run.1 := by omega
      rw [hn]

/-- A character without another lower-case form, in whatever surroundings. -/
def IsLower (c : Char) : Prop :=
  lowerShift? c.toNat lowerRuns = none ∧ c ≠ 'Σ' ∧ c ≠ 'İ'

theorem lowerShift?_ascii {n : Nat} (h : n < 128) :
    lowerShift? n lowerRuns = if 65 ≤ n ∧ n ≤ 90 then some 32 else none := by
  have hrest : lowerRuns.tail.all (fun run => Nat.ble 128 run.1) = true := by decide +kernel
  have hnone : lowerShift? n lowerRuns.tail = none := by
    refine lowerShift?_eq_none fun run hrun hholds => ?_
    have hfirst := Nat.le_of_ble_eq_true (List.all_eq_true.mp hrest run hrun)
    have := hholds.1
    omega
  have hhead : lowerRuns = (65, 90, 1, 32) :: lowerRuns.tail := rfl
  rw [hhead, lowerShift?, hnone]
  simp [Nat.mod_one]

theorem lowerChar_eq (c : Char) :
    lowerChar c = match lowerShift? c.toNat lowerRuns with
      | some shift => Char.ofNat (Int.toNat (c.toNat + shift))
      | none => c := by
  rw [lowerChar]
  split
  · rename_i hascii
    rw [lowerShift?_ascii hascii]
    by_cases h : 65 ≤ c.toNat ∧ c.toNat ≤ 90
    · have hAZ : ('A' ≤ c && c ≤ 'Z') = true := by
        simp only [Bool.and_eq_true, decide_eq_true_eq]
        exact h
      rw [if_pos h, if_pos hAZ]
      rfl
    · have hAZ : ¬ ('A' ≤ c && c ≤ 'Z') = true := by
        simp only [Bool.and_eq_true, decide_eq_true_eq]
        exact h
      rw [if_neg h, if_neg hAZ]
  · rfl

theorem IsLower.lowerChar {c : Char} (h : IsLower c) : Text.lowerChar c = c := by
  rw [lowerChar_eq, h.1]

/-- A character is its own lower-case form, or belongs to a run that leads there. -/
theorem lowerChar_cases (c : Char) :
    (lowerChar c = c ∧ lowerShift? c.toNat lowerRuns = none) ∨
      ∃ run : CaseRun, run ∈ lowerRuns ∧ run.Holds c.toNat ∧
        (lowerChar c).toNat = run.target c.toNat := by
  cases hshift : lowerShift? c.toNat lowerRuns with
  | none =>
    rw [lowerChar_eq, hshift]
    exact .inl ⟨rfl, rfl⟩
  | some shift =>
    obtain ⟨run, hrun, hholds, rfl⟩ := exists_of_lowerShift?_eq_some hshift
    refine .inr ⟨run, hrun, hholds, ?_⟩
    rw [lowerChar_eq, hshift]
    show (Char.ofNat (run.target c.toNat)).toNat = _
    rw [Char.ofNat, dif_pos (CaseRun.target_spec hrun hholds).1]
    rfl

theorem isLower_lowerChar {c : Char} (hsigma : c ≠ 'Σ') (hdot : c ≠ 'İ') :
    IsLower (lowerChar c) := by
  rcases lowerChar_cases c with ⟨hsame, hnone⟩ | ⟨run, hrun, hholds, htarget⟩
  · rw [hsame]
    exact ⟨hnone, hsigma, hdot⟩
  · obtain ⟨-, hne, hnone⟩ := CaseRun.target_spec hrun hholds
    refine ⟨htarget.symm ▸ hnone, fun h => ?_, fun h => ?_⟩
    · have h931 : run.target c.toNat = 931 := htarget.symm.trans (congrArg Char.toNat h)
      rw [h931] at hnone
      exact absurd hnone (by decide +kernel)
    · exact hne (htarget.symm.trans (congrArg Char.toNat h))

theorem isLower_of_mem_lowerFrom {before s : List Char} {c : Char} (h : c ∈ lowerFrom before s) :
    IsLower c := by
  induction s generalizing before with
  | nil => simp [lowerFrom] at h
  | cons d rest ih =>
    rw [lowerFrom] at h
    rcases List.mem_append.mp h with h | h
    -- a sigma, a capital with a dot, or any other character
    · split at h
      · split at h <;> rw [List.mem_singleton.mp h] <;>
          exact ⟨by decide +kernel, by decide, by decide⟩
      · rename_i hsigma
        split at h
        · rcases List.mem_cons.mp h with rfl | h
          · exact ⟨by decide +kernel, by decide, by decide⟩
          · rw [List.mem_singleton.mp h]
            exact ⟨by decide +kernel, by decide, by decide⟩
        · rename_i hdot
          rw [List.mem_singleton.mp h]
          exact isLower_lowerChar hsigma hdot
    · exact ih h

theorem lowerFrom_of_isLower {before s : List Char} (h : ∀ c ∈ s, IsLower c) :
    lowerFrom before s = s := by
  induction s generalizing before with
  | nil => rfl
  | cons c rest ih =>
    have hc := h c List.mem_cons_self
    rw [lowerFrom, if_neg hc.2.1, if_neg hc.2.2, hc.lowerChar,
      ih fun d hd => h d (List.mem_cons_of_mem _ hd)]
    rfl

theorem lower_lower (s : List Char) : lower (lower s) = lower s :=
  lowerFrom_of_isLower fun _ => isLower_of_mem_lowerFrom

@[simp] theorem lowered_lowered (s : String) : lowered (lowered s) = lowered s := by
  simp [lowered, lower_lower]

/-! ### Lower case of the parts of a text -/

/-- The lower-case form of a character on its own. -/
def lowerAlone (c : Char) : List Char :=
  if c = 'İ' then ['i', '\u0307'] else [lowerChar c]

/-- Only a capital sigma looks at its surroundings. -/
theorem lowerFrom_append_of_not_mem {s : List Char} (h : 'Σ' ∉ s) (before t : List Char) :
    lowerFrom before (s ++ t) = s.flatMap lowerAlone ++ lowerFrom (s.reverse ++ before) t := by
  induction s generalizing before with
  | nil => rfl
  | cons c s ih =>
    rw [List.mem_cons, not_or] at h
    rw [List.cons_append, lowerFrom, if_neg (Ne.symm h.1), ih h.2, List.flatMap_cons,
      List.reverse_cons, List.append_assoc, List.append_assoc]
    rfl

theorem lowerFrom_of_not_mem {s : List Char} (h : 'Σ' ∉ s) (before : List Char) :
    lowerFrom before s = s.flatMap lowerAlone := by
  have happend := lowerFrom_append_of_not_mem h before []
  rwa [List.append_nil, lowerFrom, List.append_nil] at happend

/-- The end of a text is put in lower case as it stands behind the rest. -/
theorem exists_lowerFrom_append (before s t : List Char) :
    ∃ front, lowerFrom before (s ++ t) = front ++ lowerFrom (s.reverse ++ before) t := by
  induction s generalizing before with
  | nil => exact ⟨[], rfl⟩
  | cons c s ih =>
    obtain ⟨front, hfront⟩ := ih (c :: before)
    rw [List.cons_append, lowerFrom, hfront, List.reverse_cons, List.append_assoc s.reverse]
    exact ⟨_, (List.append_assoc ..).symm⟩

/-- A capital sigma leaves a small one in the lower-case form. -/
theorem not_mem_of_lowerFrom {before s : List Char}
    (h : 'σ' ∉ lowerFrom before s ∧ 'ς' ∉ lowerFrom before s) : 'Σ' ∉ s := by
  intro hmem
  obtain ⟨front, rest, rfl⟩ := List.append_of_mem hmem
  obtain ⟨front', hfront⟩ := exists_lowerFrom_append before front ('Σ' :: rest)
  rw [hfront, lowerFrom, if_pos rfl] at h
  split at h
  · exact h.2 (List.mem_append_right _ List.mem_cons_self)
  · exact h.1 (List.mem_append_right _ List.mem_cons_self)

/-- No run leads to a code point below the small letters. -/
theorem CaseRun.le_target_of_mem {run : CaseRun} (hrun : run ∈ lowerRuns) {n : Nat}
    (h : run.Holds n) : 97 ≤ run.target n := by
  have hall : lowerRuns.all (fun run => Nat.ble 97 (CaseRun.target run run.1)) = true := by
    decide +kernel
  have hfirst := Nat.le_of_ble_eq_true (List.all_eq_true.mp hall run hrun)
  have hle := h.1
  rw [CaseRun.target] at hfirst ⊢
  omega

/-- What lies below the small letters is its own lower-case form, and that of nothing else. -/
theorem eq_of_lowerChar_lt {c : Char} (h : (lowerChar c).toNat < 97) : lowerChar c = c := by
  rcases lowerChar_cases c with ⟨hsame, -⟩ | ⟨run, hrun, hholds, htarget⟩
  · exact hsame
  · have hlow := CaseRun.le_target_of_mem hrun hholds
    omega

theorem mem_of_mem_lowerFrom {mark : Char} (hmark : mark.toNat < 97) {before s : List Char}
    (h : mark ∈ lowerFrom before s) : mark ∈ s := by
  have hne : ∀ d : Char, 97 ≤ d.toNat → mark ≠ d := by
    rintro d hd rfl
    omega
  induction s generalizing before with
  | nil => exact absurd h List.not_mem_nil
  | cons c s ih =>
    rw [lowerFrom] at h
    rcases List.mem_append.mp h with h | h
    · split at h
      · split at h <;> exact absurd (List.mem_singleton.mp h) (hne _ (by decide))
      · split at h
        · rcases List.mem_cons.mp h with h | h
          · exact absurd h (hne _ (by decide))
          · exact absurd (List.mem_singleton.mp h) (hne _ (by decide))
        · have hlower := List.mem_singleton.mp h
          rw [hlower, eq_of_lowerChar_lt (hlower ▸ hmark)]
          exact List.mem_cons_self
    · exact List.mem_cons_of_mem _ (ih h)

end ScriptTypings.Text
