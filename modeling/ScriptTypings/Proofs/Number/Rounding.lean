import Mathlib.Algebra.Order.Field.Power
import Mathlib.Data.Rat.Cast.Order
import Mathlib.Tactic.FieldSimp
import Mathlib.Tactic.Linarith
import Mathlib.Tactic.Ring
import ScriptTypings.Number.Binary64

/-!
# Rounding to double precision

The exponent of a rounded fraction is the only one at which its mantissa has 53 binary digits, or
the least one. `ofRatio_eq` says which fractions are rounded to a given number: those nearer to it
than to its neighbours, and those halfway if its mantissa is even.
-/

namespace ScriptTypings.Number

/-- The number that numerator and denominator stand for. -/
def valueOf (fraction : Nat × Nat) : ℚ :=
  fraction.1 / fraction.2

theorem roundDiv_eq {num den m : Nat} (hden : 0 < den) (hlow : 2 * m * den ≤ 2 * num + den)
    (hhigh : 2 * num ≤ 2 * m * den + den)
    (htie : m % 2 = 0 ∨ 2 * m * den < 2 * num + den ∧ 2 * num < 2 * m * den + den) :
    roundDiv num den = m := by
  have hsplit := Nat.div_add_mod num den
  have hrest := Nat.mod_lt num hden
  rw [roundDiv]
  generalize num / den = q at *
  generalize num % den = r at *
  subst hsplit
  -- the quotient is the mantissa, or one less
  obtain hless | rfl | hmore : m < q ∨ m = q ∨ q < m := by omega
  · obtain ⟨k, rfl⟩ := Nat.exists_eq_add_of_lt hless
    exfalso
    nlinarith
  · have hhalf : 2 * r ≤ den := by nlinarith
    rw [if_neg]
    simp only [Bool.or_eq_true, Bool.and_eq_true, decide_eq_true_eq, not_or, not_and]
    refine ⟨by omega, fun heq hodd => ?_⟩
    rcases htie with heven | ⟨-, hstrict⟩
    · omega
    · nlinarith
  · obtain ⟨k, rfl⟩ := Nat.exists_eq_add_of_lt hmore
    obtain rfl : k = 0 := by
      by_contra hk
      have hpos : 1 ≤ k := by omega
      nlinarith
    have hhalf : den ≤ 2 * r := by nlinarith
    rw [if_pos]
    simp only [Bool.or_eq_true, Bool.and_eq_true, decide_eq_true_eq]
    rcases htie with heven | ⟨hstrict, -⟩
    · by_cases heq : 2 * r = den
      · exact .inr ⟨heq, by omega⟩
      · exact .inl (by omega)
    · exact .inl (by nlinarith)

/-- The nearest whole number is the only one at a distance of less than a half, and the even one of
two. -/
theorem roundDiv_eq_of_valueOf {fraction : Nat × Nat} {m : Nat} (hden : 0 < fraction.2)
    (hlow : (m : ℚ) - 1 / 2 ≤ valueOf fraction) (hhigh : valueOf fraction ≤ m + 1 / 2)
    (htie : m % 2 = 0 ∨ (m : ℚ) - 1 / 2 < valueOf fraction ∧ valueOf fraction < m + 1 / 2) :
    roundDiv fraction.1 fraction.2 = m := by
  obtain ⟨num, den⟩ := fraction
  have hpos : (0 : ℚ) < den := by exact_mod_cast hden
  simp only [valueOf] at *
  have hscale : (num : ℚ) / den * den = num := div_mul_cancel₀ _ hpos.ne'
  have hlow' : (2 * m * den : ℚ) ≤ 2 * num + den := by nlinarith
  have hhigh' : (2 * num : ℚ) ≤ 2 * m * den + den := by nlinarith
  refine roundDiv_eq hden (by exact_mod_cast hlow') (by exact_mod_cast hhigh') ?_
  refine htie.imp_right fun ⟨hlow, hhigh⟩ => ?_
  have hlow' : (2 * m * den : ℚ) < 2 * num + den := by nlinarith
  have hhigh' : (2 * num : ℚ) < 2 * m * den + den := by nlinarith
  exact ⟨by exact_mod_cast hlow', by exact_mod_cast hhigh'⟩

namespace Binary64

theorem powerOfTwo_pos (n : Nat) : 0 < powerOfTwo n :=
  Nat.pow_pos (by decide)

theorem cast_powerOfTwo (n : Nat) : (powerOfTwo n : ℚ) = 2 ^ n := by
  rw [powerOfTwo]
  exact_mod_cast Nat.cast_pow 2 n

variable {num den : Nat} {exponent : Int}

theorem scaleDown_pos (num : Nat) (hden : 0 < den) (exponent : Int) :
    0 < (scaleDown num den exponent).2 := by
  rw [scaleDown]
  split
  · exact hden
  · exact Nat.mul_pos hden (powerOfTwo_pos _)

theorem valueOf_scaleDown (num den : Nat) (exponent : Int) :
    valueOf (scaleDown num den exponent) = (num / den : ℚ) / 2 ^ exponent := by
  rw [scaleDown]
  split
  · rename_i hneg
    obtain ⟨n, hn⟩ : ∃ n : Nat, exponent = -(n : Int) := ⟨exponent.natAbs, by omega⟩
    subst hn
    rw [valueOf, Int.natAbs_neg, Int.natAbs_natCast, zpow_neg, zpow_natCast]
    push_cast
    rw [cast_powerOfTwo]
    field_simp
  · rename_i hneg
    obtain ⟨n, hn⟩ : ∃ n : Nat, exponent = (n : Int) := ⟨exponent.natAbs, by omega⟩
    subst hn
    rw [valueOf, Int.natAbs_natCast, zpow_natCast]
    push_cast
    rw [cast_powerOfTwo, div_div]

/-- A fraction has this exponent: 53 binary digits stand before the point, or fewer if the exponent
is the least. -/
structure HasExponent (v : ℚ) (exponent : Int) : Prop where
  least : leastExponent ≤ exponent
  below : v < 2 ^ (53 + exponent)
  above : exponent = leastExponent ∨ 2 ^ (52 + exponent) ≤ v

theorem HasExponent.unique {v : ℚ} {e e' : Int} (h : HasExponent v e) (h' : HasExponent v e') :
    e = e' := by
  have hle : ∀ {a b : Int}, HasExponent v a → HasExponent v b → b ≤ a := by
    intro a b ha hb
    rcases hb.above with hleast | habove
    · rw [hleast]
      exact ha.least
    · have hlt : (2 : ℚ) ^ (52 + b) < 2 ^ (53 + a) := habove.trans_lt ha.below
      have hexp := (zpow_lt_zpow_iff_right₀ (by norm_num : (1 : ℚ) < 2)).mp hlt
      omega
  exact Int.le_antisymm (hle h' h) (hle h h')

theorem hasExponent_exponentOf (hnum : 0 < num) (hden : 0 < den) :
    HasExponent (num / den : ℚ) (exponentOf num den) := by
  have hpos : (0 : ℚ) < den := by exact_mod_cast hden
  have htwo : (1 : ℚ) < 2 := by norm_num
  have hnumlow : (2 : ℚ) ^ num.log2 ≤ num := by exact_mod_cast Nat.log2_self_le hnum.ne'
  have hnumhigh : (num : ℚ) < 2 ^ (num.log2 + 1) := by exact_mod_cast Nat.lt_log2_self
  have hdenlow : (2 : ℚ) ^ den.log2 ≤ den := by exact_mod_cast Nat.log2_self_le hden.ne'
  have hdenhigh : (den : ℚ) < 2 ^ (den.log2 + 1) := by exact_mod_cast Nat.lt_log2_self
  have hlow : (2 : ℚ) ^ ((num.log2 : Int) - den.log2 - 1) ≤ num / den := by
    rw [le_div_iff₀ hpos]
    calc (2 : ℚ) ^ ((num.log2 : Int) - den.log2 - 1) * den
        ≤ 2 ^ ((num.log2 : Int) - den.log2 - 1) * 2 ^ (den.log2 + 1) := by gcongr
      _ = 2 ^ num.log2 := by
        rw [← zpow_natCast, ← zpow_natCast, ← zpow_add₀ (by norm_num)]
        congr 1
        push_cast
        ring
      _ ≤ num := hnumlow
  have hhigh : (num / den : ℚ) < 2 ^ ((num.log2 : Int) - den.log2 + 1) := by
    rw [div_lt_iff₀ hpos]
    calc (num : ℚ) < 2 ^ (num.log2 + 1) := hnumhigh
      _ = 2 ^ ((num.log2 : Int) - den.log2 + 1) * 2 ^ den.log2 := by
        rw [← zpow_natCast, ← zpow_natCast, ← zpow_add₀ (by norm_num)]
        congr 1
        push_cast
        ring
      _ ≤ 2 ^ ((num.log2 : Int) - den.log2 + 1) * den := by gcongr
  rw [exponentOf]
  generalize hguess : max leastExponent ((num.log2 : Int) - den.log2 - 53) = guess
  have hscaled := valueOf_scaleDown num den guess
  have hdenpos := scaleDown_pos num hden guess
  generalize scaleDown num den guess = s at *
  have hquotient : powerOfTwo 53 ≤ s.1 / s.2 ↔ (2 : ℚ) ^ (53 + guess) ≤ num / den := by
    rw [Nat.le_div_iff_mul_le hdenpos, zpow_add₀ (by norm_num), ← le_div_iff₀ (by positivity),
      ← hscaled, valueOf, le_div_iff₀ (by exact_mod_cast hdenpos)]
    norm_cast
  split
  · rename_i hlarge
    refine ⟨by omega, ?_, .inr ?_⟩
    · refine hhigh.trans_le (zpow_le_zpow_right₀ htwo.le ?_)
      omega
    · have habove := hquotient.mp hlarge
      rwa [show 52 + (guess + 1) = 53 + guess by ring]
  · rename_i hsmall
    refine ⟨by omega, ?_, ?_⟩
    · rw [hquotient, not_le] at hsmall
      exact hsmall
    · by_cases hleast : guess = leastExponent
      · exact .inl hleast
      · refine .inr ?_
        rwa [show 52 + guess = (num.log2 : Int) - den.log2 - 1 by omega]

theorem exponentOf_eq (hnum : 0 < num) (hden : 0 < den)
    (h : HasExponent (num / den : ℚ) exponent) : exponentOf num den = exponent :=
  (hasExponent_exponentOf hnum hden).unique h

/-- Scaled to its exponent, a fraction has a whole part of 53 binary digits, or fewer if the
exponent is the least. -/
theorem quotient_scaleDown (hden : 0 < den) (h : HasExponent (num / den : ℚ) exponent) :
    (scaleDown num den exponent).1 / (scaleDown num den exponent).2 < 2 ^ 53 ∧
      (exponent = leastExponent ∨
        2 ^ 52 ≤ (scaleDown num den exponent).1 / (scaleDown num den exponent).2) := by
  have hscaled := valueOf_scaleDown num den exponent
  have hpos := scaleDown_pos num hden exponent
  generalize scaleDown num den exponent = s at *
  have hpos' : (0 : ℚ) < s.2 := by exact_mod_cast hpos
  have hpower : (0 : ℚ) < 2 ^ exponent := by positivity
  have hbelow := h.below
  rw [zpow_add₀ (by norm_num), ← div_lt_iff₀ hpower, ← hscaled, valueOf, div_lt_iff₀ hpos']
    at hbelow
  refine ⟨(Nat.div_lt_iff_lt_mul hpos).mpr (by exact_mod_cast hbelow), h.above.imp_right ?_⟩
  intro habove
  rw [zpow_add₀ (by norm_num), ← le_div_iff₀ hpower, ← hscaled, valueOf, le_div_iff₀ hpos']
    at habove
  exact (Nat.le_div_iff_mul_le hpos).mpr (by exact_mod_cast habove)

/-! ### Canonical numbers -/

/-- Whether a number has the form in which rounding gives it: the mantissa has 53 binary digits, or
fewer if the exponent is the least. -/
def isCanonical : Binary64 → Bool
  | finite _ mantissa exponent =>
    mantissa < 2 ^ 53 && leastExponent ≤ exponent && exponent ≤ greatestExponent &&
      (exponent = leastExponent || 2 ^ 52 ≤ mantissa)
  | _ => true

theorem isCanonical_finite {negative : Bool} {mantissa : Nat} {exponent : Int} :
    (finite negative mantissa exponent).isCanonical = true ↔
      mantissa < 2 ^ 53 ∧ leastExponent ≤ exponent ∧ exponent ≤ greatestExponent ∧
        (exponent = leastExponent ∨ 2 ^ 52 ≤ mantissa) := by
  simp only [isCanonical, Bool.and_eq_true, Bool.or_eq_true, decide_eq_true_eq, and_assoc]

theorem isCanonical_ofRatio (negative : Bool) (num : Nat) (hden : 0 < den) :
    (ofRatio negative num den).isCanonical = true := by
  rw [ofRatio]
  by_cases hzero : num = 0
  · rw [if_pos hzero]
    rfl
  · rw [if_neg hzero]
    have hexponent := hasExponent_exponentOf (Nat.pos_of_ne_zero hzero) hden
    obtain ⟨hbelow, habove⟩ := quotient_scaleDown hden hexponent
    have hleast := hexponent.least
    dsimp only
    generalize exponentOf num den = e at *
    generalize scaleDown num den e = s at *
    have hfloor := le_roundDiv s.1 s.2
    have hceil := roundDiv_le s.1 s.2
    generalize roundDiv s.1 s.2 = m at *
    have hcarry : powerOfTwo 53 = 2 ^ 53 := rfl
    by_cases hfull : m = powerOfTwo 53
    · rw [if_pos hfull]
      dsimp only
      split
      · rfl
      · refine isCanonical_finite.mpr ⟨by decide, by omega, by omega, .inr (by decide)⟩
    · rw [if_neg hfull]
      dsimp only
      split
      · rfl
      · refine isCanonical_finite.mpr ⟨by omega, hleast, by omega, habove.imp_right ?_⟩
        intro habove
        omega

/-- The powers that are answered without computing them are answered canonically. -/
theorem isCanonical_ofDecimal (negative : Bool) (digits : Nat) (power : Int) :
    (ofDecimal negative digits power).isCanonical = true := by
  rw [ofDecimal]
  split
  · rfl
  split
  · rfl
  split
  · rfl
  split
  · exact isCanonical_ofRatio negative digits (Nat.pow_pos (by decide))
  · exact isCanonical_ofRatio negative _ Nat.one_pos

/-! ### Numbers that are rounded to -/

/-- The fractions that are rounded to a number, in units of the last place: they are nearer to it
than to both neighbours, or halfway where the mantissa is even. Below a power of two the neighbour
is half as far away. -/
structure RoundsTo (v : ℚ) (mantissa : Nat) (exponent : Int) : Prop where
  low : (mantissa : ℚ) - 1 / 2 ≤ v
  high : v ≤ mantissa + 1 / 2
  tie : mantissa % 2 = 0 ∨ (mantissa : ℚ) - 1 / 2 < v ∧ v < mantissa + 1 / 2
  power : mantissa = 2 ^ 52 → leastExponent < exponent → (mantissa : ℚ) - 1 / 4 ≤ v

theorem ofRatio_eq {negative : Bool} {mantissa : Nat} (hnum : 0 < num) (hden : 0 < den)
    (hcanonical : (finite negative mantissa exponent).isCanonical = true)
    (h : RoundsTo ((num / den : ℚ) / 2 ^ exponent) mantissa exponent) :
    ofRatio negative num den = finite negative mantissa exponent := by
  obtain ⟨hbound, hleast, hgreatest, hnormal⟩ := isCanonical_finite.mp hcanonical
  have hbound' : (mantissa : ℚ) + 1 ≤ 2 ^ 53 := by exact_mod_cast hbound
  have hpower : (0 : ℚ) < 2 ^ exponent := by positivity
  have hne : ¬ num = 0 := hnum.ne'
  have hcarry : powerOfTwo 53 = 2 ^ 53 := rfl
  by_cases hlow : exponent = leastExponent ∨ (2 : ℚ) ^ 52 ≤ (num / den : ℚ) / 2 ^ exponent
  · -- the fraction has the exponent of the number
    have hexponent : HasExponent (num / den : ℚ) exponent := by
      refine ⟨hleast, ?_, hlow.imp_right fun hlow => ?_⟩
      · rw [zpow_add₀ (by norm_num), ← div_lt_iff₀ hpower]
        have hhigh := h.high
        norm_num at hbound' ⊢
        linarith
      · rw [zpow_add₀ (by norm_num), ← le_div_iff₀ hpower]
        exact_mod_cast hlow
    have hround : roundDiv (scaleDown num den exponent).1 (scaleDown num den exponent).2 =
        mantissa := by
      have hscaled := valueOf_scaleDown num den exponent
      refine roundDiv_eq_of_valueOf (scaleDown_pos num hden exponent) ?_ ?_ ?_
      · rw [hscaled]
        exact h.low
      · rw [hscaled]
        exact h.high
      · rw [hscaled]
        exact h.tie
    rw [ofRatio, if_neg hne, exponentOf_eq hnum hden hexponent]
    dsimp only
    have hshort : ¬ mantissa = powerOfTwo 53 := by omega
    rw [hround, if_neg hshort, if_neg (by omega)]
  · -- the fraction is just below a power of two, and rounding carries into the next digit
    obtain ⟨hother, hbelow⟩ := not_or.mp hlow
    rw [not_le] at hbelow
    have hlarge : 2 ^ 52 ≤ mantissa := hnormal.resolve_left hother
    have hmantissa : mantissa = 2 ^ 52 := by
      by_contra hne
      have hmore : (2 : ℚ) ^ 52 + 1 ≤ mantissa := by
        exact_mod_cast (by omega : 2 ^ 52 + 1 ≤ mantissa)
      have hlow := h.low
      linarith
    have hquarter := h.power hmantissa (by omega)
    rw [hmantissa] at hquarter
    push_cast at hquarter
    have hhalf : (num / den : ℚ) / 2 ^ (exponent - 1) = (num / den : ℚ) / 2 ^ exponent * 2 := by
      rw [zpow_sub_one₀ (by norm_num)]
      field_simp
    have hpower' : (0 : ℚ) < 2 ^ (exponent - 1) := by positivity
    have hexponent : HasExponent (num / den : ℚ) (exponent - 1) := by
      refine ⟨by omega, ?_, .inr ?_⟩
      · rw [zpow_add₀ (by norm_num), ← div_lt_iff₀ hpower', hhalf]
        norm_num at hbelow ⊢
        linarith
      · rw [zpow_add₀ (by norm_num), ← le_div_iff₀ hpower', hhalf]
        norm_num at hquarter ⊢
        linarith
    have hround : roundDiv (scaleDown num den (exponent - 1)).1
        (scaleDown num den (exponent - 1)).2 = 2 ^ 53 := by
      have hscaled := valueOf_scaleDown num den (exponent - 1)
      rw [hhalf] at hscaled
      refine roundDiv_eq_of_valueOf (scaleDown_pos num hden (exponent - 1)) ?_ ?_ (.inl rfl)
      · rw [hscaled]
        push_cast
        linarith
      · rw [hscaled]
        push_cast
        linarith
    rw [ofRatio, if_neg hne, exponentOf_eq hnum hden hexponent]
    dsimp only
    rw [hround, if_pos hcarry.symm, sub_add_cancel, if_neg (by omega), hmantissa]
    rfl

end Binary64

end ScriptTypings.Number
