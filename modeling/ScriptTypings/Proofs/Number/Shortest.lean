import Mathlib.Data.Nat.Cast.Order.Field
import ScriptTypings.Number.Shortest
import ScriptTypings.Proofs.Number.Rounding

/-!
# Shortest digits are rounded back

The search for digits ends with some that lie in the interval of a number, at the latest with 18 of
them. `ofDecimal_shortest` says that they are rounded to this number, however they are written.
-/

namespace ScriptTypings.Number

/-! ### Counting digits -/

theorem digitCount_of_lt {n : Nat} (h : n < 10) : digitCount n = 1 := by
  rw [digitCount, Nat.toDigits_of_lt_base h]
  rfl

theorem digitCount_of_le {n : Nat} (h : 10 ≤ n) : digitCount n = digitCount (n / 10) + 1 := by
  rw [digitCount, Nat.toDigits_of_base_le (by decide) h, List.length_append]
  rfl

theorem lt_pow_digitCount (n : Nat) : n < 10 ^ digitCount n := by
  induction n using Nat.strongRecOn with
  | ind n ih =>
    by_cases hn : n < 10
    · rw [digitCount_of_lt hn]
      omega
    · have hrest := ih (n / 10) (by omega)
      rw [digitCount_of_le (by omega), Nat.pow_succ]
      omega

theorem pow_digitCount_le {n : Nat} (h : n ≠ 0) : 10 ^ (digitCount n - 1) ≤ n := by
  induction n using Nat.strongRecOn with
  | ind n ih =>
    by_cases hn : n < 10
    · rw [digitCount_of_lt hn]
      omega
    · have hrest := ih (n / 10) (by omega) (by omega)
      have hpos : digitCount (n / 10) ≠ 0 := by
        intro hzero
        have hbelow := lt_pow_digitCount (n / 10)
        rw [hzero] at hbelow
        omega
      obtain ⟨k, hk⟩ := Nat.exists_eq_succ_of_ne_zero hpos
      rw [hk, Nat.succ_sub_one] at hrest
      rw [digitCount_of_le (by omega), hk, Nat.succ_eq_add_one, Nat.add_sub_cancel, Nat.pow_succ]
      omega

theorem digitCount_pos (n : Nat) : 0 < digitCount n :=
  List.length_pos_iff.mpr Nat.toDigits_ne_nil

/-! ### Fractions -/

open Binary64

theorem cast_powerOfTen (n : Nat) : (powerOfTen n : ℚ) = 10 ^ n := by
  rw [powerOfTen]
  exact_mod_cast Nat.cast_pow 10 n

theorem powerOfTen_pos (n : Nat) : 0 < powerOfTen n :=
  Nat.pow_pos (by decide)

theorem ratio_pos (mantissa : Nat) (exponent : Int) : 0 < (ratio mantissa exponent).2 := by
  rw [ratio]
  split
  · exact powerOfTwo_pos _
  · exact Nat.one_pos

theorem valueOf_ratio (mantissa : Nat) (exponent : Int) :
    valueOf (ratio mantissa exponent) = mantissa * 2 ^ exponent := by
  rw [ratio]
  split
  · obtain ⟨n, rfl⟩ : ∃ n : Nat, exponent = -(n : Int) := ⟨exponent.natAbs, by omega⟩
    rw [valueOf, Int.natAbs_neg, Int.natAbs_natCast, zpow_neg, zpow_natCast, cast_powerOfTwo]
    rfl
  · obtain ⟨n, rfl⟩ : ∃ n : Nat, exponent = (n : Int) := ⟨exponent.natAbs, by omega⟩
    rw [valueOf, Int.natAbs_natCast, zpow_natCast]
    push_cast
    rw [cast_powerOfTwo, div_one]

theorem decimalRatio_pos (count : Nat) (power : Int) : 0 < (decimalRatio count power).2 := by
  rw [decimalRatio]
  split
  · exact powerOfTen_pos _
  · exact Nat.one_pos

theorem valueOf_decimalRatio (count : Nat) (power : Int) :
    valueOf (decimalRatio count power) = count * 10 ^ power := by
  rw [decimalRatio]
  split
  · obtain ⟨n, rfl⟩ : ∃ n : Nat, power = -(n : Int) := ⟨power.natAbs, by omega⟩
    rw [valueOf, Int.natAbs_neg, Int.natAbs_natCast, zpow_neg, zpow_natCast, cast_powerOfTen]
    rfl
  · obtain ⟨n, rfl⟩ : ∃ n : Nat, power = (n : Int) := ⟨power.natAbs, by omega⟩
    rw [valueOf, Int.natAbs_natCast, zpow_natCast]
    push_cast
    rw [cast_powerOfTen, div_one]

theorem fractionBelow_iff {orEqual : Bool} {a b : Nat × Nat} (ha : 0 < a.2) (hb : 0 < b.2) :
    fractionBelow orEqual a b = true ↔
      valueOf a < valueOf b ∨ (orEqual = true ∧ valueOf a = valueOf b) := by
  have ha' : (0 : ℚ) < a.2 := by exact_mod_cast ha
  have hb' : (0 : ℚ) < b.2 := by exact_mod_cast hb
  rw [fractionBelow, valueOf, valueOf, div_lt_div_iff₀ ha' hb', div_eq_div_iff ha'.ne' hb'.ne']
  cases orEqual with
  | true =>
    rw [if_pos rfl, decide_eq_true_eq, Nat.le_iff_lt_or_eq]
    simp only [true_and]
    norm_cast
  | false =>
    rw [if_neg Bool.false_ne_true, decide_eq_true_eq]
    simp only [Bool.false_eq_true, false_and, or_false]
    norm_cast

/-- The units of a grid that stand below a fraction are the whole part. -/
theorem unitsBelow_spec (num : Nat) {den : Nat} (hden : 0 < den) (power : Int) :
    ((unitsBelow num den power).1 : ℚ) * 10 ^ power ≤ num / den ∧
      (num / den : ℚ) < ((unitsBelow num den power).1 + 1) * 10 ^ power := by
  have hfloor : ∀ a b : Nat, 0 < b →
      ((a / b : Nat) : ℚ) ≤ a / b ∧ (a / b : ℚ) < (a / b : Nat) + 1 := by
    intro a b hb
    have hb' : (0 : ℚ) < b := by exact_mod_cast hb
    refine ⟨Nat.cast_div_le, ?_⟩
    rw [div_lt_iff₀ hb']
    have hlt := Nat.lt_succ_self (a / b)
    rw [Nat.div_lt_iff_lt_mul hb] at hlt
    exact_mod_cast hlt
  have hden' : (0 : ℚ) < den := by exact_mod_cast hden
  rw [unitsBelow]
  dsimp only
  split
  · obtain ⟨n, rfl⟩ : ∃ n : Nat, power = -(n : Int) := ⟨power.natAbs, by omega⟩
    obtain ⟨hlow, hhigh⟩ := hfloor (num * powerOfTen n) den hden
    have hten : (0 : ℚ) < 10 ^ n := by positivity
    rw [Int.natAbs_neg, Int.natAbs_natCast, zpow_neg, zpow_natCast, ← div_eq_mul_inv,
      ← div_eq_mul_inv, div_le_iff₀ hten, lt_div_iff₀ hten]
    push_cast at hlow hhigh
    rw [cast_powerOfTen, mul_div_right_comm] at hlow hhigh
    exact ⟨hlow, hhigh⟩
  · obtain ⟨n, rfl⟩ : ∃ n : Nat, power = (n : Int) := ⟨power.natAbs, by omega⟩
    obtain ⟨hlow, hhigh⟩ := hfloor num (den * powerOfTen n) (Nat.mul_pos hden (powerOfTen_pos n))
    have hten : (0 : ℚ) < 10 ^ n := by positivity
    rw [Int.natAbs_natCast, zpow_natCast, ← le_div_iff₀ hten, ← div_lt_iff₀ hten, div_div]
    push_cast at hlow hhigh
    rw [cast_powerOfTen] at hlow hhigh
    exact ⟨hlow, hhigh⟩

/-- The power of ten is not above the fraction. -/
theorem tenPower_le {num den : Nat} (hnum : 0 < num) (hden : 0 < den) :
    (10 : ℚ) ^ tenPower num den ≤ num / den := by
  have hnum' : (0 : ℚ) < num := by exact_mod_cast hnum
  have hden' : (0 : ℚ) < den := by exact_mod_cast hden
  rw [tenPower]
  by_cases hle : den ≤ num
  · rw [if_pos hle]
    have hquotient : num / den ≠ 0 := (Nat.div_pos hle hden).ne'
    have hpower := pow_digitCount_le hquotient
    obtain ⟨k, hk⟩ := Nat.exists_eq_succ_of_ne_zero (digitCount_pos (num / den)).ne'
    rw [hk, Nat.succ_sub_one] at hpower
    rw [hk, Nat.cast_succ, add_sub_cancel_right, zpow_natCast]
    calc (10 : ℚ) ^ k ≤ (num / den : Nat) := by exact_mod_cast hpower
      _ ≤ num / den := Nat.cast_div_le
  · rw [if_neg hle]
    dsimp only
    have hquotient : den / num ≠ 0 := (Nat.div_pos (by omega) hnum).ne'
    have hbelow := lt_pow_digitCount (den / num)
    obtain ⟨k, hk⟩ := Nat.exists_eq_succ_of_ne_zero (digitCount_pos (den / num)).ne'
    rw [hk, Nat.div_lt_iff_lt_mul hnum] at hbelow
    rw [hk, Nat.succ_sub_one]
    by_cases hexact : num * powerOfTen k = den
    · rw [if_pos hexact, zpow_neg, zpow_natCast, le_div_iff₀ hden', ← hexact]
      push_cast
      rw [cast_powerOfTen]
      field_simp
      exact le_refl _
    · rw [if_neg hexact, zpow_neg, le_div_iff₀ hden', inv_mul_le_iff₀ (by positivity)]
      have hbelow' : (den : ℚ) < 10 ^ (k + 1) * num := by exact_mod_cast hbelow
      have hcast : (10 : ℚ) ^ ((k : Int) + 1) = 10 ^ (k + 1) := by exact_mod_cast rfl
      rw [hcast]
      exact hbelow'.le

/-! ### The search for digits -/

/-- All answers of the search are inside, if the last one is. -/
theorem inside_shortestFrom (num den : Nat) (inside : Nat × Nat → Bool) (top : Int)
    (fuel count : Nat)
    (hlast : inside (decimalRatio (unitsBelow num den (top - ((count + fuel : Nat) : Int))).1
      (top - ((count + fuel : Nat) : Int))) = true) :
    inside (decimalRatio (shortestFrom num den inside top fuel count).1
      (shortestFrom num den inside top fuel count).2) = true := by
  induction fuel generalizing count with
  | zero => exact hlast
  | succ fuel ih =>
    have hlast' : inside (decimalRatio
        (unitsBelow num den (top - ((count + 1 + fuel : Nat) : Int))).1
        (top - ((count + 1 + fuel : Nat) : Int))) = true := by
      rwa [show count + 1 + fuel = count + (fuel + 1) by omega]
    have hrest := ih (count + 1) hlast'
    rw [shortestFrom]
    dsimp only
    generalize unitsBelow num den (top - count) = units
    obtain ⟨low, half⟩ := units
    dsimp only
    split
    · rename_i hboth
      rw [Bool.and_eq_true] at hboth
      cases half with
      | lt => exact hboth.1
      | gt => exact hboth.2
      | eq =>
        dsimp only
        split
        · exact hboth.1
        · exact hboth.2
    split
    · assumption
    split
    · assumption
    · exact hrest

variable {mantissa : Nat} {exponent : Int}

/-- The fractions in the interval of a number are those that are rounded to it. -/
theorem roundsTo_of_inside (hpos : 0 < mantissa) {fraction : Nat × Nat} (hden : 0 < fraction.2)
    (hlow : fractionBelow (decide (mantissa % 2 = 0)) (roundingInterval mantissa exponent).1
      fraction = true)
    (hhigh : fractionBelow (decide (mantissa % 2 = 0)) fraction
      (roundingInterval mantissa exponent).2 = true) :
    RoundsTo (valueOf fraction / 2 ^ exponent) mantissa exponent := by
  have hpower : (0 : ℚ) < 2 ^ exponent := by positivity
  have hquarter : (2 : ℚ) ^ (exponent - 2) = 2 ^ exponent / 4 := by
    rw [zpow_sub₀ (by norm_num)]
    norm_num
  have hpos' : (1 : ℚ) ≤ mantissa := by exact_mod_cast hpos
  rw [roundingInterval] at hlow hhigh
  dsimp only at hlow hhigh
  rw [fractionBelow_iff (ratio_pos _ _) hden, valueOf_ratio, hquarter] at hlow
  rw [fractionBelow_iff hden (ratio_pos _ _), valueOf_ratio, hquarter] at hhigh
  -- in units of the last place, the ends of the interval are quarters
  obtain ⟨v, hv⟩ : ∃ v, valueOf fraction = v * 2 ^ exponent :=
    ⟨valueOf fraction / 2 ^ exponent, (div_mul_cancel₀ _ hpower.ne').symm⟩
  rw [hv] at hlow hhigh ⊢
  rw [mul_div_cancel_right₀ _ hpower.ne']
  have hhalf : ∀ n : Nat, (n : ℚ) * (2 ^ exponent / 4) = n / 4 * 2 ^ exponent := fun n => by ring
  rw [hhalf, mul_lt_mul_iff_left₀ hpower, mul_left_inj' hpower.ne', decide_eq_true_eq]
    at hlow hhigh
  have hend : ((4 * mantissa + 2 : Nat) : ℚ) / 4 = mantissa + 1 / 2 := by
    push_cast
    ring
  rw [hend] at hhigh
  have hhigh' : v ≤ mantissa + 1 / 2 := by
    rcases hhigh with hlt | ⟨-, heq⟩
    · exact hlt.le
    · exact heq.le
  split at hlow
  · rename_i hboundary
    rw [Bool.and_eq_true, decide_eq_true_eq, decide_eq_true_eq] at hboundary
    have hbegin : ((4 * mantissa - 1 : Nat) : ℚ) / 4 = mantissa - 1 / 4 := by
      rw [Nat.cast_sub (by omega)]
      push_cast
      ring
    rw [hbegin] at hlow
    have hlow' : (mantissa : ℚ) - 1 / 4 ≤ v := by
      rcases hlow with hlt | ⟨-, heq⟩
      · exact hlt.le
      · exact heq.le
    exact ⟨by linarith, hhigh', .inl (by rw [hboundary.1]; rfl), fun _ _ => hlow'⟩
  · rename_i hother
    rw [Bool.and_eq_true, decide_eq_true_eq, decide_eq_true_eq] at hother
    have hbegin : ((4 * mantissa - 2 : Nat) : ℚ) / 4 = mantissa - 1 / 2 := by
      rw [Nat.cast_sub (by omega)]
      push_cast
      ring
    rw [hbegin] at hlow
    refine ⟨?_, hhigh', ?_, fun hmantissa hleast => absurd ⟨hmantissa, hleast⟩ hother⟩
    · rcases hlow with hlt | ⟨-, heq⟩
      · exact hlt.le
      · exact heq.le
    · rcases hlow with hlow | ⟨heven, -⟩
      · rcases hhigh with hhigh | ⟨heven, -⟩
        · exact .inr ⟨hlow, hhigh⟩
        · exact .inl heven
      · exact .inl heven

/-- Eighteen digits are enough: what is cut off is less than the distance to the ends of the
interval. -/
theorem inside_eighteen (exponent : Int) (hpos : 0 < mantissa) (hbound : mantissa < 2 ^ 53)
    (orEqual : Bool) {fraction : Nat × Nat} (hden : 0 < fraction.2)
    (hlow : mantissa * 2 ^ exponent * (1 - 1 / 10 ^ 17) < valueOf fraction)
    (hhigh : valueOf fraction ≤ mantissa * 2 ^ exponent) :
    fractionBelow orEqual (roundingInterval mantissa exponent).1 fraction = true ∧
      fractionBelow orEqual fraction (roundingInterval mantissa exponent).2 = true := by
  have hpower : (0 : ℚ) < 2 ^ exponent := by positivity
  have hquarter : (2 : ℚ) ^ (exponent - 2) = 2 ^ exponent / 4 := by
    rw [zpow_sub₀ (by norm_num)]
    norm_num
  have hpos' : (1 : ℚ) ≤ mantissa := by exact_mod_cast hpos
  have hbound' : (mantissa : ℚ) < 2 ^ 53 := by exact_mod_cast hbound
  have hless : ∀ n : Nat, n + 1 ≤ 4 * mantissa →
      (n : ℚ) * 2 ^ (exponent - 2) < valueOf fraction := by
    intro n hn
    have hn' : (n : ℚ) + 1 ≤ 4 * mantissa := by exact_mod_cast hn
    refine lt_of_le_of_lt ?_ hlow
    rw [hquarter]
    have hunits : (n : ℚ) / 4 ≤ mantissa * (1 - 1 / 10 ^ 17) := by linarith
    calc (n : ℚ) * (2 ^ exponent / 4) = n / 4 * 2 ^ exponent := by ring
      _ ≤ mantissa * (1 - 1 / 10 ^ 17) * 2 ^ exponent := by gcongr
      _ = mantissa * 2 ^ exponent * (1 - 1 / 10 ^ 17) := by ring
  rw [roundingInterval]
  dsimp only
  rw [fractionBelow_iff (ratio_pos _ _) hden, fractionBelow_iff hden (ratio_pos _ _),
    valueOf_ratio, valueOf_ratio]
  refine ⟨.inl (hless _ ?_), .inl (hhigh.trans_lt ?_)⟩
  · split <;> omega
  · rw [hquarter]
    push_cast
    nlinarith

theorem roundsTo_shortest (exponent : Int) (hpos : 0 < mantissa) (hbound : mantissa < 2 ^ 53) :
    RoundsTo ((shortest mantissa exponent).1 * 10 ^ (shortest mantissa exponent).2 / 2 ^ exponent)
      mantissa exponent := by
  have hden := ratio_pos mantissa exponent
  have hvalue := valueOf_ratio mantissa exponent
  have hpos' : (0 : ℚ) < mantissa := by exact_mod_cast hpos
  have hnum : 0 < (ratio mantissa exponent).1 := by
    rw [Nat.pos_iff_ne_zero]
    intro hzero
    rw [valueOf, hzero, Nat.cast_zero, zero_div] at hvalue
    have hmore : (0 : ℚ) < mantissa * 2 ^ exponent := by positivity
    exact hmore.ne hvalue
  have htop := tenPower_le hnum hden
  rw [← valueOf_decimalRatio, shortest]
  generalize htop' : tenPower (ratio mantissa exponent).1 (ratio mantissa exponent).2 = top at *
  obtain ⟨hfloor, hceil⟩ := unitsBelow_spec (ratio mantissa exponent).1 hden
    (top - ((0 + 17 : Nat) : Int))
  rw [valueOf] at hvalue
  rw [hvalue] at htop hfloor hceil
  have hgrid : (10 : ℚ) ^ (top - ((0 + 17 : Nat) : Int)) = 10 ^ top / 10 ^ 17 := by
    rw [zpow_sub₀ (by norm_num)]
    norm_cast
  have hlast := inside_eighteen exponent hpos hbound (decide (mantissa % 2 = 0))
    (decimalRatio_pos (unitsBelow (ratio mantissa exponent).1 (ratio mantissa exponent).2
      (top - ((0 + 17 : Nat) : Int))).1 (top - ((0 + 17 : Nat) : Int))) ?_ ?_
  · have hinside := inside_shortestFrom (ratio mantissa exponent).1 (ratio mantissa exponent).2
      (fun d =>
        fractionBelow (decide (mantissa % 2 = 0)) (roundingInterval mantissa exponent).1 d &&
        fractionBelow (decide (mantissa % 2 = 0)) d (roundingInterval mantissa exponent).2)
      top 17 0 (by rw [hlast.1, hlast.2]; rfl)
    rw [Bool.and_eq_true] at hinside
    exact roundsTo_of_inside hpos (decimalRatio_pos _ _) hinside.1 hinside.2
  · rw [valueOf_decimalRatio]
    rw [hgrid] at hceil ⊢
    have hsmall : (10 : ℚ) ^ top / 10 ^ 17 ≤ mantissa * 2 ^ exponent / 10 ^ 17 := by gcongr
    linarith
  · rw [valueOf_decimalRatio]
    exact hfloor

/-! ### Reading digits -/

theorem pow_two_lt_pow_ten : (2 : ℚ) ^ (1024 : Int) < 10 ^ (400 : Int) := by
  have hnat : (2 : Nat) ^ 1024 < 10 ^ 400 := by decide +kernel
  have hcast : (2 : ℚ) ^ (1024 : Nat) < 10 ^ (400 : Nat) := by exact_mod_cast hnat
  exact_mod_cast hcast

theorem pow_ten_lt_pow_two : (10 : ℚ) ^ (-400 : Int) < 2 ^ (-1075 : Int) := by
  have hnat : (2 : Nat) ^ 1075 < 10 ^ 400 := by decide +kernel
  have hcast : (2 : ℚ) ^ (1075 : Nat) < 10 ^ (400 : Nat) := by exact_mod_cast hnat
  rw [zpow_neg, zpow_neg, inv_lt_inv₀ (by positivity) (by positivity)]
  exact_mod_cast hcast

/-- Digits whose value is rounded to a number are read as this number. It lies far inside of the
powers that are answered without computing them. -/
theorem ofDecimal_eq {negative : Bool} {digits : Nat} {power : Int} (hdigits : digits ≠ 0)
    (hcanonical : (finite negative mantissa exponent).isCanonical = true) (hpos : 0 < mantissa)
    (h : RoundsTo (digits * 10 ^ power / 2 ^ exponent) mantissa exponent) :
    ofDecimal negative digits power = finite negative mantissa exponent := by
  obtain ⟨hbound, hleast, hgreatest, -⟩ := isCanonical_finite.mp hcanonical
  have htwo : (1 : ℚ) < 2 := by norm_num
  have hten : (1 : ℚ) < 10 := by norm_num
  have hpower : (0 : ℚ) < 2 ^ exponent := by positivity
  have hbound' : (mantissa : ℚ) + 1 ≤ 2 ^ 53 := by exact_mod_cast hbound
  have hpos' : (1 : ℚ) ≤ mantissa := by exact_mod_cast hpos
  obtain ⟨k, hk⟩ := Nat.exists_eq_succ_of_ne_zero (digitCount_pos digits).ne'
  have hlow : (10 : ℚ) ^ ((k : Int) + power) ≤ digits * 10 ^ power := by
    have hdigits' := pow_digitCount_le hdigits
    rw [hk, Nat.succ_sub_one] at hdigits'
    rw [zpow_add₀ (by norm_num), zpow_natCast]
    gcongr
    exact_mod_cast hdigits'
  have hhigh : (digits : ℚ) * 10 ^ power < 10 ^ ((k : Int) + 1 + power) := by
    have hdigits' := lt_pow_digitCount digits
    rw [hk] at hdigits'
    rw [zpow_add₀ (by norm_num)]
    gcongr
    exact_mod_cast hdigits'
  have hsmall : (digits : ℚ) * 10 ^ power < 2 ^ (1024 : Int) := by
    have hunits : (digits : ℚ) * 10 ^ power < 2 ^ 53 * 2 ^ exponent := by
      rw [← div_lt_iff₀ hpower]
      linarith [h.high]
    refine hunits.trans_le ?_
    rw [← zpow_natCast, ← zpow_add₀ (by norm_num)]
    refine zpow_le_zpow_right₀ htwo.le ?_
    rw [greatestExponent] at hgreatest
    push_cast
    omega
  have hlarge : (2 : ℚ) ^ (-1075 : Int) ≤ digits * 10 ^ power := by
    have hunits : 2 ^ (-1 : Int) * 2 ^ exponent ≤ (digits : ℚ) * 10 ^ power := by
      rw [← le_div_iff₀ hpower]
      norm_num
      linarith [h.low]
    refine le_trans ?_ hunits
    rw [← zpow_add₀ (by norm_num)]
    refine zpow_le_zpow_right₀ htwo.le ?_
    rw [leastExponent] at hleast
    omega
  have hnotLarge : ¬ 400 < (digitCount digits : Int) + power := by
    intro hsize
    have hexp : (10 : ℚ) ^ (400 : Int) ≤ 10 ^ ((k : Int) + power) :=
      zpow_le_zpow_right₀ hten.le (by omega)
    exact absurd (hexp.trans hlow) (not_le.mpr (hsmall.trans pow_two_lt_pow_ten))
  have hnotSmall : ¬ (digitCount digits : Int) + power < -400 := by
    intro hsize
    have hexp : (10 : ℚ) ^ ((k : Int) + 1 + power) ≤ 10 ^ (-400 : Int) :=
      zpow_le_zpow_right₀ hten.le (by omega)
    exact absurd (hhigh.trans_le hexp) (not_lt.mpr (pow_ten_lt_pow_two.le.trans hlarge))
  rw [ofDecimal, if_neg hdigits, if_neg hnotLarge, if_neg hnotSmall]
  split
  · obtain ⟨n, rfl⟩ : ∃ n : Nat, power = -(n : Int) := ⟨power.natAbs, by omega⟩
    rw [Int.natAbs_neg, Int.natAbs_natCast]
    refine ofRatio_eq (Nat.pos_of_ne_zero hdigits) (powerOfTen_pos n) hcanonical ?_
    rw [cast_powerOfTen]
    rwa [zpow_neg, zpow_natCast, ← div_eq_mul_inv] at h
  · obtain ⟨n, rfl⟩ : ∃ n : Nat, power = (n : Int) := ⟨power.natAbs, by omega⟩
    rw [Int.natAbs_natCast]
    refine ofRatio_eq (Nat.mul_pos (Nat.pos_of_ne_zero hdigits) (powerOfTen_pos n)) Nat.one_pos
      hcanonical ?_
    rw [Nat.cast_mul, cast_powerOfTen, Nat.cast_one, div_one, ← zpow_natCast]
    exact h

end ScriptTypings.Number
