import ScriptTypings.Proofs.Json.Scanning
import ScriptTypings.Proofs.Number.Shortest

/-!
# Reading back numbers with a fraction

The digits of a number are written with a point or an exponent, with zeros around them, or without
those at their end. `readNumber_finiteText` says that the number is read back in every case.
-/

namespace ScriptTypings.Json

open Text Number Binary64

/-! ### Values of digits -/

theorem foldl_digits (n : Nat) (digits : List Char) :
    digits.foldl (fun n c => n * 10 + (c.toNat - 48)) n =
      n * 10 ^ digits.length + digitsValue digits := by
  induction digits generalizing n with
  | nil => simp [digitsValue]
  | cons c digits ih =>
    rw [digitsValue, List.foldl_cons, List.foldl_cons, ih, ih (0 * 10 + (c.toNat - 48)),
      List.length_cons, Nat.pow_succ]
    ring

theorem digitsValue_append (a b : List Char) :
    digitsValue (a ++ b) = digitsValue a * 10 ^ b.length + digitsValue b := by
  rw [digitsValue, List.foldl_append, foldl_digits]
  rfl

theorem digitsValue_zeros (count : Nat) : digitsValue (List.replicate count '0') = 0 := by
  induction count with
  | zero => rfl
  | succ count ih => rw [List.replicate_succ', digitsValue_append, ih]; rfl

/-! ### Reading parts of numbers -/

/-- Digits that may stand before a point: a zero, or digits that do not begin with zero. -/
def IsWhole (front : List Char) : Prop :=
  front = ['0'] ∨ ∃ c cs, front = c :: cs ∧ c ≠ '0' ∧ ∀ d ∈ front, isAsciiDigit d = true

/-- A character that is no digit ends a run of digits. -/
theorem takeWhile_of_stop {s : List Char} {stop : Char} (hs : ∀ c ∈ s, isAsciiDigit c = true)
    (hstop : isAsciiDigit stop = false) (rest : List Char) :
    (s ++ stop :: rest).takeWhile isAsciiDigit = s := by
  rw [List.takeWhile_append_of_pos hs, List.takeWhile_cons_of_neg (by simp [hstop]),
    List.append_nil]

theorem wholeDigits_of_stop {front : List Char} {stop : Char} (hfront : IsWhole front)
    (hstop : isAsciiDigit stop = false) (rest : List Char) :
    wholeDigits (front ++ stop :: rest) = front := by
  rcases hfront with rfl | ⟨c, cs, rfl, hc, hdigits⟩
  · rfl
  · rw [List.cons_append, wholeDigits, if_neg hc, if_pos (hdigits c List.mem_cons_self),
      takeWhile_of_stop (fun d hd => hdigits d (List.mem_cons_of_mem _ hd)) hstop]

theorem IsWhole.isEmpty {front : List Char} (h : IsWhole front) : front.isEmpty = false := by
  rcases h with rfl | ⟨c, cs, rfl, -, -⟩
  · rfl
  · rfl

/-- The sign and the digits of an exponent. -/
def exponentText (power : Int) : List Char :=
  let size := Nat.toDigits 10 power.natAbs
  'e' :: (if power < 0 then '-' else '+') :: (if size.length < 2 then '0' :: size else size)

theorem exponent?_exponentText (power : Int) {rest : List Char} (hrest : EndsNumber rest) :
    exponent? (exponentText power ++ rest) = some (power, (exponentText power).length) := by
  obtain ⟨size, hsize⟩ : ∃ size, size = if (Nat.toDigits 10 power.natAbs).length < 2 then
      '0' :: Nat.toDigits 10 power.natAbs else Nat.toDigits 10 power.natAbs := ⟨_, rfl⟩
  have hdigits : ∀ c ∈ size, isAsciiDigit c = true := by
    intro c hc
    rw [hsize] at hc
    split at hc
    · rcases List.mem_cons.mp hc with rfl | hc
      · rfl
      · exact isAsciiDigit_of_mem_toDigits hc
    · exact isAsciiDigit_of_mem_toDigits hc
  have hvalue : digitsValue size = power.natAbs := by
    rw [hsize]
    split
    · rw [← List.singleton_append, digitsValue_append, digitsValue_toDigits]
      simp [digitsValue]
    · exact digitsValue_toDigits _
  have hne : size.isEmpty = false := by
    rw [hsize]
    split
    · rfl
    · exact List.isEmpty_eq_false_iff.mpr Nat.toDigits_ne_nil
  have htake := takeWhile_of_endsNumber hdigits hrest
  have htext : exponentText power = 'e' :: (if power < 0 then '-' else '+') :: size := by
    rw [hsize]
    rfl
  rw [htext]
  by_cases hneg : power < 0
  · have habs : -((power.natAbs : Nat) : Int) = power := by omega
    rw [if_pos hneg]
    simp only [exponent?, List.cons_append, htake, hne, hvalue, habs]
    simp
    omega
  · have habs : ((power.natAbs : Nat) : Int) = power := by omega
    rw [if_neg hneg]
    simp only [exponent?, List.cons_append, htake, hne, hvalue, habs]
    simp
    omega

/-- A number with a point and no exponent. -/
theorem readNumber_point (negative : Bool) {front fraction rest : List Char}
    (hfront : IsWhole front) (hfraction : ∀ c ∈ fraction, isAsciiDigit c = true)
    (hne : fraction ≠ []) (hrest : EndsNumber rest) :
    readNumber negative (front ++ '.' :: (fraction ++ rest)) =
      some (.real (.ofDecimal negative (digitsValue (front ++ fraction))
        (-(fraction.length : Int))), (front ++ '.' :: fraction).length) := by
  have hpoint : isAsciiDigit '.' = false := rfl
  have hwhole := wholeDigits_of_stop hfront hpoint (fraction ++ rest)
  have hdigits : fractionDigits ('.' :: (fraction ++ rest)) = fraction := by
    rw [fractionDigits]
    exact takeWhile_of_endsNumber hfraction hrest
  have hempty : fraction.isEmpty = false := List.isEmpty_eq_false_iff.mpr hne
  have hdrop : (front ++ '.' :: (fraction ++ rest)).drop (front.length + (fraction.length + 1)) =
      rest := by
    rw [List.drop_append, List.drop_of_length_le (by omega)]
    simp
  simp only [readNumber, hwhole, hfront.isEmpty, List.drop_left, hdigits, hempty,
    Bool.false_eq_true, if_false, hdrop, exponent?_of_endsNumber hrest]
  simp

/-- A number with an exponent, with or without a point. -/
theorem readNumber_exponent (negative : Bool) {front fraction rest : List Char} (power : Int)
    (hfront : IsWhole front) (hfraction : ∀ c ∈ fraction, isAsciiDigit c = true)
    (hrest : EndsNumber rest) :
    readNumber negative (front ++ ((if fraction.isEmpty then [] else '.' :: fraction) ++
        (exponentText power ++ rest))) =
      some (.real (.ofDecimal negative (digitsValue (front ++ fraction))
        (power - (fraction.length : Int))),
          (front ++ ((if fraction.isEmpty then [] else '.' :: fraction) ++
            exponentText power)).length) := by
  have hexponent := exponent?_exponentText power hrest
  obtain ⟨tail, htail⟩ : ∃ tail, exponentText power = 'e' :: tail := ⟨_, rfl⟩
  cases fraction with
  | nil =>
    have hwhole : wholeDigits (front ++ (exponentText power ++ rest)) = front := by
      rw [htail]
      exact wholeDigits_of_stop hfront rfl (tail ++ rest)
    have hdigits : fractionDigits (exponentText power ++ rest) = [] := by
      rw [htail]
      rfl
    simp only [List.isEmpty_nil, if_true, List.nil_append]
    simp only [readNumber, hwhole, hfront.isEmpty, List.drop_left, hdigits, List.isEmpty_nil,
      if_true, Nat.add_zero, hexponent]
    simp
  | cons c cs =>
    have hpoint : isAsciiDigit '.' = false := rfl
    have hwhole := wholeDigits_of_stop hfront hpoint
      ((c :: cs) ++ (exponentText power ++ rest))
    have hdigits : fractionDigits ('.' :: ((c :: cs) ++ (exponentText power ++ rest))) =
        c :: cs := by
      rw [fractionDigits, htail]
      exact takeWhile_of_stop hfraction rfl (tail ++ rest)
    have hdrop : (front ++ '.' :: ((c :: cs) ++ (exponentText power ++ rest))).drop
        (front.length + ((c :: cs).length + 1)) = exponentText power ++ rest := by
      rw [List.drop_append, List.drop_of_length_le (by omega)]
      simp
    simp only [List.isEmpty_cons, Bool.false_eq_true, if_false, List.cons_append]
      at hwhole hdigits hdrop ⊢
    simp only [readNumber, hwhole, hfront.isEmpty, List.drop_left, hdigits, List.isEmpty_cons,
      Bool.false_eq_true, if_false, hdrop, hexponent]
    simp
    omega

/-! ### Written numbers -/

/-- The digits of a number without zeros at the end: they begin with no zero, and have the value of
the number but for a power of ten. -/
theorem significantDigits_spec {n : Nat} (h : n ≠ 0) :
    ∃ c cs k, significantDigits n = c :: cs ∧ c ≠ '0' ∧ (∀ d ∈ c :: cs, isAsciiDigit d = true) ∧
      n = digitsValue (c :: cs) * 10 ^ k ∧ digitCount n = (c :: cs).length + k := by
  have hsplit : Nat.toDigits 10 n = significantDigits n ++
      ((Nat.toDigits 10 n).reverse.takeWhile (· = '0')).reverse := by
    rw [significantDigits, ← List.reverse_append, List.takeWhile_append_dropWhile,
      List.reverse_reverse]
  obtain ⟨k, hk⟩ : ∃ k, ((Nat.toDigits 10 n).reverse.takeWhile (· = '0')).reverse =
      List.replicate k '0' := by
    refine ⟨_, List.eq_replicate_iff.mpr ⟨rfl, fun c hc => ?_⟩⟩
    exact of_decide_eq_true (List.all_eq_true.mp List.all_takeWhile c (List.mem_reverse.mp hc))
  rw [hk] at hsplit
  obtain ⟨first, rest, hfirst, hne⟩ := exists_toDigits h
  cases hdigits : significantDigits n with
  | nil =>
    -- there is a digit that is no zero
    rw [hdigits, List.nil_append] at hsplit
    have hmem : first ∈ List.replicate k '0' := by
      rw [← hsplit, hfirst]
      exact List.mem_cons_self
    exact absurd (List.mem_replicate.mp hmem).2 hne
  | cons c cs =>
    rw [hdigits] at hsplit
    have hc : c = first := by
      rw [hfirst, List.cons_append] at hsplit
      exact (List.cons.inj hsplit).1.symm
    refine ⟨c, cs, k, rfl, hc ▸ hne, fun d hd => ?_, ?_, ?_⟩
    · refine isAsciiDigit_of_mem_toDigits (n := n) ?_
      rw [hsplit]
      exact List.mem_append_left _ hd
    · have hvalue := digitsValue_toDigits n
      rw [hsplit, digitsValue_append, digitsValue_zeros, List.length_replicate, Nat.add_zero]
        at hvalue
      exact hvalue.symm
    · rw [digitCount, hsplit, List.length_append, List.length_replicate]

/-- A text is read as a number whose digits and power of ten stand for a value. -/
def ReadsAs (text : List Char) (value : ℚ) : Prop :=
  ∀ negative rest, EndsNumber rest → ∃ digits power,
    readNumber negative (text ++ rest) =
      some (.real (.ofDecimal negative digits power), text.length) ∧
    (digits : ℚ) * 10 ^ power = value

theorem isAsciiDigit_of_mem_zeros {count : Nat} {c : Char} (h : c ∈ List.replicate count '0') :
    isAsciiDigit c = true := by
  rw [(List.mem_replicate.mp h).2]
  rfl

theorem isWhole_zero : IsWhole ['0'] :=
  .inl rfl

theorem forall_isAsciiDigit_zero : ∀ c ∈ ['0'], isAsciiDigit c = true :=
  List.forall_mem_singleton.mpr rfl

variable {c : Char} {cs : List Char} (hc : c ≠ '0')
  (hdigits : ∀ d ∈ c :: cs, isAsciiDigit d = true)

include hc hdigits

theorem readsAs_positional (point : Int) :
    ReadsAs (positional (c :: cs) point)
      (digitsValue (c :: cs) * 10 ^ (point - ((c :: cs).length : Int))) := by
  intro negative rest hrest
  rw [positional]
  by_cases hpoint : point ≤ 0
  · rw [if_pos hpoint]
    have hfraction : ∀ d ∈ List.replicate point.natAbs '0' ++ c :: cs, isAsciiDigit d = true :=
      List.forall_mem_append.mpr ⟨fun _ => isAsciiDigit_of_mem_zeros, hdigits⟩
    have hread := readNumber_point negative isWhole_zero hfraction (by simp) hrest
    refine ⟨_, _, hread, ?_⟩
    have hvalue : digitsValue (['0'] ++ (List.replicate point.natAbs '0' ++ c :: cs)) =
        digitsValue (c :: cs) := by
      rw [digitsValue_append, digitsValue_append, digitsValue_zeros]
      simp [digitsValue]
    rw [hvalue, List.length_append, List.length_replicate]
    congr 2
    omega
  · rw [if_neg hpoint]
    obtain ⟨n, rfl⟩ : ∃ n : Nat, point = (n : Int) + 1 := ⟨(point - 1).natAbs, by omega⟩
    rw [show ((n : Int) + 1).natAbs = n + 1 by omega]
    by_cases hlong : (c :: cs).length ≤ n + 1
    · -- all digits stand before the point, and zeros behind them
      obtain ⟨zeros, hzeros⟩ := Nat.exists_eq_add_of_le hlong
      have hfront : IsWhole ((c :: cs) ++ List.replicate zeros '0') :=
        .inr ⟨c, cs ++ List.replicate zeros '0', rfl, hc,
          List.forall_mem_append.mpr ⟨hdigits, fun _ => isAsciiDigit_of_mem_zeros⟩⟩
      have hread := readNumber_point negative hfront forall_isAsciiDigit_zero
        (List.cons_ne_nil _ _) hrest
      have htext : (c :: cs).take (n + 1) ++
          List.replicate (n + 1 - (c :: cs).length) '0' ++ '.' ::
            (if ((c :: cs).drop (n + 1)).isEmpty then ['0'] else (c :: cs).drop (n + 1)) =
          (c :: cs) ++ List.replicate zeros '0' ++ '.' :: ['0'] := by
        rw [List.take_of_length_le hlong, List.drop_of_length_le hlong, hzeros,
          Nat.add_sub_cancel_left]
        rfl
      dsimp only
      rw [htext, List.append_assoc _ ('.' :: ['0'])]
      refine ⟨_, _, hread, ?_⟩
      have hvalue : digitsValue ((c :: cs) ++ List.replicate zeros '0' ++ ['0']) =
          digitsValue (c :: cs) * 10 ^ zeros * 10 := by
        rw [digitsValue_append, digitsValue_append, digitsValue_zeros, List.length_replicate]
        rfl
      have hpower : ((n : Int) + 1 - ((c :: cs).length : Int)) = (zeros : Int) := by omega
      rw [hvalue, hpower, zpow_natCast]
      push_cast
      norm_num
      ring
    · have hmore : n < cs.length := by
        rw [List.length_cons] at hlong
        omega
      have hfront : IsWhole (c :: cs.take n) :=
        .inr ⟨c, cs.take n, rfl, hc, fun d hd => hdigits d
          (List.take_subset (n + 1) (c :: cs) (by rwa [List.take_succ_cons]))⟩
      have hne : cs.drop n ≠ [] := by
        rw [ne_eq, List.drop_eq_nil_iff]
        omega
      have hfraction : ∀ d ∈ cs.drop n, isAsciiDigit d = true := fun d hd =>
        hdigits d (List.mem_cons_of_mem _ (List.mem_of_mem_drop hd))
      have hread := readNumber_point negative hfront hfraction hne hrest
      have htext : (c :: cs).take (n + 1) ++
          List.replicate (n + 1 - (c :: cs).length) '0' ++ '.' ::
            (if ((c :: cs).drop (n + 1)).isEmpty then ['0'] else (c :: cs).drop (n + 1)) =
          (c :: cs.take n) ++ '.' :: cs.drop n := by
        rw [List.take_succ_cons, List.drop_succ_cons, Nat.sub_eq_zero_of_le (by omega),
          List.replicate_zero, List.append_nil, List.isEmpty_eq_false_iff.mpr hne,
          if_neg Bool.false_ne_true]
      dsimp only
      rw [htext, List.append_assoc]
      refine ⟨_, _, hread, ?_⟩
      rw [List.cons_append, List.take_append_drop, List.length_drop]
      congr 2
      rw [List.length_cons]
      omega

theorem readsAs_scientific (power : Int) :
    ReadsAs (scientific (c :: cs) power)
      (digitsValue (c :: cs) * 10 ^ (power + 1 - ((c :: cs).length : Int))) := by
  intro negative rest hrest
  have hfront : IsWhole [c] := by
    refine .inr ⟨c, [], rfl, hc, fun d hd => hdigits d ?_⟩
    rw [List.mem_singleton.mp hd]
    exact List.mem_cons_self
  have hfraction : ∀ d ∈ cs, isAsciiDigit d = true := fun d hd =>
    hdigits d (List.mem_cons_of_mem _ hd)
  have hread := readNumber_exponent negative power hfront hfraction hrest
  have htext : scientific (c :: cs) power =
      [c] ++ ((if cs.isEmpty then [] else '.' :: cs) ++ exponentText power) := by
    have hshort : ((c :: cs).length ≤ 1) ↔ cs.isEmpty = true := by
      cases cs <;> simp
    rw [scientific, exponentText]
    simp only [hshort, List.take_succ_cons, List.take_zero, List.drop_succ_cons, List.drop_zero,
      List.append_assoc]
  rw [htext, List.append_assoc, List.append_assoc]
  refine ⟨_, _, hread, ?_⟩
  rw [List.singleton_append]
  congr 2
  rw [List.length_cons]
  omega

omit hc hdigits

/-- The text of a positive number is read as digits that are rounded to it. -/
theorem readNumber_finiteText {mantissa : Nat} {exponent : Int} (negative : Bool)
    (hcanonical : (finite negative mantissa exponent).isCanonical = true) {rest : List Char}
    (hrest : EndsNumber rest) :
    readNumber negative (finiteText mantissa exponent ++ rest) =
      some (.real (finite negative mantissa exponent), (finiteText mantissa exponent).length) := by
  obtain ⟨hbound, -, -, hnormal⟩ := isCanonical_finite.mp hcanonical
  rw [finiteText]
  by_cases hzero : mantissa = 0
  · have hexponent : exponent = leastExponent := hnormal.resolve_right (by omega)
    have hread := readNumber_point negative isWhole_zero forall_isAsciiDigit_zero
      (List.cons_ne_nil _ _) hrest
    rw [if_pos hzero, hzero, hexponent]
    exact hread
  · have hpos := Nat.pos_of_ne_zero hzero
    have hrounds := roundsTo_shortest exponent hpos hbound
    rw [if_neg hzero]
    dsimp only
    generalize shortest mantissa exponent = s at *
    obtain ⟨digits, power⟩ := s
    dsimp only at hrounds ⊢
    have hdigits : digits ≠ 0 := by
      rintro rfl
      have hlow := hrounds.low
      have hpos' : (1 : ℚ) ≤ mantissa := by exact_mod_cast hpos
      norm_num at hlow
      linarith
    obtain ⟨c, cs, k, hsignificant, hc, hall, hvalue, hcount⟩ := significantDigits_spec hdigits
    rw [hsignificant, hcount]
    -- the digits are those of the number, and so is their power of ten
    have hsame : (digitsValue (c :: cs) : ℚ) * 10 ^ ((k : Int) + power) = digits * 10 ^ power := by
      rw [hvalue, Nat.cast_mul, Nat.cast_pow, zpow_add₀ (by norm_num), zpow_natCast]
      push_cast
      ring
    have hfinish : ∀ text, ReadsAs text (digits * 10 ^ power) →
        readNumber negative (text ++ rest) =
          some (.real (finite negative mantissa exponent), text.length) := by
      intro text htext
      obtain ⟨digits', power', hread, hequal⟩ := htext negative rest hrest
      have hne : digits' ≠ 0 := by
        rintro rfl
        have hten : (10 : ℚ) ^ power ≠ 0 := by positivity
        rw [Nat.cast_zero, zero_mul, zero_eq_mul] at hequal
        exact hdigits (by exact_mod_cast hequal.resolve_right hten)
      rw [hread, ofDecimal_eq hne hcanonical hpos (hequal ▸ hrounds)]
    split
    · refine hfinish _ ?_
      have hread := readsAs_positional hc hall
        ((((c :: cs).length + k : Nat) : Int) - 1 + power + 1)
      rwa [show (((c :: cs).length + k : Nat) : Int) - 1 + power + 1 - ((c :: cs).length : Int) =
        (k : Int) + power by omega, hsame] at hread
    · refine hfinish _ ?_
      have hread := readsAs_scientific hc hall ((((c :: cs).length + k : Nat) : Int) - 1 + power)
      rwa [show (((c :: cs).length + k : Nat) : Int) - 1 + power + 1 - ((c :: cs).length : Int) =
        (k : Int) + power by omega, hsame] at hread

/-- A number begins with a digit. -/
theorem exists_of_readNumber {negative : Bool} {s : List Char} {found : Document × Nat}
    (h : readNumber negative s = some found) : ∃ c rest, s = c :: rest ∧ isAsciiDigit c = true := by
  cases s with
  | nil => cases h
  | cons c rest =>
    refine ⟨c, rest, rfl, ?_⟩
    by_contra hother
    have hzero : c ≠ '0' := by
      rintro rfl
      exact hother rfl
    rw [readNumber, wholeDigits, if_neg hzero, if_neg hother] at h
    cases h

theorem exists_finiteText {mantissa : Nat} {exponent : Int} {negative : Bool}
    (hcanonical : (finite negative mantissa exponent).isCanonical = true) :
    ∃ c cs, finiteText mantissa exponent = c :: cs ∧ isAsciiDigit c = true := by
  have hends : EndsNumber [] := nofun
  have hread := readNumber_finiteText negative hcanonical hends
  rw [List.append_nil] at hread
  exact exists_of_readNumber hread

/-- A number in the form that rounding gives is read back as it was written. -/
theorem readScalar_real {x : Binary64} (h : x.isCanonical = true) {rest : List Char}
    (hrest : EndsNumber rest) :
    readScalar ((x.text "Infinity" "NaN").toList ++ rest) = some (.real x, rest) := by
  cases x with
  | notANumber => rfl
  | infinite negative => cases negative <;> rfl
  | finite negative mantissa exponent =>
    obtain ⟨c, cs, htext, hc⟩ := exists_finiteText h
    have hread := readNumber_finiteText negative h hrest
    obtain ⟨hplain, hsigned⟩ := words_of_isAsciiDigit hc (cs ++ rest)
    have hquote : c ≠ '"' := by rintro rfl; cases hc
    have hminus : c ≠ '-' := by rintro rfl; cases hc
    rw [htext, List.cons_append] at hread
    cases negative with
    | false =>
      simp only [Binary64.text, Bool.false_eq_true, if_false, String.toList_append,
        String.toList_ofList, htext]
      show readScalar (c :: (cs ++ rest)) = _
      rw [readScalar, hplain]
      · simp [hread]
      · simp [hquote]
      · simp [hminus]
    | true =>
      simp only [Binary64.text, if_true, String.toList_append, String.toList_ofList, htext]
      show readScalar ('-' :: c :: (cs ++ rest)) = _
      rw [readScalar, hsigned]
      simp [hread]

theorem exists_text {x : Binary64} (h : x.isCanonical = true) :
    ∃ c cs, (x.text "Infinity" "NaN").toList = c :: cs ∧ isGap c = false ∧
      punctuation? c = none := by
  cases x with
  | notANumber => exact ⟨'N', ['a', 'N'], rfl, rfl, rfl⟩
  | infinite negative =>
    cases negative with
    | false => exact ⟨'I', "nfinity".toList, rfl, rfl, rfl⟩
    | true => exact ⟨'-', "Infinity".toList, rfl, rfl, rfl⟩
  | finite negative mantissa exponent =>
    obtain ⟨c, cs, htext, hc⟩ := exists_finiteText h
    cases negative with
    | false =>
      refine ⟨c, cs, ?_, not_isGap_of_isAsciiDigit hc⟩
      simp [Binary64.text, htext]
    | true =>
      refine ⟨'-', c :: cs, ?_, rfl, rfl⟩
      simp [Binary64.text, htext]

theorem scans_real {x : Binary64} (h : x.isCanonical = true) {rest : List Char} {ts : List Token}
    (hrest : EndsNumber rest) (hscans : Scans rest ts) :
    Scans ((x.text "Infinity" "NaN").toList ++ rest) (.scalar (.real x) :: ts) := by
  obtain ⟨c, cs, hcs, hgap, hpunctuation⟩ := exists_text h
  have hread := readScalar_real h hrest
  rw [hcs] at hread ⊢
  refine hscans.scalar hgap hpunctuation hread ?_
  simp only [List.append_eq, List.length_append]
  omega

end ScriptTypings.Json
