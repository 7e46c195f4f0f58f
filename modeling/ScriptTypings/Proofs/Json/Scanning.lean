import ScriptTypings.Json.Writer
import ScriptTypings.Proofs.Json.Readable

/-!
# Cutting texts into tokens

`tokens` are the tokens of a document, whatever its layout. A text in quotes and a whole number are
cut into the one token that they were written for.
-/

namespace ScriptTypings.Json

open Text Number

mutual

def tokens : Document → List Token
  | .list [] => [.openList, .closeList]
  | .list (item :: items) => .openList :: (tokens item ++ (itemTokens items ++ [.closeList]))
  | .object [] => [.openObject, .closeObject]
  | .object ((name, value) :: members) =>
    .openObject :: .scalar (.text name) :: .colon ::
      (tokens value ++ (memberTokens members ++ [.closeObject]))
  | other => [.scalar other]

/-- The tokens of the items behind the first. -/
def itemTokens : List Document → List Token
  | [] => []
  | item :: items => .comma :: (tokens item ++ itemTokens items)

/-- The tokens of the members behind the first. -/
def memberTokens : List (List CodePoint × Document) → List Token
  | [] => []
  | (name, value) :: members =>
    .comma :: .scalar (.text name) :: .colon :: (tokens value ++ memberTokens members)

end

/-- A text is cut into tokens, whatever fuel there is beyond its length. -/
def Scans (s : List Char) (ts : List Token) : Prop :=
  ∀ fuel, s.length ≤ fuel → scanFrom fuel s = ts

theorem Scans.scan_eq {s : List Char} {ts : List Token} (h : Scans s ts) : Token.scan s = ts :=
  h s.length (Nat.le_refl _)

theorem scans_nil : Scans [] [] := fun fuel _ => by cases fuel <;> rfl

theorem Scans.gap {c : Char} {rest : List Char} {ts : List Token} (h : Scans rest ts)
    (hc : isGap c = true) : Scans (c :: rest) ts := by
  rintro (_ | fuel) hfuel
  · simp at hfuel
  · rw [scanFrom, if_pos hc]
    exact h fuel (by simpa using hfuel)

theorem Scans.gaps {cs rest : List Char} {ts : List Token} (h : Scans rest ts)
    (hcs : ∀ c ∈ cs, isGap c = true) : Scans (cs ++ rest) ts := by
  induction cs with
  | nil => exact h
  | cons c cs ih =>
    exact (ih fun c hc => hcs c (List.mem_cons_of_mem _ hc)).gap (hcs c List.mem_cons_self)

theorem Scans.punctuation {c : Char} {rest : List Char} {ts : List Token} {t : Token}
    (h : Scans rest ts) (hgap : isGap c = false) (hc : punctuation? c = some t) :
    Scans (c :: rest) (t :: ts) := by
  rintro (_ | fuel) hfuel
  · simp at hfuel
  · rw [scanFrom, hgap]
    simp only [hc]
    rw [if_neg Bool.false_ne_true, h fuel (by simpa using hfuel)]

theorem Scans.scalar {c : Char} {s rest : List Char} {ts : List Token} {value : Document}
    (h : Scans rest ts) (hgap : isGap c = false) (hpunctuation : punctuation? c = none)
    (hread : readScalar (c :: s) = some (value, rest)) (hlength : rest.length ≤ s.length) :
    Scans (c :: s) (.scalar value :: ts) := by
  rintro (_ | fuel) hfuel
  · simp at hfuel
  · simp only [List.length_cons] at hfuel
    rw [scanFrom, hgap]
    simp only [hpunctuation, hread]
    rw [if_neg Bool.false_ne_true, h fuel (by omega)]

/-! ### Texts -/

theorem hexValue?_hexDigit : ∀ n < 16, hexValue? (hexDigit n) = some n := by decide

/-- Four hexadecimal digits stand for the number that they are written for. -/
theorem hexUnit?_hex {n : Nat} (h : n < 0x10000) :
    ∃ a b c d, hex 4 n = [a, b, c, d] ∧ hexUnit? a b c d = some n := by
  have hdigit : ∀ m, hexValue? (hexDigit (m % 16)) = some (m % 16) :=
    fun m => hexValue?_hexDigit _ (Nat.mod_lt _ (by decide))
  refine ⟨_, _, _, _, rfl, ?_⟩
  simp only [hexUnit?, hdigit, Option.bind_eq_bind, Option.bind_some, Option.pure_def]
  congr 1
  omega

/-- A code unit as an escape is added to the text in front of it. -/
theorem readText_unit {n : Nat} (h : n < 0x10000) (high : Option Nat) (rest : List Char)
    (done : List CodePoint) :
    readText (escapeUnit n ++ rest) high done =
      readText rest (addUnit high n done).1 (addUnit high n done).2 := by
  obtain ⟨a, b, c, d, hhex, hunit⟩ := hexUnit?_hex h
  rw [escapeUnit, hhex]
  show readText ('\\' :: 'u' :: a :: b :: c :: d :: rest) high done = _
  rw [readText, hunit]

theorem readText_escapeUnit {n : Nat} (h : n < 0xD800) (rest : List Char)
    (done : List CodePoint) :
    readText (escapeUnit n ++ rest) none done =
      readText rest none (.char (Char.ofNat n) :: done) := by
  have hadd : addUnit none n done = (none, .char (Char.ofNat n) :: done) := by
    have hhigh : isHighSurrogate n = false := by simp [isHighSurrogate]; omega
    have hlow : isLowSurrogate n = false := by simp [isLowSurrogate]; omega
    simp [addUnit, hhigh, hlow, flush]
  rw [readText_unit (Nat.lt_trans h (by decide)), hadd]

theorem readText_plain {c : Char} (hquote : c ≠ '"') (hbackslash : c ≠ '\\')
    (hcontrol : 32 ≤ c.toNat) (rest : List Char) (done : List CodePoint) :
    readText (c :: rest) none done = readText rest none (.char c :: done) := by
  have hplain : ¬ (decide (c = '\\') || decide (c.toNat < 32)) = true := by
    simp [hbackslash]; omega
  rw [readText.eq_5 _ _ _ _ (by simp [hquote]) (by simp [hbackslash]) (by simp [hbackslash])]
  simp only [hplain, flush]
  rfl

/-- A character inside of quotes is read back as it was written. -/
theorem readText_escapeChar (c : Char) (rest : List Char) (done : List CodePoint) :
    readText (escapeChar c ++ rest) none done = readText rest none (.char c :: done) := by
  unfold escapeChar
  -- seven characters have a letter of their own, the other controls a number
  split
  · rename_i h; subst h; rfl
  split
  · rename_i h; subst h; rfl
  split
  · rename_i h; subst h; rfl
  split
  · rename_i h; subst h; rfl
  split
  · rename_i h; subst h; rfl
  split
  · rename_i h; subst h; rfl
  split
  · rename_i h; subst h; rfl
  split
  · rename_i h
    rw [readText_escapeUnit (Nat.lt_trans h (by decide)), Char.ofNat_toNat]
  · rename_i hquote hbackslash _ _ _ _ _ hcontrol
    exact readText_plain hquote hbackslash (Nat.not_lt.mp hcontrol) rest done

/-- A character as one or two escapes is read back. -/
theorem readText_escapeUnits (c : Char) (rest : List Char) (done : List CodePoint) :
    readText (escapeUnits c ++ rest) none done = readText rest none (.char c :: done) := by
  have hvalid : c.toNat < 0xD800 ∨ 0xDFFF < c.toNat ∧ c.toNat < 0x110000 := c.valid
  unfold escapeUnits
  split
  · rename_i hunit
    have hadd : addUnit none c.toNat done = (none, .char c :: done) := by
      have hhigh : isHighSurrogate c.toNat = false := by simp [isHighSurrogate]; omega
      have hlow : isLowSurrogate c.toNat = false := by simp [isLowSurrogate]; omega
      simp [addUnit, hhigh, hlow, flush]
    rw [readText_unit hunit, hadd]
  · -- the first surrogate waits for the second one, which completes the character
    have hfirst (n : Nat) (h : n < 0x400) :
        addUnit none (0xD800 + n) done = (some (0xD800 + n), done) := by
      have hhigh : isHighSurrogate (0xD800 + n) = true := by simp [isHighSurrogate]; omega
      rw [addUnit, if_pos hhigh]
      rfl
    have hsecond (h n : Nat) (hn : n < 0x400) : addUnit (some h) (0xDC00 + n) done =
        (none, .char (Char.ofNat (0x10000 + (h - 0xD800) * 0x400 + n)) :: done) := by
      have hhigh : isHighSurrogate (0xDC00 + n) = false := by simp [isHighSurrogate]; omega
      have hlow : isLowSurrogate (0xDC00 + n) = true := by simp [isLowSurrogate]; omega
      simp [addUnit, hhigh, hlow]
    have hnumber : 0x10000 + (0xD800 + (c.toNat - 0x10000) / 0x400 - 0xD800) * 0x400 +
        (c.toNat - 0x10000) % 0x400 = c.toNat := by omega
    dsimp only
    rw [List.append_assoc, readText_unit (by omega), hfirst _ (by omega), readText_unit (by omega),
      hsecond _ _ (by omega), hnumber, Char.ofNat_toNat]

/-- A character inside of quotes in pure ASCII is read back as it was written. -/
theorem readText_escapeCharAscii (c : Char) (rest : List Char) (done : List CodePoint) :
    readText (escapeCharAscii c ++ rest) none done = readText rest none (.char c :: done) := by
  unfold escapeCharAscii
  split
  · exact readText_escapeChar c rest done
  · exact readText_escapeUnits c rest done

theorem readText_flatMap {escaped : Char → List Char} (h : ∀ c rest done,
      readText (escaped c ++ rest) none done = readText rest none (.char c :: done))
    (s rest : List Char) (done : List CodePoint) :
    readText (s.flatMap escaped ++ '"' :: rest) none done =
      some (done.reverse ++ s.map .char, rest) := by
  induction s generalizing done with
  | nil => simp [readText, flush]
  | cons c s ih =>
    rw [List.flatMap_cons, List.append_assoc, h, ih]
    simp

theorem readText_quoteText (s rest : List Char) (done : List CodePoint) :
    readText (s.flatMap escapeChar ++ '"' :: rest) none done =
      some (done.reverse ++ s.map .char, rest) :=
  readText_flatMap readText_escapeChar s rest done

theorem readText_quoteAscii (s rest : List Char) (done : List CodePoint) :
    readText (s.flatMap escapeCharAscii ++ '"' :: rest) none done =
      some (done.reverse ++ s.map .char, rest) :=
  readText_flatMap readText_escapeCharAscii s rest done

/-- A text between quotes is read as this text. -/
theorem readScalar_quoteText (s : String) (rest : List Char) :
    readScalar (quoteText s ++ rest) = some (.text (CodePoint.ofString s), rest) := by
  have hquote : quoteText s ++ rest = '"' :: (s.toList.flatMap escapeChar ++ '"' :: rest) := by
    simp [quoteText]
  rw [hquote, readScalar]
  -- no word begins with a quote
  have hwords : words.findSome? (fun w => (dropLead? w.1.toList
      ('"' :: (s.toList.flatMap escapeChar ++ '"' :: rest))).map (w.2, ·)) = none := by
    rfl
  rw [hwords]
  simp [readText_quoteText, CodePoint.ofString]

/-! ### Whole numbers -/

/-- No digit, point or exponent stands at the front. -/
def EndsNumber (s : List Char) : Prop :=
  ∀ c, s.head? = some c → isGap c = true ∨ (punctuation? c).isSome = true

theorem not_number_of_ends {c : Char} (h : isGap c = true ∨ (punctuation? c).isSome = true) :
    isAsciiDigit c = false ∧ c ≠ '.' ∧ c ≠ 'e' ∧ c ≠ 'E' := by
  rcases h with h | h
  · simp only [isGap, Bool.or_eq_true, decide_eq_true_eq] at h
    rcases h with ((rfl | rfl) | rfl) | rfl <;> decide
  · unfold punctuation? at h
    split at h <;> first | decide | cases h

theorem digitChar_ne_zero : ∀ n < 10, n ≠ 0 → Nat.digitChar n ≠ '0' := by decide

/-- A number other than zero does not begin with a zero. -/
theorem exists_toDigits {n : Nat} (h : n ≠ 0) :
    ∃ c cs, Nat.toDigits 10 n = c :: cs ∧ c ≠ '0' := by
  induction n using Nat.strongRecOn with
  | ind n ih =>
    -- the first digit is that of the number without its last one
    by_cases hn : n < 10
    · exact ⟨_, _, Nat.toDigits_of_lt_base hn, digitChar_ne_zero n hn h⟩
    · obtain ⟨c, cs, hcs, hc⟩ := ih (n / 10) (by omega) (by omega)
      exact ⟨c, _, by rw [Nat.toDigits_of_base_le (by decide) (by omega), hcs]; rfl, hc⟩

theorem isAsciiDigit_of_mem_toDigits {c : Char} {n : Nat} (h : c ∈ Nat.toDigits 10 n) :
    isAsciiDigit c = true := by
  have hdigit := Nat.isDigit_of_mem_toDigits (by decide) (by decide) h
  simpa [isAsciiDigit, Char.isDigit, Char.le_def] using hdigit

theorem takeWhile_of_endsNumber {s rest : List Char} (hs : ∀ c ∈ s, isAsciiDigit c = true)
    (hrest : EndsNumber rest) : (s ++ rest).takeWhile isAsciiDigit = s := by
  rw [List.takeWhile_append_of_pos hs]
  cases rest with
  | nil => simp
  | cons c rest => simp [(not_number_of_ends (hrest c rfl)).1]

theorem wholeDigits_toDigits (n : Nat) {rest : List Char} (hrest : EndsNumber rest) :
    wholeDigits (Nat.toDigits 10 n ++ rest) = Nat.toDigits 10 n := by
  by_cases hn : n = 0
  · subst hn
    rfl
  · obtain ⟨c, cs, hcs, hc⟩ := exists_toDigits hn
    have hdigits : ∀ d ∈ c :: cs, isAsciiDigit d = true :=
      fun d hd => isAsciiDigit_of_mem_toDigits (hcs ▸ hd)
    rw [hcs, List.cons_append, wholeDigits, if_neg hc, if_pos (hdigits c List.mem_cons_self),
      takeWhile_of_endsNumber (fun d hd => hdigits d (List.mem_cons_of_mem _ hd)) hrest]

theorem fractionDigits_of_endsNumber {rest : List Char} (hrest : EndsNumber rest) :
    fractionDigits rest = [] := by
  cases rest with
  | nil => rfl
  | cons c rest =>
    have hc := (not_number_of_ends (hrest c rfl)).2.1
    simp [fractionDigits, hc]

theorem exponent?_of_endsNumber {rest : List Char} (hrest : EndsNumber rest) :
    exponent? rest = none := by
  cases rest with
  | nil => rfl
  | cons c rest =>
    obtain ⟨_, _, he, hE⟩ := not_number_of_ends (hrest c rfl)
    simp [exponent?, he, hE]

theorem digitsValue_toDigits (n : Nat) : digitsValue (Nat.toDigits 10 n) = n := by
  have h : digitsValue (Nat.toDigits 10 n) = Nat.ofDigitChars 10 (Nat.toDigits 10 n) 0 := by
    simp only [digitsValue, Nat.ofDigitChars_eq_foldl, Nat.mul_comm]
    rfl
  rw [h, Nat.ofDigitChars_ten_toDigits]

theorem readNumber_toDigits (negative : Bool) (n : Nat) {rest : List Char}
    (hrest : EndsNumber rest) :
    readNumber negative (Nat.toDigits 10 n ++ rest) =
      some (.whole (if negative then -(n : Int) else n), (Nat.toDigits 10 n).length) := by
  simp [readNumber, wholeDigits_toDigits n hrest, fractionDigits_of_endsNumber hrest,
    exponent?_of_endsNumber hrest, digitsValue_toDigits, Nat.toDigits_ne_nil]

/-- No word begins with a digit, and only a sign before it makes none. -/
theorem words_of_isAsciiDigit {c : Char} (h : isAsciiDigit c = true) (s : List Char) :
    words.findSome? (fun w => (dropLead? w.1.toList (c :: s)).map (w.2, ·)) = none ∧
      words.findSome? (fun w => (dropLead? w.1.toList ('-' :: c :: s)).map (w.2, ·)) = none := by
  have hn : 'n' ≠ c := by rintro rfl; cases h
  have ht : 't' ≠ c := by rintro rfl; cases h
  have hf : 'f' ≠ c := by rintro rfl; cases h
  have hN : 'N' ≠ c := by rintro rfl; cases h
  have hI : 'I' ≠ c := by rintro rfl; cases h
  have hminus : '-' ≠ c := by rintro rfl; cases h
  simp [words, dropLead?, hn, ht, hf, hN, hI, hminus]

/-- A whole number is read up to what ends it. -/
theorem readScalar_whole (n : Int) {rest : List Char} (hrest : EndsNumber rest) :
    readScalar ((toString n).toList ++ rest) = some (.whole n, rest) := by
  obtain ⟨m, hm⟩ : ∃ m, m = n.natAbs := ⟨_, rfl⟩
  cases hdigits : Nat.toDigits 10 m with
  | nil => exact absurd hdigits Nat.toDigits_ne_nil
  | cons c cs =>
    have hc : isAsciiDigit c = true :=
      isAsciiDigit_of_mem_toDigits (hdigits ▸ List.mem_cons_self)
    obtain ⟨hplain, hsigned⟩ := words_of_isAsciiDigit hc (cs ++ rest)
    have hquote : c ≠ '"' := by rintro rfl; cases hc
    have hminus : c ≠ '-' := by rintro rfl; cases hc
    have hread := fun negative => readNumber_toDigits negative m hrest
    simp only [hdigits, List.cons_append] at hread
    rw [Int.toString_eq_repr]
    cases n with
    | ofNat k =>
      obtain rfl : m = k := hm
      simp only [Int.repr, Nat.toList_repr, hdigits, List.cons_append]
      rw [readScalar, hplain]
      · simp [hread]
      · simp [hquote]
      · simp [hminus]
    | negSucc k =>
      obtain rfl : m = k + 1 := hm
      simp only [Int.repr, String.toList_append, Nat.toList_repr, hdigits]
      show readScalar ('-' :: c :: (cs ++ rest)) = _
      rw [readScalar, hsigned]
      simp [hread, Int.negSucc_eq]

/-! ### Written values -/

theorem isGap_of_mem_gap (layout : Layout) (depth : Nat) :
    ∀ c ∈ layout.gap depth, isGap c = true := by
  intro c hc
  unfold Layout.gap at hc
  split at hc
  · cases hc
  · rcases List.mem_cons.mp hc with rfl | hc
    · rfl
    · rw [(List.mem_replicate.mp hc).2]
      rfl

/-- A separator is a comma and blanks. -/
theorem exists_separator (layout : Layout) (depth : Nat) :
    ∃ gaps, layout.separator depth = ',' :: gaps ∧ ∀ c ∈ gaps, isGap c = true := by
  unfold Layout.separator
  split
  · exact ⟨[' '], rfl, List.forall_mem_singleton.mpr rfl⟩
  · exact ⟨_, rfl, isGap_of_mem_gap layout depth⟩

theorem endsNumber_cons {c : Char} (h : isGap c = true ∨ (punctuation? c).isSome = true)
    (s : List Char) : EndsNumber (c :: s) := by
  rintro d hd
  rwa [← Option.some.inj hd]

theorem endsNumber_gap (layout : Layout) (depth : Nat) {c : Char}
    (h : (punctuation? c).isSome = true) (rest : List Char) :
    EndsNumber (layout.gap depth ++ c :: rest) := by
  cases hgap : layout.gap depth with
  | nil => exact endsNumber_cons (.inr h) rest
  | cons d gaps =>
    exact endsNumber_cons (.inl (isGap_of_mem_gap layout depth d (hgap ▸ List.mem_cons_self))) _

theorem endsNumber_separator (layout : Layout) (depth : Nat) (rest : List Char) :
    EndsNumber (layout.separator depth ++ rest) := by
  obtain ⟨gaps, hgaps, _⟩ := exists_separator layout depth
  rw [hgaps]
  exact endsNumber_cons (.inr rfl) _

theorem endsNumber_writeItems (layout : Layout) (depth : Nat) (items : List Json)
    {rest : List Char} (hrest : EndsNumber rest) :
    EndsNumber (writeItems layout depth items ++ rest) := by
  cases items with
  | nil => exact hrest
  | cons item items =>
    rw [writeItems, List.append_assoc, List.append_assoc]
    exact endsNumber_separator _ _ _

theorem endsNumber_writeMembers (layout : Layout) (depth : Nat) (members : List (String × Json))
    {rest : List Char} (hrest : EndsNumber rest) :
    EndsNumber (writeMembers layout depth members ++ rest) := by
  cases members with
  | nil => exact hrest
  | cons member members =>
    rw [writeMembers]
    simp only [List.append_assoc]
    exact endsNumber_separator _ _ _

theorem scans_quoteText (s : String) {rest : List Char} {ts : List Token} (h : Scans rest ts) :
    Scans (quoteText s ++ rest) (.scalar (.text (CodePoint.ofString s)) :: ts) := by
  have hread := readScalar_quoteText s rest
  rw [quoteText] at hread ⊢
  refine h.scalar rfl rfl hread ?_
  simp only [List.append_eq, List.length_append]
  omega

theorem not_isGap_of_isAsciiDigit {c : Char} (h : isAsciiDigit c = true) :
    isGap c = false ∧ punctuation? c = none := by
  refine ⟨Bool.eq_false_iff.mpr fun hgap => ?_, Option.not_isSome_iff_eq_none.mp fun hsome => ?_⟩
  · rw [(not_number_of_ends (.inl hgap)).1] at h
    cases h
  · rw [(not_number_of_ends (.inr hsome)).1] at h
    cases h

theorem exists_toString (n : Int) : ∃ c cs, (toString n).toList = c :: cs ∧ isGap c = false ∧
    punctuation? c = none := by
  have hdigits : ∀ m, ∃ c cs, Nat.toDigits 10 m = c :: cs ∧ isGap c = false ∧
      punctuation? c = none := by
    intro m
    cases hm : Nat.toDigits 10 m with
    | nil => exact absurd hm Nat.toDigits_ne_nil
    | cons c cs =>
      have hc : isAsciiDigit c = true := isAsciiDigit_of_mem_toDigits (hm ▸ List.mem_cons_self)
      exact ⟨c, cs, rfl, not_isGap_of_isAsciiDigit hc⟩
  rw [Int.toString_eq_repr]
  cases n with
  | ofNat m =>
    simp only [Int.repr, Nat.toList_repr]
    exact hdigits m
  | negSucc m => exact ⟨'-', _, by simp [Int.repr]; rfl, rfl, rfl⟩

theorem scans_whole (n : Int) {rest : List Char} {ts : List Token} (hrest : EndsNumber rest)
    (h : Scans rest ts) : Scans ((toString n).toList ++ rest) (.scalar (.whole n) :: ts) := by
  obtain ⟨c, cs, hcs, hgap, hpunctuation⟩ := exists_toString n
  have hread := readScalar_whole n hrest
  rw [hcs] at hread ⊢
  refine h.scalar hgap hpunctuation hread ?_
  simp only [List.append_eq, List.length_append]
  omega

end ScriptTypings.Json
