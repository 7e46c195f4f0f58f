import ScriptTypings.Proofs.Text.Ascii
import ScriptTypings.Text.Percent

/-!
# Percent encodings are decoded

A text may be encoded in many ways: each of its characters is kept or written as the bytes that it
has in UTF-8, in hexadecimal digits of either case, and only `%` must not be kept. Every one of them
is decoded to the text (`percentDecode_of_percentEncodes`). The decoder cuts a text at the
characters beyond ASCII. As an encoding keeps or escapes whole characters, no character is cut.
-/

namespace ScriptTypings.Text

/-! ### UTF-8 -/

theorem readTail_succ {count low high bits used : Nat} {b : UInt8} (rest : List UInt8)
    (hlow : low ≤ b.toNat) (hhigh : b.toNat ≤ high) :
    readTail (count + 1) low high bits used (b :: rest) =
      readTail count 0x80 0xBF (bits * 64 + (b.toNat - 0x80)) (used + 1) rest := by
  rw [readTail, if_pos (by simp [hlow, hhigh])]

theorem secondRange?_of_two {lead : Nat} (hlow : 0xC2 ≤ lead) (hhigh : lead ≤ 0xDF) :
    secondRange? lead = some (1, 0x80, 0xBF) :=
  if_pos (by simp [hlow, hhigh])

theorem secondRange?_of_three {lead : Nat} (hlow : 0xE0 ≤ lead) (hhigh : lead ≤ 0xEF) :
    secondRange? lead =
      some (2, if lead = 0xE0 then 0xA0 else 0x80, if lead = 0xED then 0x9F else 0xBF) := by
  have hall : ∀ i < 16, secondRange? (0xE0 + i) =
      some (2, if 0xE0 + i = 0xE0 then 0xA0 else 0x80,
        if 0xE0 + i = 0xED then 0x9F else 0xBF) := by decide
  obtain ⟨i, rfl⟩ := Nat.exists_eq_add_of_le hlow
  exact hall i (by omega)

theorem secondRange?_of_four {lead : Nat} (hlow : 0xF0 ≤ lead) (hhigh : lead ≤ 0xF4) :
    secondRange? lead =
      some (3, if lead = 0xF0 then 0x90 else 0x80, if lead = 0xF4 then 0x8F else 0xBF) := by
  have hall : ∀ i < 5, secondRange? (0xF0 + i) =
      some (3, if 0xF0 + i = 0xF0 then 0x90 else 0x80,
        if 0xF0 + i = 0xF4 then 0x8F else 0xBF) := by decide
  obtain ⟨i, rfl⟩ := Nat.exists_eq_add_of_le hlow
  exact hall i (by omega)

theorem toNat_byte {n : Nat} (h : n < 256) : (UInt8.ofNat n).toNat = n := by
  rw [UInt8.toNat_ofNat']
  omega

theorem readTail_continuation {count low high bits used n : Nat} (rest : List UInt8)
    (hlow : low ≤ n % 64 + 128) (hhigh : n % 64 + 128 ≤ high) :
    readTail (count + 1) low high bits used (UInt8.ofNat (n % 64 + 128) :: rest) =
      readTail count 0x80 0xBF (bits * 64 + n % 64) (used + 1) rest := by
  have hbyte : (UInt8.ofNat (n % 64 + 128)).toNat = n % 64 + 128 := toNat_byte (by omega)
  rw [readTail_succ rest (hbyte.symm ▸ hlow) (hbyte.symm ▸ hhigh), hbyte, Nat.add_sub_cancel]

theorem readChar_two {n : Nat} (hlow : 0x7F < n) (hhigh : n ≤ 0x7FF) (rest : List UInt8) :
    readChar (n / 64 % 32 + 192) (UInt8.ofNat (n % 64 + 128) :: rest) = (Char.ofNat n, 1) := by
  rw [readChar, if_neg (by omega), secondRange?_of_two (by omega) (by omega)]
  show readTail 1 _ _ (n / 64 % 32 + 192 - 192) 0 _ = _
  rw [readTail_continuation rest (by omega) (by omega), readTail]
  congr 2
  omega

theorem readChar_three {n : Nat} (hlow : 0x7FF < n) (hhigh : n ≤ 0xFFFF)
    (hvalid : n < 0xD800 ∨ 0xDFFF < n) (rest : List UInt8) :
    readChar (n / 4096 % 16 + 224)
      (UInt8.ofNat (n / 64 % 64 + 128) :: UInt8.ofNat (n % 64 + 128) :: rest) =
        (Char.ofNat n, 2) := by
  rw [readChar, if_neg (by omega), secondRange?_of_three (by omega) (by omega)]
  show readTail 2 _ _ (n / 4096 % 16 + 224 - 224) 0 _ = _
  rw [readTail_continuation _ (by split <;> omega) (by split <;> omega),
    readTail_continuation rest (by omega) (by omega), readTail]
  congr 2
  omega

theorem readChar_four {n : Nat} (hlow : 0xFFFF < n) (hhigh : n < 0x110000)
    (rest : List UInt8) :
    readChar (n / 262144 % 8 + 240) (UInt8.ofNat (n / 4096 % 64 + 128) ::
      UInt8.ofNat (n / 64 % 64 + 128) :: UInt8.ofNat (n % 64 + 128) :: rest) =
        (Char.ofNat n, 3) := by
  rw [readChar, if_neg (by omega), secondRange?_of_four (by omega) (by omega)]
  show readTail 3 _ _ (n / 262144 % 8 + 240 - 240) 0 _ = _
  rw [readTail_continuation _ (by split <;> omega) (by split <;> omega),
    readTail_continuation _ (by omega) (by omega),
    readTail_continuation rest (by omega) (by omega), readTail]
  congr 2
  omega

theorem decodeLossy_cons {b : UInt8} {n : Nat} {c : Char} {rest tail : List UInt8} {used : Nat}
    (hb : b.toNat = n) (hread : readChar n rest = (c, used)) (htail : rest.drop used = tail) :
    decodeLossy (b :: rest) = c :: decodeLossy tail := by
  subst hb
  rw [decodeLossy, hread, htail]

/-- The bytes of a character are read as the character. -/
theorem decodeLossy_utf8EncodeChar_append (c : Char) (rest : List UInt8) :
    decodeLossy (String.utf8EncodeChar c ++ rest) = c :: decodeLossy rest := by
  have hvalid : c.toNat < 0xD800 ∨ 0xDFFF < c.toNat ∧ c.toNat < 0x110000 := c.valid
  have hchar : c = Char.ofNat c.toNat := (Char.ofNat_toNat c).symm
  rw [String.utf8EncodeChar]
  generalize hn : c.val.toNat = n
  rw [show c.toNat = n from hn] at hvalid hchar
  rw [hchar]
  split
  · exact decodeLossy_cons (toNat_byte (by omega)) (if_pos (by omega)) rfl
  · split
    · exact decodeLossy_cons (toNat_byte (by omega)) (readChar_two (by omega) (by omega) rest) rfl
    · split
      · exact decodeLossy_cons (toNat_byte (by omega))
          (readChar_three (by omega) (by omega) (by omega) rest) rfl
      · exact decodeLossy_cons (toNat_byte (by omega))
          (readChar_four (by omega) (by omega) rest) rfl

/-! ### Encodings -/

/-- Bytes, each written as `%` and two hexadecimal digits. -/
inductive Escapes : List UInt8 → List Char → Prop
  | nil : Escapes [] []
  | cons {byte : UInt8} {bytes : List UInt8} {high low : Char} {digits : List Char}
    (hbyte : hexByte? high low = some byte) (hbytes : Escapes bytes digits) :
    Escapes (byte :: bytes) ('%' :: high :: low :: digits)

/-- A text and one of its encodings: each character is kept or escaped, and `%` is not kept. -/
inductive PercentEncodes : List Char → List Char → Prop
  | nil : PercentEncodes [] []
  | kept {c : Char} {s encoding : List Char} (hc : c ≠ '%') (h : PercentEncodes s encoding) :
    PercentEncodes (c :: s) (c :: encoding)
  | escaped {c : Char} {s digits encoding : List Char}
    (hdigits : Escapes (String.utf8EncodeChar c) digits) (h : PercentEncodes s encoding) :
    PercentEncodes (c :: s) (digits ++ encoding)

theorem PercentEncodes.append {s t encoding behind : List Char} (hs : PercentEncodes s encoding)
    (ht : PercentEncodes t behind) : PercentEncodes (s ++ t) (encoding ++ behind) := by
  induction hs with
  | nil => exact ht
  | kept hc _ ih => exact .kept hc ih
  | escaped hdigits _ ih =>
    rw [List.append_assoc]
    exact .escaped hdigits ih

theorem percentEncodes_self {s : List Char} (h : '%' ∉ s) : PercentEncodes s s := by
  induction s with
  | nil => exact .nil
  | cons c s ih =>
    rw [List.mem_cons, not_or] at h
    exact .kept (Ne.symm h.1) (ih h.2)

theorem percentEncodes_of_escapes {c : Char} {digits : List Char}
    (h : Escapes (String.utf8EncodeChar c) digits) : PercentEncodes [c] digits := by
  have happend := PercentEncodes.escaped h .nil
  rwa [List.append_nil] at happend

theorem lt_of_hexValue?_eq_some {c : Char} {value : Nat} (h : hexValue? c = some value) :
    c.toNat < 128 := by
  have hcode : ∀ {last : Char}, last.toNat < 128 → c ≤ last → c.toNat < 128 := by
    intro last hlast hle
    exact Nat.lt_of_le_of_lt hle hlast
  unfold hexValue? at h
  simp only [Bool.and_eq_true, decide_eq_true_eq] at h
  split at h
  · rename_i hdigit
    exact hcode (by decide) hdigit.2
  · split at h
    · rename_i hsmall
      exact hcode (by decide) hsmall.2
    · split at h
      · rename_i hcapital
        exact hcode (by decide) hcapital.2
      · cases h

theorem Escapes.isAscii {bytes : List UInt8} {digits : List Char} (h : Escapes bytes digits) :
    IsAscii digits := by
  induction h with
  | nil => exact List.forall_mem_nil _
  | @cons byte bytes high low digits hbyte _ ih =>
    obtain ⟨highValue, hhigh, hrest⟩ := Option.bind_eq_some_iff.mp hbyte
    obtain ⟨lowValue, hlow, -⟩ := Option.bind_eq_some_iff.mp hrest
    have hmark : IsAscii ['%', high, low] := by
      intro c hc
      rcases List.mem_cons.mp hc with rfl | hc
      · decide
      · rcases List.mem_pair.mp hc with rfl | rfl
        · exact lt_of_hexValue?_eq_some hhigh
        · exact lt_of_hexValue?_eq_some hlow
    exact hmark.append ih

/-! ### Decoding -/

theorem Escapes.percentBytes_append {bytes : List UInt8} {digits : List Char}
    (h : Escapes bytes digits) (rest : List Char) :
    percentBytes (digits ++ rest) = bytes ++ percentBytes rest := by
  induction h with
  | nil => rfl
  | cons hbyte _ ih =>
    rw [List.cons_append, List.cons_append, List.cons_append, percentBytes, hbyte]
    exact congrArg (_ :: ·) ih

theorem percentBytes_cons_of_ne {c : Char} (hc : c ≠ '%') (rest : List Char) :
    percentBytes (c :: rest) = UInt8.ofNat c.toNat :: percentBytes rest :=
  percentBytes.eq_2 c rest fun _ _ _ hmark _ => hc hmark

theorem utf8EncodeChar_of_lt {c : Char} (h : c.toNat < 128) :
    String.utf8EncodeChar c = [UInt8.ofNat c.toNat] :=
  if_pos (Nat.le_of_lt_succ h)

/-- An encoding of ASCII characters is read as one run of bytes. -/
theorem PercentEncodes.decodeLossy_percentBytes {s encoding : List Char}
    (h : PercentEncodes s encoding) (hascii : IsAscii encoding) :
    decodeLossy (percentBytes encoding) = s := by
  induction h with
  | nil => rw [percentBytes, decodeLossy]
  | kept hc _ ih =>
    have hparts := List.forall_mem_cons.mp hascii
    rw [percentBytes_cons_of_ne hc, ← List.singleton_append, ← utf8EncodeChar_of_lt hparts.1,
      decodeLossy_utf8EncodeChar_append, ih hparts.2]
  | escaped hdigits _ ih =>
    rw [hdigits.percentBytes_append, decodeLossy_utf8EncodeChar_append, ih hascii.right]

theorem percentDecodeFrom_append {s : List Char} (h : IsAscii s) (rest run : List Char) :
    percentDecodeFrom (s ++ rest) run = percentDecodeFrom rest (s.reverse ++ run) := by
  induction s generalizing run with
  | nil => rfl
  | cons c s ih =>
    have hparts := List.forall_mem_cons.mp h
    rw [List.cons_append, percentDecodeFrom, if_pos hparts.1, ih hparts.2, List.reverse_cons,
      List.append_assoc]
    rfl

/-- The run that was read is an encoding of what stands before, and the rest is one of what stands
behind. -/
theorem percentDecodeFrom_of_percentEncodes {s encoding : List Char}
    (h : PercentEncodes s encoding) {before run : List Char}
    (hrun : PercentEncodes before run.reverse) (hascii : IsAscii run.reverse) :
    percentDecodeFrom encoding run = before ++ s := by
  induction h generalizing before run with
  | nil => rw [percentDecodeFrom, hrun.decodeLossy_percentBytes hascii, List.append_nil]
  | @kept c s encoding hc h ih =>
    rw [percentDecodeFrom]
    by_cases hc' : c.toNat < 128
    · have hgrown : PercentEncodes (before ++ [c]) (c :: run).reverse := by
        rw [List.reverse_cons]
        exact hrun.append (.kept hc .nil)
      have hgrownAscii : IsAscii (c :: run).reverse := by
        rw [List.reverse_cons]
        exact hascii.append (List.forall_mem_singleton.mpr hc')
      rw [if_pos hc', ih hgrown hgrownAscii, List.append_assoc]
      rfl
    · have hnone : PercentEncodes [] ([] : List Char).reverse := .nil
      rw [if_neg hc', hrun.decodeLossy_percentBytes hascii, ih hnone (List.forall_mem_nil _)]
      rfl
  | @escaped c s digits encoding hdigits h ih =>
    have hgrown : PercentEncodes (before ++ [c]) (digits.reverse ++ run).reverse := by
      rw [List.reverse_append, List.reverse_reverse]
      exact hrun.append (percentEncodes_of_escapes hdigits)
    have hgrownAscii : IsAscii (digits.reverse ++ run).reverse := by
      rw [List.reverse_append, List.reverse_reverse]
      exact hascii.append hdigits.isAscii
    rw [percentDecodeFrom_append hdigits.isAscii, ih hgrown hgrownAscii, List.append_assoc]
    rfl

/-- Every encoding of a text is decoded to it. -/
theorem percentDecode_of_percentEncodes {s encoding : List Char}
    (h : PercentEncodes s encoding) : percentDecode encoding = s := by
  have hnone : PercentEncodes [] ([] : List Char).reverse := .nil
  exact percentDecodeFrom_of_percentEncodes h hnone (List.forall_mem_nil _)

end ScriptTypings.Text
