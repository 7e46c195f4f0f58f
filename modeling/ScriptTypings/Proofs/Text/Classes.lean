import ScriptTypings.Text.Classes

/-!
# Classes of characters

The characters of some ranges, and those below a bound, are known by their code points, so that
what holds of all of them can be checked one by one (`of_inRanges`, `of_toNat_lt`). So every
character that ends a line is white space, and white space is no word character.
-/

namespace ScriptTypings.Text

/-- What holds of each code point below a bound holds of the characters below it. -/
theorem of_toNat_lt {P : Char → Prop} {bound : Nat} (h : ∀ n < bound, P (Char.ofNat n)) {c : Char}
    (hc : c.toNat < bound) : P c := by
  have hchar := h c.toNat hc
  rwa [Char.ofNat_toNat] at hchar

/-- What holds of each code point in some ranges holds of the characters there. -/
theorem of_inRanges {P : Char → Prop} {ranges : List (Nat × Nat)}
    (h : ∀ r ∈ ranges, ∀ k, k ≤ r.2 - r.1 → P (Char.ofNat (r.1 + k))) {c : Char}
    (hc : inRanges ranges c.toNat = true) : P c := by
  obtain ⟨r, hr, hin⟩ := List.any_eq_true.mp hc
  simp only [Bool.and_eq_true, decide_eq_true_eq] at hin
  have hchar := h r hr (c.toNat - r.1) (by omega)
  rwa [Nat.add_sub_cancel' hin.1, Char.ofNat_toNat] at hchar

theorem isBlank_of_endsLine {c : Char} (h : endsLine c = true) : isBlank c = true :=
  of_inRanges (P := fun c => isBlank c = true) (by decide) h

theorem isWord_of_isBlank {c : Char} (h : isBlank c = true) : isWord c = false :=
  of_inRanges (P := fun c => isWord c = false) (by decide +kernel) h

theorem isBlank_of_isWord {c : Char} (h : isWord c = true) : isBlank c = false :=
  Bool.eq_false_iff.mpr fun hblank => Bool.false_ne_true ((isWord_of_isBlank hblank).symm.trans h)

theorem isWord_of_isAsciiLetter {c : Char} (h : isAsciiLetter c = true) : isWord c = true := by
  have hbound : c.toNat < 128 := by
    simp only [isAsciiLetter, Bool.or_eq_true, Bool.and_eq_true, decide_eq_true_eq, Char.le_def,
      UInt32.le_iff_toNat_le] at h
    have hz : 'z'.val.toNat = 122 := rfl
    have hZ : 'Z'.val.toNat = 90 := rfl
    rw [Char.toNat]
    omega
  rw [isWord, if_pos hbound, h]
  rfl

end ScriptTypings.Text
