import ScriptTypings.Json.Writer
import ScriptTypings.Proofs.Json.Readable

/-!
# The characters of a written value

Controls inside of texts are escaped, so that a written value has no control character but the line
feeds of its layout.
-/

namespace ScriptTypings.Json

open Text Number

/-- No control character but the line feed. -/
def IsPlain (s : List Char) : Prop :=
  ∀ c ∈ s, c = '\n' ∨ 32 ≤ c.toNat

instance : DecidablePred IsPlain :=
  fun s => List.decidableBAll _ s

theorem isPlain_append {s t : List Char} : IsPlain (s ++ t) ↔ IsPlain s ∧ IsPlain t :=
  List.forall_mem_append

theorem isPlain_cons {c : Char} {s : List Char} :
    IsPlain (c :: s) ↔ (c = '\n' ∨ 32 ≤ c.toNat) ∧ IsPlain s :=
  List.forall_mem_cons

theorem isPlain_nil : IsPlain [] := nofun

theorem le_hexDigit : ∀ n < 16, 32 ≤ (hexDigit n).toNat := by decide

theorem isPlain_hex (width n : Nat) : IsPlain (hex width n) := by
  induction width generalizing n with
  | zero => exact isPlain_nil
  | succ width ih =>
    rw [hex, isPlain_append, isPlain_cons]
    exact ⟨ih _, .inr (le_hexDigit _ (Nat.mod_lt _ (by decide))), isPlain_nil⟩

theorem isPlain_escapeChar (c : Char) : IsPlain (escapeChar c) := by
  unfold escapeChar
  repeat' split
  all_goals try decide
  · exact isPlain_cons.mpr ⟨.inr (by decide), isPlain_cons.mpr ⟨.inr (by decide), isPlain_hex _ _⟩⟩
  · rename_i h
    exact isPlain_cons.mpr ⟨.inr (Nat.not_lt.mp h), isPlain_nil⟩

theorem isPlain_quoteText (s : String) : IsPlain (quoteText s) := by
  rw [quoteText, isPlain_cons, isPlain_append]
  refine ⟨.inr (by decide), fun c hc => ?_, by decide⟩
  obtain ⟨d, _, hd⟩ := List.mem_flatMap.mp hc
  exact isPlain_escapeChar d c hd

theorem isPlain_gap (layout : Layout) (depth : Nat) : IsPlain (layout.gap depth) := by
  unfold Layout.gap
  split
  · exact isPlain_nil
  · refine isPlain_cons.mpr ⟨.inl rfl, fun c hc => ?_⟩
    rw [(List.mem_replicate.mp hc).2]
    exact .inr (by decide)

theorem isPlain_separator (layout : Layout) (depth : Nat) : IsPlain (layout.separator depth) := by
  unfold Layout.separator
  split
  · decide
  · exact isPlain_cons.mpr ⟨.inr (by decide), isPlain_gap layout depth⟩

theorem isPlain_toDigits (n : Nat) : IsPlain (Nat.toDigits 10 n) := by
  intro c hc
  have hdigit := Nat.isDigit_of_mem_toDigits (by decide) (by decide) hc
  simp only [Char.isDigit, Bool.and_eq_true, decide_eq_true_eq] at hdigit
  exact .inr (Nat.le_trans (by decide) (UInt32.le_iff_toNat_le.mp hdigit.1))

theorem isPlain_toString (n : Int) : IsPlain (toString n).toList := by
  rw [Int.toString_eq_repr]
  cases n with
  | ofNat m =>
    simp only [Int.repr, Nat.toList_repr]
    exact isPlain_toDigits m
  | negSucc m =>
    simp only [Int.repr, String.toList_append, Nat.toList_repr]
    exact isPlain_cons.mpr ⟨.inr (by decide), isPlain_toDigits _⟩

theorem IsPlain.subset {s t : List Char} (h : IsPlain t) (hsubset : s ⊆ t) : IsPlain s :=
  fun c hc => h c (hsubset hc)

theorem isPlain_zeros (count : Nat) : IsPlain (List.replicate count '0') := by
  intro c hc
  rw [(List.mem_replicate.mp hc).2]
  exact .inr (by decide)

theorem isPlain_significantDigits (n : Nat) : IsPlain (significantDigits n) := by
  refine (isPlain_toDigits n).subset fun c hc => ?_
  rw [significantDigits, List.mem_reverse] at hc
  exact List.mem_reverse.mp ((List.dropWhile_sublist _).subset hc)

theorem isPlain_positional {digits : List Char} (h : IsPlain digits) (point : Int) :
    IsPlain (positional digits point) := by
  rw [positional]
  split
  · simp only [List.cons_append, isPlain_cons, isPlain_append]
    exact ⟨.inr (by decide), .inr (by decide), isPlain_zeros _, h⟩
  · dsimp only
    simp only [isPlain_cons, isPlain_append]
    refine ⟨⟨h.subset (List.take_subset _ _), isPlain_zeros _⟩, .inr (by decide), ?_⟩
    split
    · decide
    · exact h.subset (List.drop_subset _ _)

theorem isPlain_scientific {digits : List Char} (h : IsPlain digits) (power : Int) :
    IsPlain (scientific digits power) := by
  rw [scientific]
  simp only [isPlain_cons, isPlain_append]
  refine ⟨⟨h.subset (List.take_subset _ _), ?_⟩, .inr (by decide), ?_, ?_⟩
  · split
    · exact isPlain_nil
    · exact isPlain_cons.mpr ⟨.inr (by decide), h.subset (List.drop_subset _ _)⟩
  · split
    · exact .inr (by decide)
    · exact .inr (by decide)
  · split
    · exact isPlain_cons.mpr ⟨.inr (by decide), isPlain_toDigits _⟩
    · exact isPlain_toDigits _

theorem isPlain_text (x : Binary64) : IsPlain (x.text "Infinity" "NaN").toList := by
  cases x with
  | notANumber => decide
  | infinite negative => cases negative <;> decide
  | finite negative mantissa exponent =>
    have hfinite : IsPlain (finiteText mantissa exponent) := by
      rw [finiteText]
      split
      · decide
      · dsimp only
        split
        · exact isPlain_positional (isPlain_significantDigits _) _
        · exact isPlain_scientific (isPlain_significantDigits _) _
    rw [Binary64.text, String.toList_append, String.toList_ofList, isPlain_append]
    refine ⟨?_, hfinite⟩
    cases negative <;> decide

theorem isPlain_writeItems {layout : Layout} {items : List Json}
    (h : ∀ item ∈ items, ∀ depth, IsPlain (writeChars layout depth item)) (depth : Nat) :
    IsPlain (writeItems layout depth items) := by
  induction items with
  | nil => exact isPlain_nil
  | cons item items ih =>
    rw [List.forall_mem_cons] at h
    rw [writeItems, isPlain_append, isPlain_append]
    exact ⟨⟨isPlain_separator layout depth, h.1 depth⟩, ih h.2⟩

theorem isPlain_writeMembers {layout : Layout} {members : List (String × Json)}
    (h : ∀ m ∈ members, ∀ depth, IsPlain (writeChars layout depth m.2)) (depth : Nat) :
    IsPlain (writeMembers layout depth members) := by
  induction members with
  | nil => exact isPlain_nil
  | cons member members ih =>
    rw [List.forall_mem_cons] at h
    simp only [writeMembers, isPlain_append, isPlain_cons]
    exact ⟨⟨⟨isPlain_separator layout depth, isPlain_quoteText member.1⟩, .inr (by decide),
      .inr (by decide), h.1 depth⟩, ih h.2⟩

/-- A written value has no control characters but the line feeds of its layout. -/
theorem isPlain_writeChars (layout : Layout) (value : Json) (depth : Nat) :
    IsPlain (writeChars layout depth value) := by
  induction value using tree_induction generalizing depth with
  | list items ih =>
    cases items with
    | nil => rw [writeChars]; decide
    | cons item items =>
      rw [List.forall_mem_cons] at ih
      have hitems := isPlain_writeItems ih.2 (depth + 1)
      simp only [writeChars, isPlain_append, isPlain_cons]
      exact ⟨⟨⟨.inr (by decide), isPlain_gap _ _⟩, ih.1 _⟩, hitems, isPlain_gap _ _,
        .inr (by decide), isPlain_nil⟩
  | object members ih =>
    cases members with
    | nil => rw [writeChars]; decide
    | cons member members =>
      rw [List.forall_mem_cons] at ih
      have hmembers := isPlain_writeMembers ih.2 (depth + 1)
      simp only [writeChars, isPlain_append, isPlain_cons]
      exact ⟨⟨⟨⟨.inr (by decide), isPlain_gap _ _⟩, isPlain_quoteText member.1⟩,
        .inr (by decide), .inr (by decide), ih.1 _⟩, hmembers, isPlain_gap _ _,
        .inr (by decide), isPlain_nil⟩
  | scalar value hscalar =>
    cases value with
    | null => rw [writeChars]; decide
    | bool value => cases value <;> rw [writeChars] <;> decide
    | whole n => exact isPlain_toString n
    | real x => exact isPlain_text x
    | text s => exact isPlain_quoteText s
    | list items => cases hscalar
    | object members => cases hscalar

/-- Reading would take a carriage return for a line feed, but no written value has one. -/
theorem not_mem_write (layout : Layout) (value : Json) :
    '\r' ∉ (value.write layout ++ "\n").toList := by
  rw [write, String.toList_append, String.toList_ofList, List.mem_append, not_or]
  refine ⟨fun hmem => ?_, by decide⟩
  exact absurd (isPlain_writeChars layout value 0 _ hmem) (by decide)

end ScriptTypings.Json
