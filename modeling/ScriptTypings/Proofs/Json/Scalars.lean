import ScriptTypings.Json.Reader
import ScriptTypings.Proofs.Json.Readable
import ScriptTypings.Proofs.Number.Rounding

/-!
# Scalars

What is read as one token and has a value of its own is a scalar, and if it is a number with a
fraction or an exponent, it is rounded.
-/

namespace ScriptTypings.Json

open Number

/-- A number that has the form that rounding gives, or any other token. -/
def Token.isRounded : Token → Bool
  | .scalar (.real x) => x.isCanonical
  | _ => true

/-- A document is a scalar, and rounded. -/
def Document.IsRoundedScalar (document : Document) : Prop :=
  document.isScalar = true ∧ (Token.scalar document).isRounded = true

theorem isRoundedScalar_of_readNumber {negative : Bool} {s : List Char} {found : Document × Nat}
    (h : readNumber negative s = some found) : found.1.IsRoundedScalar := by
  have hreal : ∀ (digits : Nat) (power : Int),
      (Document.real (.ofDecimal negative digits power)).IsRoundedScalar :=
    fun digits power => ⟨rfl, Binary64.isCanonical_ofDecimal negative digits power⟩
  rw [readNumber] at h
  dsimp only at h
  split at h
  · cases h
  split at h
  · rw [← Option.some.inj h]
    exact hreal _ _
  split at h
  · rw [← Option.some.inj h]
    exact ⟨rfl, rfl⟩
  · rw [← Option.some.inj h]
    exact hreal _ _

theorem isRoundedScalar_of_readScalar {s : List Char} {found : Document × List Char}
    (h : readScalar s = some found) : found.1.IsRoundedScalar := by
  unfold readScalar at h
  split at h
  · rename_i word hword
    obtain ⟨w, hw, hlead⟩ := List.exists_of_findSome?_eq_some hword
    obtain ⟨rest, -, hfound⟩ := Option.map_eq_some_iff.mp hlead
    rw [← Option.some.inj h, ← hfound]
    have hwords : ∀ w ∈ words, w.2.IsRoundedScalar := by
      intro w hw
      simp only [words, List.mem_cons, List.not_mem_nil, or_false] at hw
      rcases hw with rfl | rfl | rfl | rfl | rfl | rfl <;> exact ⟨rfl, rfl⟩
    exact hwords w hw
  · split at h
    · obtain ⟨⟨t, rest⟩, -, hfound⟩ := Option.map_eq_some_iff.mp h
      rw [← hfound]
      exact ⟨rfl, rfl⟩
    · obtain ⟨⟨n, size⟩, hread, hfound⟩ := Option.map_eq_some_iff.mp h
      rw [← hfound]
      exact isRoundedScalar_of_readNumber hread
    · obtain ⟨⟨n, size⟩, hread, hfound⟩ := Option.map_eq_some_iff.mp h
      rw [← hfound]
      exact isRoundedScalar_of_readNumber hread

/-- The scalars among the tokens of a text are rounded scalars. -/
theorem isRoundedScalar_of_mem_scanFrom {fuel : Nat} {s : List Char} {document : Document}
    (h : .scalar document ∈ scanFrom fuel s) : document.IsRoundedScalar := by
  induction fuel generalizing s with
  | zero =>
    cases s with
    | nil => cases h
    | cons c rest => cases List.mem_singleton.mp h
  | succ fuel ih =>
    cases s with
    | nil => cases h
    | cons c rest =>
      rw [scanFrom] at h
      split at h
      · exact ih h
      split at h
      · rename_i token htoken
        rcases List.mem_cons.mp h with rfl | h
        · unfold punctuation? at htoken
          split at htoken <;> cases htoken
        · exact ih h
      split at h
      · rename_i found rest' hread
        rcases List.mem_cons.mp h with heq | h
        · obtain rfl := Token.scalar.inj heq
          exact isRoundedScalar_of_readScalar hread
        · exact ih h
      · cases List.mem_singleton.mp h

/-- All tokens of a text are rounded. -/
theorem isRounded_of_mem_scanFrom {fuel : Nat} {s : List Char} {t : Token}
    (h : t ∈ scanFrom fuel s) : t.isRounded = true := by
  cases t with
  | scalar document => exact (isRoundedScalar_of_mem_scanFrom h).2
  | _ => rfl

end ScriptTypings.Json
