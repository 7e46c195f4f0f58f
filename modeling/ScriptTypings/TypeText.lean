import ScriptTypings.Text.Blank
import ScriptTypings.Text.Search

/-!
# Cutting type texts

Types are written as names with type arguments in angle brackets, separated by commas. A comma
inside brackets belongs to an argument. `splitTopLevel` cuts at the separators outside all brackets
and `splitGeneric` takes a type apart into its base name and its arguments.
-/

namespace ScriptTypings.TypeText

open Text

/-- The mark of an array type, before the type of its elements. -/
def arrayOf : List Char := "array of".toList

/-- The mark of an array type and the space behind it. -/
def arrayLead : List Char := "array of ".toList

theorem length_arrayLead : arrayLead.length = 9 := rfl

/-- The bracket depth behind a character. -/
def depthAfter (depth : Int) (c : Char) : Int :=
  if c = '<' then depth + 1 else if c = '>' then depth - 1 else depth

/-- The pieces between the separators at depth zero; the piece being read is held backwards. A
separator is one character, so a longer text separates nothing. -/
def pieces (separator : List Char) : Int → List Char → List Char → List (List Char)
  | _, piece, [] => [piece.reverse]
  | depth, piece, c :: rest =>
    let depth := depthAfter depth c
    if [c] = separator && depth = 0 then piece.reverse :: pieces separator depth [] rest
    else pieces separator depth (c :: piece) rest

/-- The trimmed pieces between the separators outside angle brackets, without blank ones. -/
def splitTopLevel (separator : List Char) (s : List Char) : List (List Char) :=
  ((pieces separator 0 [] s).map trim).filter fun piece => !piece.isEmpty

/-- The type names of a clause, which may begin with a colon. -/
def splitInterfaceList (clause : List Char) : List (List Char) :=
  let clause := trim clause
  splitTopLevel [','] ((dropLead? [':'] clause).getD clause)

/-- The base name and the type arguments of a type. -/
def splitGeneric (s : List Char) : List Char × List (List Char) :=
  match splitAt? ['<'] s with
  | some (base, inner) =>
    if endsWith s ['>'] then (trim base, splitTopLevel [','] inner.dropLast) else (trim s, [])
  | none => (trim s, [])

theorem length_le_of_mem_pieces {separator : List Char} {depth : Int} {piece s p : List Char}
    (h : p ∈ pieces separator depth piece s) : p.length ≤ piece.length + s.length := by
  induction s generalizing depth piece with
  | nil => simp_all [pieces]
  | cons c rest ih =>
    rw [pieces] at h
    split at h
    · rcases List.mem_cons.mp h with rfl | h
      · simp
      · have := ih h
        simp at this ⊢
        omega
    · have := ih h
      simp at this ⊢
      omega

theorem length_le_of_mem_splitTopLevel {separator : List Char} {s p : List Char}
    (h : p ∈ splitTopLevel separator s) : p.length ≤ s.length := by
  obtain ⟨h, -⟩ := List.mem_filter.mp h
  obtain ⟨q, hq, rfl⟩ := List.mem_map.mp h
  have := length_le_of_mem_pieces hq
  have := length_trim_le q
  simp at *
  omega

theorem length_of_splitAt? {needle s before after : List Char}
    (h : splitAt? needle s = some (before, after)) :
    before.length + needle.length + after.length = s.length := by
  induction s generalizing before after with
  | nil =>
    cases needle <;> simp_all [splitAt?]
  | cons c rest ih =>
    rw [splitAt?] at h
    split at h
    · rename_i found
      have := length_of_dropLead? found
      simp at h this ⊢
      obtain ⟨rfl, rfl⟩ := h
      simp
      omega
    · obtain ⟨⟨b, a⟩, hba, heq⟩ := Option.map_eq_some_iff.mp h
      obtain ⟨rfl, rfl⟩ := Prod.mk.inj heq
      have := ih hba
      simp
      omega

/-- Arguments are shorter than the type they belong to. -/
theorem length_lt_of_mem_arguments {s a : List Char} (h : a ∈ (splitGeneric s).2) :
    a.length < s.length := by
  unfold splitGeneric at h
  split at h
  · rename_i found
    split at h
    · have := length_le_of_mem_splitTopLevel h
      have := length_of_splitAt? found
      simp at *
      omega
    · simp at h
  · simp at h

end ScriptTypings.TypeText
