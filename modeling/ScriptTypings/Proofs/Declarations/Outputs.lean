import ScriptTypings.Declarations.Signature
import ScriptTypings.Proofs.Text.Trim
import ScriptTypings.Proofs.Trace

/-!
# Output parameters

A parameter is an output if its name bears a mark at its end, in any casing and with any white space
behind it. Folding takes the outputs out of the parameters and puts them into the result, in front
of the function's own one, so that no type and no description is lost, repeated or moved
(`foldOutputs_conserves`). What is folded has no outputs, so folding again changes nothing.
-/

namespace ScriptTypings

open Text

namespace Declarations

/-! ### The mark -/

/-- A name that ends with the output mark, in any casing and with any white space behind it. -/
def BearsMark (name : String) : Prop :=
  ∃ front mark gap, name.toList = front ++ mark ++ gap ∧ mark.map Char.toLower = outMark ∧
    AllBlank gap

theorem eq_bracket_of_toLower {c : Char} (h : c.toLower = ']') : c = ']' := by
  unfold Char.toLower at h
  split at h
  · rename_i hupper
    obtain ⟨hlow, hhigh⟩ := hupper
    have hval : c.val + 32 = 93 := congrArg Char.val h
    grind
  · exact h

/-- The last character of a mark is no white space. -/
theorem exists_eq_concat_of_mark {mark : List Char} (h : mark.map Char.toLower = outMark) :
    ∃ letters, mark = letters ++ [']'] := by
  have hmark : outMark = "[out".toList ++ [']'] := rfl
  rcases List.eq_nil_or_concat' mark with rfl | ⟨letters, c, rfl⟩
  · cases h
  · rw [List.map_append, hmark] at h
    obtain ⟨-, hlast⟩ := List.append_inj' h rfl
    exact ⟨letters, by rw [eq_bracket_of_toLower (List.cons.inj hlast).1]⟩

theorem unmarked?_eq_some_iff {name plain : List Char} :
    unmarked? name = some plain ↔ ∃ front mark gap, name = front ++ mark ++ gap ∧
      mark.map Char.toLower = outMark ∧ AllBlank gap ∧ plain = trimEnd front := by
  constructor
  · intro h
    rw [unmarked?] at h
    split at h
    · rename_i hmark
      obtain ⟨gap, hgap, hname⟩ := exists_trimEnd name
      refine ⟨_, _, gap, ?_, hmark, hgap, (Option.some.inj h).symm⟩
      rw [List.length_take, Nat.min_eq_left (Nat.sub_le _ _), List.take_append_drop]
      exact hname
    · cases h
  · rintro ⟨front, mark, gap, rfl, hmark, hgap, rfl⟩
    have hlength : mark.length = outMark.length := by
      rw [← List.length_map (f := Char.toLower), hmark]
    have hbody : trimEnd (front ++ mark ++ gap) = front ++ mark := by
      obtain ⟨letters, rfl⟩ := exists_eq_concat_of_mark hmark
      have hcut := trimEnd_append_cons (c := ']') (by decide) (front ++ letters) gap
      rw [trimEnd_of_allBlank hgap] at hcut
      simpa using hcut
    have hfront : (front ++ mark).length - outMark.length = front.length := by
      rw [List.length_append, hlength, Nat.add_sub_cancel]
    simp only [unmarked?, hbody, hfront, List.take_left, List.drop_left, hmark, if_true]

theorem isOutput_iff {name : String} : isOutput name = true ↔ BearsMark name := by
  rw [isOutput, Option.isSome_iff_exists]
  constructor
  · rintro ⟨plain, hplain⟩
    obtain ⟨front, mark, gap, hname, hmark, hgap, -⟩ := unmarked?_eq_some_iff.mp hplain
    exact ⟨front, mark, gap, hname, hmark, hgap⟩
  · rintro ⟨front, mark, gap, hname, hmark, hgap⟩
    exact ⟨_, unmarked?_eq_some_iff.mpr ⟨front, mark, gap, hname, hmark, hgap, rfl⟩⟩

instance (name : String) : Decidable (BearsMark name) :=
  decidable_of_iff (isOutput name = true) isOutput_iff

theorem not_isOutput_iff {name : String} : (!isOutput name) = true ↔ ¬ BearsMark name := by
  rw [Bool.not_eq_true', ← isOutput_iff, Bool.not_eq_true]

end Declarations

open Declarations

/-! ### What is folded -/

/-- The parameters that are outputs. -/
def Signature.outputs (signature : Signature) : List Slot :=
  signature.parameters.filter fun p => BearsMark p.name.asText

/-- The parameters that are none. -/
def Signature.inputs (signature : Signature) : List Slot :=
  signature.parameters.filter fun p => ¬ BearsMark p.name.asText

/-- The type and the description of a slot. -/
def Slot.content (slot : Slot) : Json × Json :=
  (slot.typeName, slot.description)

/-- The types and descriptions that a result holds. -/
def Returned.contents : Returned → List (Json × Json)
  | .typed typeName description => [(typeName, description)]
  | .fields members _ => members.map Slot.content
  | _ => []

namespace Declarations

variable {signature : Signature}

/-- A slot without the mark of its name. -/
def withoutSlotMark (slot : Slot) : Slot :=
  { slot with name := withoutMark slot.name.asText }

theorem filter_isOutput (signature : Signature) :
    (signature.parameters.filter fun p => isOutput p.name.asText) = signature.outputs :=
  List.filter_congr fun p _ => by
    rw [Bool.eq_iff_iff, isOutput_iff, decide_eq_true_iff]

theorem filter_not_isOutput (signature : Signature) :
    (signature.parameters.filter fun p => !isOutput p.name.asText) = signature.inputs :=
  List.filter_congr fun p _ => by
    rw [Bool.eq_iff_iff, not_isOutput_iff, decide_eq_true_iff]

theorem foldOutputs_eq (signature : Signature) :
    foldOutputs signature =
      if signature.outputs = [] then signature
      else { signature with
        parameters := signature.inputs
        returned := foldedResult (signature.outputs.map withoutSlotMark) signature.returned } := by
  rw [foldOutputs, filter_isOutput, filter_not_isOutput]
  by_cases hnone : signature.outputs = []
  · rw [if_pos hnone, hnone]
    rfl
  · rw [if_neg hnone, if_neg (by simpa using hnone)]
    rfl

theorem inputs_eq_parameters (h : signature.outputs = []) :
    signature.inputs = signature.parameters := by
  rw [Signature.outputs, List.filter_eq_nil_iff] at h
  refine List.filter_eq_self.mpr fun p hp => ?_
  simpa using h p hp

theorem parameters_foldOutputs (signature : Signature) :
    (foldOutputs signature).parameters = signature.inputs := by
  rw [foldOutputs_eq]
  split
  · rename_i hnone
    exact (inputs_eq_parameters hnone).symm
  · rfl

/-- Nothing that is left among the parameters is an output. -/
theorem outputs_foldOutputs (signature : Signature) : (foldOutputs signature).outputs = [] := by
  rw [Signature.outputs, parameters_foldOutputs, Signature.inputs, List.filter_filter]
  refine List.filter_eq_nil_iff.mpr fun p _ => ?_
  simp

theorem foldOutputs_of_outputs_eq_nil (h : signature.outputs = []) :
    foldOutputs signature = signature := by
  rw [foldOutputs_eq, if_pos h]

theorem foldOutputs_foldOutputs (signature : Signature) :
    foldOutputs (foldOutputs signature) = foldOutputs signature :=
  foldOutputs_of_outputs_eq_nil (outputs_foldOutputs signature)

/-! ### The folded result -/

theorem contents_foldedResult {outputs : List Slot} {own : Returned}
    (hown : own = .nothing ∨ ∃ typeName description, own = .typed typeName description) :
    (foldedResult outputs own).contents = outputs.map Slot.content ++ own.contents := by
  unfold foldedResult
  split
  · rfl
  · rw [Returned.contents, List.map_append]
    obtain rfl | ⟨typeName, description, rfl⟩ := hown <;> rfl

theorem map_content_withoutSlotMark (slots : List Slot) :
    (slots.map withoutSlotMark).map Slot.content = slots.map Slot.content := by
  rw [List.map_map]
  rfl

/-- What folding makes of a signature: the inputs stay parameters, and the contents of the outputs
stand in front of those of the function's own result. One output alone becomes the result, several
are fields of it under their names without the mark, the function's own result behind them. -/
structure FoldsOutputs (signature folded : Signature) : Prop where
  unmarked : ∀ p ∈ folded.parameters, ¬ BearsMark p.name.asText
  parameters : folded.parameters = signature.inputs
  contents : folded.returned.contents =
    signature.outputs.map Slot.content ++ signature.returned.contents
  unchanged : signature.outputs = [] → folded = signature
  single : ∀ output, signature.outputs = [output] → signature.returned = .nothing →
    folded.returned = .typed output.typeName output.description
  several : signature.outputs ≠ [] →
    (signature.outputs.length = 1 → signature.returned ≠ .nothing) →
    ∃ members, folded.returned = .fields members "" ∧
      members.map Slot.name = signature.outputs.map (fun p => .text (withoutMark p.name.asText)) ++
        if signature.returned = .nothing then [] else [.text "returnValue"]
  others : folded =
    { signature with parameters := folded.parameters, returned := folded.returned }

theorem foldedResult_of_several {outputs : List Slot} {own : Returned}
    (h : outputs.length = 1 → own ≠ .nothing) :
    foldedResult outputs own = .fields (outputs ++ (resultField? own).toList) "" := by
  unfold foldedResult
  split
  · exact absurd rfl (h rfl)
  · rfl

theorem names_resultField {own : Returned}
    (hown : own = .nothing ∨ ∃ typeName description, own = .typed typeName description) :
    (resultField? own).toList.map Slot.name =
      if own = .nothing then [] else [.text "returnValue"] := by
  obtain rfl | ⟨typeName, description, rfl⟩ := hown <;> rfl

/-- Folding keeps every parameter, type and description of a signature whose result is none or has
a type, and folding again changes nothing. It comes to its end if the names are texts. -/
theorem foldOutputs_conserves {signature : Signature}
    (hown : signature.returned = .nothing ∨
      ∃ typeName description, signature.returned = .typed typeName description) :
    FoldsOutputs signature (foldOutputs signature) ∧
    foldOutputs (foldOutputs signature) = foldOutputs signature ∧
    ((foldTrace signature).misfit? = none ↔
      ∀ p ∈ signature.parameters, p.name.isText = true) := by
  have hfolded : signature.outputs ≠ [] → (foldOutputs signature).returned =
      foldedResult (signature.outputs.map withoutSlotMark) signature.returned := by
    intro hsome
    rw [foldOutputs_eq, if_neg hsome]
  refine ⟨?_, foldOutputs_foldOutputs signature, ?_⟩
  · refine ⟨?_, parameters_foldOutputs signature, ?_, foldOutputs_of_outputs_eq_nil, ?_, ?_, ?_⟩
    · intro p hp
      rw [parameters_foldOutputs] at hp
      simpa using (List.mem_filter.mp hp).2
    · by_cases hnone : signature.outputs = []
      · rw [foldOutputs_of_outputs_eq_nil hnone, hnone]
        rfl
      · rw [hfolded hnone, contents_foldedResult hown, map_content_withoutSlotMark]
    · intro output houtput hnothing
      rw [hfolded (houtput ▸ List.cons_ne_nil _ _), houtput, hnothing]
      rfl
    · intro hsome hseveral
      refine ⟨_, (hfolded hsome).trans (foldedResult_of_several ?_), ?_⟩
      · rwa [List.length_map]
      · rw [List.map_append, names_resultField hown, List.map_map]
        rfl
    · rw [foldOutputs_eq]
      split <;> rfl
  · rw [foldTrace, Trace.misfit?_flatMap_eq_none_iff]
    simp only [Trace.misfit?_combine_eq_none_iff]

/-- A function with two outputs, one of them with a mark within its name, and a result. -/
def sizeSignature : Signature where
  description := "Measures."
  parameters :=
    [{ name := "width [OUT]\t", typeName := "Number", description := "The width." },
     { name := "[out] unit", typeName := "String" },
     { name := "height [out] [out]", typeName := "Number" }]
  returned := .typed "Boolean" "Whether there is a size."

/-- The mark at the end is taken away once, and one at another place stays. -/
theorem foldOutputs_conserves_size :
    let folded := foldOutputs sizeSignature
    (sizeSignature.returned = .nothing ∨
      ∃ typeName description, sizeSignature.returned = .typed typeName description) ∧
    folded.parameters = [{ name := "[out] unit", typeName := "String" }] ∧
    folded.returned = .fields
      [{ name := "width", typeName := "Number", description := "The width." },
       { name := "height [out]", typeName := "Number" },
       { name := "returnValue", typeName := "Boolean", description := "Whether there is a size." }]
      "" ∧
    folded.returned.contents =
      sizeSignature.outputs.map Slot.content ++ sizeSignature.returned.contents ∧
    (foldTrace sizeSignature).misfit? = none := by
  have hown : sizeSignature.returned = .nothing ∨
      ∃ typeName description, sizeSignature.returned = .typed typeName description :=
    .inr ⟨_, _, rfl⟩
  obtain ⟨hfolds, -, hends⟩ := foldOutputs_conserves hown
  refine ⟨hown, ?_, ?_, hfolds.contents, hends.mpr (by decide)⟩
  · decide +kernel
  · decide +kernel

end Declarations

end ScriptTypings
