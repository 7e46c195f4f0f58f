import ScriptTypings.Proofs.Declarations.Completion
import ScriptTypings.Proofs.Declarations.Outputs
import ScriptTypings.Proofs.Declarations.Overloads

/-!
# Lines of constructors

A constructor gives back a new instance, and its line has no result type. Every signature of a
function has its line among those of the function (`overloadLine_mem_signatureLines`), and a
constructor without output parameters has one without a result type. With outputs it has one: they
are folded into a result that takes the place of the instance (`signatureLines_constructor`). A
signature that is no constructor has a line with a result type in every case.
-/

namespace ScriptTypings.Declarations

variable {table : ArityTable} {lead name : String} {signature : Signature}
  {signatures : List Signature}

/-! ### A line for every signature -/

/-- Every signature of a function has its line. -/
theorem overloadLine_mem_signatureLines (h : signature ∈ signatures) :
    overloadLine table lead name (foldOutputs signature) ∈
      signatureLines table lead name signatures := by
  have hkey : signatureLine table lead name signature ∈
      (firstsBy (signatureLine table lead name) signatures).map
        (signatureLine table lead name) := by
    rw [map_firstsBy, List.mem_eraseDups]
    exact List.mem_map_of_mem h
  obtain ⟨first, hfirst, hline⟩ := List.mem_map.mp hkey
  rw [signatureLines_eq_flatMap table lead name (List.ne_nil_of_mem h)]
  exact List.mem_flatMap.mpr
    ⟨first, hfirst, List.mem_append_right _ (List.mem_singleton.mpr hline.symm)⟩

/-! ### The form of a line -/

/-- A line with the name in front of parameters, and nothing behind them. -/
def IsConstructorLine (lead name line : String) : Prop :=
  ∃ parameters, line = lead ++ name ++ "(" ++ parameters ++ ");"

/-- The name in front of the parameters that are left. -/
def callText (table : ArityTable) (lead name : String) (signature : Signature) : String :=
  lead ++ name ++ "(" ++ parametersText table signature.parameters ++ ")"

theorem overloadLine_of_newInstance (h : signature.returned = .newInstance) :
    overloadLine table lead name signature = callText table lead name signature ++ ";" :=
  if_pos h

theorem overloadLine_of_ne_newInstance (h : signature.returned ≠ .newInstance) :
    overloadLine table lead name signature =
      callText table lead name signature ++ ": " ++ resultText table name signature.returned ++
        ";" :=
  if_neg h

theorem isConstructorLine_callText :
    IsConstructorLine lead name (callText table lead name signature ++ ";") :=
  ⟨parametersText table signature.parameters, by
    simp only [callText, String.append_assoc]
    rfl⟩

/-- What ends with a literal type ends with no parameters. -/
theorem not_isConstructorLine_fields {members : List Slot} {description : Json} (front : String) :
    ¬ IsConstructorLine lead name
      (front ++ ": " ++ resultText table name (.fields members description) ++ ";") := by
  rintro ⟨parameters, hline⟩
  have hends := congrArg (fun line => line.toList.reverse.take 2) hline
  simp [resultText] at hends

theorem foldedResult_ne_newInstance {outputs : List Slot} {own : Returned} :
    foldedResult outputs own ≠ .newInstance := by
  unfold foldedResult
  split <;> exact nofun

theorem returned_foldOutputs_ne_newInstance (h : signature.returned ≠ .newInstance) :
    (foldOutputs signature).returned ≠ .newInstance := by
  rw [foldOutputs_eq]
  split
  · exact h
  · exact foldedResult_ne_newInstance

theorem returned_foldOutputs_of_newInstance (h : signature.returned = .newInstance)
    (houtputs : signature.outputs ≠ []) :
    (foldOutputs signature).returned = .fields (signature.outputs.map withoutSlotMark) "" := by
  rw [foldOutputs_eq, if_neg houtputs, h]
  have hseveral : foldedResult (signature.outputs.map withoutSlotMark) .newInstance =
      .fields (signature.outputs.map withoutSlotMark ++
        (resultField? .newInstance).toList) "" :=
    foldedResult_of_several fun _ => nofun
  rw [hseveral]
  simp [resultField?, Returned.newInstance]

theorem promiseOf_ne_empty (written : String) : promiseOf written ≠ "" := by
  unfold promiseOf
  dsimp only
  split
  · unfold applied
    split <;> simp
  · split <;> simp

/-- Only a type that is written as nothing leaves the place of the result type empty. -/
theorem exists_typed_of_resultText_eq_empty {returned : Returned}
    (h : resultText table name returned = "") :
    ∃ type description, returned = .typed type description ∧ typeName table type.asText = "" := by
  cases returned with
  | typed type description =>
    rw [resultText] at h
    split at h
    · exact absurd h (promiseOf_ne_empty _)
    · exact ⟨type, description, rfl, h⟩
  | fields members description => simp [resultText] at h
  | _ => exact absurd (show "void" = "" from h) (by decide)

/-- A signature has its line among some lines. Without outputs, the line of a constructor ends
behind all its parameters. With outputs, a literal of these takes the place of a result type. The
line of any other signature has a result type, which is empty only if the documented one is written
so. -/
structure HasLine (table : ArityTable) (lead name : String) (signature : Signature)
    (lines : List String) : Prop where
  mem : overloadLine table lead name (foldOutputs signature) ∈ lines
  form : signature.returned = .newInstance →
    (IsConstructorLine lead name (overloadLine table lead name (foldOutputs signature)) ↔
      signature.outputs = [])
  plain : signature.returned = .newInstance → signature.outputs = [] →
    overloadLine table lead name (foldOutputs signature) =
      callText table lead name signature ++ ";"
  literal : signature.returned = .newInstance → signature.outputs ≠ [] →
    overloadLine table lead name (foldOutputs signature) =
      callText table lead name (foldOutputs signature) ++ ": " ++
        resultText table name (.fields (signature.outputs.map withoutSlotMark) "") ++ ";"
  typed : signature.returned ≠ .newInstance →
    overloadLine table lead name (foldOutputs signature) =
      callText table lead name (foldOutputs signature) ++ ": " ++
        resultText table name (foldOutputs signature).returned ++ ";"
  filled : signature.returned ≠ .newInstance →
    resultText table name (foldOutputs signature).returned = "" →
    ∃ type description, (foldOutputs signature).returned = .typed type description ∧
      typeName table type.asText = ""

theorem overloadLine_of_outputs (h : signature.returned = .newInstance)
    (houtputs : signature.outputs ≠ []) :
    overloadLine table lead name (foldOutputs signature) =
      callText table lead name (foldOutputs signature) ++ ": " ++
        resultText table name (.fields (signature.outputs.map withoutSlotMark) "") ++ ";" := by
  have hreturned := returned_foldOutputs_of_newInstance h houtputs
  have hne : (foldOutputs signature).returned ≠ .newInstance := by
    rw [hreturned]
    exact nofun
  rw [overloadLine_of_ne_newInstance hne, hreturned]

/-- Every signature of a function has its line, and a constructor one of the form of a constructor
exactly if it has no outputs. Nothing stops this for well-typed signatures and a table that requires
no more arguments than are filled in. -/
theorem signatureLines_constructor (table : ArityTable) (lead name : String)
    (signatures : List Signature) :
    (∀ signature ∈ signatures,
      HasLine table lead name signature (signatureLines table lead name signatures)) ∧
    (table.FillsAll → signatures.all Signature.isWellTyped = true →
      (signaturesTrace table lead name signatures).misfit? = none) := by
  refine ⟨fun signature hmem => ?_, fun hfills hsignatures =>
    misfit?_signaturesTrace hfills lead name hsignatures⟩
  have hplain : signature.returned = .newInstance → signature.outputs = [] →
      overloadLine table lead name (foldOutputs signature) =
        callText table lead name signature ++ ";" := by
    intro hnew hnone
    rw [foldOutputs_of_outputs_eq_nil hnone, overloadLine_of_newInstance hnew]
  refine ⟨overloadLine_mem_signatureLines hmem, fun hnew => ⟨fun hform => ?_, fun hnone => ?_⟩,
    hplain, overloadLine_of_outputs, fun hother => ?_,
    fun _ => exists_typed_of_resultText_eq_empty⟩
  · by_contra hsome
    rw [overloadLine_of_outputs hnew hsome] at hform
    exact not_isConstructorLine_fields _ hform
  · rw [hplain hnew hnone]
    exact isConstructorLine_callText
  · exact overloadLine_of_ne_newInstance (returned_foldOutputs_ne_newInstance hother)

/-- A constructor that also gives the size of what it makes. -/
def namedConstructor : Signature where
  parameters :=
    [{ name := "name", typeName := "String" }, { name := "size [out]", typeName := "Number" }]
  returned := .newInstance

/-- The line of a constructor with an output has a result type. -/
theorem signatureLines_constructor_named :
    let signatures := [{ namedConstructor with parameters := [] }, namedConstructor]
    let lines := signatureLines {} "" "constructor" signatures
    lines = ["constructor();", "constructor(name: string): \x7b size: number; \x7d;"] ∧
    (∃ line ∈ lines, IsConstructorLine "" "constructor" line) ∧
    ¬ IsConstructorLine "" "constructor"
      (overloadLine {} "" "constructor" (foldOutputs namedConstructor)) ∧
    (signaturesTrace {} "" "constructor" signatures).misfit? = none := by
  intro signatures lines
  obtain ⟨hlines, hends⟩ := signatureLines_constructor {} "" "constructor" signatures
  have hfirst := hlines { namedConstructor with parameters := [] } List.mem_cons_self
  have hnamed := hlines namedConstructor (List.mem_cons_of_mem _ List.mem_cons_self)
  refine ⟨by decide +kernel, ⟨_, hfirst.mem, (hfirst.form rfl).mpr (by decide)⟩, fun hform => ?_,
    hends nofun (by decide)⟩
  exact absurd ((hnamed.form rfl).mp hform) (by decide)

end ScriptTypings.Declarations
