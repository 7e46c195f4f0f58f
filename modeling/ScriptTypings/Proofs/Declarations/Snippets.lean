import ScriptTypings.Declarations.Emitter
import ScriptTypings.Proofs.Surface.Snippets

/-!
# Declarations without code samples

No line of a declaration shows a code sample: `declarationText?_mapSnippets` says that the text is
the same whatever the code samples are, and `rootTrace_mapSnippets` that writing it takes the same
steps.
-/

namespace ScriptTypings.Declarations

variable (f : NameMap Json → NameMap Json) (table : ArityTable)

/-! ### Signatures -/

@[simp] theorem foldOutputs_mapSnippets (signature : Signature) :
    foldOutputs (signature.mapSnippets f) = (foldOutputs signature).mapSnippets f := by
  simp only [foldOutputs, apply_ite (Signature.mapSnippets f)]
  rfl

@[simp] theorem overloadLine_mapSnippets (lead name : String) (signature : Signature) :
    overloadLine table lead name (signature.mapSnippets f) =
      overloadLine table lead name signature := rfl

@[simp] theorem signatureComment_mapSnippets (signature : Signature) :
    signatureComment (signature.mapSnippets f) = signatureComment signature := rfl

theorem overloadLines_mapSnippets (lead name : String) (written : List String)
    (signatures : List Signature) :
    overloadLines table lead name written (signatures.map (Signature.mapSnippets f)) =
      overloadLines table lead name written signatures := by
  induction signatures generalizing written with
  | nil => rfl
  | cons signature signatures ih => simp [overloadLines, ih]

theorem overloadsTrace_mapSnippets (lead name : String) (written : List String)
    (signatures : List Signature) :
    overloadsTrace table lead name written (signatures.map (Signature.mapSnippets f)) =
      overloadsTrace table lead name written signatures := by
  induction signatures generalizing written with
  | nil => rfl
  | cons signature signatures ih =>
    simp only [List.map_cons, overloadsTrace, foldOutputs_mapSnippets, overloadLine_mapSnippets, ih]
    rfl

@[simp] theorem signatureLines_mapSnippets (lead name : String) (signatures : List Signature) :
    signatureLines table lead name (signatures.map (Signature.mapSnippets f)) =
      signatureLines table lead name signatures := by
  simp [signatureLines, overloadLines_mapSnippets]

@[simp] theorem signaturesTrace_mapSnippets (lead name : String) (signatures : List Signature) :
    signaturesTrace table lead name (signatures.map (Signature.mapSnippets f)) =
      signaturesTrace table lead name signatures :=
  overloadsTrace_mapSnippets ..

/-! ### Declared types -/

@[simp] theorem delegateLines_mapSnippets (name : String) (description : Json)
    (signature : Signature) :
    delegateLines table name description (signature.mapSnippets f) =
      delegateLines table name description signature := by
  rw [delegateLines, delegateLines, foldOutputs_mapSnippets]
  rfl

@[simp] theorem delegateTrace_mapSnippets (description : Json) (signature : Signature) :
    delegateTrace table description (signature.mapSnippets f) =
      delegateTrace table description signature := by
  rw [delegateTrace, delegateTrace, foldOutputs_mapSnippets]
  rfl

@[simp] theorem interfaceLines_mapSnippets (d : InterfaceDeclaration) :
    interfaceLines table (d.mapSnippets f) = interfaceLines table d := by
  simp [interfaceLines, InterfaceDeclaration.mapSnippets, NameMap.mapValues, List.flatMap_map]

@[simp] theorem interfaceTrace_mapSnippets (d : InterfaceDeclaration) :
    interfaceTrace table (d.mapSnippets f) = interfaceTrace table d := by
  simp [interfaceTrace, InterfaceDeclaration.mapSnippets, NameMap.mapValues, List.flatMap_map]

/-! ### Classes -/

@[simp] theorem classMemberLines_mapSnippets (lead name : String) (node : Surface) :
    classMemberLines table lead name (node.mapSnippets f) =
      classMemberLines table lead name node := by
  cases node <;> first | rfl | exact signatureLines_mapSnippets ..

@[simp] theorem classMemberTrace_mapSnippets (lead name : String) (node : Surface) :
    classMemberTrace table lead name (node.mapSnippets f) =
      classMemberTrace table lead name node := by
  cases node <;> first | rfl | exact signaturesTrace_mapSnippets ..

open Surface in
theorem listenerLines_mapSnippets (lead : String) (members : List (String × Surface)) :
    listenerLines table lead (mapSnippetsOf f members) = listenerLines table lead members := by
  rw [listenerLines, listenerLines, mapSnippetsOf_eq_map, List.flatMap_map]
  congr 2
  funext m
  obtain ⟨name, node⟩ := m
  cases node <;> rfl

open Surface in
theorem listenerTrace_mapSnippets (members : List (String × Surface)) :
    listenerTrace table (mapSnippetsOf f members) = listenerTrace table members := by
  rw [listenerTrace, listenerTrace, mapSnippetsOf_eq_map, List.flatMap_map]
  congr 1
  funext m
  obtain ⟨name, node⟩ := m
  cases node <;> rfl

open Surface in
theorem classBody_mapSnippets (header : ClassHeader) (statics prototype : List (String × Surface)) :
    classBody table (header.mapSnippets f) (mapSnippetsOf f statics) (mapSnippetsOf f prototype) =
      classBody table header statics prototype := by
  simp only [classBody, listenerLines_mapSnippets]
  cases h : header.constructor <;>
    simp [mapSnippetsOf_eq_map, List.filter_map, List.flatMap_map, Function.comp_def,
      ClassHeader.mapSnippets, classElement?, h]

open Surface in
theorem classTrace_mapSnippets (header : ClassHeader)
    (statics prototype : List (String × Surface)) :
    classTrace table (header.mapSnippets f) (mapSnippetsOf f statics) (mapSnippetsOf f prototype) =
      classTrace table header statics prototype := by
  simp only [classTrace, listenerTrace_mapSnippets]
  cases h : header.constructor <;>
    simp [mapSnippetsOf_eq_map, List.filter_map, List.flatMap_map, Function.comp_def,
      ClassHeader.mapSnippets, classElement?, h]

/-! ### Enumerations and namespaces -/

open Surface in
@[simp] theorem enumerationBody_mapSnippets (members : List (String × Surface)) :
    enumerationBody (mapSnippetsOf f members) = enumerationBody members := by
  rw [enumerationBody, enumerationBody, mapSnippetsOf_eq_map, List.flatMap_map]
  congr 1
  funext m
  obtain ⟨name, node⟩ := m
  cases node <;> rfl

open Surface in
@[simp] theorem enumerationTrace_mapSnippets (members : List (String × Surface)) :
    enumerationTrace (mapSnippetsOf f members) = enumerationTrace members := by
  rw [enumerationTrace, enumerationTrace, mapSnippetsOf_eq_map, List.flatMap_map]
  congr 1
  funext m
  obtain ⟨name, node⟩ := m
  cases node <;> rfl

open Surface in
theorem any_isNested_mapSnippetsOf (members : List (String × Surface)) :
    ((mapSnippetsOf f members).any fun m => m.2.isNested) = members.any fun m => m.2.isNested := by
  simp [mapSnippetsOf_eq_map, List.any_map, Function.comp_def]

open Surface in
theorem emit_mapSnippets :
    (∀ s name, emit table name (s.mapSnippets f) = emit table name s) ∧
      ∀ ms, emitMembers table (mapSnippetsOf f ms) = emitMembers table ms ∧
        emitNested table (mapSnippetsOf f ms) = emitNested table ms := by
  refine tree_induction ?space ?enumeration ?cls ?leaf ?nil ?cons
  case space =>
    intro own fullname description members ih name
    rw [mapSnippets, emit, emit, ih.1]
  case enumeration =>
    intro own fullname description members ih name
    rw [mapSnippets, emit, emit, enumerationBody_mapSnippets]
  case cls =>
    intro header statics prototype ihs ihp name
    rw [mapSnippets, emit, emit, classBody_mapSnippets, ihs.2, any_isNested_mapSnippetsOf]
    rfl
  case leaf =>
    intro s hs name
    cases s with
    | delegate own fullname description signature => exact delegateLines_mapSnippets ..
    | interface declaration => exact interfaceLines_mapSnippets ..
    | function signatures => exact signatureLines_mapSnippets ..
    | space _ _ _ _ => cases hs
    | enumeration _ _ _ _ => cases hs
    | cls _ _ _ => cases hs
    | _ => rfl
  case nil => exact ⟨rfl, rfl⟩
  case cons =>
    intro name node members ihn ihm
    constructor
    · rw [mapSnippetsOf, emitMembers, emitMembers, ihn, ihm.1]
    · rw [mapSnippetsOf, emitNested, emitNested, ihn, ihm.2, isNested_mapSnippets]

open Surface in
theorem emitTrace_mapSnippets :
    (∀ s name, emitTrace table name (s.mapSnippets f) = emitTrace table name s) ∧
      ∀ ms, emitMembersTrace table (mapSnippetsOf f ms) = emitMembersTrace table ms ∧
        emitNestedTrace table (mapSnippetsOf f ms) = emitNestedTrace table ms := by
  refine tree_induction ?space ?enumeration ?cls ?leaf ?nil ?cons
  case space =>
    intro own fullname description members ih name
    rw [mapSnippets, emitTrace, emitTrace, ih.1]
  case enumeration =>
    intro own fullname description members ih name
    rw [mapSnippets, emitTrace, emitTrace, enumerationTrace_mapSnippets]
  case cls =>
    intro header statics prototype ihs ihp name
    rw [mapSnippets, emitTrace, emitTrace, classTrace_mapSnippets, ihs.2]
    rfl
  case leaf =>
    intro s hs name
    cases s with
    | delegate own fullname description signature => exact delegateTrace_mapSnippets ..
    | interface declaration => exact interfaceTrace_mapSnippets ..
    | function signatures => exact signaturesTrace_mapSnippets ..
    | space _ _ _ _ => cases hs
    | enumeration _ _ _ _ => cases hs
    | cls _ _ _ => cases hs
    | _ => rfl
  case nil => exact ⟨rfl, rfl⟩
  case cons =>
    intro name node members ihn ihm
    constructor
    · rw [mapSnippetsOf, emitMembersTrace, emitMembersTrace, ihn, ihm.1]
    · rw [mapSnippetsOf, emitNestedTrace, emitNestedTrace, ihn, ihm.2, isNested_mapSnippets]

/-! ### Roots -/

theorem rootParts?_mapSnippets (root : Surface) : rootParts? (root.mapSnippets f) =
    (rootParts? root).map fun p => (p.1, p.2.1, Surface.mapSnippetsOf f p.2.2) := by
  cases root <;> rfl

/-- Code samples take no step of the writing. -/
theorem rootTrace_mapSnippets (root : Surface) :
    rootTrace table (root.mapSnippets f) = rootTrace table root := by
  rw [rootTrace, rootTrace, rootParts?_mapSnippets]
  cases rootParts? root with
  | none => rfl
  | some parts => simp [((emitTrace_mapSnippets f table).2 parts.2.2).1]

/-- A declaration file shows no code samples. -/
theorem declarationText?_mapSnippets (header : String) (root : Surface) :
    declarationText? table header (root.mapSnippets f) = declarationText? table header root := by
  rw [declarationText?, declarationText?, rootParts?_mapSnippets, Option.map_map]
  congr 1
  funext parts
  simp [rootLines, ((emit_mapSnippets f table).2 parts.2.2).1]

end ScriptTypings.Declarations
