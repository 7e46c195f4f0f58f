import ScriptTypings.Proofs.Declarations.Comment
import ScriptTypings.Proofs.Surface.Descriptions

/-!
# Declarations without descriptions

Descriptions are written as comments and as nothing else: `uncommented_emit` says that the lines for
a node whose descriptions are empty are its lines without whole comments.
-/

namespace ScriptTypings.Declarations

variable (table : ArityTable)

/-! ### Signatures -/

/-- No comment ends in the name of a parameter. -/
def EndsNoComment (signature : Signature) : Prop :=
  ∀ p ∈ signature.parameters, HasNoEnd p.name.asText.toList

instance (signature : Signature) : Decidable (EndsNoComment signature) :=
  inferInstanceAs (Decidable (∀ p ∈ signature.parameters, HasNoEnd p.name.asText.toList))

theorem resultField?_withoutDescriptions (own : Returned) :
    resultField? own.withoutDescriptions = (resultField? own).map Slot.withoutDescription := by
  cases own <;> rfl

theorem foldedResult_withoutDescriptions (outputs : List Slot) (own : Returned) :
    foldedResult (outputs.map Slot.withoutDescription) own.withoutDescriptions =
      (foldedResult outputs own).withoutDescriptions := by
  have hfields : outputs.map Slot.withoutDescription ++
      (resultField? own.withoutDescriptions).toList =
        (outputs ++ (resultField? own).toList).map Slot.withoutDescription := by
    rw [resultField?_withoutDescriptions, List.map_append]
    cases resultField? own <;> rfl
  -- one output alone may become the result
  rcases outputs with _ | ⟨output, _ | ⟨second, outputs⟩⟩
  · exact congrArg (Returned.fields · "") hfields
  · cases own with
    | nothing => rfl
    | _ => exact congrArg (Returned.fields · "") hfields
  · exact congrArg (Returned.fields · "") hfields

theorem foldOutputs_withoutDescriptions (signature : Signature) :
    foldOutputs signature.withoutDescriptions = (foldOutputs signature).withoutDescriptions := by
  have hfilter : ∀ test : Slot → Bool, (∀ p, test p.withoutDescription = test p) →
      (signature.parameters.map Slot.withoutDescription).filter test =
        (signature.parameters.filter test).map Slot.withoutDescription := by
    intro test htest
    rw [List.filter_map]
    exact congrArg _ (List.filter_congr fun p _ => htest p)
  have houtputs := hfilter (fun p => isOutput p.name.asText) fun _ => rfl
  have hinputs := hfilter (fun p => !isOutput p.name.asText) fun _ => rfl
  simp only [foldOutputs, Signature.withoutDescriptions, houtputs, hinputs, List.isEmpty_map]
  split
  · rfl
  · simp only [← foldedResult_withoutDescriptions, List.map_map]
    rfl

theorem EndsNoComment.foldOutputs {signature : Signature} (h : EndsNoComment signature) :
    EndsNoComment (foldOutputs signature) := by
  unfold Declarations.foldOutputs
  extract_lets outputs
  split
  · exact h
  · exact fun p hp => h p (List.mem_of_mem_filter hp)

@[simp] theorem parametersText_withoutDescription (parameters : List Slot) :
    parametersText table (parameters.map Slot.withoutDescription) =
      parametersText table parameters := by
  rw [parametersText, List.map_map]
  rfl

@[simp] theorem resultText_withoutDescriptions (name : String) (returned : Returned) :
    resultText table name returned.withoutDescriptions = resultText table name returned := by
  cases returned with
  | fields members description =>
    simp only [Returned.withoutDescriptions, resultText, List.map_map]
    rfl
  | _ => rfl

theorem withoutDescriptions_eq_newInstance (returned : Returned) :
    returned.withoutDescriptions = .newInstance ↔ returned = .newInstance := by
  cases returned <;> simp [Returned.withoutDescriptions, Returned.newInstance]

theorem overloadLine_withoutDescriptions (lead name : String) (signature : Signature) :
    overloadLine table lead name signature.withoutDescriptions =
      overloadLine table lead name signature := by
  simp [overloadLine, Signature.withoutDescriptions, withoutDescriptions_eq_newInstance]

theorem signatureComment_withoutDescriptions (signature : Signature) :
    signatureComment signature.withoutDescriptions = [] := by
  have hparameters : (signature.parameters.map Slot.withoutDescription).filterMap
      parameterTag? = [] := by
    refine List.filterMap_eq_nil_iff.mpr fun p hp => ?_
    obtain ⟨slot, -, rfl⟩ := List.mem_map.mp hp
    rfl
  have hreturned : returnTag? signature.returned.withoutDescriptions = none := by
    cases signature.returned <;> rfl
  simp only [signatureComment, Signature.withoutDescriptions, hparameters, hreturned]
  rfl

/-- Overloads are told apart by their lines, to which no description belongs. -/
theorem uncommented_overloadLines (lead name : String) (written : List String)
    {signatures : List Signature} (h : ∀ signature ∈ signatures, EndsNoComment signature) :
    Uncommented (overloadLines table lead name written signatures)
      (overloadLines table lead name written (signatures.map Signature.withoutDescriptions)) := by
  induction signatures generalizing written with
  | nil => exact .nil
  | cons signature signatures ih =>
    obtain ⟨hsignature, hsignatures⟩ := List.forall_mem_cons.mp h
    simp only [List.map_cons, overloadLines, foldOutputs_withoutDescriptions,
      overloadLine_withoutDescriptions, signatureComment_withoutDescriptions]
    split
    · exact ih written hsignatures
    · refine Uncommented.comment_append ?_ (.keep _ (ih _ hsignatures))
      exact signatureComment_eq_nil_or hsignature.foldOutputs

theorem uncommented_signatureLines (lead name : String) {signatures : List Signature}
    (h : ∀ signature ∈ signatures, EndsNoComment signature) :
    Uncommented (signatureLines table lead name signatures)
      (signatureLines table lead name (signatures.map Signature.withoutDescriptions)) := by
  rw [signatureLines, signatureLines, List.isEmpty_map]
  split
  · exact .refl _
  · exact uncommented_overloadLines table lead name [] h

/-! ### Described lines and blocks -/

theorem uncommented_documented (description : Json) {lines rest : List String}
    (h : Uncommented lines rest) : Uncommented (docComment description ++ lines) rest :=
  h.comment_append (docComment_eq_nil_or description)

theorem uncommented_typedLine (lead name : String) (description type : Json) :
    Uncommented (typedLine table lead name description type) (typedLine table lead name "" type) :=
  uncommented_documented description (.refl _)

theorem uncommented_block (description : Json) (opening : String) {lines rest : List String}
    (h : Uncommented lines rest) :
    Uncommented (block description opening lines) (block "" opening rest) := by
  rw [block, block, List.append_assoc]
  exact uncommented_documented description (.keep _ (h.indent.append (.refl _)))

theorem uncommented_recordLines (name : String) (description : Json) (members : List Slot) :
    Uncommented (recordLines table name description members)
      (recordLines table name "" (members.map Slot.withoutDescription)) :=
  uncommented_block _ _ (.flatMap fun _ _ => uncommented_typedLine ..)

theorem uncommented_delegateLines (name : String) (description : Json) (signature : Signature) :
    Uncommented (delegateLines table name description signature)
      (delegateLines table name "" signature.withoutDescriptions) := by
  rw [delegateLines, delegateLines, foldOutputs_withoutDescriptions]
  simp only [Signature.withoutDescriptions, parametersText_withoutDescription,
    resultText_withoutDescriptions]
  exact uncommented_documented description (.refl _)

theorem uncommented_interfaceLines {d : InterfaceDeclaration}
    (h : ∀ signature ∈ d.methods.flatMap Prod.snd, EndsNoComment signature) :
    Uncommented (interfaceLines table d) (interfaceLines table d.withoutDescriptions) := by
  refine uncommented_block _ _ (Uncommented.append ?_ ?_)
  · exact .flatMap fun _ _ => uncommented_typedLine ..
  · refine .flatMap fun m hm => uncommented_signatureLines table _ _ fun signature hsignature => ?_
    exact h signature (List.mem_flatMap.mpr ⟨m, hm, hsignature⟩)

/-! ### Classes -/

theorem uncommented_classMemberLines (lead name : String) {node : Surface}
    (h : ∀ signature ∈ node.signatures, EndsNoComment signature) :
    Uncommented (classMemberLines table lead name node)
      (classMemberLines table lead name node.withoutDescriptions) := by
  cases node with
  | function signatures => exact uncommented_signatureLines table lead _ h
  | property member => exact uncommented_typedLine ..
  | event handler description => exact uncommented_typedLine ..
  | _ => exact .refl _

open Surface in
theorem listenerLines_withoutDescriptions (lead : String) (members : List (String × Surface)) :
    listenerLines table lead (withoutDescriptionsOf members) =
      listenerLines table lead members := by
  rw [listenerLines, listenerLines, withoutDescriptionsOf_eq_map, List.flatMap_map]
  congr 2
  funext m
  obtain ⟨name, node⟩ := m
  cases node <;> rfl

section Members

open Surface

variable {ms statics prototype : List (String × Surface)}

/-- The lines for some of the members, which are chosen by what does not depend on descriptions. -/
theorem uncommented_flatMap_filter {test : String × Surface → Bool}
    (htest : ∀ m : String × Surface, test (m.1, m.2.withoutDescriptions) = test m)
    {lines : String × Surface → List String}
    (hlines : ∀ m ∈ ms, Uncommented (lines m) (lines (m.1, m.2.withoutDescriptions))) :
    Uncommented ((ms.filter test).flatMap lines)
      (((withoutDescriptionsOf ms).filter test).flatMap lines) := by
  rw [filter_withoutDescriptionsOf htest]
  exact .flatMap fun m hm => hlines m (List.mem_of_mem_filter hm)

theorem uncommented_classMembers (lead : String)
    (h : ∀ signature ∈ signaturesOf ms, EndsNoComment signature) :
    ∀ m ∈ ms, Uncommented (classMemberLines table lead m.1 m.2)
      (classMemberLines table lead m.1 m.2.withoutDescriptions) :=
  fun _ hm => uncommented_classMemberLines table lead _ fun signature hsignature =>
    h signature (signatures_subset_signaturesOf hm hsignature)

theorem uncommented_classBody {header : ClassHeader}
    (hconstructor : ∀ signature ∈ header.constructor.getD [], EndsNoComment signature)
    (hstatics : ∀ signature ∈ signaturesOf statics, EndsNoComment signature)
    (hprototype : ∀ signature ∈ signaturesOf prototype, EndsNoComment signature) :
    Uncommented (classBody table header statics prototype)
      (classBody table header.withoutDescriptions (withoutDescriptionsOf statics)
        (withoutDescriptionsOf prototype)) := by
  have helement : classElement? table header.withoutDescriptions = classElement? table header := rfl
  simp only [classBody, helement, listenerLines_withoutDescriptions]
  refine .append (.append (.append (.append (.append ?_ ?_) (.refl _)) (.refl _)) ?_) (.refl _)
  · simp only [ClassHeader.withoutDescriptions]
    cases h : header.constructor with
    | none => exact .nil
    | some signatures =>
      rw [h] at hconstructor
      exact uncommented_signatureLines table "" "constructor" hconstructor
  · exact uncommented_flatMap_filter (fun m => by rw [isNested_withoutDescriptions])
      (uncommented_classMembers table "static " hstatics)
  · exact uncommented_flatMap_filter (fun m => rfl) (uncommented_classMembers table "" hprototype)

/-! ### Enumerations and namespaces -/

theorem uncommented_enumerationBody (ms : List (String × Surface)) :
    Uncommented (enumerationBody ms) (enumerationBody (withoutDescriptionsOf ms)) := by
  rw [enumerationBody, enumerationBody, withoutDescriptionsOf_eq_map]
  refine .flatMap fun m _ => ?_
  obtain ⟨name, node⟩ := m
  cases node with
  | property member => exact uncommented_documented _ (.refl _)
  | _ => exact .refl _

theorem any_isNested_withoutDescriptionsOf (ms : List (String × Surface)) :
    ((withoutDescriptionsOf ms).any fun m => m.2.isNested) = ms.any fun m => m.2.isNested := by
  simp [withoutDescriptionsOf_eq_map, List.any_map, Function.comp_def]

/-- Induction over the surface: what is written for a node with empty descriptions is what is
written for it, without some comments. -/
theorem uncommented_emit_and_members :
    (∀ s : Surface, (∀ signature ∈ s.signatures, EndsNoComment signature) →
      ∀ name, Uncommented (emit table name s) (emit table name s.withoutDescriptions)) ∧
    ∀ ms, (∀ signature ∈ signaturesOf ms, EndsNoComment signature) →
      Uncommented (emitMembers table ms) (emitMembers table (withoutDescriptionsOf ms)) ∧
      Uncommented (emitNested table ms) (emitNested table (withoutDescriptionsOf ms)) := by
  refine tree_induction ?space ?enumeration ?cls ?leaf ?nil ?cons
  case space =>
    intro own fullname description members ih h name
    rw [withoutDescriptions, emit, emit]
    exact uncommented_block _ _ (ih h).1
  case enumeration =>
    intro own fullname description members ih h name
    rw [withoutDescriptions, emit, emit]
    exact uncommented_block _ _ (uncommented_enumerationBody members)
  case cls =>
    intro header statics prototype ihs ihp h name
    rw [signatures] at h
    have hheader := fun signature hsignature =>
      h signature (List.mem_append_left _ (List.mem_append_left _ hsignature))
    have hstatics := fun signature hsignature =>
      h signature (List.mem_append_left _ (List.mem_append_right _ hsignature))
    have hprototype := fun signature hsignature => h signature (List.mem_append_right _ hsignature)
    rw [withoutDescriptions, emit, emit, any_isNested_withoutDescriptionsOf]
    refine .append (uncommented_block _ _ (uncommented_classBody table hheader hstatics hprototype))
      ?_
    -- types within a class follow in a namespace of its name
    split
    · exact .keep _ ((ihs hstatics).2.indent.append (.refl _))
    · exact .nil
  case leaf =>
    intro s hs h name
    cases s with
    | record own fullname description members => exact uncommented_recordLines ..
    | delegate own fullname description signature => exact uncommented_delegateLines ..
    | interface declaration => exact uncommented_interfaceLines table h
    | function signatures => exact uncommented_signatureLines table "function " name h
    | event handler description => exact uncommented_typedLine ..
    | property member => exact uncommented_typedLine ..
    | unresolved placeholder => exact .refl _
    | space _ _ _ _ => cases hs
    | enumeration _ _ _ _ => cases hs
    | cls _ _ _ => cases hs
  case nil =>
    intro _
    exact ⟨.nil, .nil⟩
  case cons =>
    intro name node members ihn ihm h
    rw [signaturesOf] at h
    have hnode := ihn (fun signature hsignature => h signature (List.mem_append_left _ hsignature))
      name
    obtain ⟨hmembers, hnested⟩ :=
      ihm fun signature hsignature => h signature (List.mem_append_right _ hsignature)
    constructor
    · exact hnode.append hmembers
    · rw [withoutDescriptionsOf, emitNested, emitNested, isNested_withoutDescriptions]
      refine .append ?_ hnested
      split
      · exact hnode
      · exact .nil

end Members

/-! ### Steps of writing

Without descriptions, writing takes some of the steps that it takes with them, and no others.
-/

section Steps

open Surface

theorem sublist_flatMap_map {α β γ : Type} {f : β → List γ} {g : α → List γ} {h : α → β}
    {l : List α} (hall : ∀ a ∈ l, (f (h a)).Sublist (g a)) :
    ((l.map h).flatMap f).Sublist (l.flatMap g) := by
  induction l with
  | nil => exact .slnil
  | cons a l ih =>
    obtain ⟨ha, hl⟩ := List.forall_mem_cons.mp hall
    rw [List.map_cons, List.flatMap_cons, List.flatMap_cons]
    exact ha.append (ih hl)

theorem foldTrace_withoutDescriptions (signature : Signature) :
    foldTrace signature.withoutDescriptions = foldTrace signature :=
  List.flatMap_map ..

theorem flatMap_slotTrace_withoutDescription (slots : List Slot) :
    (slots.map Slot.withoutDescription).flatMap (slotTrace table) =
      slots.flatMap (slotTrace table) :=
  List.flatMap_map ..

theorem resultTrace_withoutDescriptions (returned : Returned) :
    resultTrace table returned.withoutDescriptions = resultTrace table returned := by
  cases returned with
  | fields members description => exact flatMap_slotTrace_withoutDescription table members
  | _ => rfl

theorem overloadTrace_withoutDescriptions (signature : Signature) :
    overloadTrace table signature.withoutDescriptions = overloadTrace table signature := by
  simp only [overloadTrace, Signature.withoutDescriptions, flatMap_slotTrace_withoutDescription,
    resultTrace_withoutDescriptions]

theorem signatureCommentTrace_withoutDescriptions (signature : Signature) :
    signatureCommentTrace signature.withoutDescriptions = [] := by
  have hparameters : (signature.parameters.map Slot.withoutDescription).flatMap
      parameterTagTrace = [] := by
    refine List.flatMap_eq_nil_iff.mpr fun p hp => ?_
    obtain ⟨slot, -, rfl⟩ := List.mem_map.mp hp
    rfl
  have hreturned : Trace.useFilled (α := String)
      (resultDescription signature.returned.withoutDescriptions) = [] := by
    cases signature.returned <;> rfl
  simp only [signatureCommentTrace, Signature.withoutDescriptions, hparameters, hreturned]
  rfl

theorem sublist_signaturesTrace (lead name : String) (signatures : List Signature) :
    (signaturesTrace table lead name (signatures.map Signature.withoutDescriptions)).Sublist
      (signaturesTrace table lead name signatures) := by
  rw [signaturesTrace, signaturesTrace]
  generalize ([] : List String) = written
  induction signatures generalizing written with
  | nil => exact .slnil
  | cons signature signatures ih =>
    simp only [List.map_cons, overloadsTrace, foldOutputs_withoutDescriptions,
      overloadLine_withoutDescriptions, foldTrace_withoutDescriptions,
      overloadTrace_withoutDescriptions, signatureCommentTrace_withoutDescriptions,
      List.nil_append]
    refine List.Sublist.append (.refl _) ?_
    split
    · exact ih written
    · exact List.sublist_append_of_sublist_right (ih _)

theorem sublist_typedTrace (description type : Json) :
    (typedTrace table "" type).Sublist (typedTrace table description type) :=
  List.Sublist.append (List.nil_sublist _) (.refl _)

theorem sublist_recordTrace (description : Json) (members : List Slot) :
    (recordTrace table "" (members.map Slot.withoutDescription)).Sublist
      (recordTrace table description members) :=
  List.Sublist.append (List.nil_sublist _)
    (sublist_flatMap_map fun _ _ => List.Sublist.append (List.nil_sublist _) (.refl _))

theorem sublist_delegateTrace (description : Json) (signature : Signature) :
    (delegateTrace table "" signature.withoutDescriptions).Sublist
      (delegateTrace table description signature) := by
  simp only [delegateTrace, foldTrace_withoutDescriptions, foldOutputs_withoutDescriptions]
  simp only [Signature.withoutDescriptions, flatMap_slotTrace_withoutDescription,
    resultTrace_withoutDescriptions]
  exact (List.Sublist.append (.refl _) (List.nil_sublist _)).append (.refl _)

theorem sublist_interfaceTrace (d : InterfaceDeclaration) :
    (interfaceTrace table d.withoutDescriptions).Sublist (interfaceTrace table d) := by
  refine List.Sublist.append (List.Sublist.append ?_ ?_) ?_
  · exact (List.Sublist.append (List.nil_sublist _) (.refl _)).append (.refl _)
  · exact sublist_flatMap_map fun _ _ => sublist_typedTrace ..
  · exact sublist_flatMap_map fun _ _ => sublist_signaturesTrace ..

theorem sublist_classMemberTrace (lead name : String) (node : Surface) :
    (classMemberTrace table lead name node.withoutDescriptions).Sublist
      (classMemberTrace table lead name node) := by
  cases node with
  | function signatures => exact sublist_signaturesTrace ..
  | property member => exact sublist_typedTrace ..
  | event handler description => exact sublist_typedTrace ..
  | _ => exact .refl _

theorem listenerTrace_withoutDescriptions (members : List (String × Surface)) :
    listenerTrace table (withoutDescriptionsOf members) = listenerTrace table members := by
  rw [listenerTrace, listenerTrace, withoutDescriptionsOf_eq_map, List.flatMap_map]
  congr 1
  funext m
  obtain ⟨name, node⟩ := m
  cases node <;> rfl

theorem sublist_classTrace (header : ClassHeader) (statics prototype : List (String × Surface)) :
    (classTrace table header.withoutDescriptions (withoutDescriptionsOf statics)
      (withoutDescriptionsOf prototype)).Sublist (classTrace table header statics prototype) := by
  have helement : classElement? table header.withoutDescriptions = classElement? table header := rfl
  simp only [classTrace, helement, listenerTrace_withoutDescriptions]
  refine .append (.append (.append (.append (.append (.refl _) ?_) ?_) (.refl _)) ?_) (.refl _)
  · simp only [ClassHeader.withoutDescriptions]
    cases header.constructor with
    | none => exact .slnil
    | some signatures => exact sublist_signaturesTrace ..
  · rw [filter_withoutDescriptionsOf fun m => by rw [isNested_withoutDescriptions]]
    exact sublist_flatMap_map fun _ _ => sublist_classMemberTrace ..
  · rw [filter_withoutDescriptionsOf fun m => rfl]
    exact sublist_flatMap_map fun _ _ => sublist_classMemberTrace ..

theorem sublist_enumerationTrace (ms : List (String × Surface)) :
    (enumerationTrace (withoutDescriptionsOf ms)).Sublist (enumerationTrace ms) := by
  rw [enumerationTrace, enumerationTrace, withoutDescriptionsOf_eq_map]
  refine sublist_flatMap_map fun m _ => ?_
  obtain ⟨name, node⟩ := m
  cases node with
  | property member => exact List.nil_sublist _
  | _ => exact .refl _

theorem sublist_emitTrace_and_members :
    (∀ (s : Surface) name, (emitTrace table name s.withoutDescriptions).Sublist
      (emitTrace table name s)) ∧
    ∀ ms, (emitMembersTrace table (withoutDescriptionsOf ms)).Sublist (emitMembersTrace table ms) ∧
      (emitNestedTrace table (withoutDescriptionsOf ms)).Sublist (emitNestedTrace table ms) := by
  refine tree_induction ?space ?enumeration ?cls ?leaf ?nil ?cons
  case space =>
    intro own fullname description members ih name
    exact List.Sublist.append (List.nil_sublist _) ih.1
  case enumeration =>
    intro own fullname description members ih name
    exact List.Sublist.append (List.nil_sublist _) (sublist_enumerationTrace members)
  case cls =>
    intro header statics prototype ihs ihp name
    exact ((sublist_classTrace ..).append (List.nil_sublist _)).append ihs.2
  case leaf =>
    intro s hs name
    cases s with
    | record own fullname description members => exact sublist_recordTrace ..
    | delegate own fullname description signature => exact sublist_delegateTrace ..
    | interface declaration => exact sublist_interfaceTrace ..
    | function signatures => exact sublist_signaturesTrace ..
    | event handler description => exact sublist_typedTrace ..
    | property member => exact sublist_typedTrace ..
    | unresolved placeholder => exact .slnil
    | space _ _ _ _ => cases hs
    | enumeration _ _ _ _ => cases hs
    | cls _ _ _ => cases hs
  case nil => exact ⟨.slnil, .slnil⟩
  case cons =>
    intro name node members ihn ihm
    constructor
    · exact (ihn name).append ihm.1
    · rw [withoutDescriptionsOf, emitNestedTrace, emitNestedTrace, isNested_withoutDescriptions]
      refine List.Sublist.append ?_ ihm.2
      split
      · exact ihn name
      · exact .slnil

end Steps

/-! ### Nodes and roots -/

open Surface in
theorem rootParts?_withoutDescriptions (root : Surface) :
    rootParts? root.withoutDescriptions =
      (rootParts? root).map fun p => (p.1, .text "", withoutDescriptionsOf p.2.2) := by
  cases root <;> rfl

theorem sublist_rootTrace (root : Surface) :
    (rootTrace table root.withoutDescriptions).Sublist (rootTrace table root) := by
  rw [rootTrace, rootTrace, rootParts?_withoutDescriptions]
  cases rootParts? root with
  | none => exact .slnil
  | some parts =>
    exact List.Sublist.append (List.nil_sublist _) ((sublist_emitTrace_and_members table).2 _).1

/-- Where fewer steps are taken, no more of them stop the writing. -/
theorem misfit?_eq_none_of_sublist {α : Type} {trace trace' : Trace α} (h : trace.Sublist trace')
    (hnone : trace'.misfit? = none) : trace.misfit? = none := by
  induction h with
  | slnil => rfl
  | cons step _ ih =>
    cases step with
    | ok a => exact ih hnone
    | error misfit => cases hnone
  | cons_cons step _ ih =>
    cases step with
    | ok a => exact ih hnone
    | error misfit => cases hnone

theorem signaturesOf_of_rootParts? {root : Surface}
    {parts : String × Json × List (String × Surface)} (h : rootParts? root = some parts) :
    Surface.signaturesOf parts.2.2 = root.signatures := by
  cases root with
  | space name fullname description members => rw [← Option.some.inj h, Surface.signatures]
  | enumeration name fullname description members => rw [← Option.some.inj h, Surface.signatures]
  | _ => cases h

open Surface in
/-- Descriptions are seen in comments only: the lines for a node, alone or as the root of a file,
are those for the node with empty descriptions and whole comments between them. Empty descriptions
stop no writing that does not stop anyway. -/
theorem uncommented_emit (node : Surface)
    (h : ∀ signature ∈ node.signatures, EndsNoComment signature) (table : ArityTable)
    (name : String) :
    Uncommented (emit table name node) (emit table name node.withoutDescriptions) ∧
      ((emitTrace table name node).misfit? = none →
        (emitTrace table name node.withoutDescriptions).misfit? = none) ∧
      ∀ own description members, rootParts? node = some (own, description, members) →
        rootParts? node.withoutDescriptions = some (own, .text "", withoutDescriptionsOf members) ∧
        Uncommented (rootLines table own description members)
          (rootLines table own "" (withoutDescriptionsOf members)) ∧
        ((rootTrace table node).misfit? = none →
          (rootTrace table node.withoutDescriptions).misfit? = none) := by
  have hlines := uncommented_emit_and_members table
  have hsteps := sublist_emitTrace_and_members table
  refine ⟨hlines.1 node h name, misfit?_eq_none_of_sublist (hsteps.1 node name), ?_⟩
  intro own description members hparts
  refine ⟨?_, ?_, misfit?_eq_none_of_sublist (sublist_rootTrace table node)⟩
  · rw [rootParts?_withoutDescriptions, hparts, Option.map_some]
  · rw [← signaturesOf_of_rootParts? hparts] at h
    exact uncommented_block _ _ (hlines.2 members h).1

/-- A namespace with a function whose descriptions try to end their comments. -/
def boldNamespace : Surface :=
  .space "N" "N" "Ends here: */ namespace M \x7b" [("f", .function
    [{ description := "First line.\n*/ second line /*"
       parameters := [⟨"size", "Number", "**//"⟩, ⟨"found [out]", "Boolean", "*/"⟩] }])]

theorem uncommented_emit_boldNamespace :
    (∀ signature ∈ boldNamespace.signatures, EndsNoComment signature) ∧
      Uncommented (emit {} "" boldNamespace) (emit {} "" boldNamespace.withoutDescriptions) := by
  have h : ∀ signature ∈ boldNamespace.signatures, EndsNoComment signature := by decide
  exact ⟨h, (uncommented_emit boldNamespace h {} "").1⟩

end ScriptTypings.Declarations
