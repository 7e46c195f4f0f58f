import ScriptTypings.Proofs.Declarations.Overloads
import ScriptTypings.Proofs.Surface.WellTyped

/-!
# Declarations that do not stop

Writing stops where a value that is no text is used as one, and at a type that lacks more arguments
than are filled in. A well-typed surface has no such value: `misfit?_rootTrace` shows that it is
written to the end, with any table that requires no such number of arguments.
-/

namespace ScriptTypings.Declarations

/-! ### Types -/

/-- No name requires more arguments than are filled in. -/
def ArityTable.FillsAll (table : ArityTable) : Prop :=
  ∀ e ∈ table.counts, e.2 ≤ mostFilled

instance (table : ArityTable) : Decidable table.FillsAll :=
  inferInstanceAs (Decidable (∀ e ∈ table.counts, e.2 ≤ ArityTable.mostFilled))

variable {table : ArityTable}

theorem ArityTable.FillsAll.count_le (h : table.FillsAll) (name : String) :
    table.count name ≤ mostFilled := by
  have hvalue : ∀ key count, NameMap.find? key table.counts = some count → count ≤ mostFilled :=
    fun key count hfind => h _ (NameMap.mem_of_find?_eq_some hfind)
  rw [count]
  split
  · rename_i hfind
    exact hvalue _ _ hfind
  · cases hfind : NameMap.find? (Identifier.lastSegment (Text.lowered name)) table.counts with
    | none => exact Int.natCast_nonneg mostFilled
    | some count => exact hvalue _ _ hfind

theorem ArityTable.FillsAll.excessOf?_eq_none (h : table.FillsAll) (base : String) (given : Nat) :
    excessOf? table base given = none := by
  have hcount := h.count_le base
  have hmissing : table.lacking base given ≤ ArityTable.mostFilled := by
    rw [ArityTable.lacking]
    omega
  simp only [excessOf?, if_pos hmissing, ite_self]

mutual

theorem ArityTable.FillsAll.excess?_eq_none (h : table.FillsAll) :
    ∀ type, excess? table type = none
  | .named base arguments => by
    rw [excess?, h.excessAmong?_eq_none arguments]
    exact h.excessOf?_eq_none ..
  | .array element => h.excess?_eq_none element

theorem ArityTable.FillsAll.excessAmong?_eq_none (h : table.FillsAll) :
    ∀ types, excessAmong? table types = none
  | [] => rfl
  | type :: types => by
    rw [excessAmong?, h.excess?_eq_none type]
    exact h.excessAmong?_eq_none types

end

variable (h : table.FillsAll)

include h

theorem misfit?_typeTrace {type : Json} (htype : type.isText = true) :
    Trace.misfit? (typeTrace table type : WritingTrace) = none := by
  obtain ⟨s, rfl⟩ := Json.exists_of_isText htype
  rw [typeTrace, h.excess?_eq_none]
  rfl

theorem misfit?_typedTrace {description type : Json} (hdescription : description.isText = true)
    (htype : type.isText = true) : (typedTrace table description type).misfit? = none :=
  Trace.misfit?_append_eq_none.mpr
    ⟨Trace.misfit?_useFilled hdescription, misfit?_typeTrace h htype⟩

theorem misfit?_slotTrace {slot : Slot} (hslot : slot.isWellTyped = true) :
    (slotTrace table slot).misfit? = none := by
  obtain ⟨hname, htype, -⟩ := Slot.isWellTyped_iff.mp hslot
  exact Trace.misfit?_append_eq_none.mpr
    ⟨Trace.misfit?_combine hname, misfit?_typeTrace h htype⟩

theorem misfit?_slotTraces {slots : List Slot} (hslots : slots.all Slot.isWellTyped = true) :
    Trace.misfit? (slots.flatMap (slotTrace table)) = none :=
  Trace.misfit?_flatMap_eq_none fun slot hslot =>
    misfit?_slotTrace h (List.all_eq_true.mp hslots slot hslot)

theorem misfit?_typeTraces {types : List Json} (htypes : ∀ type ∈ types, type.isText = true) :
    Trace.misfit? (types.flatMap (typeTrace table) : WritingTrace) = none :=
  Trace.misfit?_flatMap_eq_none fun type htype => misfit?_typeTrace h (htypes type htype)

omit h

theorem misfit?_typeParameters {parameters : List Json}
    (hparameters : ∀ parameter ∈ parameters, parameter.isText = true) :
    Trace.misfit? (parameters.flatMap Trace.combine : WritingTrace) = none :=
  Trace.misfit?_flatMap_eq_none fun parameter hparameter =>
    Trace.misfit?_combine (hparameters parameter hparameter)

/-! ### Signatures -/

theorem isWellTyped_resultField {own : Returned} (hown : own.isWellTyped = true) :
    (resultField? own).toList.all Slot.isWellTyped = true := by
  cases own with
  | typed type description =>
    rw [Returned.isWellTyped] at hown
    rw [resultField?, Option.toList_some, List.all_cons, List.all_nil, Bool.and_true,
      Slot.isWellTyped, Bool.and_assoc, hown]
    rfl
  | _ => rfl

theorem isWellTyped_foldedResult {outputs : List Slot} {own : Returned}
    (houtputs : outputs.all Slot.isWellTyped = true) (hown : own.isWellTyped = true) :
    (foldedResult outputs own).isWellTyped = true := by
  unfold foldedResult
  split
  · rw [List.all_cons, Bool.and_eq_true, Slot.isWellTyped_iff] at houtputs
    rw [Returned.isWellTyped, Bool.and_eq_true]
    exact houtputs.1.2
  · rw [Returned.isWellTyped, List.all_append, houtputs, isWellTyped_resultField hown]
    rfl

theorem isWellTyped_foldOutputs {signature : Signature}
    (hsignature : signature.isWellTyped = true) :
    (foldOutputs signature).isWellTyped = true := by
  obtain ⟨hdescription, hparameters, hreturned, hrest⟩ := Signature.isWellTyped_iff.mp hsignature
  rw [List.all_eq_true] at hparameters
  have houtputs : ((signature.parameters.filter fun p => isOutput p.name.asText).map fun p =>
      { p with name := withoutMark p.name.asText }).all Slot.isWellTyped = true := by
    refine List.all_eq_true.mpr fun output houtput => ?_
    obtain ⟨p, hp, rfl⟩ := List.mem_map.mp houtput
    exact Slot.isWellTyped_iff.mpr
      ⟨rfl, (Slot.isWellTyped_iff.mp (hparameters p (List.mem_filter.mp hp).1)).2⟩
  have hkept : (signature.parameters.filter fun p => !isOutput p.name.asText).all
      Slot.isWellTyped = true :=
    List.all_eq_true.mpr fun p hp => hparameters p (List.mem_filter.mp hp).1
  unfold foldOutputs
  dsimp only
  split
  · exact hsignature
  · exact Signature.isWellTyped_iff.mpr
      ⟨hdescription, hkept, isWellTyped_foldedResult houtputs hreturned, hrest⟩

/-- The names of all parameters are texts. -/
theorem misfit?_foldTrace {signature : Signature} (hsignature : signature.isWellTyped = true) :
    (foldTrace signature).misfit? = none := by
  obtain ⟨-, hparameters, -⟩ := Signature.isWellTyped_iff.mp hsignature
  exact Trace.misfit?_flatMap_eq_none fun p hp =>
    Trace.misfit?_combine (Slot.isWellTyped_iff.mp (List.all_eq_true.mp hparameters p hp)).1

theorem misfit?_signatureCommentTrace {signature : Signature}
    (hsignature : signature.isWellTyped = true) :
    (signatureCommentTrace signature).misfit? = none := by
  obtain ⟨hdescription, hparameters, hreturned, -⟩ := Signature.isWellTyped_iff.mp hsignature
  rw [signatureCommentTrace, Trace.misfit?_append_eq_none, Trace.misfit?_append_eq_none]
  refine ⟨⟨Trace.misfit?_flatMap_eq_none fun p hp => ?_, Trace.misfit?_useFilled ?_⟩,
    Trace.misfit?_useFilled hdescription⟩
  · obtain ⟨hname, -, htext⟩ := Slot.isWellTyped_iff.mp (List.all_eq_true.mp hparameters p hp)
    rw [parameterTagTrace]
    split
    · rfl
    · exact Trace.misfit?_append_eq_none.mpr
        ⟨Trace.misfit?_combine hname, Trace.misfit?_use htext⟩
  · cases hown : signature.returned with
    | typed type description =>
      rw [hown, Returned.isWellTyped, Bool.and_eq_true] at hreturned
      exact hreturned.2
    | fields members description =>
      rw [hown, Returned.isWellTyped, Bool.and_eq_true] at hreturned
      exact hreturned.2
    | _ => rfl

include h

theorem misfit?_resultTrace {returned : Returned} (hreturned : returned.isWellTyped = true) :
    (resultTrace table returned).misfit? = none := by
  cases returned with
  | typed type description =>
    rw [Returned.isWellTyped, Bool.and_eq_true] at hreturned
    exact misfit?_typeTrace h hreturned.1
  | fields members description =>
    rw [Returned.isWellTyped, Bool.and_eq_true] at hreturned
    exact misfit?_slotTraces h hreturned.1
  | _ => rfl

theorem misfit?_overloadTrace {signature : Signature} (hsignature : signature.isWellTyped = true) :
    (overloadTrace table signature).misfit? = none := by
  obtain ⟨-, hparameters, hreturned, -⟩ := Signature.isWellTyped_iff.mp hsignature
  exact Trace.misfit?_append_eq_none.mpr
    ⟨misfit?_slotTraces h hparameters, misfit?_resultTrace h hreturned⟩

theorem misfit?_signaturesTrace (lead name : String) {signatures : List Signature}
    (hsignatures : signatures.all Signature.isWellTyped = true) :
    (signaturesTrace table lead name signatures).misfit? = none := by
  have htyped := List.all_eq_true.mp hsignatures
  refine misfit?_signaturesTrace_eq_none_iff.mpr
    ⟨fun signature hmem => ?_, fun signature hmem => ?_⟩
  · exact Trace.misfit?_append_eq_none.mpr ⟨misfit?_foldTrace (htyped _ hmem),
      misfit?_overloadTrace h (isWellTyped_foldOutputs (htyped _ hmem))⟩
  · exact misfit?_signatureCommentTrace
      (isWellTyped_foldOutputs (htyped _ ((firstsBy_sublist _ _).subset hmem)))

/-! ### Declarations -/

theorem misfit?_recordTrace {description : Json} {members : List Slot}
    (hdescription : description.isText = true) (hmembers : members.all Slot.isWellTyped = true) :
    (recordTrace table description members).misfit? = none := by
  rw [recordTrace, Trace.misfit?_append_eq_none]
  refine ⟨Trace.misfit?_useFilled hdescription, Trace.misfit?_flatMap_eq_none fun m hm => ?_⟩
  have hslot := List.all_eq_true.mp hmembers m hm
  exact Trace.misfit?_append_eq_none.mpr
    ⟨Trace.misfit?_useFilled (Slot.isWellTyped_iff.mp hslot).2.2, misfit?_slotTrace h hslot⟩

theorem misfit?_delegateTrace {description : Json} {signature : Signature}
    (hdescription : description.isText = true) (hsignature : signature.isWellTyped = true) :
    (delegateTrace table description signature).misfit? = none := by
  have hfolded := isWellTyped_foldOutputs hsignature
  obtain ⟨-, hparameters, hreturned, -, -, htypes⟩ := Signature.isWellTyped_iff.mp hfolded
  simp only [delegateTrace, Trace.misfit?_append_eq_none]
  exact ⟨⟨⟨⟨misfit?_foldTrace hsignature, misfit?_typeParameters (List.all_eq_true.mp htypes)⟩,
    misfit?_slotTraces h hparameters⟩, Trace.misfit?_useFilled hdescription⟩,
    misfit?_resultTrace h hreturned⟩

theorem misfit?_interfaceTrace {d : InterfaceDeclaration} (hd : d.IsWellTyped) :
    (interfaceTrace table d).misfit? = none := by
  simp only [interfaceTrace, Trace.misfit?_append_eq_none]
  refine ⟨⟨⟨⟨Trace.misfit?_useFilled hd.description, misfit?_typeParameters hd.typeParameters⟩,
    misfit?_typeTraces h hd.bases⟩, ?_⟩, ?_⟩
  · exact Trace.misfit?_flatMap_eq_none fun p hp =>
      misfit?_typedTrace h (hd.properties p hp).description (hd.properties p hp).typeName
  · exact Trace.misfit?_flatMap_eq_none fun m hm =>
      misfit?_signaturesTrace h "" (memberName m.1) (hd.methods m hm)

/-! ### Classes -/

theorem misfit?_classMemberTrace (lead name : String) {node : Surface} (hnode : node.IsWellTyped) :
    (classMemberTrace table lead name node).misfit? = none := by
  cases node with
  | function signatures => exact misfit?_signaturesTrace h lead (memberName name) hnode
  | property member => exact misfit?_typedTrace h hnode.description hnode.typeName
  | event handler description => exact misfit?_typedTrace h hnode.2 hnode.1
  | _ => rfl

theorem misfit?_listenerTrace {members : List (String × Surface)}
    (hmembers : Surface.AreWellTyped members) :
    (listenerTrace table members).misfit? = none := by
  refine Trace.misfit?_flatMap_eq_none fun m hm => ?_
  have hnode := Surface.areWellTyped_iff.mp hmembers m hm
  obtain ⟨name, node⟩ := m
  cases node with
  | event handler description =>
    refine Trace.misfit?_append_eq_none.mpr ⟨?_, misfit?_typeTrace h hnode.1⟩
    exact Trace.misfit?_flatMap_eq_none fun _ _ => rfl
  | _ => rfl

theorem misfit?_classTrace {header : ClassHeader} {statics prototype : List (String × Surface)}
    (hheader : header.IsWellTyped) (hstatics : Surface.AreWellTyped statics)
    (hprototype : Surface.AreWellTyped prototype) :
    (classTrace table header statics prototype).misfit? = none := by
  have hmembers : ∀ (lead : String) (declared : List (String × Surface)),
      Surface.AreWellTyped declared →
      Trace.misfit? (declared.flatMap fun m => classMemberTrace table lead m.1 m.2) = none :=
    fun lead declared hdeclared => Trace.misfit?_flatMap_eq_none fun m hm =>
      misfit?_classMemberTrace h lead m.1 (Surface.areWellTyped_iff.mp hdeclared m hm)
  simp only [classTrace, Trace.misfit?_append_eq_none]
  refine ⟨⟨⟨⟨⟨misfit?_typeTraces h hheader.interfaces, ?_⟩, ?_⟩, ?_⟩, ?_⟩, ?_⟩
  · have hconstructor := hheader.constructor
    split
    · rename_i hsome
      rw [hsome] at hconstructor
      exact misfit?_signaturesTrace h "" "constructor" hconstructor
    · rfl
  · exact hmembers "static " _ (hstatics.of_subset List.filter_sublist.subset)
  · split
    · exact misfit?_listenerTrace h hstatics
    · rfl
  · exact hmembers "" _ (hprototype.of_subset List.filter_sublist.subset)
  · split
    · exact misfit?_listenerTrace h hprototype
    · rfl

/-! ### The whole -/

omit h in
theorem misfit?_enumerationTrace {members : List (String × Surface)}
    (hmembers : Surface.AreWellTyped members) : (enumerationTrace members).misfit? = none := by
  refine Trace.misfit?_flatMap_eq_none fun m hm => ?_
  have hnode := Surface.areWellTyped_iff.mp hmembers m hm
  obtain ⟨name, node⟩ := m
  cases node with
  | property member => exact Trace.misfit?_useFilled hnode.description
  | _ => rfl

theorem misfit?_emitTrace :
    (∀ s : Surface, s.IsWellTyped → ∀ name, (emitTrace table name s).misfit? = none) ∧
      ∀ ms, Surface.AreWellTyped ms → (emitMembersTrace table ms).misfit? = none ∧
        (emitNestedTrace table ms).misfit? = none := by
  refine Surface.tree_induction ?space ?enumeration ?cls ?leaf ?nil ?cons
  case space =>
    intro own fullname description members ih hs name
    exact Trace.misfit?_append_eq_none.mpr ⟨Trace.misfit?_useFilled hs.1, (ih hs.2).1⟩
  case enumeration =>
    intro own fullname description members _ hs name
    exact Trace.misfit?_append_eq_none.mpr
      ⟨Trace.misfit?_useFilled hs.1, misfit?_enumerationTrace hs.2⟩
  case cls =>
    intro header statics prototype ihs _ hs name
    simp only [emitTrace, Trace.misfit?_append_eq_none]
    exact ⟨⟨misfit?_classTrace h hs.1 hs.2.1 hs.2.2, Trace.misfit?_useFilled hs.1.description⟩,
      (ihs hs.2.1).2⟩
  case leaf =>
    intro s hflat hs name
    cases s with
    | record own fullname description members => exact misfit?_recordTrace h hs.1 hs.2
    | delegate own fullname description signature => exact misfit?_delegateTrace h hs.1 hs.2
    | interface declaration => exact misfit?_interfaceTrace h hs
    | function signatures => exact misfit?_signaturesTrace h "function " name hs
    | event handler description => exact misfit?_typedTrace h hs.2 hs.1
    | property member => exact misfit?_typedTrace h hs.description hs.typeName
    | unresolved placeholder => rfl
    | space _ _ _ _ => cases hflat
    | enumeration _ _ _ _ => cases hflat
    | cls _ _ _ => cases hflat
  case nil => exact fun _ => ⟨rfl, rfl⟩
  case cons =>
    intro name node members ihn ihm hs
    obtain ⟨hmembers, hnested⟩ := ihm hs.2
    refine ⟨Trace.misfit?_append_eq_none.mpr ⟨ihn hs.1 name, hmembers⟩,
      Trace.misfit?_append_eq_none.mpr ⟨?_, hnested⟩⟩
    split
    · exact ihn hs.1 name
    · rfl

/-- A well-typed root is written to the end. -/
theorem misfit?_rootTrace {root : Surface} (hroot : root.IsWellTyped) :
    (rootTrace table root).misfit? = none := by
  cases root with
  | space name fullname description members =>
    exact Trace.misfit?_append_eq_none.mpr
      ⟨Trace.misfit?_useFilled hroot.1, ((misfit?_emitTrace h).2 members hroot.2).1⟩
  | enumeration name fullname description members =>
    exact Trace.misfit?_append_eq_none.mpr
      ⟨Trace.misfit?_useFilled hroot.1, ((misfit?_emitTrace h).2 members hroot.2).1⟩
  | _ => rfl

end ScriptTypings.Declarations
