import ScriptTypings.Proofs.Merge.Reachable
import ScriptTypings.Proofs.Surface.WellTyped

/-!
# Well-typed merged trees

Where the entries are well typed and the overrides are texts, all that a merge puts on the surface
is well typed: `Reachable.isWellTyped_merge`.
-/

namespace ScriptTypings

open Text

def InterfacePart.IsWellTyped : InterfacePart → Prop
  | method _ signatures => signatures.all Signature.isWellTyped = true
  | property _ member => member.IsWellTyped
  | unknownMethod _ => True
  | unknownProperty _ => True

theorem InterfaceDeclaration.IsWellTyped.addPart {d : InterfaceDeclaration} (h : d.IsWellTyped)
    {part : InterfacePart} (hpart : part.IsWellTyped) : (d.addPart part).IsWellTyped := by
  cases part with
  | method name signatures =>
    refine ⟨h.description, h.bases, h.typeParameters, fun m hm => ?_, h.properties⟩
    rcases NameMap.mem_put hm with rfl | hm
    · rw [List.all_append, hpart, Bool.and_true]
      cases hfind : NameMap.find? name d.methods with
      | none => rfl
      | some before => exact h.methods _ (NameMap.mem_of_find?_eq_some hfind)
    · exact h.methods m hm
  | property name member =>
    refine ⟨h.description, h.bases, h.typeParameters, h.methods, fun p hp => ?_⟩
    rcases NameMap.mem_put hp with rfl | hp
    · exact hpart
    · exact h.properties p hp
  | unknownMethod _ => exact h
  | unknownProperty _ => exact h

namespace Reference

variable {r : Reference} (h : r.IsTextual)

include h

/-! ### Qualified types -/

theorem IsTextual.isWellTyped_qualifySlot {slot : Slot} (hslot : slot.isWellTyped = true) :
    (r.qualifySlot slot).isWellTyped = true := by
  obtain ⟨hname, htype, hdescription⟩ := Slot.isWellTyped_iff.mp hslot
  exact Slot.isWellTyped_iff.mpr ⟨hname, h.isText_qualify htype, hdescription⟩

theorem IsTextual.isWellTyped_qualifySlots {slots : List Slot}
    (hslots : slots.all Slot.isWellTyped = true) :
    (slots.map r.qualifySlot).all Slot.isWellTyped = true := by
  rw [List.all_eq_true] at hslots ⊢
  intro slot hslot
  obtain ⟨own, hown, rfl⟩ := List.mem_map.mp hslot
  exact h.isWellTyped_qualifySlot (hslots own hown)

theorem IsTextual.isWellTyped_qualifySignature {signature : Signature}
    (hsignature : signature.isWellTyped = true) :
    (r.qualifySignature signature).isWellTyped = true := by
  obtain ⟨hdescription, hparameters, hreturned, hrest⟩ := Signature.isWellTyped_iff.mp hsignature
  refine Signature.isWellTyped_iff.mpr
    ⟨hdescription, h.isWellTyped_qualifySlots hparameters, ?_, hrest⟩
  cases hown : signature.returned with
  | typed type description =>
    rw [hown, Returned.isWellTyped, Bool.and_eq_true] at hreturned
    rw [qualifySignature, hown, qualifyReturned, Returned.isWellTyped, Bool.and_eq_true]
    exact ⟨h.isText_qualify hreturned.1, hreturned.2⟩
  | _ =>
    rw [hown] at hreturned
    rw [qualifySignature, hown]
    exact hreturned

theorem IsTextual.isWellTyped_qualifySignatures {signatures : List Signature}
    (hsignatures : signatures.all Signature.isWellTyped = true) :
    (signatures.map r.qualifySignature).all Signature.isWellTyped = true := by
  rw [List.all_eq_true] at hsignatures ⊢
  intro signature hsignature
  obtain ⟨own, hown, rfl⟩ := List.mem_map.mp hsignature
  exact h.isWellTyped_qualifySignature (hsignatures own hown)

theorem IsTextual.isText_qualify_of_mem {types : List Json}
    (htypes : types.all Json.isText = true) : ∀ type ∈ types.map r.qualify, type.isText = true := by
  intro type htype
  obtain ⟨own, hown, rfl⟩ := List.mem_map.mp htype
  exact h.isText_qualify (List.all_eq_true.mp htypes own hown)

/-! ### The resolved tree -/

/-- The description of an entry that is looked up is a text. -/
theorem IsTextual.description {name : String} {entry : Entry}
    (hget : r.corpus.get? name = some entry) : entry.description.isText = true := by
  have hentry := h.entries _ _ hget
  simp only [Entry.isWellTyped, Bool.and_eq_true] at hentry
  exact hentry.1.2

theorem IsTextual.isText_describe (fullname : String) : (r.describe fullname).isText = true := by
  rw [describe]
  cases hget : r.corpus.get? fullname with
  | none => rfl
  | some entry => exact h.description hget

theorem IsTextual.isWellTyped_resolveLeaf (fullname word : String) :
    (r.resolveLeaf fullname word).IsWellTyped := by
  unfold resolveLeaf
  split
  · rename_i hget
    exact h.isWellTyped_qualifySignatures (h.content hget)
  · rename_i hget
    exact ⟨h.isText_qualify (h.content hget), h.description hget⟩
  · rename_i hget
    exact ⟨h.isText_qualify (h.content hget), h.description hget⟩
  · trivial

theorem IsTextual.isWellTyped_classHeader (name fullname : String) (base : Option String) :
    (r.classHeader name fullname base).IsWellTyped := by
  refine ⟨h.isText_describe fullname, h.isText_qualify_of_mem (h.classInterfaces fullname), ?_⟩
  rw [classHeader]
  cases hget : r.constructor? fullname with
  | none => rfl
  | some signatures => exact h.isWellTyped_qualifySignatures (h.function? hget)

theorem IsTextual.isWellTyped_resolve :
    (∀ node parent name, (r.resolve parent name node).IsWellTyped) ∧
      ∀ ms parent, Surface.AreWellTyped (r.resolveMembers parent ms) := by
  refine Reflected.tree_induction ?placeholder ?space ?cls ?nil ?cons
  case placeholder =>
    intro word parent name
    exact h.isWellTyped_resolveLeaf _ word
  case space =>
    intro fullname members ih parent name
    rw [resolve]
    split
    · exact ⟨h.isText_describe fullname, ih fullname⟩
    · exact ⟨h.isText_describe fullname, ih fullname⟩
  case cls =>
    intro fullname base statics prototype ihs ihp parent name
    exact ⟨h.isWellTyped_classHeader name fullname base, ihs fullname, ihp fullname⟩
  case nil =>
    intro parent
    trivial
  case cons =>
    intro name node members ihn ihm parent
    exact ⟨ihn parent name, ihm parent⟩

/-! ### The declarations -/

theorem IsTextual.isWellTyped_methodPart (id : String) : (r.methodPart id).IsWellTyped := by
  unfold methodPart
  split
  · rename_i hget
    exact h.isWellTyped_qualifySignatures (h.function? hget)
  · trivial

theorem IsTextual.isWellTyped_propertyPart (id : String) : (r.propertyPart id).IsWellTyped := by
  unfold propertyPart
  split
  · rename_i hget
    exact ⟨h.isText_qualify (h.content hget), h.description hget⟩
  · trivial

theorem IsTextual.isWellTyped_expandInterface (name : String) {entry : Entry}
    {listing : InterfaceListing} (hdescription : entry.description.isText = true)
    (hlisting : listing.isWellTyped = true) :
    (r.expandInterface name entry listing).IsWellTyped := by
  simp only [InterfaceListing.isWellTyped, Bool.and_eq_true] at hlisting
  obtain ⟨⟨⟨⟨hbases, hparameters⟩, -⟩, -⟩, -⟩ := hlisting
  have hframe : (r.interfaceFrame name entry listing).IsWellTyped :=
    ⟨hdescription, h.isText_qualify_of_mem hbases, List.all_eq_true.mp hparameters,
      List.forall_mem_nil _, List.forall_mem_nil _⟩
  refine List.foldlRecOn _ _ hframe fun d hd part hpart => hd.addPart ?_
  obtain ⟨-, -, ⟨id, -, rfl⟩ | ⟨id, -, rfl⟩⟩ := Merger.exists_of_mem_interfaceParts hpart
  · exact h.isWellTyped_methodPart id.asText
  · exact h.isWellTyped_propertyPart id.asText

theorem IsTextual.isWellTyped_declared {name short : String} {entry : Entry} {declared : Declared}
    (hget : r.corpus.get? name = some entry) (hdeclared : r.declare? short entry = some declared) :
    declared.node.IsWellTyped := by
  have hdescription := h.description hget
  obtain ⟨identifier, description, content⟩ := entry
  have hcontent := h.content hget
  cases content with
  | record members =>
    cases hdeclared
    exact ⟨hdescription, h.isWellTyped_qualifySlots hcontent⟩
  | delegate signature =>
    cases hdeclared
    exact ⟨hdescription, h.isWellTyped_qualifySignature hcontent⟩
  | interface listing =>
    cases hdeclared
    exact h.isWellTyped_expandInterface short hdescription hcontent
  | _ => cases hdeclared

end Reference

namespace Merger

variable {corpus : Corpus} {overrides : List (String × Json)} {m : Merger}

theorem Reachable.isWellTyped_merge (h : Reachable corpus overrides m)
    (hentries : ∀ e ∈ corpus.entries, e.2.isWellTyped = true)
    (hoverrides : ∀ o ∈ overrides, o.2.isText = true) (root : Reflected.Root) :
    (m.merge root).2.surface.IsWellTyped := by
  have htextual : m.reference.IsTextual := h.reference ▸ isTextual_ofCorpus hentries hoverrides
  refine Surface.isWellTyped_withListeners.1 _ ((Surface.isWellTyped_attach ?_).1 _
    (htextual.isWellTyped_resolve.1 _ _ _) _)
  intro number member hmember
  obtain ⟨_, _, _, htarget, -, hdeclared, hnode⟩ :=
    exists_isDeclarationOf (h.sound.distinct.addAll _) rfl number member hmember
  rw [hnode]
  exact htextual.isWellTyped_declared htarget.get? hdeclared

end Merger

end ScriptTypings
