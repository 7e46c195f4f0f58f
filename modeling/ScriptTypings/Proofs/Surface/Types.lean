import ScriptTypings.Proofs.Surface.Declared

/-!
# Types on the surface

`Surface.types` are the types at all places of a surface where a type stands. Attaching declarations
adds the types of these, and dropping listeners adds none.
-/

namespace ScriptTypings

/-- The types in what a function gives back. -/
def Returned.types : Returned → List Json
  | .typed typeName _ => [typeName]
  | .fields members _ => members.map Slot.typeName
  | _ => []

def Signature.types (signature : Signature) : List Json :=
  signature.returned.types ++ signature.parameters.map Slot.typeName

def InterfaceDeclaration.types (d : InterfaceDeclaration) : List Json :=
  d.bases ++ d.methods.flatMap (fun m => m.2.flatMap Signature.types) ++
    d.properties.map fun p => p.2.typeName

namespace Surface

mutual

/-- The types of parameters, results, properties, fields and events, and the interfaces of classes
and interfaces. -/
def types : Surface → List Json
  | space _ _ _ members => typesOf members
  | enumeration _ _ _ members => typesOf members
  | cls header statics prototype =>
    header.interfaces ++ (header.constructor.getD []).flatMap Signature.types ++
      typesOf statics ++ typesOf prototype
  | record _ _ _ members => members.map Slot.typeName
  | delegate _ _ _ signature => signature.types
  | interface declaration => declaration.types
  | function signatures => signatures.flatMap Signature.types
  | event handler _ => [handler]
  | property member => [member.typeName]
  | unresolved _ => []

def typesOf : List (String × Surface) → List Json
  | [] => []
  | (_, node) :: members => node.types ++ typesOf members

end

theorem typesOf_eq_flatMap (ms : List (String × Surface)) :
    typesOf ms = ms.flatMap fun m => m.2.types := by
  induction ms with
  | nil => rfl
  | cons m ms ih => simp [typesOf, ih]

/-- Types of a surface with attached declarations are its own or those of a declaration. -/
theorem mem_types_attach (additions : Nat → List (String × Surface)) {type : Json} :
    (∀ s number, type ∈ (attach additions number s).types →
        type ∈ s.types ∨ ∃ k, ∃ m ∈ additions k, type ∈ m.2.types) ∧
      ∀ ms number, type ∈ typesOf (attachAll additions number ms) →
        type ∈ typesOf ms ∨ ∃ k, ∃ m ∈ additions k, type ∈ m.2.types := by
  refine tree_induction ?space ?enumeration ?cls ?leaf ?nil ?cons
  case space =>
    intro name fullname description members ih number h
    simp only [attach, types, typesOf_eq_flatMap, List.flatMap_append, List.mem_append] at h ⊢
    rcases h with h | h
    · rw [← typesOf_eq_flatMap] at h ⊢
      exact ih _ h
    · obtain ⟨m, hm, htype⟩ := List.mem_flatMap.mp h
      exact .inr ⟨number, m, hm, htype⟩
  case enumeration =>
    intro name fullname description members ih number h
    exact ih number h
  case cls =>
    intro header statics prototype ihs ihp number h
    simp only [attach, types, List.mem_append] at h ⊢
    rcases h with (h | h) | h
    · exact .inl (.inl (.inl h))
    · exact (ihs _ h).imp_left fun h => .inl (.inr h)
    · exact (ihp _ h).imp_left .inr
  case leaf =>
    intro s hs number h
    rw [attach_of_leaf hs] at h
    exact .inl h
  case nil => exact fun _ => .inl
  case cons =>
    intro name node members ihn ihm number h
    rcases List.mem_append.mp h with h | h
    · exact (ihn _ h).imp_left fun h => List.mem_append_left _ h
    · exact (ihm _ h).imp_left fun h => List.mem_append_right _ h

theorem typesOf_withoutListeners_subset (ms : List (String × Surface)) :
    typesOf (withoutListeners ms) ⊆ typesOf ms := by
  intro type h
  rw [typesOf_eq_flatMap] at h ⊢
  obtain ⟨m, hm, htype⟩ := List.mem_flatMap.mp h
  exact List.mem_flatMap.mpr ⟨m, (withoutListeners_sublist ms).subset hm, htype⟩

/-- Dropping listeners adds no type. -/
theorem types_withListeners_subset :
    (∀ s : Surface, s.withListeners.types ⊆ s.types) ∧
      ∀ ms, typesOf (withListenersOf ms) ⊆ typesOf ms := by
  refine tree_induction ?space ?enumeration ?cls ?leaf ?nil ?cons
  case space =>
    intro name fullname description members ih
    exact ih
  case enumeration =>
    intro name fullname description members ih
    exact ih
  case cls =>
    intro header statics prototype ihs ihp type h
    simp only [withListeners, types, List.mem_append] at h ⊢
    rcases h with (h | h) | h
    · exact .inl (.inl h)
    · exact .inl (.inr (ihs (typesOf_withoutListeners_subset _ h)))
    · exact .inr (ihp (typesOf_withoutListeners_subset _ h))
  case leaf =>
    intro s hs
    rw [withListeners_of_leaf hs]
    exact List.Subset.refl _
  case nil => exact List.Subset.refl _
  case cons =>
    intro name node members ihn ihm type h
    rcases List.mem_append.mp h with h | h
    · exact List.mem_append_left _ (ihn h)
    · exact List.mem_append_right _ (ihm h)

end Surface

end ScriptTypings
