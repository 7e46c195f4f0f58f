import ScriptTypings.Proofs.Entry.Encoding
import ScriptTypings.Proofs.Surface.Declared
import ScriptTypings.Surface.Coverage
import ScriptTypings.Surface.Dump

/-!
# The surface with other code samples

`Surface.mapSnippets` exchanges the code samples of all signatures on a surface. What is mentioned,
where the namespaces are and what is covered does not depend on them, and no more than the order of
members in a dump depends on their order.
-/

namespace ScriptTypings

variable (f : NameMap Json → NameMap Json)

@[simp] theorem Signature.mentions_mapSnippets (signature : Signature) :
    (signature.mapSnippets f).mentions = signature.mentions := rfl

def InterfaceDeclaration.mapSnippets (d : InterfaceDeclaration) : InterfaceDeclaration :=
  { d with methods := NameMap.mapValues (List.map (Signature.mapSnippets f)) d.methods }

def ClassHeader.mapSnippets (header : ClassHeader) : ClassHeader :=
  { header with constructor := header.constructor.map (List.map (Signature.mapSnippets f)) }

namespace Surface

mutual

/-- The surface with other code samples in every signature. -/
def mapSnippets : Surface → Surface
  | space name fullname description members =>
    space name fullname description (mapSnippetsOf members)
  | enumeration name fullname description members =>
    enumeration name fullname description (mapSnippetsOf members)
  | cls header statics prototype =>
    cls (header.mapSnippets f) (mapSnippetsOf statics) (mapSnippetsOf prototype)
  | delegate name fullname description signature =>
    delegate name fullname description (signature.mapSnippets f)
  | interface declaration => interface (declaration.mapSnippets f)
  | function signatures => function (signatures.map (Signature.mapSnippets f))
  | other => other

def mapSnippetsOf : List (String × Surface) → List (String × Surface)
  | [] => []
  | (name, node) :: members => (name, node.mapSnippets) :: mapSnippetsOf members

end

theorem mapSnippetsOf_eq_map (ms : List (String × Surface)) :
    mapSnippetsOf f ms = ms.map fun m => (m.1, m.2.mapSnippets f) := by
  induction ms with
  | nil => rfl
  | cons m ms ih => rw [mapSnippetsOf, ih, List.map_cons]

@[simp] theorem isEvent_mapSnippets (s : Surface) : (s.mapSnippets f).isEvent = s.isEvent := by
  cases s <;> rfl

@[simp] theorem isNested_mapSnippets (s : Surface) : (s.mapSnippets f).isNested = s.isNested := by
  cases s <;> rfl

@[simp] theorem isUnresolved_mapSnippets (s : Surface) :
    (s.mapSnippets f).isUnresolved = s.isUnresolved := by
  cases s <;> rfl

/-! ### What is mentioned -/

theorem mentions_mapSnippets :
    (∀ s : Surface, (s.mapSnippets f).mentions = s.mentions) ∧
      ∀ ms, mentionsOf (mapSnippetsOf f ms) = mentionsOf ms := by
  refine tree_induction ?space ?enumeration ?cls ?leaf ?nil ?cons
  case space =>
    intro name fullname description members ih
    exact ih
  case enumeration =>
    intro name fullname description members ih
    exact ih
  case cls =>
    intro header statics prototype ihs ihp
    rw [mapSnippets, mentions, mentions, ihs, ihp]
    cases hconstructor : header.constructor with
    | none => simp [ClassHeader.mapSnippets, hconstructor]
    | some signatures =>
      simp [ClassHeader.mapSnippets, hconstructor, List.flatMap_map]
  case leaf =>
    intro s hs
    cases s with
    | delegate name fullname description signature => rfl
    | interface d =>
      simp [mapSnippets, mentions, InterfaceDeclaration.mapSnippets, NameMap.mapValues,
        List.flatMap_map]
    | function signatures => exact List.flatMap_map ..
    | space _ _ _ _ => cases hs
    | enumeration _ _ _ _ => cases hs
    | cls _ _ _ => cases hs
    | _ => rfl
  case nil => rfl
  case cons =>
    intro name node members ihn ihm
    rw [mapSnippetsOf, mentionsOf, mentionsOf, ihn, ihm]

/-! ### Namespaces, declarations and listeners -/

theorem names_mapSnippetsOf (ms : List (String × Surface)) :
    (mapSnippetsOf f ms).map Prod.fst = ms.map Prod.fst := by
  rw [mapSnippetsOf_eq_map, List.map_map]
  rfl

theorem mapSnippets_leaf {s : Surface} (h : s.isNested = false) :
    (s.mapSnippets f).isNested = false := by
  rw [isNested_mapSnippets, h]

theorem spaces_mapSnippets :
    (∀ s : Surface, (s.mapSnippets f).spaces = s.spaces) ∧
      ∀ ms, spacesOf (mapSnippetsOf f ms) = spacesOf ms := by
  refine tree_induction ?space ?enumeration ?cls ?leaf ?nil ?cons
  case space =>
    intro name fullname description members ih
    rw [mapSnippets, spaces, spaces, ih, names_mapSnippetsOf]
  case enumeration =>
    intro name fullname description members ih
    exact ih
  case cls =>
    intro header statics prototype ihs ihp
    rw [mapSnippets, spaces, spaces, ihs, ihp]
  case leaf =>
    intro s hs
    rw [spaces_of_leaf hs, spaces_of_leaf (mapSnippets_leaf f hs)]
  case nil => rfl
  case cons =>
    intro name node members ihn ihm
    rw [mapSnippetsOf, spacesOf, spacesOf, ihn, ihm]

theorem attach_mapSnippets {additions additions' : Nat → List (String × Surface)}
    (h : ∀ k, additions' k = mapSnippetsOf f (additions k)) :
    (∀ s number, attach additions' number (s.mapSnippets f) =
        (attach additions number s).mapSnippets f) ∧
      ∀ ms number, attachAll additions' number (mapSnippetsOf f ms) =
        mapSnippetsOf f (attachAll additions number ms) := by
  refine tree_induction ?space ?enumeration ?cls ?leaf ?nil ?cons
  case space =>
    intro name fullname description members ih number
    rw [mapSnippets, attach, attach, mapSnippets, ih, h]
    simp [mapSnippetsOf_eq_map]
  case enumeration =>
    intro name fullname description members ih number
    rw [mapSnippets, attach, attach, mapSnippets, ih]
  case cls =>
    intro header statics prototype ihs ihp number
    rw [mapSnippets, attach, attach, mapSnippets, ihs, ihp, (spaces_mapSnippets f).2]
  case leaf =>
    intro s hs number
    rw [attach_of_leaf hs, attach_of_leaf (mapSnippets_leaf f hs)]
  case nil =>
    intro number
    rfl
  case cons =>
    intro name node members ihn ihm number
    rw [mapSnippetsOf, attachAll, attachAll, mapSnippetsOf, ihn, ihm, (spaces_mapSnippets f).1]

theorem dispatches_mapSnippetsOf (ms : List (String × Surface)) :
    dispatches (mapSnippetsOf f ms) = dispatches ms := by
  simp [dispatches, mapSnippetsOf_eq_map, List.any_map, Function.comp_def]

theorem withoutListeners_mapSnippetsOf (ms : List (String × Surface)) :
    withoutListeners (mapSnippetsOf f ms) = mapSnippetsOf f (withoutListeners ms) := by
  rw [withoutListeners, withoutListeners, dispatches_mapSnippetsOf]
  split
  · simp [mapSnippetsOf_eq_map, List.filter_map, Function.comp_def]
  · rfl

theorem withListeners_mapSnippets :
    (∀ s : Surface, (s.mapSnippets f).withListeners = s.withListeners.mapSnippets f) ∧
      ∀ ms, withListenersOf (mapSnippetsOf f ms) = mapSnippetsOf f (withListenersOf ms) := by
  refine tree_induction ?space ?enumeration ?cls ?leaf ?nil ?cons
  case space =>
    intro name fullname description members ih
    rw [mapSnippets, withListeners, withListeners, mapSnippets, ih]
  case enumeration =>
    intro name fullname description members ih
    rw [mapSnippets, withListeners, withListeners, mapSnippets, ih]
  case cls =>
    intro header statics prototype ihs ihp
    simp only [mapSnippets, withListeners, ihs, ihp, withoutListeners_mapSnippetsOf,
      dispatches_mapSnippetsOf, ClassHeader.mapSnippets]
  case leaf =>
    intro s hs
    rw [withListeners_of_leaf hs, withListeners_of_leaf (mapSnippets_leaf f hs)]
  case nil => rfl
  case cons =>
    intro name node members ihn ihm
    rw [mapSnippetsOf, withListenersOf, withListenersOf, mapSnippetsOf, ihn, ihm]

/-! ### Coverage -/

theorem leaves_mapSnippets :
    (∀ s : Surface, (s.mapSnippets f).leaves = s.leaves.map (mapSnippets f)) ∧
      ∀ ms, leavesOf (mapSnippetsOf f ms) = (leavesOf ms).map (mapSnippets f) := by
  refine tree_induction ?space ?enumeration ?cls ?leaf ?nil ?cons
  case space =>
    intro name fullname description members ih
    exact ih
  case enumeration =>
    intro name fullname description members ih
    exact ih
  case cls =>
    intro header statics prototype ihs ihp
    rw [mapSnippets, leaves, leaves, ihs, ihp, List.map_append]
  case leaf =>
    intro s hs
    cases s <;> first | rfl | cases hs
  case nil => rfl
  case cons =>
    intro name node members ihn ihm
    rw [mapSnippetsOf, leavesOf, leavesOf, ihn, ihm, List.map_append]

/-! ### Dumps -/

theorem sortMembers_dumpFunction_mapSnippets (signatures : List Signature) :
    (dumpFunction (signatures.map (Signature.mapSnippets NameMap.sorted))).sortMembers =
      (dumpFunction signatures).sortMembers := by
  have hsignatures :
      (signatures.map (Signature.mapSnippets NameMap.sorted)).map
          (fun signature => signature.toJson.sortMembers) =
        signatures.map fun signature => signature.toJson.sortMembers := by
    rw [List.map_map]
    exact List.map_congr_left fun signature _ => signature.sortMembers_mapSnippets
  simp only [dumpFunction, Json.sortMembers, Json.sortEntries, Json.sortItems_eq_map, List.map_map,
    Function.comp_def] at hsignatures ⊢
  rw [hsignatures]

theorem sortEntries_dumpHeader_mapSnippets (header : ClassHeader) :
    Json.sortEntries (dumpHeader (header.mapSnippets NameMap.sorted)) =
      Json.sortEntries (dumpHeader header) := by
  cases hconstructor : header.constructor with
  | none => simp [dumpHeader, ClassHeader.mapSnippets, hconstructor]
  | some signatures =>
    simp [dumpHeader, heading, ClassHeader.mapSnippets, hconstructor, Json.sortEntries,
      sortMembers_dumpFunction_mapSnippets]

/-- With its code samples in order, a surface has the same dump but for the order of members. -/
theorem sortMembers_dump_mapSnippets :
    (∀ s : Surface, (s.mapSnippets NameMap.sorted).dump.sortMembers = s.dump.sortMembers) ∧
      ∀ ms, Json.sortEntries (dumpMembers (mapSnippetsOf NameMap.sorted ms)) =
        Json.sortEntries (dumpMembers ms) := by
  refine tree_induction ?space ?enumeration ?cls ?leaf ?nil ?cons
  case space =>
    intro name fullname description members ih
    simp only [Json.sortEntries_eq_mapValues] at ih
    simp only [mapSnippets, dump, Json.sortMembers, Json.sortEntries_eq_mapValues,
      NameMap.mapValues_update, ih]
  case enumeration =>
    intro name fullname description members ih
    simp only [Json.sortEntries_eq_mapValues] at ih
    simp only [mapSnippets, dump, Json.sortMembers, Json.sortEntries_eq_mapValues,
      NameMap.mapValues_update, ih]
  case cls =>
    intro header statics prototype ihs ihp
    have hheader := sortEntries_dumpHeader_mapSnippets header
    simp only [Json.sortEntries_eq_mapValues] at ihs ihp hheader
    simp only [mapSnippets, dump, Json.sortMembers, Json.sortEntries_eq_mapValues,
      ← NameMap.put_mapValues, NameMap.mapValues_update, ihs, ihp, hheader]
  case leaf =>
    intro s hs
    cases s with
    | space => cases hs
    | enumeration => cases hs
    | cls => cases hs
    | delegate name fullname description signature =>
      simp [mapSnippets, dump, heading, Json.sortMembers, Json.sortEntries,
        signature.sortMembers_mapSnippets]
    | interface d =>
      have hmethods : NameMap.mapValues Json.sortMembers (NameMap.mapValues dumpFunction
          (d.mapSnippets NameMap.sorted).methods) =
            NameMap.mapValues Json.sortMembers (NameMap.mapValues dumpFunction d.methods) := by
        simp only [InterfaceDeclaration.mapSnippets, NameMap.mapValues_mapValues,
          sortMembers_dumpFunction_mapSnippets]
      simp only [mapSnippets, dump, dumpInterface, heading, Json.sortMembers, Json.sortEntries,
        List.cons_append, List.nil_append, Json.sortEntries_eq_mapValues, hmethods]
      rfl
    | function signatures => exact sortMembers_dumpFunction_mapSnippets signatures
    | _ => rfl
  case nil => rfl
  case cons =>
    intro name node members ihn ihm
    rw [mapSnippetsOf, dumpMembers, dumpMembers, Json.sortEntries, Json.sortEntries, ihn, ihm]

/-- The order of code samples does not count for whether a dump can be written. -/
theorem hasStandIn_dump_mapSnippets (s : Surface) :
    (s.mapSnippets NameMap.sorted).dump.hasStandIn = s.dump.hasStandIn := by
  rw [← Json.hasStandIn_sortMembers, sortMembers_dump_mapSnippets.1, Json.hasStandIn_sortMembers]

end Surface

/-- Code samples do not count as coverage. -/
theorem Coverage.ofSurface_mapSnippets (s : Surface) :
    ofSurface (s.mapSnippets f) = ofSurface s := by
  simp [ofSurface, (Surface.leaves_mapSnippets f).1, List.filter_map, Function.comp_def]

end ScriptTypings
