import ScriptTypings.Proofs.Merge.Resolution
import ScriptTypings.Proofs.Merge.Worklist
import ScriptTypings.Proofs.Surface.Snippets

/-!
# Merging with other code samples

A reference maps to another if both expand names alike and have the same entries up to code samples.
What is resolved and declared with the two differs in code samples only, and takes the same steps:
`MapsTo.resolve`, `MapsTo.declare?` and `MapsTo.merge` say so.
-/

namespace ScriptTypings

variable (f : NameMap Json → NameMap Json)

namespace InterfacePart

def mapSnippets : InterfacePart → InterfacePart
  | method name signatures => method name (signatures.map (Signature.mapSnippets f))
  | other => other

@[simp] theorem mentions_mapSnippets (part : InterfacePart) :
    (part.mapSnippets f).mentions = part.mentions := by
  cases part with
  | method name signatures => exact List.flatMap_map ..
  | _ => rfl

end InterfacePart

namespace InterfaceDeclaration

theorem addPart_mapSnippets (d : InterfaceDeclaration) (part : InterfacePart) :
    (d.mapSnippets f).addPart (part.mapSnippets f) = (d.addPart part).mapSnippets f := by
  cases part with
  | method name signatures =>
    have hbefore : (NameMap.find? name (d.mapSnippets f).methods).getD [] =
        ((NameMap.find? name d.methods).getD []).map (Signature.mapSnippets f) := by
      rw [mapSnippets, NameMap.find?_mapValues]
      cases NameMap.find? name d.methods <;> rfl
    simp only [InterfacePart.mapSnippets, addPart, addMethod, hbefore, ← List.map_append]
    simp [mapSnippets, ← NameMap.put_mapValues]
  | _ => rfl

theorem foldl_addPart_mapSnippets (d : InterfaceDeclaration) (parts : List InterfacePart) :
    (parts.map (InterfacePart.mapSnippets f)).foldl addPart (d.mapSnippets f) =
      (parts.foldl addPart d).mapSnippets f := by
  induction parts generalizing d with
  | nil => rfl
  | cons part parts ih =>
    rw [List.map_cons, List.foldl_cons, List.foldl_cons, addPart_mapSnippets, ih]

end InterfaceDeclaration

namespace Reference

/-- The second reference has the same names and entries, with other code samples. -/
structure MapsTo (r r' : Reference) : Prop where
  shortNames : r'.shortNames = r.shortNames
  get? : ∀ key, r'.corpus.get? key = (r.corpus.get? key).map (Entry.mapSnippets f)

namespace MapsTo

variable {f} {r r' : Reference} (h : r.MapsTo f r')

include h

/-! ### Qualified types -/

theorem qualify : r'.qualify = r.qualify := by
  funext type
  cases type with
  | text s => exact congrArg (ShortNames.qualify · s) h.shortNames
  | _ => rfl

theorem qualifySlot : r'.qualifySlot = r.qualifySlot := by
  funext slot
  rw [Reference.qualifySlot, Reference.qualifySlot, h.qualify]

theorem qualifyReturned : r'.qualifyReturned = r.qualifyReturned := by
  funext returned
  cases returned with
  | typed type description => simp only [Reference.qualifyReturned, h.qualify]
  | _ => rfl

theorem qualifySignature (signature : Signature) :
    r'.qualifySignature (signature.mapSnippets f) =
      (r.qualifySignature signature).mapSnippets f := by
  simp only [Reference.qualifySignature, Signature.mapSnippets, h.qualifySlot, h.qualifyReturned]

theorem map_qualifySignature (signatures : List Signature) :
    (signatures.map (Signature.mapSnippets f)).map r'.qualifySignature =
      (signatures.map r.qualifySignature).map (Signature.mapSnippets f) := by
  rw [List.map_map, List.map_map]
  exact List.map_congr_left fun signature _ => h.qualifySignature signature

theorem qualifyProperty : r'.qualifyProperty = r.qualifyProperty := by
  funext typeName description
  rw [Reference.qualifyProperty, Reference.qualifyProperty, h.qualify]

theorem typeTrace : r'.typeTrace = r.typeTrace := by
  funext type
  rw [Reference.typeTrace, Reference.typeTrace, h.qualify, h.shortNames]

theorem typesTrace : r'.typesTrace = r.typesTrace := by
  funext types
  rw [Reference.typesTrace, Reference.typesTrace, h.qualify, h.shortNames]

theorem signatureTrace (signature : Signature) :
    r'.signatureTrace (signature.mapSnippets f) = r.signatureTrace signature := by
  simp only [Reference.signatureTrace, Signature.mapSnippets, h.typeTrace]

theorem signaturesTrace (signatures : List Signature) :
    r'.signaturesTrace (signatures.map (Signature.mapSnippets f)) =
      r.signaturesTrace signatures := by
  rw [Reference.signaturesTrace, Reference.signaturesTrace, List.flatMap_map]
  simp only [h.signatureTrace]

/-! ### Entries -/

/-- Both references have an entry for a key, or none has one. -/
theorem get?_cases (key : String) :
    (r.corpus.get? key = none ∧ r'.corpus.get? key = none) ∨
      ∃ identifier description content,
        r.corpus.get? key = some ⟨identifier, description, content⟩ ∧
        r'.corpus.get? key = some ⟨identifier, description, content.mapSnippets f⟩ := by
  rw [h.get?]
  cases r.corpus.get? key with
  | none => exact .inl ⟨rfl, rfl⟩
  | some entry => exact .inr ⟨entry.identifier, entry.description, entry.content, rfl, rfl⟩

theorem function? (key : String) : r'.corpus.function? key =
    (r.corpus.function? key).map (List.map (Signature.mapSnippets f)) := by
  rw [Corpus.function?, Corpus.function?]
  rcases h.get?_cases key with ⟨hr, hr'⟩ | ⟨_, _, content, hr, hr'⟩ <;> rw [hr, hr']
  · rfl
  · cases content <;> rfl

theorem interface? (key : String) : r'.corpus.interface? key = r.corpus.interface? key := by
  rw [Corpus.interface?, Corpus.interface?]
  rcases h.get?_cases key with ⟨hr, hr'⟩ | ⟨_, _, content, hr, hr'⟩ <;> rw [hr, hr']
  cases content <;> rfl

theorem describe (key : String) : r'.describe key = r.describe key := by
  rw [Reference.describe, Reference.describe]
  rcases h.get?_cases key with ⟨hr, hr'⟩ | ⟨_, _, _, hr, hr'⟩
  · rw [hr, hr']
  · rw [hr, hr']
    rfl

theorem isEnumeration (key : String) : r'.isEnumeration key = r.isEnumeration key := by
  rw [Reference.isEnumeration, Reference.isEnumeration]
  rcases h.get?_cases key with ⟨hr, hr'⟩ | ⟨_, _, content, hr, hr'⟩ <;> rw [hr, hr']
  cases content <;> rfl

theorem classInterfaces (key : String) : r'.classInterfaces key = r.classInterfaces key := by
  rw [Reference.classInterfaces, Reference.classInterfaces]
  rcases h.get?_cases key with ⟨hr, hr'⟩ | ⟨_, _, content, hr, hr'⟩ <;> rw [hr, hr']
  cases content <;> rfl

theorem isAttribute (key : String) : r'.isAttribute key = r.isAttribute key := by
  rw [Reference.isAttribute, Reference.isAttribute]
  rcases h.get?_cases key with ⟨hr, hr'⟩ | ⟨_, _, content, hr, hr'⟩ <;> rw [hr, hr']
  cases content <;> rfl

theorem constructor? (key : String) : r'.constructor? key =
    (r.constructor? key).map (List.map (Signature.mapSnippets f)) :=
  h.function? _

/-! ### The resolved tree -/

theorem resolveLeaf (fullname placeholder : String) : r'.resolveLeaf fullname placeholder =
    (r.resolveLeaf fullname placeholder).mapSnippets f := by
  rw [Reference.resolveLeaf, Reference.resolveLeaf]
  rcases h.get?_cases fullname with ⟨hr, hr'⟩ | ⟨_, description, content, hr, hr'⟩ <;> rw [hr, hr']
  · rfl
  · cases content with
    | function signatures => exact congrArg Surface.function (h.map_qualifySignature signatures)
    | event handler => exact congrArg (Surface.event · description) (congrFun h.qualify handler)
    | property typeName =>
      exact congrArg (fun q => Surface.property (q typeName description)) h.qualifyProperty
    | _ => rfl

theorem classHeader (name fullname : String) (base : Option String) :
    r'.classHeader name fullname base = (r.classHeader name fullname base).mapSnippets f := by
  have hconstructor :
      (r'.constructor? fullname).map (fun signatures => signatures.map r'.qualifySignature) =
        ((r.constructor? fullname).map fun signatures => signatures.map r.qualifySignature).map
          (List.map (Signature.mapSnippets f)) := by
    rw [h.constructor?, Option.map_map, Option.map_map]
    exact congrArg (Option.map · _) (funext h.map_qualifySignature)
  simp only [Reference.classHeader, ClassHeader.mapSnippets, h.describe, h.classInterfaces,
    h.isAttribute, h.qualify, hconstructor]

theorem resolve :
    (∀ node parent name, r'.resolve parent name node =
        (r.resolve parent name node).mapSnippets f) ∧
      ∀ ms parent, r'.resolveMembers parent ms =
        Surface.mapSnippetsOf f (r.resolveMembers parent ms) := by
  refine Reflected.tree_induction ?placeholder ?space ?cls ?nil ?cons
  case placeholder =>
    intro word parent name
    exact h.resolveLeaf _ word
  case space =>
    intro fullname members ih parent name
    rw [Reference.resolve, Reference.resolve, h.isEnumeration, h.describe, ih]
    split <;> rfl
  case cls =>
    intro fullname base statics prototype ihs ihp parent name
    rw [Reference.resolve, Reference.resolve, h.classHeader, ihs, ihp]
    rfl
  case nil =>
    intro parent
    rfl
  case cons =>
    intro name node members ihn ihm parent
    rw [resolveMembers, resolveMembers, ihn, ihm]
    rfl

theorem leafTrace (fullname : String) : r'.leafTrace fullname = r.leafTrace fullname := by
  rw [Reference.leafTrace, Reference.leafTrace]
  rcases h.get?_cases fullname with ⟨hr, hr'⟩ | ⟨_, _, content, hr, hr'⟩ <;> rw [hr, hr']
  cases content with
  | function signatures => exact h.signaturesTrace signatures
  | event handler => exact congrFun h.typeTrace handler
  | property typeName => exact congrFun h.typeTrace typeName
  | _ => rfl

theorem spaceTrace (fullname : String) : r'.spaceTrace fullname = r.spaceTrace fullname := by
  rw [Reference.spaceTrace, Reference.spaceTrace]
  rcases h.get?_cases fullname with ⟨hr, hr'⟩ | ⟨_, _, content, hr, hr'⟩ <;> rw [hr, hr']
  cases content <;> rfl

theorem constructorTrace (fullname : String) :
    r'.signaturesTrace ((r'.constructor? fullname).getD []) =
      r.signaturesTrace ((r.constructor? fullname).getD []) := by
  rw [h.constructor?]
  cases r.constructor? fullname with
  | none => rfl
  | some signatures => exact h.signaturesTrace signatures

theorem resolveTrace :
    (∀ node number parent name, r'.resolveTrace number parent name node =
        r.resolveTrace number parent name node) ∧
      ∀ ms number holder parent, r'.resolveTraceOf number holder parent ms =
        r.resolveTraceOf number holder parent ms := by
  refine Reflected.tree_induction ?placeholder ?space ?cls ?nil ?cons
  case placeholder =>
    intro word number parent name
    exact h.leafTrace _
  case space =>
    intro fullname members ih number parent name
    simp only [Reference.resolveTrace, h.isEnumeration, h.spaceTrace, ih]
  case cls =>
    intro fullname base statics prototype ihs ihp number parent name
    simp only [Reference.resolveTrace, h.typesTrace, h.classInterfaces, ihs, ihp,
      h.constructorTrace]
  case nil =>
    intro number holder parent
    rfl
  case cons =>
    intro name node members ihn ihm number holder parent
    simp only [resolveTraceOf, ihn, ihm]

/-! ### Declarations -/

theorem methodPart (id : String) : r'.methodPart id = (r.methodPart id).mapSnippets f := by
  rw [Reference.methodPart, Reference.methodPart, h.function?]
  cases r.corpus.function? id with
  | none => rfl
  | some signatures => exact congrArg (InterfacePart.method _) (h.map_qualifySignature signatures)

theorem propertyPart (id : String) : r'.propertyPart id = (r.propertyPart id).mapSnippets f := by
  rw [Reference.propertyPart, Reference.propertyPart]
  rcases h.get?_cases id with ⟨hr, hr'⟩ | ⟨_, description, content, hr, hr'⟩ <;> rw [hr, hr']
  · rfl
  · cases content with
    | property typeName =>
      exact congrArg (fun q => InterfacePart.property _ (q typeName description)) h.qualifyProperty
    | _ => rfl

theorem family (listing : InterfaceListing) : r'.family listing = r.family listing := by
  simp only [Reference.family, h.interface?]

theorem interfaceParts (listing : InterfaceListing) : r'.interfaceParts listing =
    (r.interfaceParts listing).map (InterfacePart.mapSnippets f) := by
  simp [Reference.interfaceParts, h.family, h.methodPart, h.propertyPart, List.map_flatMap,
    Function.comp_def]

theorem methodTrace (id : Json) : r'.methodTrace id = r.methodTrace id := by
  rw [Reference.methodTrace, Reference.methodTrace, h.function?]
  cases r.corpus.function? id.asText with
  | none => rfl
  | some signatures => exact congrArg (Trace.use id ++ ·) (h.signaturesTrace signatures)

theorem propertyTrace (id : Json) : r'.propertyTrace id = r.propertyTrace id := by
  rw [Reference.propertyTrace, Reference.propertyTrace]
  rcases h.get?_cases id.asText with ⟨hr, hr'⟩ | ⟨_, _, content, hr, hr'⟩ <;> rw [hr, hr']
  cases content with
  | property typeName => exact congrArg (Trace.use id ++ ·) (congrFun h.typeTrace typeName)
  | _ => rfl

theorem interfaceTrace (listing : InterfaceListing) :
    r'.interfaceTrace listing = r.interfaceTrace listing := by
  have hmethods : r'.methodTrace = r.methodTrace := funext h.methodTrace
  have hproperties : r'.propertyTrace = r.propertyTrace := funext h.propertyTrace
  simp only [Reference.interfaceTrace, h.typesTrace, h.family, hmethods, hproperties]

theorem interfaceFrame (name : String) (entry : Entry) (listing : InterfaceListing) :
    r'.interfaceFrame name (entry.mapSnippets f) listing =
      (r.interfaceFrame name entry listing).mapSnippets f := by
  simp only [Reference.interfaceFrame, h.qualify]
  rfl

theorem expandInterface (name : String) (entry : Entry) (listing : InterfaceListing) :
    r'.expandInterface name (entry.mapSnippets f) listing =
      (r.expandInterface name entry listing).mapSnippets f := by
  rw [Reference.expandInterface, h.interfaceParts, h.interfaceFrame,
    InterfaceDeclaration.foldl_addPart_mapSnippets, Reference.expandInterface]

end MapsTo

/-- The declaration with other code samples; the names that it mentions and the steps are the
same. -/
def Declared.mapSnippets (declared : Declared) : Declared :=
  { declared with node := declared.node.mapSnippets f }

namespace MapsTo

variable {f} {r r' : Reference} (h : r.MapsTo f r')

include h

theorem declare? (name : String) (entry : Entry) : r'.declare? name (entry.mapSnippets f) =
    (r.declare? name entry).map (Declared.mapSnippets f) := by
  have hexpand := h.expandInterface name entry
  have hframe := h.interfaceFrame name entry
  obtain ⟨identifier, description, content⟩ := entry
  cases content with
  | record members =>
    simp only [Reference.declare?, Entry.mapSnippets, Content.mapSnippets, h.qualifySlot,
      h.typeTrace]
    rfl
  | delegate signature =>
    simp only [Reference.declare?, Entry.mapSnippets, Content.mapSnippets, h.qualifySignature,
      h.signatureTrace]
    rfl
  | interface listing =>
    simp only [Entry.mapSnippets, Content.mapSnippets] at hexpand hframe
    simp only [Reference.declare?, Entry.mapSnippets, Content.mapSnippets, hexpand, hframe,
      h.interfaceParts, h.interfaceTrace, List.flatMap_map, InterfacePart.mentions_mapSnippets]
    rfl
  | _ => rfl

end MapsTo

end Reference

namespace Merger

/-! ### The backfill -/

theorem isStructural_mapSnippets (entry : Entry) :
    isStructural (entry.mapSnippets f) = isStructural entry := by
  obtain ⟨identifier, description, content⟩ := entry
  cases content <;> rfl

def Addition.mapSnippets (addition : Addition) : Addition :=
  { addition with node := addition.node.mapSnippets f }

/-- The progress of the backfill with other code samples in the declarations. -/
def Progress.mapSnippets (p : Progress) : Progress :=
  { p with additions := p.additions.map (Addition.mapSnippets f) }

theorem additionsTo_mapSnippets (additions : List Addition) (number : Nat) :
    additionsTo (additions.map (Addition.mapSnippets f)) number =
      Surface.mapSnippetsOf f (additionsTo additions number) := by
  rw [additionsTo, additionsTo, List.filter_map, Surface.mapSnippetsOf_eq_map, List.map_map,
    List.map_map]
  rfl

def Merged.mapSnippets (merged : Merged) : Merged :=
  { merged with surface := merged.surface.mapSnippets f }

section

variable {f} {r r' : Reference} (h : r.MapsTo f r')

include h

theorem listedTypes_mapsTo (fullname : String) :
    listedTypes r' fullname = listedTypes r fullname := by
  rw [listedTypes, listedTypes]
  rcases h.get?_cases fullname with ⟨hr, hr'⟩ | ⟨_, _, content, hr, hr'⟩ <;> rw [hr, hr']
  cases content <;> rfl

theorem registerAll_mapsTo (number : Nat) (spaces : List Surface.Space) (owners : NameMap Nat) :
    registerAll r' number spaces owners = registerAll r number spaces owners := by
  induction spaces generalizing number owners with
  | nil => rfl
  | cons space spaces ih => rw [registerAll, registerAll, listedTypes_mapsTo h, ih]

theorem declareName_mapsTo (owners : NameMap Nat) (p : Progress) (name : String) (entry : Entry) :
    declareName r' owners (p.mapSnippets f) name (entry.mapSnippets f) =
      (declareName r owners p name entry).mapSnippets f := by
  -- which of the four ways a visit takes is told by what both entries share
  have hs := isStructural_mapSnippets f entry
  cases hstructural : isStructural entry with
  | false =>
    rw [declareName_of_not_structural hstructural,
      declareName_of_not_structural (hs.trans hstructural)]
  | true =>
    cases howner : NameMap.find? (Text.lowered name) owners with
    | none =>
      rw [declareName_of_unowned hstructural howner,
        declareName_of_unowned (hs.trans hstructural) howner]
      rfl
    | some owner =>
      by_cases hmem : shortName entry ∈ namesIn p.spaces owner
      · rw [declareName_of_mem hstructural howner hmem,
          declareName_of_mem (p := p.mapSnippets f) (hs.trans hstructural) howner hmem]
        rfl
      · obtain ⟨declared, hdeclared⟩ := exists_declared hstructural r (shortName entry)
        have hdeclared' : r'.declare? (shortName entry) (entry.mapSnippets f) =
            some (declared.mapSnippets f) := by
          rw [h.declare?, hdeclared, Option.map_some]
        rw [declareName_of_not_mem hstructural howner hmem hdeclared,
          declareName_of_not_mem (p := p.mapSnippets f) (hs.trans hstructural) howner hmem
            hdeclared']
        simp only [Progress.mapSnippets, List.map_append]
        rfl

/-- The entries that are left to declare are the same up to code samples during the whole run. -/
theorem backfillFrom_mapsTo (owners : NameMap Nat) (left left' : NameMap Entry) (p : Progress)
    (pending : List String)
    (hleft : ∀ name, NameMap.find? (Text.lowered name) left' =
      (NameMap.find? (Text.lowered name) left).map (Entry.mapSnippets f)) :
    backfillFrom r' owners left' (p.mapSnippets f) pending =
      (backfillFrom r owners left p pending).mapSnippets f := by
  induction left, p, pending using backfillFrom.induct r owners generalizing left' with
  | case1 left p => simp [backfillFrom]
  | case2 left p name pending hnone ih =>
    have hnone' : NameMap.find? (Text.lowered name) left' = none := by rw [hleft, hnone]; rfl
    rw [backfillFrom, backfillFrom, hnone, hnone']
    exact ih left' hleft
  | case3 left p name pending entry hsome next fresh =>
    rename_i ih
    have hsome' : NameMap.find? (Text.lowered name) left' = some (entry.mapSnippets f) := by
      rw [hleft, hsome]; rfl
    rw [backfillFrom, backfillFrom, hsome, hsome']
    simp only [declareName_mapsTo h]
    -- the same key is taken out on both sides
    refine ih (NameMap.erase (Text.lowered name) left') fun other => ?_
    by_cases hother : Text.lowered other = Text.lowered name
    · rw [hother, NameMap.find?_erase_self, NameMap.find?_erase_self]
      rfl
    · rw [NameMap.find?_erase_of_ne hother, NameMap.find?_erase_of_ne hother, hleft]

theorem backfill_mapsTo (owners : NameMap Nat) (p : Progress) :
    backfill r' owners (p.mapSnippets f) = (backfill r owners p).mapSnippets f :=
  backfillFrom_mapsTo h owners _ _ p p.memory.names h.get?

end

/-! ### The merge -/

/-- The tree with its declarations, both with other code samples. -/
theorem attach_withListeners_mapSnippets (additions : List Addition) (number : Nat) (s : Surface) :
    ((s.mapSnippets f).attach (additionsTo (additions.map (Addition.mapSnippets f)))
      number).withListeners =
      ((s.attach (additionsTo additions) number).withListeners).mapSnippets f := by
  rw [(Surface.attach_mapSnippets f (additionsTo_mapSnippets f additions)).1,
    (Surface.withListeners_mapSnippets f).1]

variable {f} in
/-- Merging with other code samples keeps the memory, the namespaces and the steps; the surface has
other code samples. -/
theorem merge_mapsTo {m : Merger} {r' : Reference} (h : m.reference.MapsTo f r')
    (root : Reflected.Root) :
    ({ m with reference := r' } : Merger).merge root =
      ({ (m.merge root).1 with reference := r' }, (m.merge root).2.mapSnippets f) := by
  let resolved := m.reference.resolve "" (Identifier.lastSegment root.fullname) root.node
  let owners := registerAll m.reference m.spaces.length resolved.spaces m.owners
  let start : Progress :=
    { memory := m.memory.addAll resolved.mentions, spaces := m.spaces ++ resolved.spaces }
  have hspaces : (resolved.mapSnippets f).spaces = resolved.spaces :=
    (Surface.spaces_mapSnippets f).1 resolved
  have hmentions : (resolved.mapSnippets f).mentions = resolved.mentions :=
    (Surface.mentions_mapSnippets f).1 resolved
  have hbackfill : backfill r' owners start = (backfill m.reference owners start).mapSnippets f :=
    backfill_mapsTo h owners start
  simp only [merge, h.resolve.1, h.resolveTrace.1]
  rw [hspaces, hmentions, registerAll_mapsTo h, hbackfill]
  simp only [Progress.mapSnippets, attach_withListeners_mapSnippets]
  rfl

/-- Trees are merged alike with two corpora that differ in code samples. -/
theorem mergeTree_mapsTo {corpus corpus' : Corpus} {overrides : List (String × Json)}
    (h : (Reference.ofCorpus corpus overrides).MapsTo f (.ofCorpus corpus' overrides))
    (root : Reflected.Root) :
    mergeTree root corpus' overrides = (mergeTree root corpus overrides).mapSnippets f :=
  congrArg Prod.snd (merge_mapsTo (m := ofCorpus corpus overrides) h root)

end Merger

end ScriptTypings
