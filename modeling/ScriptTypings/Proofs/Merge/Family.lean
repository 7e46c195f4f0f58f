import ScriptTypings.Proofs.Corpus.Linking
import ScriptTypings.Proofs.Merge.Completion
import ScriptTypings.Proofs.Text.CamelCase

/-!
# Declarations of interface families

An interface is declared together with the extensions that were recorded for it. `FoldsFamily` says
that the declaration has the members of all of them, and each member as its own interface documents
it; `expandInterface_foldsFamily` shows this after the extensions of a corpus have been recorded.
-/

namespace ScriptTypings

open Text

/-! ### Parts under a name -/

namespace InterfacePart

/-- The signatures that a part gives to the method of a name. -/
def signaturesFor (name : String) : InterfacePart → Option (List Signature)
  | .method n signatures => if n = name then some signatures else none
  | _ => none

/-- The property that a part gives to a name. -/
def propertyFor (name : String) : InterfacePart → Option PropertyMember
  | .property n member => if n = name then some member else none
  | _ => none

end InterfacePart

namespace InterfaceDeclaration

variable (d : InterfaceDeclaration) (name : String)

theorem find?_methods_addPart (part : InterfacePart) :
    NameMap.find? name (d.addPart part).methods =
      match part.signaturesFor name with
      | some signatures => some ((NameMap.find? name d.methods).getD [] ++ signatures)
      | none => NameMap.find? name d.methods := by
  cases part with
  | method n signatures =>
    by_cases hn : n = name
    · subst hn
      simp [addPart, addMethod, InterfacePart.signaturesFor, NameMap.find?_put_self]
    · simp [addPart, addMethod, InterfacePart.signaturesFor, hn,
        NameMap.find?_put_of_ne (Ne.symm hn)]
  | _ => rfl

theorem find?_properties_addPart (part : InterfacePart) :
    NameMap.find? name (d.addPart part).properties =
      (part.propertyFor name).or (NameMap.find? name d.properties) := by
  cases part with
  | property n member =>
    by_cases hn : n = name
    · subst hn
      simp [addPart, InterfacePart.propertyFor, NameMap.find?_put_self]
    · simp [addPart, InterfacePart.propertyFor, hn, NameMap.find?_put_of_ne (Ne.symm hn)]
  | _ => rfl

/-- A method gathers the signatures of all parts under its name. -/
theorem find?_methods_foldl_addPart (parts : List InterfacePart) :
    NameMap.find? name (parts.foldl addPart d).methods =
      if parts.filterMap (InterfacePart.signaturesFor name) = [] then NameMap.find? name d.methods
      else some ((NameMap.find? name d.methods).getD [] ++
        (parts.filterMap (InterfacePart.signaturesFor name)).flatten) := by
  induction parts generalizing d with
  | nil => rfl
  | cons part parts ih =>
    rw [List.foldl_cons, ih, find?_methods_addPart]
    cases hpart : part.signaturesFor name with
    | none => simp only [List.filterMap_cons_none hpart]
    | some signatures =>
      rw [List.filterMap_cons_some hpart, if_neg (List.cons_ne_nil _ _)]
      split
      · rename_i hnil
        simp [hnil]
      · simp

/-- A property is the one of the last part under its name. -/
theorem find?_properties_foldl_addPart (parts : List InterfacePart) :
    NameMap.find? name (parts.foldl addPart d).properties =
      (parts.filterMap (InterfacePart.propertyFor name)).getLast?.or
        (NameMap.find? name d.properties) := by
  induction parts generalizing d with
  | nil => rfl
  | cons part parts ih =>
    rw [List.foldl_cons, ih, find?_properties_addPart]
    cases hpart : part.propertyFor name with
    | none => rw [List.filterMap_cons_none hpart, Option.none_or]
    | some member =>
      rw [List.filterMap_cons_some hpart, List.getLast?_cons]
      cases (parts.filterMap (InterfacePart.propertyFor name)).getLast? <;> rfl

end InterfaceDeclaration

namespace Reference

variable (r : Reference)

/-! ### What one interface documents -/

/-- The property of an identifier. -/
def property? (id : String) : Option PropertyMember :=
  match r.corpus.get? id with
  | some ⟨_, description, .property typeName⟩ => some (r.qualifyProperty typeName description)
  | _ => none

/-- The signatures of the methods that an interface lists under a name. -/
def overloads (source : InterfaceListing) (name : String) : List Signature :=
  (source.methods.filter fun id => memberName id.asText = name).flatMap fun id =>
    ((r.corpus.function? id.asText).getD []).map r.qualifySignature

/-- The properties that an interface lists under a name. -/
def propertiesNamed (source : InterfaceListing) (name : String) : List PropertyMember :=
  (source.properties.filter fun id => memberName id.asText = name).filterMap fun id =>
    r.property? id.asText

/-- The parts of one interface. -/
def sourceParts (source : InterfaceListing) : List InterfacePart :=
  source.methods.map (fun id => r.methodPart id.asText) ++
    source.properties.map fun id => r.propertyPart id.asText

theorem signaturesFor_methodPart (name id : String) :
    (r.methodPart id).signaturesFor name =
      if memberName id = name then
        (r.corpus.function? id).map fun signatures => signatures.map r.qualifySignature
      else none := by
  rw [methodPart]
  cases r.corpus.function? id <;> simp [InterfacePart.signaturesFor]

theorem signaturesFor_propertyPart (name id : String) :
    (r.propertyPart id).signaturesFor name = none := by
  rw [propertyPart]
  split <;> rfl

theorem propertyFor_methodPart (name id : String) :
    (r.methodPart id).propertyFor name = none := by
  rw [methodPart]
  split <;> rfl

theorem propertyPart_eq (id : String) :
    r.propertyPart id = match r.property? id with
      | some member => .property (memberName id) member
      | none => .unknownProperty id := by
  unfold propertyPart property?
  rcases r.corpus.get? id with _ | ⟨_, description, content⟩
  · rfl
  · cases content <;> rfl

theorem propertyFor_propertyPart (name id : String) :
    (r.propertyPart id).propertyFor name =
      if memberName id = name then r.property? id else none := by
  rw [propertyPart_eq]
  cases r.property? id <;> simp [InterfacePart.propertyFor]

/-- The groups of signatures that an interface gives to a method name, one for each identifier. -/
theorem filterMap_signaturesFor_sourceParts (source : InterfaceListing) (name : String) :
    (r.sourceParts source).filterMap (InterfacePart.signaturesFor name) =
      (source.methods.filter fun id => memberName id.asText = name).filterMap fun id =>
        (r.corpus.function? id.asText).map fun signatures =>
          signatures.map r.qualifySignature := by
  have hproperties : (source.properties.map fun id => r.propertyPart id.asText).filterMap
      (InterfacePart.signaturesFor name) = [] := by
    simp [signaturesFor_propertyPart]
  rw [sourceParts, List.filterMap_append, hproperties, List.append_nil, List.filterMap_map,
    List.filterMap_filter]
  refine List.filterMap_congr fun id _ => ?_
  simp [signaturesFor_methodPart]

theorem filterMap_propertyFor_sourceParts (source : InterfaceListing) (name : String) :
    (r.sourceParts source).filterMap (InterfacePart.propertyFor name) =
      r.propertiesNamed source name := by
  have hmethods : (source.methods.map fun id => r.methodPart id.asText).filterMap
      (InterfacePart.propertyFor name) = [] := by
    simp [propertyFor_methodPart]
  rw [sourceParts, List.filterMap_append, hmethods, List.nil_append, List.filterMap_map,
    propertiesNamed, List.filterMap_filter]
  refine List.filterMap_congr fun id _ => ?_
  simp [propertyFor_propertyPart]

theorem flatten_signaturesFor_sourceParts (source : InterfaceListing) (name : String) :
    ((r.sourceParts source).filterMap (InterfacePart.signaturesFor name)).flatten =
      r.overloads source name := by
  rw [filterMap_signaturesFor_sourceParts, overloads]
  induction source.methods.filter fun id => memberName id.asText = name with
  | nil => rfl
  | cons id ids ih =>
    cases hfunction : r.corpus.function? id.asText <;> simp [hfunction, ih]

/-! ### Families without common names -/

variable {r} {source : InterfaceListing} {name : String}

theorem lowered_memberName (id : String) :
    lowered (memberName id) = lowered (Identifier.lastSegment id) :=
  lowered_camelCase _

theorem mem_memberNames {id : Json} (hid : id ∈ source.members) :
    lowered (memberName id.asText) ∈ Corpus.memberNames source := by
  rw [lowered_memberName]
  exact List.mem_map_of_mem hid

/-- An interface gives signatures to the methods that it lists and the corpus documents. -/
theorem signaturesFor_ne_nil_iff :
    (r.sourceParts source).filterMap (InterfacePart.signaturesFor name) ≠ [] ↔
      ∃ id ∈ source.methods, (r.corpus.function? id.asText).isSome ∧
        memberName id.asText = name := by
  rw [filterMap_signaturesFor_sourceParts, ne_eq, List.filterMap_eq_nil_iff]
  simp [Option.isSome_iff_ne_none]
  grind

theorem propertyFor_ne_nil_iff :
    (r.sourceParts source).filterMap (InterfacePart.propertyFor name) ≠ [] ↔
      ∃ id ∈ source.properties, (r.property? id.asText).isSome ∧
        memberName id.asText = name := by
  rw [filterMap_propertyFor_sourceParts, propertiesNamed, ne_eq, List.filterMap_eq_nil_iff]
  simp [Option.isSome_iff_ne_none]
  grind

theorem mem_memberNames_of_signaturesFor
    (h : (r.sourceParts source).filterMap (InterfacePart.signaturesFor name) ≠ []) :
    lowered name ∈ Corpus.memberNames source := by
  obtain ⟨id, hid, -, rfl⟩ := signaturesFor_ne_nil_iff.mp h
  exact mem_memberNames (List.mem_append_left _ hid)

theorem mem_memberNames_of_propertyFor
    (h : (r.sourceParts source).filterMap (InterfacePart.propertyFor name) ≠ []) :
    lowered name ∈ Corpus.memberNames source := by
  obtain ⟨id, hid, -, rfl⟩ := propertyFor_ne_nil_iff.mp h
  exact mem_memberNames (List.mem_append_right _ hid)

/-- Of lists with no two filled ones the filled one is all. -/
theorem flatMap_eq_of_pairwise {α β : Type} {f : α → List β} {l : List α}
    (h : l.Pairwise fun a b => f a = [] ∨ f b = []) {a : α} (ha : a ∈ l) (hfilled : f a ≠ []) :
    l.flatMap f = f a := by
  induction l with
  | nil => exact absurd ha List.not_mem_nil
  | cons b l ih =>
    obtain ⟨hb, hl⟩ := List.pairwise_cons.mp h
    rw [List.flatMap_cons]
    rcases List.mem_cons.mp ha with rfl | ha
    · have hrest : l.flatMap f = [] :=
        List.flatMap_eq_nil_iff.mpr fun c hc => (hb c hc).resolve_left hfilled
      rw [hrest, List.append_nil]
    · rw [(hb a ha).resolve_right hfilled, List.nil_append]
      exact ih hl ha

variable {listing : InterfaceListing}

/-- Of a family whose members have different names one interface at most gives anything to a name:
what it gives is all that the family gives. -/
theorem filterMap_interfaceParts {α : Type} {f : InterfacePart → Option α}
    (hapart : ((r.family listing).map Corpus.memberNames).Pairwise List.Disjoint)
    (hnames : ∀ source, (r.sourceParts source).filterMap f ≠ [] →
      lowered name ∈ Corpus.memberNames source)
    (hsource : source ∈ r.family listing) (hfilled : (r.sourceParts source).filterMap f ≠ []) :
    (r.interfaceParts listing).filterMap f = (r.sourceParts source).filterMap f := by
  have hparts : (r.interfaceParts listing).filterMap f =
      (r.family listing).flatMap fun source => (r.sourceParts source).filterMap f :=
    List.filterMap_flatMap
  rw [hparts]
  -- two interfaces that both give something to the name would both have it among their names
  refine flatMap_eq_of_pairwise ?_ hsource hfilled
  refine (List.pairwise_map.mp hapart).imp fun {a b} hdisjoint => ?_
  by_contra hboth
  obtain ⟨ha, hb⟩ := not_or.mp hboth
  exact hdisjoint (hnames a ha) (hnames b hb)

end Reference

/-! ### Whole families -/

/-- The declaration of an interface has the members of the interface and of its extensions, each as
the interface that lists it documents it. -/
structure FoldsFamily (r : Reference) (listing : InterfaceListing) (d : InterfaceDeclaration) :
    Prop where
  /-- All extensions are interfaces of the corpus, and so belong to the family. -/
  found : ∀ id ∈ listing.extensions, (r.corpus.interface? id.asText).isSome
  /-- The methods are those that the corpus documents as functions. -/
  methodNames : ∀ name, name ∈ d.methods.names ↔ ∃ source ∈ r.family listing,
    ∃ id ∈ source.methods, (r.corpus.function? id.asText).isSome ∧
      Reference.memberName id.asText = name
  /-- The properties are those that the corpus documents as properties. -/
  propertyNames : ∀ name, name ∈ d.properties.names ↔ ∃ source ∈ r.family listing,
    ∃ id ∈ source.properties, (r.property? id.asText).isSome ∧
      Reference.memberName id.asText = name
  /-- A method has the signatures of one interface only. -/
  overloads : ∀ source ∈ r.family listing, ∀ id ∈ source.methods,
    (r.corpus.function? id.asText).isSome →
    NameMap.find? (Reference.memberName id.asText) d.methods =
      some (r.overloads source (Reference.memberName id.asText))
  /-- A property is the last one of one interface. -/
  properties : ∀ source ∈ r.family listing, ∀ id ∈ source.properties,
    (r.property? id.asText).isSome →
    NameMap.find? (Reference.memberName id.asText) d.properties =
      (r.propertiesNamed source (Reference.memberName id.asText)).getLast?

namespace Reference

variable {r : Reference} {listing : InterfaceListing}

theorem find?_methods_expandInterface (name other : String) (entry : Entry) :
    NameMap.find? name (r.expandInterface other entry listing).methods =
      if (r.interfaceParts listing).filterMap (InterfacePart.signaturesFor name) = [] then none
      else some ((r.interfaceParts listing).filterMap
        (InterfacePart.signaturesFor name)).flatten := by
  rw [expandInterface, InterfaceDeclaration.find?_methods_foldl_addPart]
  rfl

theorem find?_properties_expandInterface (name other : String) (entry : Entry) :
    NameMap.find? name (r.expandInterface other entry listing).properties =
      ((r.interfaceParts listing).filterMap (InterfacePart.propertyFor name)).getLast? := by
  rw [expandInterface, InterfaceDeclaration.find?_properties_foldl_addPart]
  exact Option.or_none

/-- A part of the family is a part of one of its interfaces. -/
theorem filterMap_interfaceParts_ne_nil_iff {α : Type} {f : InterfacePart → Option α} :
    (r.interfaceParts listing).filterMap f ≠ [] ↔
      ∃ source ∈ r.family listing, (r.sourceParts source).filterMap f ≠ [] := by
  have hparts : (r.interfaceParts listing).filterMap f =
      (r.family listing).flatMap fun source => (r.sourceParts source).filterMap f :=
    List.filterMap_flatMap
  rw [hparts, ne_eq, List.flatMap_eq_nil_iff]
  push Not
  rfl

/-- A family is folded if its interfaces can be found and their members have different names. -/
theorem foldsFamily (hfound : ∀ id ∈ listing.extensions, (r.corpus.interface? id.asText).isSome)
    (hapart : ((r.family listing).map Corpus.memberNames).Pairwise List.Disjoint)
    (other : String) (entry : Entry) :
    FoldsFamily r listing (r.expandInterface other entry listing) where
  found := hfound
  methodNames := by
    intro name
    have hmem : name ∈ (r.expandInterface other entry listing).methods.names ↔
        (r.interfaceParts listing).filterMap (InterfacePart.signaturesFor name) ≠ [] := by
      rw [← not_iff_not, ← NameMap.find?_eq_none_iff, find?_methods_expandInterface]
      simp
    simp only [hmem, filterMap_interfaceParts_ne_nil_iff, signaturesFor_ne_nil_iff]
  propertyNames := by
    intro name
    have hmem : name ∈ (r.expandInterface other entry listing).properties.names ↔
        (r.interfaceParts listing).filterMap (InterfacePart.propertyFor name) ≠ [] := by
      rw [← not_iff_not, ← NameMap.find?_eq_none_iff, find?_properties_expandInterface]
      simp
    simp only [hmem, filterMap_interfaceParts_ne_nil_iff, propertyFor_ne_nil_iff]
  overloads := by
    intro source hsource id hid hfunction
    have hfilled := signaturesFor_ne_nil_iff.mpr ⟨id, hid, hfunction, rfl⟩
    have hparts := filterMap_interfaceParts hapart (fun _ => mem_memberNames_of_signaturesFor)
      hsource hfilled
    rw [find?_methods_expandInterface, hparts, if_neg hfilled, flatten_signaturesFor_sourceParts]
  properties := by
    intro source hsource id hid hproperty
    have hfilled := propertyFor_ne_nil_iff.mpr ⟨id, hid, hproperty, rfl⟩
    have hparts := filterMap_interfaceParts hapart (fun _ => mem_memberNames_of_propertyFor)
      hsource hfilled
    rw [find?_properties_expandInterface, hparts, filterMap_propertyFor_sourceParts]

/-- After the extensions of a corpus have been recorded, which nothing stops, every interface that
is no extension itself is declared with all members of its family, and no interface of the family
changes what another one documents. -/
theorem expandInterface_foldsFamily {corpus : Corpus} (hcorpus : corpus.WellFormed)
    (hkeyed : corpus.KeyedByIdentifier) (hnamed : ∀ e ∈ corpus.entries, e.1 ≠ "")
    (overrides : List (String × Json)) (hoverrides : ∀ o ∈ overrides, o.2.isText = true) :
    ∃ linked, corpus.linkExtensions? = some linked ∧ linked.trace.misfit? = none ∧
      ∀ key identifier description listing,
        (key, ⟨identifier, description, .interface listing⟩) ∈ linked.corpus.entries →
        Corpus.endsWithDigit? key ≠ some true → ∀ name entry,
          let r := Reference.ofCorpus linked.corpus overrides
          (r.interfaceTrace listing).misfit? = none ∧
            FoldsFamily r listing (r.expandInterface name entry listing) := by
  have hunnamed := Corpus.hasUnnamedInterface_eq_false hnamed
  obtain ⟨trace, hlinked, htrace⟩ := hcorpus.exists_linked hunnamed
  refine ⟨_, hlinked, htrace, fun key identifier description listing hmem hkey name entry => ?_⟩
  have hwell : corpus.withExtensions.WellFormed := hcorpus.link hlinked
  have htextual := Merger.isTextual_ofCorpus hwell.wellTyped hoverrides
  have hentry := hwell.wellTyped _ hmem
  simp only [Entry.isWellTyped, Bool.and_eq_true] at hentry
  refine ⟨htextual.misfit?_interfaceTrace hentry.2, ?_⟩
  have hcontinue := Corpus.continue_withExtensions hkeyed hkey hmem
  refine foldsFamily hcontinue.found ?_ name entry
  have hnames : ((Reference.ofCorpus corpus.withExtensions overrides).family listing).map
      Corpus.memberNames =
        Corpus.memberNames listing :: corpus.withExtensions.namesOf listing.extensions := by
    rw [family, List.map_cons, List.map_filterMap]
    rfl
  rw [hnames]
  exact hcontinue.apart

/-- A vector with a second interface that adds a method, and a third one that repeats a name. -/
def vectorCorpus : Corpus where
  entries :=
    [("n.ivector", ⟨"N.IVector", "", .interface
        { methods := ["N.IVector.GetAt"], properties := ["N.IVector.Size"] }⟩),
     ("n.ivector2", ⟨"N.IVector2", "", .interface { methods := ["N.IVector2.SetAt"] }⟩),
     ("n.ivector2.setat", ⟨"N.IVector2.SetAt", "", .function [{}]⟩),
     ("n.ivector3", ⟨"N.IVector3", "", .interface { methods := ["N.IVector3.size"] }⟩)]

/-- What the vector lists after its extensions have been recorded. -/
def vectorListing : InterfaceListing :=
  { methods := ["N.IVector.GetAt"], properties := ["N.IVector.Size"],
    extensions := ["N.IVector2"] }

theorem mem_withExtensions_vectorCorpus :
    ("n.ivector", ⟨"N.IVector", "", .interface vectorListing⟩) ∈
      vectorCorpus.withExtensions.entries := by
  have hlinked : (vectorCorpus.linkEntry "n.ivector" ⟨"N.IVector", "", .interface
      { methods := ["N.IVector.GetAt"], properties := ["N.IVector.Size"] }⟩).1 =
        ⟨"N.IVector", "", .interface vectorListing⟩ := by decide +kernel
  rw [← hlinked]
  exact List.mem_cons_self

/-- The vector is declared with the method of its second interface. -/
theorem expandInterface_foldsFamily_vector :
    vectorCorpus.WellFormed ∧ vectorCorpus.KeyedByIdentifier ∧
    (∀ e ∈ vectorCorpus.entries, e.1 ≠ "") ∧ Corpus.endsWithDigit? "n.ivector" ≠ some true ∧
    ∃ linked, vectorCorpus.linkExtensions? = some linked ∧
      ("n.ivector", ⟨"N.IVector", "", .interface vectorListing⟩) ∈ linked.corpus.entries ∧
      "setAt" ∈ ((Reference.ofCorpus linked.corpus []).expandInterface "IVector"
        ⟨"N.IVector", "", .interface vectorListing⟩ vectorListing).methods.names := by
  have hcorpus : vectorCorpus.WellFormed := ⟨by decide, by decide, by decide⟩
  have hkeyed : vectorCorpus.KeyedByIdentifier := by decide
  have hnamed : ∀ e ∈ vectorCorpus.entries, e.1 ≠ "" := by decide
  have hdigit : Corpus.endsWithDigit? "n.ivector" ≠ some true := by decide
  obtain ⟨linked, hlinked, -, hfolds⟩ := expandInterface_foldsFamily hcorpus hkeyed hnamed [] nofun
  obtain ⟨trace, hlinked', -⟩ := hcorpus.exists_linked (Corpus.hasUnnamedInterface_eq_false hnamed)
  cases hlinked.symm.trans hlinked'
  refine ⟨hcorpus, hkeyed, hnamed, hdigit, _, hlinked, mem_withExtensions_vectorCorpus, ?_⟩
  obtain ⟨-, hfamily⟩ := hfolds _ _ _ _ mem_withExtensions_vectorCorpus hdigit "IVector"
    ⟨"N.IVector", "", .interface vectorListing⟩
  have hsecond : vectorCorpus.withExtensions.interface? "N.IVector2" =
      some { methods := ["N.IVector2.SetAt"] } := by decide +kernel
  have hmethod : (vectorCorpus.withExtensions.function? "N.IVector2.SetAt").isSome := by
    decide +kernel
  have hname : memberName "N.IVector2.SetAt" = "setAt" := by decide +kernel
  refine (hfamily.methodNames "setAt").mpr ⟨{ methods := ["N.IVector2.SetAt"] }, ?_,
    "N.IVector2.SetAt", List.mem_cons_self, hmethod, hname⟩
  exact List.mem_cons_of_mem _ (List.mem_filterMap.mpr ⟨"N.IVector2", List.mem_cons_self, hsecond⟩)

end Reference

end ScriptTypings
