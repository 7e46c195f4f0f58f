import ScriptTypings.Corpus.Validation
import ScriptTypings.Proofs.Merge.Family

/-!
# Interfaces of a checked corpus

Strict checking finds no error exactly if the corpus has an entry for every member that its
interfaces list, whatever the kind of the entry (`errors_validate_iff`). The declaration of such an
interface has every listed method that is documented as a function and every listed property that
is documented as a property; what it leaves out is documented as something else
(`declaresDocumented_of_validate`).
-/

namespace ScriptTypings

open Text

namespace Corpus

variable {corpus : Corpus}

/-- The grave findings about an entry are the members of an interface that have no entry. -/
theorem grave_findingsOf (entry : Entry) :
    (corpus.findingsOf entry).filter Finding.isGrave =
      match entry.content with
      | .interface listing =>
        (listing.members.filter fun id => !corpus.documents id).map fun id =>
          .undocumentedMember entry.identifier.shown id.shown
      | _ => [] := by
  obtain ⟨identifier, description, content⟩ := entry
  cases content with
  | function signatures => cases signatures <;> rfl
  | interface listing =>
    refine List.filter_eq_self.mpr fun finding hfinding => ?_
    obtain ⟨id, -, rfl⟩ := List.mem_map.mp hfinding
    rfl
  | space listing =>
    refine List.filter_eq_nil_iff.mpr fun finding hfinding => ?_
    obtain ⟨id, -, rfl⟩ := List.mem_map.mp hfinding
    exact Bool.false_ne_true
  | _ => rfl

/-- Strict checking finds no error if and only if the corpus documents all members that its
interfaces list. -/
theorem errors_validate_iff :
    (corpus.validate true).errors = [] ↔
      ∀ e ∈ corpus.entries, ∀ listing, e.2.content = .interface listing →
        ∀ id ∈ listing.members, corpus.documents id = true := by
  have herrors : (corpus.validate true).errors =
      corpus.items.flatMap fun e => (corpus.findingsOf e.2).filter Finding.isGrave := by
    simp only [validate, Bool.true_and, findings, List.filter_flatMap]
  rw [herrors, List.flatMap_eq_nil_iff]
  have hitems : ∀ e, e ∈ corpus.items ↔ e ∈ corpus.entries := fun e =>
    (NameMap.sorted_perm _).mem_iff
  simp only [hitems, grave_findingsOf]
  refine forall₂_congr fun e _ => ?_
  cases e.2.content with
  | interface listing =>
    rw [List.map_eq_nil_iff, List.filter_eq_nil_iff]
    simp
  | _ => simp

theorem interface?_eq_some {key : String} {listing : InterfaceListing}
    (h : corpus.interface? key = some listing) :
    ∃ identifier description,
      corpus.get? key = some ⟨identifier, description, .interface listing⟩ := by
  unfold interface? at h
  split at h
  · rename_i identifier description found hget
    exact ⟨identifier, description, Option.some.inj h ▸ hget⟩
  · cases h

/-- What a corpus documents is a text with an entry. -/
theorem documents_iff {id : Json} :
    corpus.documents id = true ↔ id.isText = true ∧ ∃ entry, corpus.get? id.asText = some entry := by
  rw [documents, contains, Bool.and_eq_true, Option.isSome_iff_exists]

end Corpus

/-- The declaration of an interface has the members that it and its extensions list, if these are
documented as what they are listed as. -/
structure DeclaresDocumented (r : Reference) (listing : InterfaceListing)
    (d : InterfaceDeclaration) : Prop where
  /-- Every listed member has an entry of some kind. -/
  documented : ∀ source ∈ r.family listing, ∀ id ∈ source.members,
    id.isText = true ∧ ∃ entry, r.corpus.get? id.asText = some entry
  /-- A method that is documented as a function is declared with all signatures of this function. -/
  methods : ∀ source ∈ r.family listing, ∀ id ∈ source.methods,
    ∀ signatures, r.corpus.function? id.asText = some signatures →
      ∃ declared, NameMap.find? (Reference.memberName id.asText) d.methods = some declared ∧
        ∀ signature ∈ signatures, r.qualifySignature signature ∈ declared
  /-- A property that is documented as a property is declared. -/
  properties : ∀ source ∈ r.family listing, ∀ id ∈ source.properties,
    (r.property? id.asText).isSome → Reference.memberName id.asText ∈ d.properties.names
  /-- A method that is not declared is documented as something else than a function. -/
  otherMethods : ∀ source ∈ r.family listing, ∀ id ∈ source.methods,
    Reference.memberName id.asText ∉ d.methods.names →
      ∃ entry, r.corpus.get? id.asText = some entry ∧
        ∀ signatures, entry.content ≠ .function signatures
  /-- A property that is not declared is documented as something else than a property. -/
  otherProperties : ∀ source ∈ r.family listing, ∀ id ∈ source.properties,
    Reference.memberName id.asText ∉ d.properties.names →
      ∃ entry, r.corpus.get? id.asText = some entry ∧
        ∀ typeName, entry.content ≠ .property typeName

namespace Reference

variable {r : Reference} {listing source : InterfaceListing}

theorem exists_method_of_function? (hsource : source ∈ r.family listing) {id : Json}
    (hid : id ∈ source.methods) {signatures : List Signature}
    (h : r.corpus.function? id.asText = some signatures) (other : String) (entry : Entry) :
    ∃ declared,
      NameMap.find? (memberName id.asText) (r.expandInterface other entry listing).methods =
        some declared ∧
      ∀ signature ∈ signatures, r.qualifySignature signature ∈ declared := by
  have hpart : r.methodPart id.asText ∈ r.interfaceParts listing :=
    List.mem_flatMap.mpr ⟨source, hsource, List.mem_append_left _ (List.mem_map_of_mem hid)⟩
  have hgiven : signatures.map r.qualifySignature ∈
      (r.interfaceParts listing).filterMap
        (InterfacePart.signaturesFor (memberName id.asText)) := by
    refine List.mem_filterMap.mpr ⟨_, hpart, ?_⟩
    rw [signaturesFor_methodPart, if_pos rfl, h]
    rfl
  rw [find?_methods_expandInterface, if_neg (List.ne_nil_of_mem hgiven)]
  refine ⟨_, rfl, fun signature hsignature => ?_⟩
  exact List.mem_flatten.mpr ⟨_, hgiven, List.mem_map_of_mem hsignature⟩

theorem mem_properties_of_property? (hsource : source ∈ r.family listing) {id : Json}
    (hid : id ∈ source.properties) (h : (r.property? id.asText).isSome) (other : String)
    (entry : Entry) :
    memberName id.asText ∈ (r.expandInterface other entry listing).properties.names := by
  have hfilled := filterMap_interfaceParts_ne_nil_iff.mpr
    ⟨source, hsource, propertyFor_ne_nil_iff.mpr ⟨id, hid, h, rfl⟩⟩
  rw [← not_not (a := _ ∈ _), ← NameMap.find?_eq_none_iff, find?_properties_expandInterface]
  exact fun hnone => hfilled (List.getLast?_eq_none_iff.mp hnone)

/-- An interface of a corpus without grave findings is declared with everything that it lists, up to
members that are documented as something else; and nothing stops this if all values of the corpus
that are meant as texts are texts. -/
theorem declaresDocumented_of_validate {corpus : Corpus} (h : (corpus.validate true).errors = [])
    {key : String} {entry : Entry} (hentry : (key, entry) ∈ corpus.entries)
    (hlisting : entry.content = .interface listing) (overrides : List (String × Json))
    (name : String) :
    DeclaresDocumented (ofCorpus corpus overrides) listing
        ((ofCorpus corpus overrides).expandInterface name entry listing) ∧
      ((∀ e ∈ corpus.entries, e.2.isWellTyped = true) → (∀ o ∈ overrides, o.2.isText = true) →
        ((ofCorpus corpus overrides).interfaceTrace listing).misfit? = none) := by
  have hdocumented : ∀ source ∈ (ofCorpus corpus overrides).family listing,
      ∀ id ∈ source.members, id.isText = true ∧ ∃ entry, corpus.get? id.asText = some entry := by
    intro source hsource id hid
    apply Corpus.documents_iff.mp
    rcases List.mem_cons.mp hsource with rfl | hsource
    · exact Corpus.errors_validate_iff.mp h _ hentry _ hlisting id hid
    · obtain ⟨extension, -, hextension⟩ := List.mem_filterMap.mp hsource
      obtain ⟨identifier, description, hget⟩ := Corpus.interface?_eq_some hextension
      exact Corpus.errors_validate_iff.mp h _ (Corpus.mem_entries_of_get? hget) _ rfl id hid
  refine ⟨⟨hdocumented, ?_, ?_, ?_, ?_⟩, fun hcorpus hoverrides => ?_⟩
  · intro source hsource id hid signatures hfunction
    exact exists_method_of_function? hsource hid hfunction name entry
  · intro source hsource id hid hproperty
    exact mem_properties_of_property? hsource hid hproperty name entry
  · intro source hsource id hid hname
    obtain ⟨-, found, hfound⟩ := hdocumented source hsource id (List.mem_append_left _ hid)
    refine ⟨found, hfound, fun signatures hcontent => ?_⟩
    obtain ⟨identifier, description, content⟩ := found
    obtain rfl : content = .function signatures := hcontent
    have hfunction : corpus.function? id.asText = some signatures := by
      rw [Corpus.function?, hfound]
    obtain ⟨declared, hdeclared, -⟩ := exists_method_of_function? hsource hid hfunction name entry
    rw [NameMap.find?_eq_none_iff.mpr hname] at hdeclared
    cases hdeclared
  · intro source hsource id hid hname
    obtain ⟨-, found, hfound⟩ := hdocumented source hsource id (List.mem_append_right _ hid)
    refine ⟨found, hfound, fun typeName hcontent => ?_⟩
    obtain ⟨identifier, description, content⟩ := found
    obtain rfl : content = .property typeName := hcontent
    have hproperty : ((ofCorpus corpus overrides).property? id.asText).isSome := by
      rw [property?, show (ofCorpus corpus overrides).corpus = corpus from rfl, hfound]
      rfl
    exact hname (mem_properties_of_property? hsource hid hproperty name entry)
  · have hwell := hcorpus _ hentry
    simp only [Entry.isWellTyped, hlisting, Bool.and_eq_true] at hwell
    exact (Merger.isTextual_ofCorpus hcorpus hoverrides).misfit?_interfaceTrace hwell.2

/-- What an interface lists that names a property among its methods, too. -/
def runListing : InterfaceListing :=
  { methods := ["N.IRun.Go", "N.IRun.Speed"], properties := ["N.IRun.Speed"] }

/-- A corpus with this interface in which all members are documented. -/
def runCorpus : Corpus where
  entries :=
    [("n.irun", ⟨"N.IRun", "", .interface runListing⟩),
     ("n.irun.go", ⟨"N.IRun.Go", "", .function [{}]⟩),
     ("n.irun.speed", ⟨"N.IRun.Speed", "", .property "Number"⟩)]

theorem errors_validate_runCorpus : (runCorpus.validate true).errors = [] := by
  have hdocuments : ∀ id ∈ runListing.members, runCorpus.documents id = true := by decide +kernel
  refine Corpus.errors_validate_iff.mpr fun e he listing hlisting => ?_
  rcases List.mem_cons.mp he with rfl | he
  · obtain rfl := Content.interface.inj hlisting
    exact hdocuments
  · rcases List.mem_cons.mp he with rfl | he
    · cases hlisting
    · rw [List.mem_singleton.mp he] at hlisting
      cases hlisting

/-- Strict checking accepts a corpus whose interface loses a listed method when it is declared: the
method is documented as a property. -/
theorem expandInterface_drops_property :
    (runCorpus.validate true).errors = [] ∧
    ("n.irun", ⟨"N.IRun", "", .interface runListing⟩) ∈ runCorpus.entries ∧
    .text "N.IRun.Speed" ∈ runListing.methods ∧
    memberName "N.IRun.Speed" ∉ ((ofCorpus runCorpus []).expandInterface "IRun"
      ⟨"N.IRun", "", .interface runListing⟩ runListing).methods.names :=
  ⟨errors_validate_runCorpus, by decide, by decide, by decide +kernel⟩

/-- The interface is declared with its method and with its property. -/
theorem declaresDocumented_of_validate_run :
    (runCorpus.validate true).errors = [] ∧
    ("n.irun", ⟨"N.IRun", "", .interface runListing⟩) ∈ runCorpus.entries ∧
    (∀ e ∈ runCorpus.entries, e.2.isWellTyped = true) ∧
    DeclaresDocumented (ofCorpus runCorpus []) runListing ((ofCorpus runCorpus []).expandInterface
      "IRun" ⟨"N.IRun", "", .interface runListing⟩ runListing) ∧
    ((ofCorpus runCorpus []).interfaceTrace runListing).misfit? = none := by
  have hentry : ("n.irun", ⟨"N.IRun", "", .interface runListing⟩) ∈ runCorpus.entries := by decide
  have htyped : ∀ e ∈ runCorpus.entries, e.2.isWellTyped = true := by decide
  obtain ⟨hdeclares, hends⟩ :=
    declaresDocumented_of_validate errors_validate_runCorpus hentry rfl [] "IRun"
  exact ⟨errors_validate_runCorpus, hentry, htyped, hdeclares, hends htyped nofun⟩

end Reference

end ScriptTypings
