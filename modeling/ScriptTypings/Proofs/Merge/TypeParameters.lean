import Mathlib.Data.List.Forall2
import ScriptTypings.Proofs.Merge.Ambiguity
import ScriptTypings.Proofs.Merge.Checked
import ScriptTypings.Proofs.Merge.Reachable
import ScriptTypings.Proofs.Merge.ShortNames

/-!
# Type parameters in declarations

A delegate or an interface is declared with the types of its pages, in which the names at all places
are exchanged (`DeclaresTypes`). Short names are looked up in the table of the whole corpus, and
type parameters are no exception: the table `Captures` a type parameter if it has another name for
it. `typeParameter_kept_iff` says that this is the only way in which a type parameter is lost.
-/

namespace ScriptTypings

open Text

namespace TypeExpr

/-- The name at a place of an expression. A place leads into an argument by its number, and into the
elements of an array by zero. -/
def nameAt : List Nat → TypeExpr → Option String
  | [], named base _ => some base
  | number :: place, named _ arguments => arguments[number]?.bind (nameAt place)
  | 0 :: place, array element => nameAt place element
  | _, array _ => none

theorem renameAll_eq_map (f : String → String) (types : List TypeExpr) :
    renameAll f types = types.map (rename f) := by
  induction types with
  | nil => rfl
  | cons type types ih => rw [renameAll, ih, List.map_cons]

/-- Renaming exchanges the name at every place, and adds and removes no place. -/
theorem nameAt_rename (f : String → String) (place : List Nat) (type : TypeExpr) :
    nameAt place (type.rename f) = (nameAt place type).map f := by
  induction place generalizing type with
  | nil => cases type <;> rfl
  | cons number place ih =>
    cases type with
    | named base arguments =>
      rw [rename, nameAt, nameAt, renameAll_eq_map, List.getElem?_map]
      cases arguments[number]? with
      | none => rfl
      | some argument => exact ih argument
    | array element =>
      cases number with
      | zero => exact ih element
      | succ number => rfl

end TypeExpr

/-! ### Types of declarations -/

/-- A declared type is the text of an expression that has at each place what stands for the name at
this place of a page's type. -/
def IsExchanged (f : String → String) (type declared : Json) : Prop :=
  ∀ s, type = .text s → ∃ e : TypeExpr, declared = .text e.print ∧
    ∀ place, e.nameAt place = ((TypeExpr.read s).nameAt place).map f

/-- A declared signature has the types of a page's signature with their names exchanged. -/
structure Signature.IsDeclaredAs (f : String → String) (signature declared : Signature) :
    Prop where
  parameters : List.Forall₂ (fun slot slot' : Slot => slot'.name = slot.name ∧
    slot'.description = slot.description ∧ IsExchanged f slot.typeName slot'.typeName)
    signature.parameters declared.parameters
  typed : ∀ type description, signature.returned = .typed type description →
    ∃ type', declared.returned = .typed type' description ∧ IsExchanged f type type'
  untyped : (∀ type description, signature.returned ≠ .typed type description) →
    declared.returned = signature.returned
  typeParameters : declared.typeParameters = signature.typeParameters

/-- A declared interface has the members that its family lists, with the names in their types
exchanged: every method with all signatures, and every property, though an extension can list
another one of the same name. -/
structure InterfaceListing.IsDeclaredAs (r : Reference) (f : String → String)
    (listing : InterfaceListing) (d : InterfaceDeclaration) : Prop where
  typeParameters : d.typeParameters = listing.typeParameters
  methods : ∀ source ∈ r.family listing, ∀ id ∈ source.methods, ∀ signatures,
    r.corpus.function? id.asText = some signatures →
    ∃ declared, NameMap.find? (Reference.memberName id.asText) d.methods = some declared ∧
      ∀ signature ∈ signatures, ∃ signature' ∈ declared, signature.IsDeclaredAs f signature'
  listedMethods : ∀ name declared, NameMap.find? name d.methods = some declared →
    ∀ signature' ∈ declared, ∃ source ∈ r.family listing, ∃ id ∈ source.methods,
      Reference.memberName id.asText = name ∧ ∃ signatures,
        r.corpus.function? id.asText = some signatures ∧
        ∃ signature ∈ signatures, signature.IsDeclaredAs f signature'
  properties : ∀ source ∈ r.family listing, ∀ id ∈ source.properties,
    (r.property? id.asText).isSome → Reference.memberName id.asText ∈ d.properties.names
  listedProperties : ∀ name member, NameMap.find? name d.properties = some member →
    ∃ source ∈ r.family listing, ∃ id ∈ source.properties,
      Reference.memberName id.asText = name ∧ ∃ identifier type,
        r.corpus.get? id.asText = some ⟨identifier, member.description, .property type⟩ ∧
        IsExchanged f type member.typeName

/-- The declaration of a delegate or an interface, with the names in the types exchanged. -/
inductive Reference.DeclaresTypes (r : Reference) (f : String → String) (entry : Entry) :
    Surface → Prop
  | delegate {name : String} {signature declared : Signature}
    (hentry : entry.content = .delegate signature) (h : signature.IsDeclaredAs f declared) :
    DeclaresTypes r f entry (.delegate name entry.identifier entry.description declared)
  | interface {listing : InterfaceListing} {d : InterfaceDeclaration}
    (hentry : entry.content = .interface listing) (h : listing.IsDeclaredAs r f d) :
    DeclaresTypes r f entry (.interface d)

namespace Reference

variable {r : Reference} {listing : InterfaceListing}

/-! ### Where the members of an interface come from -/

theorem exists_function_of_mem_methods {name other : String} {entry : Entry}
    {declared : List Signature}
    (hfind : NameMap.find? name (r.expandInterface other entry listing).methods = some declared)
    {signature' : Signature} (hsignature : signature' ∈ declared) :
    ∃ source ∈ r.family listing, ∃ id ∈ source.methods, memberName id.asText = name ∧
      ∃ signatures, r.corpus.function? id.asText = some signatures ∧
        ∃ signature ∈ signatures, r.qualifySignature signature = signature' := by
  rw [find?_methods_expandInterface] at hfind
  split at hfind
  · cases hfind
  · obtain rfl := Option.some.inj hfind
    obtain ⟨given, hgiven, hsignature⟩ := List.mem_flatten.mp hsignature
    obtain ⟨part, hpart, hfor⟩ := List.mem_filterMap.mp hgiven
    obtain ⟨source, hsource, ⟨id, hid, rfl⟩ | ⟨id, -, rfl⟩⟩ :=
      Merger.exists_of_mem_interfaceParts hpart
    · rw [signaturesFor_methodPart] at hfor
      split at hfor
      · rename_i hname
        obtain ⟨signatures, hfunction, rfl⟩ := Option.map_eq_some_iff.mp hfor
        exact ⟨source, hsource, id, hid, hname, signatures, hfunction,
          List.mem_map.mp hsignature⟩
      · cases hfor
    · rw [signaturesFor_propertyPart] at hfor
      cases hfor

theorem exists_property_of_find? {name other : String} {entry : Entry} {member : PropertyMember}
    (hfind : NameMap.find? name (r.expandInterface other entry listing).properties =
      some member) :
    ∃ source ∈ r.family listing, ∃ id ∈ source.properties, memberName id.asText = name ∧
      r.property? id.asText = some member := by
  rw [find?_properties_expandInterface] at hfind
  obtain ⟨part, hpart, hfor⟩ := List.mem_filterMap.mp (List.mem_of_getLast? hfind)
  obtain ⟨source, hsource, ⟨id, -, rfl⟩ | ⟨id, hid, rfl⟩⟩ :=
    Merger.exists_of_mem_interfaceParts hpart
  · rw [propertyFor_methodPart] at hfor
    cases hfor
  · rw [propertyFor_propertyPart] at hfor
    split at hfor
    · rename_i hname
      exact ⟨source, hsource, id, hid, hname, hfor⟩
    · cases hfor

theorem property?_eq_some {id : String} {member : PropertyMember}
    (hproperty : r.property? id = some member) :
    ∃ identifier type,
      r.corpus.get? id = some ⟨identifier, member.description, .property type⟩ ∧
        member.typeName = r.qualify type := by
  unfold property? at hproperty
  split at hproperty
  · rename_i identifier description type hget
    obtain rfl := Option.some.inj hproperty
    exact ⟨identifier, type, hget, rfl⟩
  · cases hproperty

/-! ### Exchanged names -/

variable (h : r.shortNames.IsTextual)

include h

theorem isExchanged_qualify (type : Json) :
    IsExchanged r.shortNames.replaced type (r.qualify type) := by
  rintro s rfl
  exact ⟨_, h.qualify_eq s, fun place => TypeExpr.nameAt_rename _ _ _⟩

theorem isDeclaredAs_qualifySignature (signature : Signature) :
    signature.IsDeclaredAs r.shortNames.replaced (r.qualifySignature signature) where
  parameters := by
    refine List.forall₂_map_right_iff.mpr (List.forall₂_same.mpr fun slot _ => ?_)
    exact ⟨rfl, rfl, isExchanged_qualify h slot.typeName⟩
  typed := by
    intro type description hreturned
    refine ⟨r.qualify type, ?_, isExchanged_qualify h type⟩
    rw [qualifySignature, hreturned]
    rfl
  untyped := by
    intro hnone
    rw [qualifySignature]
    cases hreturned : signature.returned with
    | typed type description => exact absurd hreturned (hnone type description)
    | _ => rfl
  typeParameters := rfl

/-- An interface is declared with the types of its family. -/
theorem isDeclaredAs_expandInterface (name : String) (entry : Entry) (listing : InterfaceListing) :
    listing.IsDeclaredAs r r.shortNames.replaced (r.expandInterface name entry listing) where
  typeParameters := by
    obtain ⟨methods, properties, hparts⟩ :=
      Merger.exists_foldl_addPart (r.interfaceParts listing) (r.interfaceFrame name entry listing)
    rw [expandInterface, hparts]
    rfl
  methods := by
    intro source hsource id hid signatures hfunction
    obtain ⟨declared, hfind, hall⟩ :=
      exists_method_of_function? hsource hid hfunction name entry
    exact ⟨declared, hfind, fun signature hsignature =>
      ⟨_, hall signature hsignature, isDeclaredAs_qualifySignature h signature⟩⟩
  listedMethods := by
    intro other declared hfind signature' hsignature
    obtain ⟨source, hsource, id, hid, rfl, signatures, hfunction, signature, hmem, rfl⟩ :=
      exists_function_of_mem_methods hfind hsignature
    exact ⟨source, hsource, id, hid, rfl, signatures, hfunction, signature, hmem,
      isDeclaredAs_qualifySignature h signature⟩
  properties := fun source hsource id hid hproperty =>
    mem_properties_of_property? hsource hid hproperty name entry
  listedProperties := by
    intro other member hfind
    obtain ⟨source, hsource, id, hid, rfl, hproperty⟩ := exists_property_of_find? hfind
    obtain ⟨identifier, type, hget, htype⟩ := property?_eq_some hproperty
    refine ⟨source, hsource, id, hid, rfl, identifier, type, hget, ?_⟩
    rw [htype]
    exact isExchanged_qualify h type

end Reference

/-! ### Captured type parameters -/

namespace ShortNames

variable {table : ShortNames} {parameter meaning : String}

/-- The table has something else for the name of a type parameter. -/
structure Captures (table : ShortNames) (parameter meaning : String) : Prop where
  undotted : '.' ∉ parameter.toList
  found : NameMap.find? (lowered parameter) table = some (.text meaning)
  filled : meaning ≠ ""
  other : meaning ≠ parameter

theorem Captures.replaced_eq (h : table.Captures parameter meaning) :
    table.replaced parameter = meaning := by
  rw [replaced, replacement?_of_find? h.undotted h.filled h.found, Option.getD_some]

/-- A type parameter that is not captured stands for itself. -/
theorem replaced_eq_self_iff :
    table.replaced parameter = parameter ↔ ∀ meaning, ¬ table.Captures parameter meaning := by
  constructor
  · intro hself meaning hcaptures
    exact hcaptures.other (hcaptures.replaced_eq ▸ hself)
  · intro hfree
    rw [replaced]
    cases hmeaning : table.replacement? parameter with
    | none => rfl
    | some meaning =>
      obtain ⟨hdot, hfind, hfilled⟩ := replacement?_eq_some_iff.mp hmeaning
      by_contra hother
      exact hfree meaning ⟨hdot, hfind, hfilled, hother⟩

/-- An override captures a type parameter that it has another name for. -/
theorem captures_iff_of_override (corpus : Corpus) {overrides before after : List (String × Json)}
    {name : String} {value : Json} (hsplit : overrides = before ++ (name, value) :: after)
    (hname : lowered name = lowered parameter)
    (hafter : ∀ o ∈ after, lowered o.1 ≠ lowered parameter) :
    (ofCorpus corpus overrides).Captures parameter meaning ↔
      '.' ∉ parameter.toList ∧ value = .text meaning ∧ meaning ≠ "" ∧ meaning ≠ parameter := by
  have hfind := find?_ofCorpus_of_override corpus hsplit hname hafter
  constructor
  · intro h
    exact ⟨h.undotted, Option.some.inj (hfind.symm.trans h.found), h.filled, h.other⟩
  · rintro ⟨hdot, rfl, hfilled, hother⟩
    exact ⟨hdot, hfind, hfilled, hother⟩

/-- Without an override a type parameter is captured by a type with the same short name, if all such
types have one identifier up to case. -/
theorem captures_iff_of_no_override (corpus : Corpus) {overrides : List (String × Json)}
    (hnone : ∀ o ∈ overrides, lowered o.1 ≠ lowered parameter) :
    (ofCorpus corpus overrides).Captures parameter meaning ↔
      '.' ∉ parameter.toList ∧ meaning ≠ "" ∧ meaning ≠ parameter ∧
        ∃ others, sharing (lowered parameter) (identifiersOf corpus) = meaning :: others ∧
          ∀ other ∈ others, lowered other = lowered meaning := by
  have hmeaning := isMeaning_ofCorpus corpus hnone
  constructor
  · intro h
    rw [h.found] at hmeaning
    refine ⟨h.undotted, h.filled, h.other, ?_⟩
    generalize sharing (lowered parameter) (identifiersOf corpus) = identifiers at hmeaning
    cases hmeaning with
    | agreed hagree => exact ⟨_, rfl, hagree⟩
  · rintro ⟨hdot, hfilled, hother, others, hsharing, hagree⟩
    rw [hsharing] at hmeaning
    exact ⟨hdot, hmeaning.unique (.agreed hagree), hfilled, hother⟩

end ShortNames

/-- The type parameters of a delegate or an interface. -/
def Entry.typeParameters? (entry : Entry) : Option (List Json) :=
  match entry.content with
  | .delegate signature => some signature.typeParameters
  | .interface listing => some listing.typeParameters
  | _ => none

theorem Reference.declaresTypes_of_declare? {r : Reference} (h : r.shortNames.IsTextual)
    {entry : Entry} {parameters : List Json}
    (hentry : entry.typeParameters? = some parameters) (name : String) :
    ∃ declared, r.declare? name entry = some declared ∧
      r.DeclaresTypes r.shortNames.replaced entry declared.node := by
  obtain ⟨identifier, description, content⟩ := entry
  cases content with
  | delegate signature =>
    exact ⟨_, rfl, .delegate rfl (isDeclaredAs_qualifySignature h signature)⟩
  | interface listing =>
    exact ⟨_, rfl, .interface rfl (isDeclaredAs_expandInterface h name _ listing)⟩
  | _ => cases hentry

namespace Merger

open ShortNames

/-- Delegates and interfaces are declared with the types of their pages, in which each name is
exchanged for what the table of short names has for it. A type parameter is left as it is at all
places where it occurs, exactly if the table does not capture it; otherwise what captures it stands
at all these places. The table captures it by its last override, or without one by the types of the
corpus that share its name, if these have one identifier up to case. -/
theorem typeParameter_kept_iff {corpus : Corpus} {overrides : List (String × Json)} {m : Merger}
    (h : Reachable corpus overrides m)
    (hoverrides : ∀ o ∈ overrides, o.2.isText = true ∨ o.2.isEmpty = true) {entry : Entry}
    {parameters : List Json} (hentry : entry.typeParameters? = some parameters) (name : String) :
    let r := Reference.ofCorpus corpus overrides
    ((∀ e ∈ corpus.entries, e.2.isWellTyped = true) → entry.isWellTyped = true →
      ∃ next node, m.declare? name entry = some (next, .ok node)) ∧
    (∀ next node, m.declare? name entry = some (next, .ok node) →
      r.DeclaresTypes r.shortNames.replaced entry node) ∧
    ∀ parameter, .text parameter ∈ parameters →
      (r.shortNames.replaced parameter = parameter ↔
        ∀ meaning, ¬ r.shortNames.Captures parameter meaning) ∧
      (∀ meaning, r.shortNames.Captures parameter meaning →
        r.shortNames.replaced parameter = meaning) ∧
      (∀ before short value after, overrides = before ++ (short, value) :: after →
        lowered short = lowered parameter → (∀ o ∈ after, lowered o.1 ≠ lowered parameter) →
        ∀ meaning, r.shortNames.Captures parameter meaning ↔
          '.' ∉ parameter.toList ∧ value = .text meaning ∧ meaning ≠ "" ∧ meaning ≠ parameter) ∧
      ((∀ o ∈ overrides, lowered o.1 ≠ lowered parameter) →
        ∀ meaning, r.shortNames.Captures parameter meaning ↔
          '.' ∉ parameter.toList ∧ meaning ≠ "" ∧ meaning ≠ parameter ∧
            ∃ others, sharing (lowered parameter) (identifiersOf corpus) = meaning :: others ∧
              ∀ other ∈ others, lowered other = lowered meaning) := by
  intro r
  have htextual : r.shortNames.IsTextual := isTextual_ofCorpus_of_isEmpty corpus hoverrides
  obtain ⟨declared, hdeclared, htypes⟩ :=
    Reference.declaresTypes_of_declare? htextual hentry name
  have hown : m.reference.declare? name entry = some declared := by
    rw [h.reference]
    exact hdeclared
  refine ⟨fun hentries hwelltyped => ?_, fun next node hnode => ?_,
    fun parameter _ => ⟨?_, ?_, ?_, ?_⟩⟩
  · have hr : r.IsTextual :=
      ⟨fun _ _ hget => hentries _ (Corpus.mem_entries_of_get? hget), htextual⟩
    exact ⟨_, _, declare?_of_declared hown (hr.misfit?_declared hwelltyped hdeclared)⟩
  · obtain ⟨declared', hdeclared', ⟨-, -, hresult⟩ | ⟨_, -, -, hresult⟩⟩ := declare?_cases hnode
    · obtain rfl := Option.some.inj (hdeclared'.symm.trans hown)
      cases hresult
      exact htypes
    · cases hresult
  · exact replaced_eq_self_iff
  · exact fun meaning hcaptures => hcaptures.replaced_eq
  · exact fun before short value after hsplit hshort hafter meaning =>
      captures_iff_of_override corpus hsplit hshort hafter
  · exact fun hnone meaning => captures_iff_of_no_override corpus hnone

/-! ### A captured type parameter -/

def convertSignature : Signature where
  parameters := [⟨"items", "IVector<array of T>", ""⟩]
  returned := .typed "T" ""
  typeParameters := ["T"]

def convertEntry : Entry where
  identifier := "N.Convert"
  content := .delegate convertSignature

def boxEntry : Entry where
  identifier := "N.IBox"
  content := .interface { typeParameters := ["K", "T"], properties := ["N.IBox.Value"] }

/-- A corpus with an enumeration that is called like the type parameters of a delegate and of an
interface. -/
def letterCorpus : Corpus where
  entries := [("n.convert", convertEntry), ("n.ibox", boxEntry),
    ("n.ibox.value", ⟨"N.IBox.Value", "", .property "IMap<K, array of T>"⟩),
    ("n.t", ⟨"N.T", "", .enumeration⟩)]

theorem referable_letterCorpus :
    referable letterCorpus = [convertEntry, boxEntry, ⟨"N.T", "", .enumeration⟩] := by
  have hitems : letterCorpus.items = letterCorpus.entries :=
    List.mergeSort_of_pairwise (by decide)
  rw [referable, hitems]
  rfl

def letterTable : ShortNames :=
  [("convert", "N.Convert"), ("ibox", "N.IBox"), ("t", "N.T")]

theorem ofCorpus_letterCorpus : ShortNames.ofCorpus letterCorpus [] = letterTable := by
  rw [ShortNames.ofCorpus, referable_letterCorpus]
  decide +kernel

/-- The enumeration captures one type parameter of the interface, and the other one is kept. -/
theorem typeParameter_kept_box :
    let m := ofCorpus letterCorpus []
    let table := m.reference.shortNames
    boxEntry.typeParameters? = some [.text "K", .text "T"] ∧
    (∃ next node, m.declare? "IBox" boxEntry = some (next, .ok node) ∧
      m.reference.DeclaresTypes table.replaced boxEntry node) ∧
    table.Captures "T" "N.T" ∧ table.replaced "T" = "N.T" ∧ table.replaced "K" = "K" := by
  intro m table
  have hids : identifiersOf letterCorpus = ["N.Convert", "N.IBox", "N.T"] := by
    rw [identifiersOf, referable_letterCorpus]
    rfl
  have hnone : sharing (lowered "K") (identifiersOf letterCorpus) = [] := by
    rw [hids]
    decide +kernel
  have hone : sharing (lowered "T") (identifiersOf letterCorpus) = ["N.T"] := by
    rw [hids]
    decide +kernel
  obtain ⟨hruns, htypes, hparameters⟩ := Merger.typeParameter_kept_iff
    (.new : Reachable letterCorpus [] m) (List.forall_mem_nil _)
    (rfl : boxEntry.typeParameters? = _) "IBox"
  obtain ⟨next, node, hnode⟩ := hruns (by decide) (by decide)
  obtain ⟨-, hreplaced, -, hshared⟩ := hparameters "T" (by decide)
  obtain ⟨hkept, -, -, hfree⟩ := hparameters "K" (by decide)
  have hcaptures : table.Captures "T" "N.T" := (hshared (List.forall_mem_nil _) "N.T").mpr
    ⟨by decide, by decide, by decide, [], hone, List.forall_mem_nil _⟩
  refine ⟨rfl, ⟨next, node, hnode, htypes next node hnode⟩, hcaptures,
    hreplaced "N.T" hcaptures, hkept.mpr fun meaning hmeaning => ?_⟩
  obtain ⟨-, -, -, others, hothers, -⟩ := (hfree (List.forall_mem_nil _) meaning).mp hmeaning
  cases hnone.symm.trans hothers

/-- The delegate has the enumeration in all places of its type parameter. -/
theorem declare?_convert :
    let m := ofCorpus letterCorpus []
    convertEntry.typeParameters? = some [.text "T"] ∧ convertSignature.returned = .typed "T" "" ∧
    (TypeExpr.read "T").nameAt [] = some "T" ∧
    ∃ next declared, m.declare? "Convert" convertEntry =
        some (next, .ok (.delegate "Convert" "N.Convert" "" declared)) ∧
      declared.typeParameters = ["T"] ∧ declared.returned = .typed "N.T" "" ∧
      declared.parameters = [⟨"items", "IVector<array of N.T>", ""⟩] ∧
      (TypeExpr.read "N.T").nameAt [] = some "N.T" := by
  intro m
  have hreference : m.reference = ⟨letterCorpus, letterTable⟩ :=
    congrArg (Reference.mk letterCorpus) ofCorpus_letterCorpus
  have hends : (m.reference.signatureTrace convertSignature).misfit? = none := by
    rw [hreference]
    decide +kernel
  have hqualified : m.reference.qualifySignature convertSignature =
      { convertSignature with
        parameters := [⟨"items", "IVector<array of N.T>", ""⟩], returned := .typed "N.T" "" } := by
    rw [hreference]
    decide +kernel
  have hdeclared : m.reference.declare? "Convert" convertEntry =
      some ⟨.delegate "Convert" "N.Convert" "" (m.reference.qualifySignature convertSignature), _,
        m.reference.signatureTrace convertSignature⟩ := rfl
  refine ⟨rfl, rfl, by decide +kernel, _, _, declare?_of_declared hdeclared hends, ?_⟩
  rw [hqualified]
  exact ⟨rfl, rfl, rfl, by decide +kernel⟩

end Merger

end ScriptTypings
