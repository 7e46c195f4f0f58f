import ScriptTypings.Corpus.Encoding

/-!
# The shape of decodable values

Which JSON values are entries is said here without decoding them: an entry names its kind, has an
identifier, and wherever it shows a list, a slot or a signature, this is one. A value that counts as
a list need not be written as one. `Corpus.succeeds_ofJson` says that these values, and no others,
are decoded.
-/

namespace ScriptTypings

/-! ### Readings that succeed -/

/-- The reading is not refused. -/
def Succeeds {ε α : Type} (reading : Except ε α) : Prop :=
  ∃ a, reading = .ok a

section

variable {ε α β : Type}

@[simp]
theorem succeeds_ok (a : α) : Succeeds (.ok a : Except ε α) :=
  ⟨a, rfl⟩

@[simp]
theorem succeeds_pure (a : α) : Succeeds (pure a : Except ε α) :=
  ⟨a, rfl⟩

@[simp]
theorem not_succeeds_error (e : ε) : ¬ Succeeds (.error e : Except ε α) :=
  nofun

@[simp]
theorem not_succeeds_throw (e : ε) : ¬ Succeeds (throw e : Except ε α) :=
  nofun

theorem succeeds_bind {reading : Except ε α} {next : α → Except ε β} :
    Succeeds (reading >>= next) ↔ ∃ a, reading = .ok a ∧ Succeeds (next a) := by
  cases reading with
  | error e => simp [Succeeds, bind, Except.bind]
  | ok a => simp [bind, Except.bind]

/-- What comes behind a reading may succeed whatever this gives. -/
theorem succeeds_bind_of_forall {reading : Except ε α} {next : α → Except ε β} {P : Prop}
    (h : ∀ a, Succeeds (next a) ↔ P) : Succeeds (reading >>= next) ↔ Succeeds reading ∧ P := by
  rw [succeeds_bind]
  constructor
  · rintro ⟨a, hreading, hnext⟩
    exact ⟨⟨a, hreading⟩, (h a).mp hnext⟩
  · rintro ⟨⟨a, hreading⟩, hP⟩
    exact ⟨a, hreading, (h a).mpr hP⟩

theorem succeeds_mapM {f : α → Except ε β} {l : List α} :
    Succeeds (l.mapM f) ↔ ∀ a ∈ l, Succeeds (f a) := by
  induction l with
  | nil => simp
  | cons a l ih =>
    rw [List.mapM_cons, succeeds_bind_of_forall (P := Succeeds (l.mapM f)), ih,
      List.forall_mem_cons]
    intro b
    rw [succeeds_bind_of_forall (P := True) fun bs => by simp, and_true]

end

/-! ### Lists and members -/

namespace Json

/-- The items of a value that counts as a list: a text is one of its characters, and an object one
of its names. -/
inductive Lists : Json → List Json → Prop
  | list (items : List Json) : Lists (.list items) items
  | text (s : String) : Lists (.text s) (s.toList.map fun c => .text (String.singleton c))
  | object (members : List (String × Json)) :
    Lists (.object members) (members.map fun member => .text member.1)

/-- Whether a value counts as a list of values of some shape. -/
def ListsOnly (Shape : Json → Prop) (value : Json) : Prop :=
  ∃ items, value.Lists items ∧ ∀ item ∈ items, Shape item

/-- A value that can name a member of an object. -/
inductive IsName : Json → Prop
  | text (s : String) : IsName (.text s)
  | null : IsName .null
  | bool (value : Bool) : IsName (.bool value)
  | whole (n : Int) : IsName (.whole n)
  | real (x : Number.Binary64) : IsName (.real x)

/-- A list of a name and a value. -/
def IsPair (value : Json) : Prop :=
  ∃ name held, value.Lists [name, held] ∧ name.IsName

/-- Whether a member has some shape, if it is there. -/
def Allows (Shape : Json → Prop) (name : String) (members : List (String × Json)) : Prop :=
  ∀ value, NameMap.find? name members = some value → Shape value

/-- Whether a member is there. -/
def Requires (name : String) (members : List (String × Json)) : Prop :=
  ∃ value, NameMap.find? name members = some value

/-- Whether a value is an object with members of a certain kind. -/
def IsObject (Shape : List (String × Json) → Prop) (value : Json) : Prop :=
  ∃ members, value = .object members ∧ Shape members

/-! ### Shapes -/

def IsAny (_ : Json) : Prop := True

/-- A named and typed place. -/
def IsSlot : Json → Prop :=
  IsObject fun members => Requires "key" members ∧ Requires "type" members

/-- What a function gives back: nothing, a word, fields, or something typed. -/
inductive IsReturned : Json → Prop
  | nothing : IsReturned .null
  | marker (word : String) : IsReturned (.text word)
  | fields {members : List (String × Json)} {slots : Json}
    (hslots : NameMap.find? "members" members = some slots) (h : ListsOnly IsSlot slots) :
    IsReturned (.object members)
  | typed {members : List (String × Json)} (hnone : NameMap.find? "members" members = none)
    (h : Requires "type" members) : IsReturned (.object members)

/-- Code samples by language: an object, or a list of pairs. -/
inductive IsSamples : Json → Prop
  | object (members : List (String × Json)) : IsSamples (.object members)
  | pairs {value : Json} (h : ListsOnly IsPair value) : IsSamples value

def IsSignature : Json → Prop :=
  IsObject fun members => Allows (ListsOnly IsSlot) "parameters" members ∧
    Allows IsReturned "return" members ∧ Allows IsSamples "codeSnippets" members ∧
    Allows (ListsOnly IsAny) "typeParameters" members

/-- Whether something is listed under some names, as far as these are there. -/
def AllowsLists (names : List String) (members : List (String × Json)) : Prop :=
  ∀ name ∈ names, Allows (ListsOnly IsAny) name members

/-- An object that lists something under some names. -/
def IsListing (names : List String) : Json → Prop :=
  IsObject (AllowsLists names)

/-- What the members of an entry are besides, by the word for its kind. -/
def IsContent (members : List (String × Json)) : String → Prop
  | "class" | "attribute" => Allows (ListsOnly IsAny) "interfaces" members
  | "enumeration" | "event" | "property" => True
  | "namespace" => Allows (IsListing ["structures", "delegates", "interfaces"]) "members" members
  | "interface" =>
    AllowsLists ["interfaces", "typeParameters", "extensions"] members ∧
    Allows (IsListing ["methods", "properties"]) "members" members
  | "structure" => Allows (ListsOnly IsSlot) "members" members
  | "delegate" => Allows IsSignature "signature" members
  | "function" => Allows (ListsOnly IsSignature) "signatures" members
  | _ => False

/-- An entry names its kind, and has an identifier and what belongs to the kind. -/
def IsEntry : Json → Prop :=
  IsObject fun members => ∃ kind, NameMap.find? "type" members = some (.text kind) ∧
    Requires "camelId" members ∧ IsContent members kind

/-- A mapping of identifiers to entries. -/
def IsCorpus : Json → Prop :=
  IsObject fun members => ∀ member ∈ members, IsEntry member.2

end Json

namespace Decoding

open Json

theorem items_eq_ok_iff {value : Json} {found : List Json} :
    items value = .ok found ↔ value.Lists found := by
  constructor
  · intro h
    cases value <;> simp only [items, Except.ok.injEq, reduceCtorEq] at h
    · exact h ▸ .text _
    · exact h ▸ .list _
    · exact h ▸ .object _
  · rintro (_ | _ | _) <;> rfl

theorem succeeds_items {value : Json} : Succeeds (items value) ↔ ListsOnly IsAny value := by
  constructor
  · rintro ⟨found, hfound⟩
    exact ⟨found, items_eq_ok_iff.mp hfound, fun _ _ => trivial⟩
  · rintro ⟨found, hfound, -⟩
    exact ⟨found, items_eq_ok_iff.mpr hfound⟩

variable {α : Type} {f : Json → Except DecodingError α} {Shape : Json → Prop} {value : Json}
  {name : String} {ms : List (String × Json)}

/-- A value that stands for a missing member is allowed. -/
theorem allows_iff_getD {default : Json} (h : Shape default) :
    Shape ((NameMap.find? name ms).getD default) ↔ Allows Shape name ms := by
  rw [Allows]
  cases NameMap.find? name ms with
  | none => simp [h]
  | some value => simp

theorem succeeds_itemsOf : Succeeds (itemsOf name ms) ↔ Allows (ListsOnly IsAny) name ms := by
  rw [itemsOf, Allows]
  cases NameMap.find? name ms with
  | none => simp
  | some value => simp [succeeds_items]

variable {β : Type} {next : α → Except DecodingError β} {P : Prop}

theorem succeeds_itemsOf_bind {next : List Json → Except DecodingError α}
    (h : ∀ found, Succeeds (next found) ↔ P) :
    Succeeds (itemsOf name ms >>= next) ↔ Allows (ListsOnly IsAny) name ms ∧ P := by
  rw [succeeds_bind_of_forall h, succeeds_itemsOf]

theorem succeeds_items_mapM_bind {next : List α → Except DecodingError β}
    (h : ∀ item, Succeeds (f item) ↔ Shape item) (hnext : ∀ found, Succeeds (next found) ↔ P) :
    Succeeds (items value >>= fun found => found.mapM f >>= next) ↔ ListsOnly Shape value ∧ P := by
  rw [succeeds_bind]
  simp only [succeeds_bind_of_forall hnext, succeeds_mapM, h, items_eq_ok_iff]
  simp only [ListsOnly, ← and_assoc, exists_and_right]

theorem succeeds_itemsOf_mapM_bind {next : List α → Except DecodingError β}
    (h : ∀ item, Succeeds (f item) ↔ Shape item) (hnext : ∀ found, Succeeds (next found) ↔ P) :
    Succeeds (itemsOf name ms >>= fun found => found.mapM f >>= next) ↔
      Allows (ListsOnly Shape) name ms ∧ P := by
  rw [itemsOf, Allows]
  cases NameMap.find? name ms with
  | none =>
    simp only [reduceCtorEq, false_implies, implies_true, true_and]
    exact hnext []
  | some value =>
    simp only [Option.some.injEq, forall_eq']
    exact succeeds_items_mapM_bind h hnext

theorem succeeds_required : Succeeds (required name ms) ↔ Requires name ms := by
  rw [required, Requires]
  cases NameMap.find? name ms <;> simp

/-- Members that are required are looked up, and what comes behind does not depend on them. -/
theorem succeeds_required_bind {next : Json → Except DecodingError α} {P : Prop}
    (h : ∀ found, Succeeds (next found) ↔ P) :
    Succeeds (required name ms >>= next) ↔ Requires name ms ∧ P := by
  rw [succeeds_bind_of_forall h, succeeds_required]

theorem succeeds_parts {next : List (String × Json) → Except DecodingError α}
    {Members : List (String × Json) → Prop} (h : ∀ ms, Succeeds (next ms) ↔ Members ms) :
    Succeeds (parts value >>= next) ↔ IsObject Members value := by
  cases value <;> simp [parts, succeeds_bind, IsObject, h]

theorem succeeds_members {next : List (String × Json) → Except DecodingError α}
    {Members : List (String × Json) → Prop} (h : ∀ ms, Succeeds (next ms) ↔ Members ms) :
    Succeeds (members value >>= next) ↔ IsObject Members value := by
  cases value <;> simp [members, succeeds_bind, IsObject, h]

end Decoding

open Decoding Json

theorem Slot.succeeds_ofJson (value : Json) : Succeeds (ofJson value) ↔ IsSlot value := by
  refine succeeds_parts fun ms => ?_
  refine succeeds_required_bind fun name => ?_
  rw [succeeds_required_bind fun typeName => iff_of_true (succeeds_pure _) trivial, and_true]

/-- What is no object is no fields and nothing typed. -/
theorem Json.not_isReturned {value : Json} (hnull : value ≠ .null) (htext : ∀ s, value ≠ .text s)
    (hobject : ∀ members, value ≠ .object members) : ¬ IsReturned value := by
  intro h
  cases h with
  | nothing => exact hnull rfl
  | marker word => exact htext word rfl
  | fields => exact hobject _ rfl
  | typed => exact hobject _ rfl

theorem Returned.succeeds_ofJson (value : Json) : Succeeds (ofJson value) ↔ IsReturned value := by
  cases value with
  | null => exact iff_of_true (succeeds_ok _) .nothing
  | text word => exact iff_of_true (succeeds_ok _) (.marker word)
  | object ms =>
    have hbind : ∀ next : List (String × Json) → Except DecodingError Returned,
        (.ok ms >>= next) = next ms := fun _ => rfl
    simp only [ofJson, parts, hbind]
    cases hfields : NameMap.find? "members" ms with
    | none =>
      refine (succeeds_required_bind fun typeName =>
        iff_of_true (succeeds_pure _) trivial).trans ?_
      rw [and_true]
      refine ⟨.typed hfields, fun h => ?_⟩
      cases h with
      | fields hslots =>
        rw [hfields] at hslots
        cases hslots
      | typed hnone h => exact h
    | some slots =>
      refine (succeeds_items_mapM_bind Slot.succeeds_ofJson fun fields =>
        iff_of_true (succeeds_pure _) trivial).trans ?_
      rw [and_true]
      refine ⟨.fields hfields, fun h => ?_⟩
      cases h with
      | fields hslots h => exact Option.some.inj (hfields.symm.trans hslots) ▸ h
      | typed hnone =>
        rw [hfields] at hnone
        cases hnone
  | _ => exact iff_of_false (not_succeeds_error _) (not_isReturned (by simp) (by simp) (by simp))

theorem Decoding.succeeds_nameOf (value : Json) : Succeeds (nameOf value) ↔ value.IsName := by
  cases value with
  | null => exact ⟨fun _ => .null, fun _ => succeeds_ok _⟩
  | bool b => exact ⟨fun _ => .bool b, fun _ => succeeds_ok _⟩
  | whole n => exact ⟨fun _ => .whole n, fun _ => succeeds_ok _⟩
  | real x => exact ⟨fun _ => .real x, fun _ => succeeds_ok _⟩
  | text s => exact ⟨fun _ => .text s, fun _ => succeeds_ok _⟩
  | _ => exact ⟨nofun, nofun⟩

theorem Decoding.succeeds_pairsFrom (rest : List Json) (number : Nat) (found : NameMap Json) :
    Succeeds (pairsFrom number found rest) ↔ ∀ item ∈ rest, IsPair item := by
  induction rest generalizing number found with
  | nil => simp [pairsFrom]
  | cons item rest ih =>
    rw [pairsFrom, succeeds_bind, List.forall_mem_cons]
    constructor
    · rintro ⟨listed, hlisted, h⟩
      rw [items_eq_ok_iff] at hlisted
      split at h
      · rename_i name value
        rw [succeeds_bind_of_forall fun name => ih _ _, succeeds_nameOf] at h
        exact ⟨⟨name, value, hlisted, h.1⟩, h.2⟩
      · exact absurd h (not_succeeds_error _)
    · rintro ⟨⟨name, value, hlisted, hname⟩, hrest⟩
      refine ⟨_, items_eq_ok_iff.mpr hlisted, ?_⟩
      rw [succeeds_bind_of_forall fun name => ih _ _, succeeds_nameOf]
      exact ⟨hname, hrest⟩

theorem Decoding.succeeds_pairs (value : Json) : Succeeds (pairs value) ↔ IsSamples value := by
  have hlisted : Succeeds (items value >>= pairsFrom 0 []) ↔ ListsOnly IsPair value := by
    simp only [succeeds_bind, items_eq_ok_iff, succeeds_pairsFrom, ListsOnly]
  cases value with
  | object ms => exact ⟨fun _ => .object ms, fun _ => succeeds_ok _⟩
  | _ =>
    refine hlisted.trans ⟨.pairs, fun h => ?_⟩
    cases h
    assumption

theorem Decoding.succeeds_snippetsOf (ms : List (String × Json)) :
    Succeeds (snippetsOf ms) ↔ Allows IsSamples "codeSnippets" ms := by
  rw [snippetsOf, Allows]
  cases NameMap.find? "codeSnippets" ms with
  | none => simp
  | some value => simp [succeeds_pairs]

theorem Signature.succeeds_ofJson (value : Json) :
    Succeeds (ofJson value) ↔ IsSignature value := by
  refine succeeds_members fun ms => succeeds_itemsOf_mapM_bind Slot.succeeds_ofJson fun _ => ?_
  have hreturned := (Returned.succeeds_ofJson ((NameMap.find? "return" ms).getD .null)).trans
    (allows_iff_getD .nothing)
  rw [← hreturned, ← succeeds_snippetsOf]
  refine succeeds_bind_of_forall fun returned => succeeds_bind_of_forall fun snippets => ?_
  rw [succeeds_itemsOf_bind fun found => iff_of_true (succeeds_pure _) trivial, and_true]

theorem Decoding.succeeds_membersOf_bind {α : Type} {name : String} {ms : List (String × Json)}
    {next : List (String × Json) → Except DecodingError α} {Members : List (String × Json) → Prop}
    {P : Prop} (hnil : Members []) (h : ∀ listed, Succeeds (next listed) ↔ Members listed ∧ P) :
    Succeeds (membersOf name ms >>= next) ↔ Allows (IsObject Members) name ms ∧ P := by
  rw [membersOf, Allows]
  cases NameMap.find? name ms with
  | none =>
    simp only [reduceCtorEq, false_implies, implies_true]
    exact (h []).trans (and_congr_left' (iff_of_true hnil trivial))
  | some value =>
    simp only [Option.some.injEq, forall_eq']
    cases value with
    | object listed =>
      refine (h listed).trans (and_congr_left' ⟨fun hlisted => ⟨listed, rfl, hlisted⟩, ?_⟩)
      rintro ⟨_, heq, hlisted⟩
      exact Json.object.inj heq ▸ hlisted
    | _ => exact ⟨nofun, fun h => nomatch h.1⟩

theorem Decoding.allows_nil (Shape : Json → Prop) (name : String) : Allows Shape name [] :=
  nofun

theorem Decoding.allowsLists_nil (names : List String) : AllowsLists names [] :=
  fun name _ => allows_nil _ name

theorem NamespaceListing.succeeds_ofMembers (ms : List (String × Json)) :
    Succeeds (ofMembers ms) ↔
      Allows (IsListing ["structures", "delegates", "interfaces"]) "members" ms := by
  have hlisted : Succeeds (ofMembers ms) ↔
      Allows (IsListing ["structures", "delegates", "interfaces"]) "members" ms ∧ True := by
    refine succeeds_membersOf_bind (allowsLists_nil _) fun listed => ?_
    simp only [AllowsLists, List.forall_mem_cons, List.not_mem_nil, false_implies, implies_true,
      and_assoc]
    refine succeeds_itemsOf_bind fun _ => succeeds_itemsOf_bind fun _ =>
      succeeds_itemsOf_bind fun _ => ?_
    exact iff_of_true (succeeds_pure _) ⟨trivial, trivial⟩
  rw [hlisted, and_true]

theorem InterfaceListing.succeeds_ofMembers (ms : List (String × Json)) :
    Succeeds (ofMembers ms) ↔
      AllowsLists ["interfaces", "typeParameters", "extensions"] ms ∧
      Allows (IsListing ["methods", "properties"]) "members" ms := by
  have hparts : Succeeds (ofMembers ms) ↔ Allows (ListsOnly IsAny) "interfaces" ms ∧
      Allows (ListsOnly IsAny) "typeParameters" ms ∧
      Allows (IsListing ["methods", "properties"]) "members" ms ∧
      Allows (ListsOnly IsAny) "extensions" ms := by
    refine succeeds_itemsOf_bind fun _ => succeeds_itemsOf_bind fun _ =>
      succeeds_membersOf_bind (allowsLists_nil _) fun listed => ?_
    simp only [AllowsLists, List.forall_mem_cons, List.not_mem_nil, false_implies, implies_true,
      and_true, and_assoc]
    refine succeeds_itemsOf_bind fun _ => succeeds_itemsOf_bind fun _ => ?_
    rw [succeeds_itemsOf_bind fun _ => iff_of_true (succeeds_pure _) trivial, and_true]
  rw [hparts]
  simp only [AllowsLists, List.forall_mem_cons, List.not_mem_nil, false_implies, implies_true,
    and_true]
  exact ⟨fun ⟨hbases, htypes, hlisted, hextensions⟩ => ⟨⟨hbases, htypes, hextensions⟩, hlisted⟩,
    fun ⟨⟨hbases, htypes, hextensions⟩, hlisted⟩ => ⟨hbases, htypes, hlisted, hextensions⟩⟩

theorem Content.succeeds_ofJson (kind : Json) (ms : List (String × Json)) :
    Succeeds (ofJson kind ms) ↔ ∃ word, kind = .text word ∧ IsContent ms word := by
  have hword : ∀ word : String,
      (∃ w, Json.text word = .text w ∧ IsContent ms w) ↔ IsContent ms word := fun word =>
    ⟨fun ⟨_, heq, h⟩ => Json.text.inj heq ▸ h, fun h => ⟨word, rfl, h⟩⟩
  have hdone : ∀ {α : Type} (a : α), Succeeds (pure a : Except DecodingError α) ↔ True :=
    fun a => iff_of_true (succeeds_pure a) trivial
  unfold ofJson
  split
  · rw [succeeds_itemsOf_bind fun _ => hdone _, and_true, hword, IsContent]
  · rw [succeeds_itemsOf_bind fun _ => hdone _, and_true, hword, IsContent]
  · exact iff_of_true (succeeds_pure _) ⟨_, rfl, trivial⟩
  · rw [succeeds_bind_of_forall fun _ => hdone _, and_true, hword,
      NamespaceListing.succeeds_ofMembers, IsContent]
  · rw [succeeds_bind_of_forall fun _ => hdone _, and_true, hword,
      InterfaceListing.succeeds_ofMembers, IsContent]
  · rw [succeeds_itemsOf_mapM_bind Slot.succeeds_ofJson fun _ => hdone _, and_true, hword,
      IsContent]
  · have hempty : IsSignature (.object []) :=
      ⟨[], rfl, allows_nil _ _, allows_nil _ _, allows_nil _ _, allows_nil _ _⟩
    rw [succeeds_bind_of_forall fun _ => hdone _, and_true, hword, Signature.succeeds_ofJson,
      allows_iff_getD hempty, IsContent]
  · rw [succeeds_itemsOf_mapM_bind Signature.succeeds_ofJson fun _ => hdone _, and_true, hword,
      IsContent]
  · exact iff_of_true (succeeds_pure _) ⟨_, rfl, trivial⟩
  · exact iff_of_true (succeeds_pure _) ⟨_, rfl, trivial⟩
  · exact iff_of_false (not_succeeds_throw _) nofun
  · exact iff_of_false (not_succeeds_throw _) nofun
  · refine iff_of_false (not_succeeds_throw _) ?_
    rintro ⟨word, rfl, h⟩
    simp only [Json.text.injEq] at *
    rwa [IsContent] at h <;> assumption

theorem Entry.succeeds_ofJson (value : Json) : Succeeds (ofJson value) ↔ IsEntry value := by
  refine succeeds_parts fun ms => ?_
  rw [required]
  cases NameMap.find? "type" ms with
  | none => exact iff_of_false (not_succeeds_error _) fun ⟨_, hkind, _⟩ => nomatch hkind
  | some kind =>
    refine (succeeds_required_bind fun identifier => succeeds_bind_of_forall fun _ =>
      iff_of_true (succeeds_pure _) trivial).trans ?_
    rw [and_true, Content.succeeds_ofJson]
    constructor
    · rintro ⟨hidentifier, word, rfl, h⟩
      exact ⟨word, rfl, hidentifier, h⟩
    · rintro ⟨word, hkind, hidentifier, h⟩
      exact ⟨hidentifier, word, Option.some.inj hkind, h⟩

theorem Corpus.succeeds_ofJson (value : Json) : Succeeds (ofJson value) ↔ IsCorpus value := by
  refine succeeds_members fun ms => ?_
  rw [succeeds_bind_of_forall fun _ => iff_of_true (succeeds_pure _) trivial, and_true,
    succeeds_mapM]
  refine forall₂_congr fun member _ => ?_
  rw [succeeds_bind_of_forall fun _ => iff_of_true (succeeds_pure _) trivial, and_true,
    Entry.succeeds_ofJson]

end ScriptTypings
