import ScriptTypings.Proofs.Corpus.WellFormed
import ScriptTypings.Proofs.Merge.Owners
import ScriptTypings.Proofs.Merge.Worklist
import ScriptTypings.Proofs.Surface.Declared

/-!
# What the backfill declares

`Backfilling` holds of the progress after the visited names, whichever these are: every structural
type among them has a member in the namespace that owns it, and every declaration is that of one of
them, behind the members that were there before. `backfilling_backfill` says so of the whole run.
-/

namespace ScriptTypings.Merger

open Text

/-! ### Names in numbered namespaces -/

theorem namesIn_addName_self {spaces : List Surface.Space} {number : Nat}
    (h : number < spaces.length) (name : String) :
    namesIn (addName spaces number name) number = namesIn spaces number ++ [name] := by
  simp [namesIn, addName, h]

theorem namesIn_addName_of_ne {number other : Nat} (h : number ≠ other)
    (spaces : List Surface.Space) (name : String) :
    namesIn (addName spaces number name) other = namesIn spaces other := by
  simp [namesIn, addName, h]

theorem mem_namesIn_addName {spaces : List Surface.Space} {number : Nat} {name : String}
    (h : name ∈ namesIn spaces number) (owner : Nat) (other : String) :
    name ∈ namesIn (addName spaces owner other) number := by
  have hlt : number < spaces.length := by
    refine Decidable.not_not.mp fun hle => ?_
    rw [namesIn, List.getElem?_eq_none (Nat.not_lt.mp hle)] at h
    exact absurd h List.not_mem_nil
  by_cases hsame : owner = number
  · rw [hsame, namesIn_addName_self hlt]
    exact List.mem_append_left _ h
  · rwa [namesIn_addName_of_ne hsame]

@[simp] theorem length_addName (spaces : List Surface.Space) (number : Nat) (name : String) :
    (addName spaces number name).length = spaces.length :=
  List.length_modify ..

theorem additionsTo_append_self (additions : List Addition) (number : Nat) (name : String)
    (node : Surface) : additionsTo (additions ++ [⟨number, name, node⟩]) number =
      additionsTo additions number ++ [(name, node)] := by
  simp [additionsTo]

theorem additionsTo_append_of_ne {number other : Nat} (h : number ≠ other)
    (additions : List Addition) (name : String) (node : Surface) :
    additionsTo (additions ++ [⟨number, name, node⟩]) other = additionsTo additions other := by
  simp [additionsTo, h]

/-- A declaration that is added last is the only new one, and in its own namespace. -/
theorem mem_additionsTo_append {additions : List Addition} {owner number : Nat} {name : String}
    {node : Surface} {m : String × Surface}
    (h : m ∈ additionsTo (additions ++ [⟨owner, name, node⟩]) number) :
    m ∈ additionsTo additions number ∨ (number = owner ∧ m = (name, node)) := by
  by_cases hsame : owner = number
  · subst hsame
    rw [additionsTo_append_self] at h
    exact (List.mem_append.mp h).imp_right fun h => ⟨rfl, List.mem_singleton.mp h⟩
  · rw [additionsTo_append_of_ne hsame] at h
    exact .inl h

theorem mem_additionsTo {additions : List Addition} {number : Nat} {m : String × Surface}
    (h : m ∈ additionsTo additions number) : ⟨number, m.1, m.2⟩ ∈ additions := by
  obtain ⟨a, ha, rfl⟩ := List.mem_map.mp h
  obtain ⟨ha, howner⟩ := List.mem_filter.mp ha
  rwa [← of_decide_eq_true howner]

/-! ### Declared nodes -/

/-- A part of a declared interface is a method or a property that some interface of its family
lists. -/
theorem exists_of_mem_interfaceParts {r : Reference} {listing : InterfaceListing}
    {part : InterfacePart} (h : part ∈ r.interfaceParts listing) :
    ∃ source ∈ r.family listing, (∃ id ∈ source.methods, r.methodPart id.asText = part) ∨
      ∃ id ∈ source.properties, r.propertyPart id.asText = part := by
  obtain ⟨source, hsource, hpart⟩ := List.mem_flatMap.mp h
  refine ⟨source, hsource, ?_⟩
  rcases List.mem_append.mp hpart with hpart | hpart
  · exact .inl (List.mem_map.mp hpart)
  · exact .inr (List.mem_map.mp hpart)

/-- Members are added to an interface, and nothing else about it changes. -/
theorem exists_foldl_addPart (parts : List InterfacePart) (d : InterfaceDeclaration) :
    ∃ methods properties, parts.foldl .addPart d = { d with methods, properties } := by
  induction parts generalizing d with
  | nil => exact ⟨d.methods, d.properties, rfl⟩
  | cons part parts ih =>
    obtain ⟨methods, properties, hparts⟩ := ih (d.addPart part)
    refine ⟨methods, properties, ?_⟩
    rw [List.foldl_cons, hparts]
    cases part <;> rfl

/-- What is declared for an entry is a declaration of that entry. -/
theorem declared_node {r : Reference} {name : String} {entry : Entry}
    {declared : Reference.Declared} (h : r.declare? name entry = some declared) :
    declared.node.isDeclared = true ∧
      declared.node.declaredKey = lowered entry.identifier.asText := by
  obtain ⟨identifier, description, content⟩ := entry
  cases content with
  | record members => cases h; exact ⟨rfl, rfl⟩
  | delegate signature => cases h; exact ⟨rfl, rfl⟩
  | interface listing =>
    cases h
    obtain ⟨methods, properties, hparts⟩ :=
      exists_foldl_addPart (r.interfaceParts listing) (r.interfaceFrame name _ listing)
    refine ⟨rfl, ?_⟩
    rw [Surface.declaredKey, Reference.expandInterface, hparts]
    rfl
  | _ => cases h

/-! ### Names of declarations -/

/-- What is added to some namespaces comes behind their members, and no declaration takes the name
of another member. -/
structure AddsApart (spaces : List Surface.Space) (p : Progress) : Prop where
  length : p.spaces.length = spaces.length
  names : ∀ number < spaces.length, namesIn p.spaces number =
    namesIn spaces number ++ (additionsTo p.additions number).map Prod.fst
  fresh : ∀ number < spaces.length, ((additionsTo p.additions number).map Prod.fst).Nodup ∧
    ∀ m ∈ additionsTo p.additions number, m.1 ∉ namesIn spaces number

theorem addsApart_nil {p : Progress} (h : p.additions = []) : AddsApart p.spaces p where
  length := rfl
  names := by simp [h, additionsTo]
  fresh := by simp [h, additionsTo]

theorem AddsApart.of_same {spaces : List Surface.Space} {p p' : Progress} (h : AddsApart spaces p)
    (hspaces : p'.spaces = p.spaces) (hadditions : p'.additions = p.additions) :
    AddsApart spaces p' where
  length := hspaces ▸ h.length
  names := by
    rw [hspaces, hadditions]
    exact h.names
  fresh := by
    rw [hadditions]
    exact h.fresh

/-- A declaration under a name that its namespace does not have yet keeps all names apart. -/
theorem AddsApart.of_added {spaces : List Surface.Space} {p p' : Progress} {owner : Nat}
    {name : String} {node : Surface} (h : AddsApart spaces p) (howner : owner < spaces.length)
    (hnew : name ∉ namesIn p.spaces owner) (hspaces : p'.spaces = addName p.spaces owner name)
    (hadditions : p'.additions = p.additions ++ [⟨owner, name, node⟩]) : AddsApart spaces p' where
  length := by rw [hspaces, length_addName, h.length]
  names := by
    intro number hnumber
    rw [hspaces, hadditions]
    by_cases hsame : owner = number
    · subst hsame
      rw [namesIn_addName_self (h.length ▸ howner), h.names owner howner, additionsTo_append_self]
      simp
    · rw [namesIn_addName_of_ne hsame, additionsTo_append_of_ne hsame, h.names number hnumber]
  fresh := by
    intro number hnumber
    obtain ⟨hnodup, hapart⟩ := h.fresh number hnumber
    rw [h.names owner howner, List.mem_append, not_or] at hnew
    rw [hadditions]
    constructor
    · by_cases hsame : owner = number
      · subst hsame
        rw [additionsTo_append_self, List.map_append, List.nodup_append]
        refine ⟨hnodup, by simp, fun n hn last hlast heq => ?_⟩
        have hn' : n = name := heq.trans (List.mem_singleton.mp hlast)
        exact hnew.2 (hn' ▸ hn)
      · rwa [additionsTo_append_of_ne hsame]
    · intro m hm
      rcases mem_additionsTo_append hm with hm | ⟨rfl, rfl⟩
      · exact hapart m hm
      · exact hnew.1

/-- Whatever the corpus is keyed by, a backfill keeps all names apart. -/
theorem addsApart_backfill {r : Reference} {owners : NameMap Nat} {p : Progress}
    (howners : ∀ key number, NameMap.find? key owners = some number → number < p.spaces.length)
    (hdistinct : p.memory.Distinct) (hstart : p.additions = []) :
    AddsApart p.spaces (backfill r owners p) := by
  rw [backfill_eq_foldl hdistinct]
  refine foldl_visit_induction (I := fun _ q => AddsApart p.spaces q) (fun _ q name hq => ?_) []
    (addsApart_nil hstart) _
  obtain ⟨-, hspaces, hadditions, -⟩ |
      ⟨entry, owner, declared, htarget, hnew, -, -, hspaces, hadditions⟩ :=
    visit_cases r owners q name
  · exact hq.of_same hspaces hadditions
  · exact hq.of_added (howners _ _ htarget.owned) hnew hspaces hadditions

/-! ### The invariant -/

/-- A member is what is declared for a name in the namespace of a number. -/
def IsDeclarationOf (r : Reference) (owners : NameMap Nat) (name : String) (number : Nat)
    (member : String × Surface) : Prop :=
  ∃ entry declared, IsTarget r owners name entry number ∧ member.1 = shortName entry ∧
    r.declare? (shortName entry) entry = some declared ∧ member.2 = declared.node

/-- What holds of the progress after some visited names, starting from the given namespaces. -/
structure Backfilling (r : Reference) (owners : NameMap Nat) (spaces : List Surface.Space)
    (seen : List String) (p : Progress) : Prop where
  length : p.spaces.length = spaces.length
  /-- The namespaces have the names of their members and then those of the declarations. -/
  names : ∀ number < spaces.length, namesIn p.spaces number =
    namesIn spaces number ++ (additionsTo p.additions number).map Prod.fst
  /-- Every visited structural type has a member in its namespace. -/
  complete : ∀ name ∈ seen, ∀ entry number, IsTarget r owners name entry number →
    shortName entry ∈ namesIn p.spaces number
  /-- Every declaration is that of a visited name. -/
  sound : ∀ number, ∀ m ∈ additionsTo p.additions number,
    ∃ name ∈ seen, IsDeclarationOf r owners name number m
  /-- No declaration takes the name of another member. -/
  fresh : ∀ number < spaces.length, ((additionsTo p.additions number).map Prod.fst).Nodup ∧
    ∀ m ∈ additionsTo p.additions number, m.1 ∉ namesIn spaces number
  /-- The declared entries come in the order of the visited names, each once. -/
  once : (p.additions.map fun a => a.node.declaredKey).Sublist (seen.map lowered)

section

variable {r : Reference} {owners : NameMap Nat} {spaces : List Surface.Space}

theorem backfilling_nil (r : Reference) (owners : NameMap Nat) {p : Progress}
    (h : p.additions = []) : Backfilling r owners p.spaces [] p where
  length := rfl
  names := by simp [h, additionsTo]
  complete := nofun
  sound := by simp [h, additionsTo]
  fresh := by simp [h, additionsTo]
  once := by simp [h]

theorem IsTarget.eq {name : String} {entry entry' : Entry} {number number' : Nat}
    (h : IsTarget r owners name entry number) (h' : IsTarget r owners name entry' number') :
    entry = entry' ∧ number = number' :=
  ⟨Option.some.inj (h.get?.symm.trans h'.get?), Option.some.inj (h.owned.symm.trans h'.owned)⟩

/-- In a corpus that is keyed by identifier, the identifier of an entry is the name under which it
is found, up to case. -/
theorem IsTarget.lowered_identifier {name : String} {entry : Entry} {number : Nat}
    (hcorpus : r.corpus.KeyedByIdentifier) (h : IsTarget r owners name entry number) :
    lowered entry.identifier.asText = lowered name :=
  (hcorpus _ (Corpus.mem_entries_of_get? h.get?)).symm

theorem Backfilling.addsApart {seen : List String} {p : Progress}
    (h : Backfilling r owners spaces seen p) : AddsApart spaces p :=
  ⟨h.length, h.names, h.fresh⟩

/-- A visit that declares nothing keeps the invariant. -/
theorem Backfilling.of_same {seen : List String} {p p' : Progress} {name : String}
    (h : Backfilling r owners spaces seen p) (hspaces : p'.spaces = p.spaces)
    (hadditions : p'.additions = p.additions)
    (hmem : ∀ entry number, IsTarget r owners name entry number →
      shortName entry ∈ namesIn p.spaces number) :
    Backfilling r owners spaces (seen ++ [name]) p' where
  length := (h.addsApart.of_same hspaces hadditions).length
  names := (h.addsApart.of_same hspaces hadditions).names
  complete := by
    intro other hother entry number htarget
    rw [hspaces]
    rcases List.mem_append.mp hother with hother | hother
    · exact h.complete other hother entry number htarget
    · exact hmem entry number (List.mem_singleton.mp hother ▸ htarget)
  sound := by
    intro number m hm
    obtain ⟨other, hother, hdecl⟩ := h.sound number m (hadditions ▸ hm)
    exact ⟨other, List.mem_append_left _ hother, hdecl⟩
  fresh := (h.addsApart.of_same hspaces hadditions).fresh
  once := by
    rw [hadditions, List.map_append]
    exact h.once.trans (List.sublist_append_left _ _)

/-- A visit that declares the type of its name keeps the invariant. -/
theorem Backfilling.of_declared (hcorpus : r.corpus.KeyedByIdentifier) {seen : List String}
    {p p' : Progress} {name : String} {entry : Entry} {owner : Nat}
    {declared : Reference.Declared} (h : Backfilling r owners spaces seen p)
    (howner : owner < spaces.length) (htarget : IsTarget r owners name entry owner)
    (hnew : shortName entry ∉ namesIn p.spaces owner)
    (hdeclared : r.declare? (shortName entry) entry = some declared)
    (hspaces : p'.spaces = addName p.spaces owner (shortName entry))
    (hadditions : p'.additions =
      p.additions ++ [⟨owner, shortName entry, declared.node⟩]) :
    Backfilling r owners spaces (seen ++ [name]) p' where
  length := (h.addsApart.of_added howner hnew hspaces hadditions).length
  names := (h.addsApart.of_added howner hnew hspaces hadditions).names
  complete := by
    intro other hother entry' number htarget'
    rw [hspaces]
    rcases List.mem_append.mp hother with hother | hother
    · exact mem_namesIn_addName (h.complete other hother entry' number htarget') _ _
    · obtain ⟨rfl, rfl⟩ := (List.mem_singleton.mp hother ▸ htarget').eq htarget
      rw [namesIn_addName_self (h.length ▸ howner)]
      exact List.mem_append_right _ List.mem_cons_self
  sound := by
    intro number m hm
    rw [hadditions] at hm
    rcases mem_additionsTo_append hm with hm | ⟨rfl, rfl⟩
    · obtain ⟨other, hother, hdecl⟩ := h.sound number m hm
      exact ⟨other, List.mem_append_left _ hother, hdecl⟩
    · exact ⟨name, by simp, entry, declared, htarget, rfl, hdeclared, rfl⟩
  fresh := (h.addsApart.of_added howner hnew hspaces hadditions).fresh
  once := by
    rw [hadditions, List.map_append, List.map_append]
    refine h.once.append ?_
    rewrite [List.map_singleton, List.map_singleton, (declared_node hdeclared).2,
      htarget.lowered_identifier hcorpus]
    exact .refl _

/-- A visit keeps the invariant. -/
theorem Backfilling.visit (hcorpus : r.corpus.KeyedByIdentifier)
    (howners : ∀ key number, NameMap.find? key owners = some number → number < spaces.length)
    {seen : List String} {p : Progress} (h : Backfilling r owners spaces seen p) (name : String) :
    Backfilling r owners spaces (seen ++ [name]) (visit r owners p name) := by
  rcases visit_cases r owners p name with
    ⟨_, hspaces, hadditions, hmem⟩ |
    ⟨entry, owner, declared, htarget, hnew, hdeclared, _, hspaces, hadditions⟩
  · exact h.of_same hspaces hadditions hmem
  · exact h.of_declared hcorpus (howners _ _ htarget.owned) htarget hnew hdeclared hspaces
      hadditions

/-- After the backfill the invariant holds for all names that are remembered. -/
theorem backfilling_backfill (hcorpus : r.corpus.KeyedByIdentifier) {p : Progress}
    (howners : ∀ key number, NameMap.find? key owners = some number → number < p.spaces.length)
    (hdistinct : p.memory.Distinct) (hstart : p.additions = []) :
    Backfilling r owners p.spaces (backfill r owners p).memory.names (backfill r owners p) := by
  have hrun := foldl_visit_induction (I := Backfilling r owners p.spaces)
    (fun _ _ name h => h.visit hcorpus howners name) [] (backfilling_nil r owners hstart)
    (backfill r owners p).memory.names
  rw [← backfill_eq_foldl hdistinct] at hrun
  exact hrun

/-- Whatever the corpus is keyed by, all that a backfill adds is declared for a name. -/
theorem exists_isDeclarationOf {p : Progress} (hdistinct : p.memory.Distinct)
    (hstart : p.additions = []) (number : Nat) :
    ∀ m ∈ additionsTo (backfill r owners p).additions number,
      ∃ name, IsDeclarationOf r owners name number m := by
  rw [backfill_eq_foldl hdistinct]
  refine foldl_visit_induction
    (I := fun _ p => ∀ m ∈ additionsTo p.additions number,
      ∃ name, IsDeclarationOf r owners name number m)
    (fun _ p name hp m hm => ?_) [] ?_ _
  · obtain ⟨-, -, hadditions, -⟩ | ⟨entry, _, declared, htarget, -, hdeclared, -, -, hadditions⟩ :=
      visit_cases r owners p name
    · exact hp m (hadditions ▸ hm)
    · rw [hadditions] at hm
      obtain hm | ⟨rfl, rfl⟩ := mem_additionsTo_append hm
      · exact hp m hm
      · exact ⟨name, entry, declared, htarget, rfl, hdeclared, rfl⟩
  · rw [hstart]
    exact nofun

end

end ScriptTypings.Merger
