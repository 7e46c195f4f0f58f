import ScriptTypings.Proofs.Entry.Encoding
import ScriptTypings.Proofs.Surface.Declared
import ScriptTypings.Surface.Dump

/-!
# What a dump tells

A dump leaves out the names of nodes, and puts the members of a node beside the node's own data.
`IsLegible` says of a surface that every node has the name under which it stands, and that at most
declarations are called like own data of the namespace that they are in. If none is, the surface is
known by its dump: `eq_of_dump_eq`.
-/

namespace ScriptTypings

/-- The first member of an object, if its value is a text. -/
def Json.mark? : Json → Option (String × String)
  | .object ((name, .text word) :: _) => some (name, word)
  | _ => none

namespace Surface

/-! ### Members beside own data -/

/-- The names of what a namespace or an enumeration shows of itself. -/
def headingNames : List String := ["__type", "__fullname", "__description"]

/-- The names of what a class shows of itself. -/
def headerNames : List String :=
  headingNames ++ ["__extends", "__interfaces", "__constructor", "__constructible",
    "__eventTarget", "__staticEventTarget"]

/-- Members with distinct names, none of which is taken. -/
structure StandApart (taken : List String) (members : List (String × Surface)) : Prop where
  nodup : (members.map Prod.fst).Nodup
  apart : ∀ m ∈ members, m.1 ∉ taken

theorem StandApart.sublist {taken : List String} {members members' : List (String × Surface)}
    (h : StandApart taken members) (hsub : members'.Sublist members) : StandApart taken members' :=
  ⟨h.nodup.sublist (hsub.map _), fun m hm => h.apart m (hsub.subset hm)⟩

mutual

/-- All that stands under a name can be told from a dump, as far as no declaration is called like
own data of its namespace. -/
def IsLegible (name : String) : Surface → Prop
  | space own _ _ members =>
    own = name ∧ (members.map Prod.fst).Nodup ∧
      (∀ m ∈ members, m.1 ∈ headingNames → m.2.isDeclared = true) ∧ AreLegible members
  | enumeration own _ _ members => own = name ∧ StandApart headingNames members ∧ AreLegible members
  | cls header statics prototype =>
    header.name = name ∧ StandApart ("prototype" :: headerNames) statics ∧ AreLegible statics ∧
      AreLegible prototype
  | other => other.isDeclared = true → other.ownName = name

/-- All members are legible under their names. -/
def AreLegible : List (String × Surface) → Prop
  | [] => True
  | (name, node) :: members => IsLegible name node ∧ AreLegible members

end

theorem isLegible_of_leaf {s : Surface} (h : s.isNested = false) (name : String) :
    s.IsLegible name ↔ (s.isDeclared = true → s.ownName = name) := by
  cases s <;> first | exact Iff.rfl | cases h

theorem areLegible_iff {members : List (String × Surface)} :
    AreLegible members ↔ ∀ m ∈ members, m.2.IsLegible m.1 := by
  induction members with
  | nil => exact ⟨fun _ => nofun, fun _ => trivial⟩
  | cons m members ih => rw [AreLegible, ih, List.forall_mem_cons]

theorem names_dumpMembers (members : List (String × Surface)) :
    (dumpMembers members).map Prod.fst = members.map Prod.fst := by
  induction members with
  | nil => rfl
  | cons m members ih => rw [dumpMembers, List.map_cons, List.map_cons, ih]

/-- Members that stand apart are shown behind the data of their node. -/
theorem StandApart.update_dumpMembers {members : List (String × Surface)}
    {data : List (String × Json)} (h : StandApart (NameMap.names data) members) :
    NameMap.update data (dumpMembers members) = data ++ dumpMembers members := by
  have hnames := names_dumpMembers members
  refine NameMap.update_of_fresh (hnames ▸ h.nodup) fun p hp => ?_
  have hmem : p.1 ∈ members.map Prod.fst := hnames ▸ List.mem_map_of_mem hp
  obtain ⟨m, hm, hname⟩ := List.mem_map.mp hmem
  exact hname ▸ h.apart m hm

section

variable {name own fullname : String} {description : Json} {header : ClassHeader}
  {members statics prototype : List (String × Surface)}

theorem dump_space (h : StandApart headingNames members) :
    (space own fullname description members).dump =
      .object (heading "namespace" fullname description ++ dumpMembers members) := by
  have hheading : StandApart (NameMap.names (heading "namespace" fullname description)) members := h
  rw [dump, hheading.update_dumpMembers]

theorem dump_enumeration (h : StandApart headingNames members) :
    (enumeration own fullname description members).dump =
      .object (heading "enumeration" fullname description ++ dumpMembers members) := by
  have hheading : StandApart (NameMap.names (heading "enumeration" fullname description)) members :=
    h
  rw [dump, hheading.update_dumpMembers]

theorem dump_cls (h : StandApart ("prototype" :: headerNames) statics) :
    (cls header statics prototype).dump =
      .object (dumpHeader header ++ dumpMembers statics ++
        [("prototype", .object (dumpMembers prototype))]) := by
  have hheader : StandApart (NameMap.names (dumpHeader header)) statics :=
    ⟨h.nodup, fun m hm hmem => h.apart m hm (List.mem_cons_of_mem _ hmem)⟩
  have hfresh : "prototype" ∉ NameMap.names (dumpHeader header ++ dumpMembers statics) := by
    rw [NameMap.names_append, List.mem_append, not_or]
    refine ⟨by simp [dumpHeader, heading], fun hmem => ?_⟩
    rw [NameMap.names, names_dumpMembers] at hmem
    obtain ⟨m, hm, hname⟩ := List.mem_map.mp hmem
    exact h.apart m hm (hname ▸ List.mem_cons_self)
  rw [dump, hheader.update_dumpMembers, NameMap.put_of_not_mem hfresh]

/-- In a namespace without a declaration that is called like its own data, all members stand
apart. -/
theorem IsLegible.standApart (h : (space own fullname description members).IsLegible name)
    (hfree : ∀ d ∈ declarationsOf members, d.ownName ∉ headingNames) :
    StandApart headingNames members := by
  rw [IsLegible, areLegible_iff] at h
  obtain ⟨-, hnodup, hdeclared, hmembers⟩ := h
  refine ⟨hnodup, fun m hm hmem => ?_⟩
  have hd := hdeclared m hm hmem
  have hleaf := isNested_of_isDeclared hd
  have hown : m.2.ownName = m.1 := (isLegible_of_leaf hleaf m.1).mp (hmembers m hm) hd
  refine hfree m.2 ?_ (hown ▸ hmem)
  obtain ⟨before, after, rfl⟩ := List.append_of_mem hm
  rw [declarationsOf_append, declarationsOf, declarations_of_leaf hleaf, if_pos hd]
  simp

end

/-! ### Kinds of nodes -/

/-- The first member of a node's dump. -/
def mark? : Surface → Option (String × String)
  | space _ _ _ _ => some ("__type", "namespace")
  | enumeration _ _ _ _ => some ("__type", "enumeration")
  | cls header _ _ => some ("__type", if header.isAttribute then "attribute" else "class")
  | record _ _ _ _ => some ("__type", "interfaceliteral")
  | delegate _ _ _ _ => some ("__type", "delegate")
  | interface _ => some ("__type", "interface")
  | function _ => some ("type", "function")
  | event _ _ => some ("type", "event")
  | property _ => some ("type", "property")
  | unresolved _ => none

theorem mark?_dump {s : Surface} {name : String} (h : s.IsLegible name)
    (hfree : ∀ d ∈ s.declarations, d.ownName ∉ headingNames) : s.dump.mark? = s.mark? := by
  cases s with
  | space own fullname description members =>
    rw [dump_space (h.standApart hfree)]
    rfl
  | enumeration own fullname description members =>
    rw [dump_enumeration h.2.1]
    rfl
  | cls header statics prototype =>
    rw [dump_cls h.2.1]
    rfl
  | _ => rfl

/-- Classes are told from all other nodes, and attributes from other classes. -/
theorem mark?_cls_ne {header : ClassHeader} {statics prototype : List (String × Surface)}
    {mark : String × String} (hclass : mark.2 ≠ "class") (hattribute : mark.2 ≠ "attribute") :
    (cls header statics prototype).mark? ≠ some mark := by
  rw [mark?]
  intro h
  have hword := congrArg Prod.snd (Option.some.inj h)
  split at hword
  · exact hattribute hword.symm
  · exact hclass hword.symm

/-! ### Nodes from their dumps -/

theorem dumpFunction_injective : Function.Injective dumpFunction := by
  intro signatures signatures' h
  simpa [dumpFunction, Signature.toJson_injective.list_map.eq_iff] using h

theorem dumpProperty_injective : Function.Injective dumpProperty := by
  rintro ⟨typeName, description⟩ ⟨typeName', description'⟩ h
  simpa [dumpProperty] using h

/-- A value that may be missing is known by its form, if no value has the form of a missing one. -/
theorem getD_null_injective {α : Type} {f : α → Json} (hf : Function.Injective f)
    (hnull : ∀ a, f a ≠ .null) :
    Function.Injective fun value : Option α => (value.map f).getD .null := by
  intro value value' h
  cases value with
  | none =>
    cases value' with
    | none => rfl
    | some a => exact absurd h.symm (hnull a)
  | some a =>
    cases value' with
    | none => exact absurd h (hnull a)
    | some a' => exact congrArg some (hf h)

theorem eq_of_dumpHeader_eq {header header' : ClassHeader} (hname : header.name = header'.name)
    (h : dumpHeader header = dumpHeader header') : header = header' := by
  obtain ⟨name, fullname, description, base, interfaces, constructor, events, staticEvents,
    isAttribute⟩ := header
  obtain ⟨name', fullname', description', base', interfaces', constructor', events', staticEvents',
    isAttribute'⟩ := header'
  have hbase : Function.Injective fun base : Option String => (base.map Json.text).getD .null :=
    getD_null_injective (fun _ _ => Json.text.inj) nofun
  have hconstructor : Function.Injective fun constructor : Option (List Signature) =>
      (constructor.map dumpFunction).getD .null :=
    getD_null_injective dumpFunction_injective nofun
  have hattribute : ∀ a b : Bool, (if a then "attribute" else "class") =
      (if b then "attribute" else "class") → a = b := by decide
  simp only [dumpHeader, heading, List.cons_append, List.nil_append, List.cons.injEq,
    Prod.mk.injEq, Json.text.injEq, Json.list.injEq, Json.bool.injEq, true_and, and_true] at h
  obtain ⟨hkind, rfl, rfl, hb, rfl, hc, -, rfl, rfl⟩ := h
  obtain rfl := hbase hb
  obtain rfl := hconstructor hc
  obtain rfl := hattribute _ _ hkind
  obtain rfl := hname
  rfl

theorem eq_of_dumpInterface_eq {d d' : InterfaceDeclaration} (hname : d.name = d'.name)
    (h : dumpInterface d = dumpInterface d') : d = d' := by
  obtain ⟨name, fullname, description, bases, typeParameters, methods, properties⟩ := d
  obtain ⟨name', fullname', description', bases', typeParameters', methods', properties'⟩ := d'
  simp only [dumpInterface, heading, List.cons_append, List.nil_append, List.cons.injEq,
    Prod.mk.injEq, Json.object.injEq, Json.list.injEq, true_and, and_true] at h
  obtain ⟨rfl, rfl, rfl, rfl, hm, hp⟩ := h
  obtain rfl := NameMap.mapValues_injective dumpFunction_injective hm
  obtain rfl := NameMap.mapValues_injective dumpProperty_injective hp
  obtain rfl := hname
  rfl

/-- A node without members is known by its name and its dump. -/
theorem eq_of_dump_eq_of_leaf {s s' : Surface} {name : String} (hleaf : s.isNested = false)
    (h : s.IsLegible name) (h' : s'.IsLegible name) (hmark : s.mark? = s'.mark?)
    (heq : s.dump = s'.dump) : s = s' := by
  cases s with
  | space => cases hleaf
  | enumeration => cases hleaf
  | cls => cases hleaf
  | record own fullname description members =>
    cases s' with
    | record own' fullname' description' members' =>
      have hown : own = own' := (h rfl).trans (h' rfl).symm
      simpa [dump, heading, hown, Slot.toJson_injective.list_map.eq_iff] using heq
    | cls => exact absurd hmark.symm (mark?_cls_ne (by decide) (by decide))
    | _ => simp [mark?] at hmark
  | delegate own fullname description signature =>
    cases s' with
    | delegate own' fullname' description' signature' =>
      have hown : own = own' := (h rfl).trans (h' rfl).symm
      simpa [dump, heading, hown, Signature.toJson_injective.eq_iff] using heq
    | cls => exact absurd hmark.symm (mark?_cls_ne (by decide) (by decide))
    | _ => simp [mark?] at hmark
  | interface d =>
    cases s' with
    | interface d' =>
      have hown : d.name = d'.name := (h rfl).trans (h' rfl).symm
      exact congrArg interface (eq_of_dumpInterface_eq hown heq)
    | cls => exact absurd hmark.symm (mark?_cls_ne (by decide) (by decide))
    | _ => simp [mark?] at hmark
  | function signatures =>
    cases s' with
    | function signatures' => exact congrArg function (dumpFunction_injective heq)
    | _ => simp [mark?] at hmark
  | event handler description =>
    cases s' with
    | event handler' description' => simpa [dump] using heq
    | _ => simp [mark?] at hmark
  | property member =>
    cases s' with
    | property member' => exact congrArg property (dumpProperty_injective heq)
    | _ => simp [mark?] at hmark
  | unresolved placeholder =>
    cases s' with
    | unresolved placeholder' => simpa [dump] using heq
    | _ => simp [mark?] at hmark

/-- What a legible surface is can be told from its name and its dump, if no declaration in it is
called like own data of its namespace. -/
theorem eq_of_dump_eq :
    (∀ (s s' : Surface) (name : String), s.IsLegible name → s'.IsLegible name →
      (∀ d ∈ s.declarations, d.ownName ∉ headingNames) →
      (∀ d ∈ s'.declarations, d.ownName ∉ headingNames) → s.dump = s'.dump → s = s') ∧
    ∀ members members', AreLegible members → AreLegible members' →
      (∀ d ∈ declarationsOf members, d.ownName ∉ headingNames) →
      (∀ d ∈ declarationsOf members', d.ownName ∉ headingNames) →
      dumpMembers members = dumpMembers members' → members = members' := by
  have same_mark : ∀ {s s' : Surface} {name : String}, s.IsLegible name → s'.IsLegible name →
      (∀ d ∈ s.declarations, d.ownName ∉ headingNames) →
      (∀ d ∈ s'.declarations, d.ownName ∉ headingNames) → s.dump = s'.dump → s.mark? = s'.mark? :=
    fun h h' hfree hfree' heq =>
      (mark?_dump h hfree).symm.trans ((congrArg Json.mark? heq).trans (mark?_dump h' hfree'))
  refine tree_induction ?space ?enumeration ?cls ?leaf ?nil ?cons
  case space =>
    intro own fullname description members ih s' name h h' hfree hfree' heq
    have hmark := same_mark h h' hfree hfree' heq
    cases s' with
    | space own' fullname' description' members' =>
      rw [dump_space (h.standApart hfree), dump_space (h'.standApart hfree')] at heq
      simp only [heading, List.cons_append, List.nil_append, Json.object.injEq, List.cons.injEq,
        Prod.mk.injEq, Json.text.injEq, true_and] at heq
      obtain ⟨rfl, rfl, hmembers⟩ := heq
      obtain rfl := ih members' h.2.2.2 h'.2.2.2 hfree hfree' hmembers
      rw [h.1, h'.1]
    | cls => exact absurd hmark.symm (mark?_cls_ne (by decide) (by decide))
    | _ => simp [mark?] at hmark
  case enumeration =>
    intro own fullname description members ih s' name h h' hfree hfree' heq
    have hmark := same_mark h h' hfree hfree' heq
    cases s' with
    | enumeration own' fullname' description' members' =>
      rw [dump_enumeration h.2.1, dump_enumeration h'.2.1] at heq
      simp only [heading, List.cons_append, List.nil_append, Json.object.injEq, List.cons.injEq,
        Prod.mk.injEq, Json.text.injEq, true_and] at heq
      obtain ⟨rfl, rfl, hmembers⟩ := heq
      obtain rfl := ih members' h.2.2 h'.2.2 hfree hfree' hmembers
      rw [h.1, h'.1]
    | cls => exact absurd hmark.symm (mark?_cls_ne (by decide) (by decide))
    | _ => simp [mark?] at hmark
  case cls =>
    intro header statics prototype ihs ihp s' name h h' hfree hfree' heq
    have hmark := same_mark h h' hfree hfree' heq
    cases s' with
    | cls header' statics' prototype' =>
      obtain ⟨hname, hapart, hstatics, hprototype⟩ := h
      obtain ⟨hname', hapart', hstatics', hprototype'⟩ := h'
      rw [declarations, List.forall_mem_append] at hfree hfree'
      rw [dump_cls hapart, dump_cls hapart', Json.object.injEq] at heq
      -- the data of a class takes the first places, its prototype the last one
      obtain ⟨hinit, hlast⟩ := List.append_inj' heq rfl
      obtain ⟨hheader, hmembers⟩ := List.append_inj hinit rfl
      simp only [List.cons.injEq, Prod.mk.injEq, Json.object.injEq, true_and, and_true] at hlast
      rw [eq_of_dumpHeader_eq (hname.trans hname'.symm) hheader,
        ihs statics' hstatics hstatics' hfree.1 hfree'.1 hmembers,
        ihp prototype' hprototype hprototype' hfree.2 hfree'.2 hlast]
    | space => exact absurd hmark (mark?_cls_ne (by decide) (by decide))
    | enumeration => exact absurd hmark (mark?_cls_ne (by decide) (by decide))
    | record => exact absurd hmark (mark?_cls_ne (by decide) (by decide))
    | delegate => exact absurd hmark (mark?_cls_ne (by decide) (by decide))
    | interface => exact absurd hmark (mark?_cls_ne (by decide) (by decide))
    | _ => simp [mark?] at hmark
  case leaf =>
    intro s hs s' name h h' hfree hfree' heq
    exact eq_of_dump_eq_of_leaf hs h h' (same_mark h h' hfree hfree' heq) heq
  case nil =>
    intro members' _ _ _ _ heq
    cases members' with
    | nil => rfl
    | cons m' members' => cases heq
  case cons =>
    intro name node members ihn ihm members' h h' hfree hfree' heq
    cases members' with
    | nil => cases heq
    | cons m' members' =>
      obtain ⟨name', node'⟩ := m'
      rw [declarationsOf, List.forall_mem_append] at hfree hfree'
      rw [dumpMembers, dumpMembers, List.cons.injEq, Prod.mk.injEq] at heq
      obtain ⟨⟨rfl, hnode⟩, hmembers⟩ := heq
      rw [ihn node' name h.1 h'.1 hfree.1 hfree'.1 hnode,
        ihm members' h.2 h'.2 hfree.2 hfree'.2 hmembers]

end Surface

end ScriptTypings
