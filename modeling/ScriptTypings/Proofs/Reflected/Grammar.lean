import Mathlib.Logic.Relation
import ScriptTypings.Proofs.NameMap
import ScriptTypings.Reflected

/-!
# The grammar of the reflected tree

`Mirrors` says which values are read and as what nodes, without following the reader. `IsRefused`
says what is wrong at one place, and `HasChild` leads from a node to those within it. A value is
read exactly as the node that mirrors it, and is refused exactly if something is wrong at a place
that can be reached (`ofJson_grammar`).
-/

namespace ScriptTypings.Reflected

variable {kind fullname : String} {members own : List (String × Json)} {value child : Json}

/-! ### Values that are read -/

/-- An object that tells its kind and its full name. -/
def HasKind (kind fullname : String) (members : List (String × Json)) : Prop :=
  NameMap.find? "__fullname" members = some (.text fullname) ∧
    NameMap.find? "__type" members = some (.text kind)

/-- The members that do not say something about the object itself. -/
def freeMembers (members : List (String × Json)) : List (String × Json) :=
  members.filter fun m => !isReserved m.1

/-- Those of a class, whose prototype is read apart. -/
def staticMembers (members : List (String × Json)) : List (String × Json) :=
  members.filter fun m => !(isReserved m.1 || m.1 = "prototype")

/-- The values that stand for a prototype without members. -/
inductive IsVoid : Json → Prop
  | null : IsVoid .null
  | false : IsVoid (.bool Bool.false)
  | zero : IsVoid (.whole 0)
  | realZero {x : Number.Binary64} (h : x.isZero = true) : IsVoid (.real x)
  | text : IsVoid (.text "")
  | list : IsVoid (.list [])

theorem IsVoid.ne_object {value : Json} (h : IsVoid value) (own : List (String × Json)) :
    value ≠ .object own := by
  rintro rfl
  cases h

/-- The members that are given for a prototype, by an object or by nothing. -/
inductive IsPrototype : Option Json → List (String × Json) → Prop
  | absent : IsPrototype none []
  | void {value : Json} (hvoid : IsVoid value) : IsPrototype (some value) []
  | object (own : List (String × Json)) : IsPrototype (some (.object own)) own

/-- The prototype that a class gives, if it gives one. -/
def prototype? (members : List (String × Json)) : Option Json :=
  NameMap.find? "prototype" members

mutual

/-- A node says what a value says: texts and null are placeholders, and objects are nodes with their
full names and their other members in order. A class has a base only if that is a text. -/
inductive Mirrors : Json → Reflected → Prop
  | text (word : String) : Mirrors (.text word) (.placeholder word)
  | null : Mirrors .null (.placeholder "null")
  | space {fullname : String} {members : List (String × Json)} {nodes : List (String × Reflected)}
    (hkind : HasKind "structure" fullname members)
    (hnodes : MirrorsAll (freeMembers members) nodes) :
    Mirrors (.object members) (.space fullname nodes)
  | cls {fullname : String} {base : Option String} {members own : List (String × Json)}
    {statics prototype : List (String × Reflected)} (hkind : HasKind "class" fullname members)
    (hbase : ∀ name, base = some name ↔
      NameMap.find? "__extends" members = some (.text name))
    (hstatics : MirrorsAll (staticMembers members) statics)
    (hown : IsPrototype (prototype? members) own)
    (hprototype : MirrorsAll (freeMembers own) prototype) :
    Mirrors (.object members) (.cls fullname base statics prototype)

/-- Nodes stand for members one by one, under the same names. -/
inductive MirrorsAll : List (String × Json) → List (String × Reflected) → Prop
  | nil : MirrorsAll [] []
  | cons {name : String} {value : Json} {node : Reflected} {members : List (String × Json)}
    {nodes : List (String × Reflected)} (hnode : Mirrors value node)
    (hnodes : MirrorsAll members nodes) :
    MirrorsAll ((name, value) :: members) ((name, node) :: nodes)

end

/-! ### Places and what may be wrong there -/

/-- A value that is a node within another one. -/
inductive HasChild : Json → Json → Prop
  | member {fullname name : String} {members : List (String × Json)} {child : Json}
    (hkind : HasKind "structure" fullname members) (hmem : (name, child) ∈ freeMembers members) :
    HasChild (.object members) child
  | static {fullname name : String} {members : List (String × Json)} {child : Json}
    (hkind : HasKind "class" fullname members) (hmem : (name, child) ∈ staticMembers members) :
    HasChild (.object members) child
  | entry {fullname name : String} {members own : List (String × Json)} {child : Json}
    (hkind : HasKind "class" fullname members) (hown : IsPrototype (prototype? members) own)
    (hmem : (name, child) ∈ freeMembers own) : HasChild (.object members) child

/-- A value that is no node whatever is in it: a number, a truth value, a list, an object without a
full name or of another kind, or a class with a wrong prototype. -/
inductive IsRefused : Json → Prop
  | bool (value : Bool) : IsRefused (.bool value)
  | whole (value : Int) : IsRefused (.whole value)
  | real (value : Number.Binary64) : IsRefused (.real value)
  | list (items : List Json) : IsRefused (.list items)
  | unnamed {members : List (String × Json)}
    (h : ∀ fullname, NameMap.find? "__fullname" members ≠ some (.text fullname)) :
    IsRefused (.object members)
  | otherKind {members : List (String × Json)}
    (hspace : NameMap.find? "__type" members ≠ some (.text "structure"))
    (hcls : NameMap.find? "__type" members ≠ some (.text "class")) : IsRefused (.object members)
  | prototype {members : List (String × Json)} {value : Json}
    (hcls : NameMap.find? "__type" members = some (.text "class"))
    (hvalue : prototype? members = some value) (hobject : ∀ own, value ≠ .object own)
    (hvoid : ¬ IsVoid value) : IsRefused (.object members)

/-- Something is wrong at a place that can be reached from a value. -/
def HasFault (value : Json) : Prop :=
  ∃ bad, Relation.ReflTransGen HasChild value bad ∧ IsRefused bad

theorem HasFault.of_child (hchild : HasChild value child) (h : HasFault child) :
    HasFault value :=
  let ⟨bad, hreach, hbad⟩ := h
  ⟨bad, .head hchild hreach, hbad⟩

theorem IsRefused.hasFault (h : IsRefused value) : HasFault value :=
  ⟨value, .refl, h⟩

/-! ### Kinds and prototypes -/

theorem HasKind.unique {kind' fullname' : String} (h : HasKind kind fullname members)
    (h' : HasKind kind' fullname' members) : kind = kind' ∧ fullname = fullname' := by
  obtain ⟨hname, hkind⟩ := h
  obtain ⟨hname', hkind'⟩ := h'
  rw [hname] at hname'
  rw [hkind] at hkind'
  cases hname'
  cases hkind'
  exact ⟨rfl, rfl⟩

theorem isEmpty_iff_isVoid (h : ∀ own, value ≠ .object own) :
    value.isEmpty = true ↔ IsVoid value := by
  constructor
  · intro hempty
    cases value with
    | null => exact .null
    | bool value =>
      cases value with
      | false => exact .false
      | true => cases hempty
    | whole value =>
      obtain rfl : value = 0 := by simpa [Json.isEmpty] using hempty
      exact .zero
    | real value => exact .realZero hempty
    | text value =>
      obtain rfl : value = "" := by simpa [Json.isEmpty] using hempty
      exact .text
    | list items =>
      obtain rfl : items = [] := by simpa [Json.isEmpty] using hempty
      exact .list
    | object own => exact absurd rfl (h own)
  · intro hvoid
    cases hvoid with
    | realZero hzero => exact hzero
    | _ => rfl

theorem IsPrototype.unique {given : Option Json} {own' : List (String × Json)}
    (h : IsPrototype given own) (h' : IsPrototype given own') : own = own' := by
  cases h with
  | absent =>
    cases h'
    rfl
  | void hvoid =>
    cases h' with
    | void _ => rfl
    | object _ => cases hvoid
  | object _ =>
    cases h' with
    | void hvoid => cases hvoid
    | object _ => rfl

/-- What is given for a prototype is none, or some members. -/
theorem isPrototype_or_wrong (given : Option Json) :
    (∃ own, IsPrototype given own) ∨ ∃ value,
      given = some value ∧ (∀ own, value ≠ .object own) ∧ ¬ IsVoid value := by
  cases given with
  | none => exact .inl ⟨[], .absent⟩
  | some value =>
    by_cases hvoid : IsVoid value
    · exact .inl ⟨[], .void hvoid⟩
    · by_cases hobject : ∃ own, value = .object own
      · obtain ⟨own, rfl⟩ := hobject
        exact .inl ⟨own, .object own⟩
      · exact .inr ⟨value, rfl, not_exists.mp hobject, hvoid⟩

/-- Every value is refused, a placeholder, a namespace, or a class with a prototype. -/
theorem isRefused_or (value : Json) :
    IsRefused value ∨ (∃ word, value = .text word) ∨ value = .null ∨
      ∃ fullname members, value = .object members ∧ (HasKind "structure" fullname members ∨
        HasKind "class" fullname members ∧ ∃ own, IsPrototype (prototype? members) own) := by
  cases value with
  | null => exact .inr (.inr (.inl rfl))
  | bool value => exact .inl (.bool value)
  | whole value => exact .inl (.whole value)
  | real value => exact .inl (.real value)
  | text word => exact .inr (.inl ⟨word, rfl⟩)
  | list items => exact .inl (.list items)
  | object members =>
    by_cases hname : ∃ fullname, NameMap.find? "__fullname" members = some (.text fullname)
    · obtain ⟨fullname, hname⟩ := hname
      by_cases hspace : NameMap.find? "__type" members = some (.text "structure")
      · exact .inr (.inr (.inr ⟨fullname, members, rfl, .inl ⟨hname, hspace⟩⟩))
      · by_cases hcls : NameMap.find? "__type" members = some (.text "class")
        · rcases isPrototype_or_wrong (prototype? members) with
            hown | ⟨value, hvalue, hobject, hvoid⟩
          · exact .inr (.inr (.inr ⟨fullname, members, rfl, .inr ⟨⟨hname, hcls⟩, hown⟩⟩))
          · exact .inl (.prototype hcls hvalue hobject hvoid)
        · exact .inl (.otherKind hspace hcls)
    · exact .inl (.unnamed (not_exists.mp hname))

/-! ### Reading at one place -/

theorem ofPrototype_eq (fullname : String) (members : List (String × Json)) :
    ofPrototype fullname members =
      match prototype? members with
      | none => .ok []
      | some value => ofPrototypeValue fullname value := by
  induction members with
  | nil => rfl
  | cons m members ih =>
    obtain ⟨name, value⟩ := m
    rw [ofPrototype, prototype?, NameMap.find?_cons]
    split <;> simp_all [prototype?]

theorem ofPrototypeValue_of_ne_object (hobject : ∀ own, value ≠ .object own) (fullname : String) :
    ofPrototypeValue fullname value =
      if value.isEmpty then .ok [] else .error (.unexpectedPrototype fullname) := by
  cases value with
  | object own => exact absurd rfl (hobject own)
  | _ => rfl

theorem ofPrototype_of_isPrototype (h : IsPrototype (prototype? members) own) (fullname : String) :
    ofPrototype fullname members = ofMembers (fullname ++ ".prototype") isReserved own := by
  rw [ofPrototype_eq]
  generalize prototype? members = given at h
  cases h with
  | absent => rfl
  | void hvoid =>
    have hempty := (isEmpty_iff_isVoid hvoid.ne_object).mpr hvoid
    dsimp only
    rw [ofPrototypeValue_of_ne_object hvoid.ne_object, if_pos hempty]
    rfl
  | object _ => rfl

theorem ofPrototype_of_wrong (hvalue : prototype? members = some value)
    (hobject : ∀ own, value ≠ .object own) (hvoid : ¬ IsVoid value) (fullname : String) :
    ofPrototype fullname members = .error (.unexpectedPrototype fullname) := by
  rw [ofPrototype_eq, hvalue]
  dsimp only
  rw [ofPrototypeValue_of_ne_object hobject, if_neg (mt (isEmpty_iff_isVoid hobject).mp hvoid)]

theorem ofJson_of_isRefused (h : IsRefused value) (path : String) :
    ∃ error, ofJson path value = .error error := by
  cases h with
  | unnamed hname =>
    unfold ofJson
    split <;> simp_all
  | otherKind hspace hcls =>
    unfold ofJson
    split <;> simp_all
  | prototype hcls hvalue hobject hvoid =>
    unfold ofJson
    simp only [hcls, ofPrototype_of_wrong hvalue hobject hvoid]
    split
    · simp_all
    · split <;> simp
    · simp
    · simp
  | _ => exact ⟨_, rfl⟩

theorem ofJson_space (h : HasKind "structure" fullname members) (path : String) :
    ofJson path (.object members) =
      (ofMembers fullname isReserved members).map (space fullname) := by
  simp only [ofJson, h.1, h.2]
  cases ofMembers fullname isReserved members <;> rfl

theorem ofJson_cls (h : HasKind "class" fullname members)
    (hown : IsPrototype (prototype? members) own) (path : String) :
    ofJson path (.object members) =
      (ofMembers fullname (fun name => isReserved name || name = "prototype") members).bind
        fun statics => (ofMembers (fullname ++ ".prototype") isReserved own).map
          (cls fullname (baseOf members) statics) := by
  simp only [ofJson, h.1, h.2, ofPrototype_of_isPrototype hown]
  cases ofMembers fullname (fun name => isReserved name || name = "prototype") members with
  | error e => rfl
  | ok statics => cases ofMembers (fullname ++ ".prototype") isReserved own <;> rfl

/-! ### Nodes within nodes -/

theorem sizeOf_lt_of_mem {name : String} (h : (name, child) ∈ members) :
    sizeOf child < sizeOf members := by
  have hlt := List.sizeOf_lt_of_mem h
  rw [Prod.mk.sizeOf_spec] at hlt
  omega

theorem mem_of_isPrototype {m : String × Json} (h : IsPrototype (prototype? members) own)
    (hm : m ∈ own) : ("prototype", Json.object own) ∈ members := by
  generalize hgiven : prototype? members = given at h
  cases h with
  | absent => cases hm
  | void _ => cases hm
  | object _ => exact NameMap.mem_of_find?_eq_some hgiven

theorem HasChild.sizeOf_lt (h : HasChild value child) : sizeOf child < sizeOf value := by
  cases h with
  | member _ hmem =>
    have hlt := sizeOf_lt_of_mem (List.mem_of_mem_filter hmem)
    rw [Json.object.sizeOf_spec]
    omega
  | static _ hmem =>
    have hlt := sizeOf_lt_of_mem (List.mem_of_mem_filter hmem)
    rw [Json.object.sizeOf_spec]
    omega
  | entry _ hown hmem =>
    have hmember := List.mem_of_mem_filter hmem
    have hlt := sizeOf_lt_of_mem hmember
    have hprototype := sizeOf_lt_of_mem (mem_of_isPrototype hown hmember)
    rw [Json.object.sizeOf_spec] at hprototype ⊢
    omega

/-- Induction over a value and the nodes within it. The entries of a prototype are such nodes, though
they are no members of the class. -/
theorem node_induction {P : Json → Prop}
    (step : ∀ value, (∀ child, HasChild value child → P child) → P value) (value : Json) :
    P value :=
  step value fun child _ => node_induction step child
termination_by sizeOf value
decreasing_by exact HasChild.sizeOf_lt ‹_›

/-! ### Reading to the end -/

/-- A value is read as a node that mirrors it, or is refused with a fault in it. -/
def IsDecided (value : Json) : Prop :=
  ∀ path, (∃ node, ofJson path value = .ok node ∧ Mirrors value node) ∨
    (∃ error, ofJson path value = .error error) ∧ HasFault value

theorem isDecided_ofMembers (leavesOut : String → Bool)
    (h : ∀ m ∈ members.filter (fun m => !leavesOut m.1), IsDecided m.2) (path : String) :
    (∃ nodes, ofMembers path leavesOut members = .ok nodes ∧
      MirrorsAll (members.filter fun m => !leavesOut m.1) nodes) ∨
    (∃ error, ofMembers path leavesOut members = .error error) ∧
      ∃ m ∈ members.filter (fun m => !leavesOut m.1), HasFault m.2 := by
  induction members with
  | nil => exact .inl ⟨[], rfl, .nil⟩
  | cons m members ih =>
    obtain ⟨name, value⟩ := m
    rw [ofMembers]
    by_cases hname : leavesOut name = true
    · rw [if_pos hname]
      rw [List.filter_cons_of_neg (by simpa using hname)] at h ⊢
      exact ih h
    · rw [if_neg hname]
      rw [List.filter_cons_of_pos (by simpa using hname)] at h ⊢
      obtain ⟨hvalue, hmembers⟩ := List.forall_mem_cons.mp h
      -- the first member that is refused ends the reading
      rcases hvalue (path ++ "." ++ name) with ⟨node, hnode, hmirrors⟩ | ⟨⟨error, herror⟩, hfault⟩
      · rw [hnode]
        rcases ih hmembers with ⟨nodes, hnodes, hall⟩ | ⟨⟨error, herror⟩, m, hm, hfault⟩
        · rw [hnodes]
          exact .inl ⟨_, rfl, .cons hmirrors hall⟩
        · rw [herror]
          exact .inr ⟨⟨_, rfl⟩, m, List.mem_cons_of_mem _ hm, hfault⟩
      · rw [herror]
        exact .inr ⟨⟨_, rfl⟩, _, List.mem_cons_self, hfault⟩

theorem baseOf_eq_some_iff {name : String} :
    baseOf members = some name ↔
      NameMap.find? "__extends" members = some (.text name) := by
  unfold baseOf
  split <;> simp_all

/-- Every value is decided: what is read at one place is put together from what is read at the
places within it. -/
theorem isDecided (value : Json) : IsDecided value := by
  induction value using node_induction with
  | step value ih =>
    intro path
    rcases isRefused_or value with hrefused | ⟨word, rfl⟩ | rfl |
      ⟨fullname, members, rfl, hkind | ⟨hkind, own, hown⟩⟩
    · exact .inr ⟨ofJson_of_isRefused hrefused path, hrefused.hasFault⟩
    · exact .inl ⟨_, rfl, .text word⟩
    · exact .inl ⟨_, rfl, .null⟩
    · rw [ofJson_space hkind]
      have hchild : ∀ m ∈ freeMembers members, HasChild (.object members) m.2 := fun m hm =>
        .member hkind hm
      rcases isDecided_ofMembers _ (fun m hm => ih _ (hchild m hm)) fullname with
        ⟨nodes, hnodes, hall⟩ | ⟨⟨error, herror⟩, m, hm, hfault⟩
      · rw [hnodes]
        exact .inl ⟨_, rfl, .space hkind hall⟩
      · rw [herror]
        exact .inr ⟨⟨_, rfl⟩, hfault.of_child (hchild m hm)⟩
    · rw [ofJson_cls hkind hown]
      have hstatic : ∀ m ∈ staticMembers members, HasChild (.object members) m.2 := fun m hm =>
        .static hkind hm
      have hentry : ∀ m ∈ freeMembers own, HasChild (.object members) m.2 := fun m hm =>
        .entry hkind hown hm
      rcases isDecided_ofMembers (fun name => isReserved name || name = "prototype")
          (fun m hm => ih _ (hstatic m hm)) fullname with
        ⟨statics, hstatics, hall⟩ | ⟨⟨error, herror⟩, m, hm, hfault⟩
      · rw [hstatics]
        rcases isDecided_ofMembers _ (fun m hm => ih _ (hentry m hm))
            (fullname ++ ".prototype") with
          ⟨prototype, hprototype, hown'⟩ | ⟨⟨error, herror⟩, m, hm, hfault⟩
        · rw [hprototype]
          exact .inl ⟨_, rfl, .cls hkind (fun _ => baseOf_eq_some_iff) hall hown hown'⟩
        · rw [herror]
          exact .inr ⟨⟨_, rfl⟩, hfault.of_child (hentry m hm)⟩
      · rw [herror]
        exact .inr ⟨⟨_, rfl⟩, hfault.of_child (hstatic m hm)⟩

/-! ### One node, and no fault -/

theorem MirrorsAll.exists_of_mem {nodes : List (String × Reflected)} {m : String × Json}
    (h : MirrorsAll members nodes) (hm : m ∈ members) : ∃ node, Mirrors m.2 node := by
  induction members generalizing nodes with
  | nil => cases hm
  | cons first members ih =>
    cases h with
    | cons hnode hnodes =>
      rcases List.mem_cons.mp hm with rfl | hm
      · exact ⟨_, hnode⟩
      · exact ih hnodes hm

theorem MirrorsAll.unique {nodes nodes' : List (String × Reflected)}
    (hvalues : ∀ m ∈ members, ∀ node node', Mirrors m.2 node → Mirrors m.2 node' → node = node')
    (h : MirrorsAll members nodes) (h' : MirrorsAll members nodes') : nodes = nodes' := by
  induction members generalizing nodes nodes' with
  | nil =>
    cases h
    cases h'
    rfl
  | cons first members ih =>
    obtain ⟨hfirst, hrest⟩ := List.forall_mem_cons.mp hvalues
    cases h with
    | cons hnode hnodes =>
      cases h' with
      | cons hnode' hnodes' => rw [hfirst _ _ hnode hnode', ih hrest hnodes hnodes']

theorem Mirrors.unique {node node' : Reflected} (h : Mirrors value node)
    (h' : Mirrors value node') : node = node' := by
  induction value using node_induction generalizing node node' with
  | step value ih =>
    cases h with
    | text word =>
      cases h'
      rfl
    | null =>
      cases h'
      rfl
    | space hkind hnodes =>
      cases h' with
      | space hkind' hnodes' =>
        obtain ⟨-, rfl⟩ := hkind.unique hkind'
        rw [MirrorsAll.unique (fun m hm _ _ => ih _ (.member hkind hm)) hnodes hnodes']
      | cls hkind' => exact absurd (hkind.unique hkind').1 (by decide)
    | cls hkind hbase hstatics hown hprototype =>
      cases h' with
      | space hkind' => exact absurd (hkind.unique hkind').1 (by decide)
      | cls hkind' hbase' hstatics' hown' hprototype' =>
        obtain ⟨-, rfl⟩ := hkind.unique hkind'
        obtain rfl := hown.unique hown'
        obtain rfl : _ = _ := Option.ext fun name => (hbase name).trans (hbase' name).symm
        rw [MirrorsAll.unique (fun m hm _ _ => ih _ (.static hkind hm)) hstatics hstatics',
          MirrorsAll.unique (fun m hm _ _ => ih _ (.entry hkind hown hm)) hprototype hprototype']

theorem Mirrors.not_isRefused {node : Reflected} (h : Mirrors value node) :
    ¬ IsRefused value := by
  intro hrefused
  cases h with
  | text word => cases hrefused
  | null => cases hrefused
  | space hkind hnodes =>
    cases hrefused with
    | unnamed hname => exact hname _ hkind.1
    | otherKind hspace hcls => exact hspace hkind.2
    | prototype hcls => exact absurd (hkind.unique ⟨hkind.1, hcls⟩).1 (by decide)
  | cls hkind hbase hstatics hown hprototype =>
    cases hrefused with
    | unnamed hname => exact hname _ hkind.1
    | otherKind hspace hcls => exact hcls hkind.2
    | prototype hcls hvalue hobject hvoid =>
      rw [hvalue] at hown
      cases hown with
      | void h => exact hvoid h
      | object _ => exact hobject _ rfl

/-- The nodes within a value that is read are read. -/
theorem Mirrors.of_child {node : Reflected} (h : Mirrors value node)
    (hchild : HasChild value child) : ∃ node, Mirrors child node := by
  cases hchild with
  | member hkind hmem =>
    cases h with
    | space _ hnodes => exact hnodes.exists_of_mem hmem
    | cls hkind' => exact absurd (hkind.unique hkind').1 (by decide)
  | static hkind hmem =>
    cases h with
    | space hkind' => exact absurd (hkind.unique hkind').1 (by decide)
    | cls _ _ hstatics => exact hstatics.exists_of_mem hmem
  | entry hkind hown hmem =>
    cases h with
    | space hkind' => exact absurd (hkind.unique hkind').1 (by decide)
    | cls _ _ _ hown' hprototype =>
      obtain rfl := hown.unique hown'
      exact hprototype.exists_of_mem hmem

theorem Mirrors.not_hasFault {node : Reflected} (h : Mirrors value node) : ¬ HasFault value := by
  rintro ⟨bad, hreach, hbad⟩
  -- every value on the way to the fault is mirrored, the last one too
  induction hreach using Relation.ReflTransGen.head_induction_on generalizing node with
  | refl => exact h.not_isRefused hbad
  | head hchild _ ih =>
    obtain ⟨inner, hinner⟩ := h.of_child hchild
    exact ih hinner

theorem ofJson_eq_ok_iff (path : String) {node : Reflected} :
    ofJson path value = .ok node ↔ Mirrors value node := by
  rcases isDecided value path with ⟨found, hread, hmirrors⟩ | ⟨⟨error, hread⟩, hfault⟩
  · rw [hread, Except.ok.injEq]
    exact ⟨fun heq => heq ▸ hmirrors, hmirrors.unique⟩
  · rw [hread]
    exact ⟨nofun, fun hmirrors => absurd hfault hmirrors.not_hasFault⟩

theorem ofJson_eq_error_iff (path : String) :
    (∃ error, ofJson path value = .error error) ↔ HasFault value := by
  rcases isDecided value path with ⟨node, hread, hmirrors⟩ | ⟨hread, hfault⟩
  · rw [hread]
    exact ⟨nofun, fun hfault => absurd hfault hmirrors.not_hasFault⟩
  · exact iff_of_true hread hfault

/-- A value is read exactly as the node that mirrors it, at every path. It is refused exactly if a
value is refused at a place within it: at the value itself, at a member of a namespace or class that
does not say something about the object, or in the prototype of a class. -/
theorem ofJson_grammar (path : String) (value : Json) :
    (∀ node, ofJson path value = .ok node ↔ Mirrors value node) ∧
    ((∃ error, ofJson path value = .error error) ↔
      ∃ bad, Relation.ReflTransGen HasChild value bad ∧ IsRefused bad) :=
  ⟨fun _ => ofJson_eq_ok_iff path, ofJson_eq_error_iff path⟩

-- A prototype that counts as nothing is none, and so is a base that is no text.
example :
    ofJson "" (.object [("prototype", .bool false), ("__type", "class"), ("parse", "function"),
      ("__extends", .null), ("__fullname", "N.Uri")]) =
        .ok (.cls "N.Uri" none [("parse", .placeholder "function")] []) := by
  rfl

end ScriptTypings.Reflected
