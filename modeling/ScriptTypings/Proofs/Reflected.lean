import ScriptTypings.Inputs
import ScriptTypings.Proofs.Reflected.Grammar
import ScriptTypings.Proofs.Session.Decoding

/-!
# Names in the reflected tree

An object that is read from a text repeats no name, so neither does a node of a tree that is read
from one: `hasDistinctNames_of_rootOfText`. A class has its prototype apart from the members of its
own object: `hasOwnPrototypes_of_rootOfText`.
-/

namespace ScriptTypings.Reflected

mutual

/-- No node of a tree has two members of one name. -/
def HasDistinctNames : Reflected → Prop
  | placeholder _ => True
  | space _ members => HaveDistinctNames members
  | cls _ _ statics prototype => HaveDistinctNames statics ∧ HaveDistinctNames prototype

/-- No two members have one name, and neither have those of a node among them. -/
def HaveDistinctNames : List (String × Reflected) → Prop
  | [] => True
  | (name, node) :: members =>
    name ∉ members.map Prod.fst ∧ HasDistinctNames node ∧ HaveDistinctNames members

end

theorem HaveDistinctNames.nodup {members : List (String × Reflected)}
    (h : HaveDistinctNames members) : (members.map Prod.fst).Nodup := by
  induction members with
  | nil => exact List.nodup_nil
  | cons m members ih =>
    obtain ⟨name, node⟩ := m
    exact List.nodup_cons.mpr ⟨h.1, ih h.2.2⟩

/-! ### Reading -/

variable {members own : List (String × Json)} {nodes : List (String × Reflected)}

theorem MirrorsAll.map_fst_eq (h : MirrorsAll members nodes) :
    nodes.map Prod.fst = members.map Prod.fst := by
  induction members generalizing nodes with
  | nil =>
    cases h
    rfl
  | cons m members ih =>
    cases h with
    | cons _ hnodes => rw [List.map_cons, List.map_cons, ih hnodes]

theorem MirrorsAll.haveDistinctNames (hnames : (members.map Prod.fst).Nodup)
    (hvalues : ∀ m ∈ members, ∀ node, Mirrors m.2 node → node.HasDistinctNames)
    (h : MirrorsAll members nodes) : HaveDistinctNames nodes := by
  induction members generalizing nodes with
  | nil =>
    cases h
    exact trivial
  | cons m members ih =>
    obtain ⟨hfresh, hrest⟩ := List.nodup_cons.mp hnames
    obtain ⟨hvalue, hothers⟩ := List.forall_mem_cons.mp hvalues
    cases h with
    | cons hnode hnodes =>
      exact ⟨hnodes.map_fst_eq ▸ hfresh, hvalue _ hnode, ih hrest hothers hnodes⟩

/-- Members with distinct names and values that are read back. -/
def AreReadable (members : List (String × Json)) : Prop :=
  (members.map Prod.fst).Nodup ∧ ∀ m ∈ members, m.2.isReadable = true

theorem areReadable_of_isReadable (h : (Json.object members).isReadable = true) :
    AreReadable members :=
  Json.isReadable_object_iff.mp h

theorem AreReadable.filter (h : AreReadable members) (p : String × Json → Bool) :
    AreReadable (members.filter p) :=
  ⟨h.1.sublist (List.filter_sublist.map _), fun m hm => h.2 m (List.mem_of_mem_filter hm)⟩

theorem AreReadable.of_isPrototype (h : AreReadable members)
    (hown : IsPrototype (prototype? members) own) : AreReadable own := by
  by_cases hnone : own = []
  · subst hnone
    exact ⟨List.nodup_nil, nofun⟩
  · obtain ⟨m, hm⟩ := List.exists_mem_of_ne_nil own hnone
    exact areReadable_of_isReadable (h.2 _ (mem_of_isPrototype hown hm))

/-- No node that mirrors a readable value repeats a name. -/
theorem hasDistinctNames_of_isReadable {value : Json} {node : Reflected}
    (hvalue : value.isReadable = true) (h : Mirrors value node) : node.HasDistinctNames := by
  induction value using node_induction generalizing node with
  | step value ih =>
    cases h with
    | text word => exact trivial
    | null => exact trivial
    | space hkind hnodes =>
      obtain ⟨hnames, hreadable⟩ := (areReadable_of_isReadable hvalue).filter fun m =>
        !isReserved m.1
      exact hnodes.haveDistinctNames hnames fun m hm _ hnode =>
        ih _ (.member hkind hm) (hreadable m hm) hnode
    | cls hkind _ hstatics hown hprototype =>
      have hmembers := areReadable_of_isReadable hvalue
      obtain ⟨hnames, hreadable⟩ := hmembers.filter fun m => !(isReserved m.1 || m.1 = "prototype")
      obtain ⟨hownNames, hownReadable⟩ := (hmembers.of_isPrototype hown).filter fun m =>
        !isReserved m.1
      exact ⟨hstatics.haveDistinctNames hnames fun m hm _ hnode =>
          ih _ (.static hkind hm) (hreadable m hm) hnode,
        hprototype.haveDistinctNames hownNames fun m hm _ hnode =>
          ih _ (.entry hkind hown hm) (hownReadable m hm) hnode⟩

/-- The tree that a file holds mirrors a value that is read back. -/
theorem exists_mirrors_of_rootOfText {path : Path} {text : String} {root : Root}
    (h : rootOfText path text = .ok root) :
    ∃ value : Json, value.isReadable = true ∧ Mirrors value root.node := by
  obtain ⟨document, hread, hfound⟩ := decodeText_eq_ok_iff.mp h
  refine ⟨document.value, Json.isReadable_of_read hread, ?_⟩
  unfold rootOfJson at hfound
  split at hfound
  · cases hfound
  · rename_i node hnode
    have hmirrors := (ofJson_eq_ok_iff "").mp hnode
    cases node with
    | placeholder word => cases hfound
    | cls fullname base statics prototype => cases hfound
    | space fullname members =>
      cases hfound
      exact hmirrors

/-- No node of a tree that a file holds repeats a name. -/
theorem hasDistinctNames_of_rootOfText {path : Path} {text : String} {root : Root}
    (h : rootOfText path text = .ok root) : root.node.HasDistinctNames :=
  let ⟨_, hvalue, hmirrors⟩ := exists_mirrors_of_rootOfText h
  hasDistinctNames_of_isReadable hvalue hmirrors

/-! ### Prototypes -/

mutual

/-- No class of a tree has a prototype among the members of its own object. -/
def HasOwnPrototypes : Reflected → Prop
  | placeholder _ => True
  | space _ members => HaveOwnPrototypes members
  | cls _ _ statics prototype =>
    "prototype" ∉ statics.map Prod.fst ∧ HaveOwnPrototypes statics ∧ HaveOwnPrototypes prototype

def HaveOwnPrototypes : List (String × Reflected) → Prop
  | [] => True
  | (_, node) :: members => HasOwnPrototypes node ∧ HaveOwnPrototypes members

end

theorem MirrorsAll.haveOwnPrototypes
    (hvalues : ∀ m ∈ members, ∀ node, Mirrors m.2 node → node.HasOwnPrototypes)
    (h : MirrorsAll members nodes) : HaveOwnPrototypes nodes := by
  induction members generalizing nodes with
  | nil =>
    cases h
    exact trivial
  | cons m members ih =>
    obtain ⟨hvalue, hothers⟩ := List.forall_mem_cons.mp hvalues
    cases h with
    | cons hnode hnodes => exact ⟨hvalue _ hnode, ih hothers hnodes⟩

theorem prototype_not_mem_staticMembers (members : List (String × Json)) :
    "prototype" ∉ (staticMembers members).map Prod.fst := by
  intro hmem
  obtain ⟨m, hm, hname⟩ := List.mem_map.mp hmem
  have hkept := (List.mem_filter.mp hm).2
  simp [hname] at hkept

theorem hasOwnPrototypes_of_mirrors {value : Json} {node : Reflected} (h : Mirrors value node) :
    node.HasOwnPrototypes := by
  induction value using node_induction generalizing node with
  | step value ih =>
    cases h with
    | text word => exact trivial
    | null => exact trivial
    | space hkind hnodes =>
      exact hnodes.haveOwnPrototypes fun m hm _ hnode => ih _ (.member hkind hm) hnode
    | cls hkind _ hstatics hown hprototype =>
      exact ⟨hstatics.map_fst_eq ▸ prototype_not_mem_staticMembers _,
        hstatics.haveOwnPrototypes fun m hm _ hnode => ih _ (.static hkind hm) hnode,
        hprototype.haveOwnPrototypes fun m hm _ hnode => ih _ (.entry hkind hown hm) hnode⟩

theorem hasOwnPrototypes_of_rootOfText {path : Path} {text : String} {root : Root}
    (h : rootOfText path text = .ok root) : root.node.HasOwnPrototypes :=
  let ⟨_, _, hmirrors⟩ := exists_mirrors_of_rootOfText h
  hasOwnPrototypes_of_mirrors hmirrors

end ScriptTypings.Reflected
