import ScriptTypings.Markup.Table

/-!
# Tables among siblings

`tablesAmong` lists the tables among some siblings and inside of them, as they stand on the page. A
section whose nodes hold one table, with no others but those inside of it, has it as its first
table, wherever it stands (`firstTable?_eq_some`).
-/

namespace ScriptTypings.Markup

def tablesAmong (nodes : List Node) : List Node :=
  ((Node.places nodes).map Prod.fst).filter (Node.hasTag "table")

/-- Some siblings hold one table, and no other one outside of it. -/
def HoldTable (nodes : List Node) (table : Node) : Prop :=
  tablesAmong nodes = table :: tablesAmong table.children

theorem isElement_of_hasTag {tag : String} {node : Node} (h : node.hasTag tag = true) :
    node.isElement = true := by
  cases node with
  | element => rfl
  | _ => cases h

theorem findBelow?_table (node : Node) :
    node.findBelow? (Node.hasTag "table") = (tablesAmong node.children).head? := by
  have hbelow : node.placesBelow = Node.places node.children := by cases node <;> rfl
  rw [Node.findBelow?, Node.descendants, hbelow, tablesAmong, List.head?_filter]

theorem tablesAmong_cons (node : Node) (nodes : List Node) :
    tablesAmong (node :: nodes) =
      (if node.hasTag "table" then [node] else []) ++ tablesAmong node.children ++
        tablesAmong nodes := by
  have hbelow : node.placesBelow = Node.places node.children := by cases node <;> rfl
  rw [tablesAmong, Node.places, List.map_append, List.map_append, List.filter_append,
    List.filter_append, hbelow]
  congr 2
  by_cases htable : node.hasTag "table"
  · simp [htable, isElement_of_hasTag htable]
  · cases node.isElement <;> simp [htable]

theorem tablesAmong_cons_of_hasTag {node : Node} (h : node.hasTag "table" = true)
    (nodes : List Node) :
    tablesAmong (node :: nodes) = node :: (tablesAmong node.children ++ tablesAmong nodes) := by
  rw [tablesAmong_cons, if_pos h]
  rfl

theorem tablesAmong_cons_of_not_hasTag {node : Node} (h : node.hasTag "table" = false)
    (nodes : List Node) :
    tablesAmong (node :: nodes) = tablesAmong node.children ++ tablesAmong nodes := by
  rw [tablesAmong_cons, if_neg (by simp [h])]
  rfl

/-- A table on its own. -/
theorem holdTable_singleton {table : Node} (h : table.hasTag "table" = true) :
    HoldTable [table] table := by
  rw [HoldTable, tablesAmong_cons_of_hasTag h]
  exact congrArg (table :: ·) (List.append_nil _)

theorem mem_tablesAmong {node : Node} {nodes : List Node} (h : node ∈ nodes)
    (htable : node.hasTag "table" = true) : node ∈ tablesAmong nodes := by
  induction nodes with
  | nil => cases h
  | cons first nodes ih =>
    rw [tablesAmong_cons]
    rcases List.mem_cons.mp h with rfl | h
    · simp [htable]
    · exact List.mem_append_right _ (ih h)

mutual

/-- Siblings hold more tables than stand inside one of these. -/
theorem length_tablesAmong_lt_below {table : Node} : ∀ {node : Node},
    table ∈ tablesAmong node.children →
      (tablesAmong table.children).length < (tablesAmong node.children).length
  | .element _ _ _, h => length_tablesAmong_lt h

theorem length_tablesAmong_lt {table : Node} : ∀ {nodes : List Node},
    table ∈ tablesAmong nodes →
      (tablesAmong table.children).length < (tablesAmong nodes).length
  | node :: nodes, h => by
    rw [tablesAmong_cons] at h ⊢
    simp only [List.length_append]
    rcases List.mem_append.mp h with h | h
    · rcases List.mem_append.mp h with h | h
      · split at h
        · rename_i hnode
          obtain rfl := List.mem_singleton.mp h
          simp only [hnode, if_true, List.length_singleton]
          omega
        · cases h
      · have hlt := length_tablesAmong_lt_below h
        omega
    · have hlt := length_tablesAmong_lt h
      omega

end

variable {nodes : List Node} {table : Node}

/-- Where a table stands among the siblings themselves, it is the one that they hold. -/
theorem HoldTable.find?_eq (h : HoldTable nodes table)
    (hown : ∃ node ∈ nodes, node.hasTag "table" = true) :
    nodes.find? (Node.hasTag "table") = some table := by
  induction nodes with
  | nil =>
    obtain ⟨_, hmem, -⟩ := hown
    cases hmem
  | cons node nodes ih =>
    rw [HoldTable] at h
    by_cases htable : node.hasTag "table" = true
    · rw [tablesAmong_cons_of_hasTag htable] at h
      rw [List.find?_cons_of_pos htable, (List.cons.inj h).1]
    · obtain ⟨own, hmem, howntable⟩ := hown
      have hrest : own ∈ nodes :=
        (List.mem_cons.mp hmem).resolve_left fun heq => htable (heq ▸ howntable)
      rw [tablesAmong_cons_of_not_hasTag (Bool.eq_false_iff.mpr htable)] at h
      cases hinside : tablesAmong node.children with
      | nil =>
        rw [hinside, List.nil_append] at h
        rw [List.find?_cons_of_neg htable, ih h ⟨own, hrest, howntable⟩]
      | cons first inner =>
        -- the table would stand inside the first sibling, and the other one beside it
        rw [hinside, List.cons_append] at h
        obtain ⟨rfl, htail⟩ := List.cons.inj h
        have hlt : (tablesAmong first.children).length < (first :: inner).length :=
          hinside ▸ length_tablesAmong_lt_below (hinside ▸ List.mem_cons_self)
        have hpos := List.length_pos_of_mem (mem_tablesAmong hrest howntable)
        have hlength := congrArg List.length htail
        rw [List.length_append] at hlength
        rw [List.length_cons] at hlt
        omega

theorem head?_tablesAmong (h : ∀ node ∈ nodes, node.hasTag "table" = false) :
    nodes.findSome? (fun node => node.findBelow? (Node.hasTag "table")) =
      (tablesAmong nodes).head? := by
  induction nodes with
  | nil => rfl
  | cons node nodes ih =>
    rw [List.forall_mem_cons] at h
    rw [List.findSome?_cons, tablesAmong_cons_of_not_hasTag h.1, List.head?_append,
      findBelow?_table, ih h.2]
    cases (tablesAmong node.children).head? <;> rfl

/-- Texts and comments are neither tables nor hold any. -/
theorem firstTable?_eq (s : Section) : firstTable? s =
    (s.nodes.find? (Node.hasTag "table")).or
      (s.nodes.findSome? fun node => node.findBelow? (Node.hasTag "table")) := by
  have hfind : s.elements.find? (Node.hasTag "table") = s.nodes.find? (Node.hasTag "table") := by
    rw [Section.elements, List.find?_filter]
    congr 1
    funext node
    rw [Bool.eq_iff_iff, decide_eq_true_eq]
    exact and_iff_right_of_imp isElement_of_hasTag
  have hinside : s.elements.findSome? (fun e => e.findBelow? (Node.hasTag "table")) =
      s.nodes.findSome? fun node => node.findBelow? (Node.hasTag "table") := by
    rw [Section.elements, ← List.head?_filterMap, ← List.head?_filterMap, List.filterMap_filter]
    congr 2
    funext node
    cases node <;> rfl
  rw [firstTable?, hfind, hinside]
  cases s.nodes.find? (Node.hasTag "table") <;> rfl

theorem firstTable?_eq_some {s : Section} (h : HoldTable s.nodes table) :
    firstTable? s = some table := by
  rw [firstTable?_eq]
  by_cases hown : ∃ node ∈ s.nodes, node.hasTag "table" = true
  · rw [h.find?_eq hown]
    rfl
  · have hnone : ∀ node ∈ s.nodes, node.hasTag "table" = false :=
      fun node hnode => Bool.eq_false_iff.mpr fun htable => hown ⟨node, hnode, htable⟩
    rw [List.find?_eq_none.mpr fun node hnode => by simp [hnone node hnode], Option.none_or,
      head?_tablesAmong hnone, h]
    rfl

theorem firstTable?_eq_none {s : Section} (h : tablesAmong s.nodes = []) :
    firstTable? s = none := by
  have hnone : ∀ node ∈ s.nodes, node.hasTag "table" = false := fun node hnode =>
    Bool.eq_false_iff.mpr fun htable => List.not_mem_nil (h ▸ mem_tablesAmong hnode htable)
  rw [firstTable?_eq, List.find?_eq_none.mpr fun node hnode => by simp [hnone node hnode],
    Option.none_or, head?_tablesAmong hnone, h]
  rfl

end ScriptTypings.Markup
