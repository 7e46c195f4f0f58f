import Mathlib.Data.List.TakeWhile
import ScriptTypings.Markup.DefinitionList
import ScriptTypings.Proofs.NameMap

/-!
# Definitions and their terms

The children of a definition list fall into `groups`, a term and the definitions up to the next term
each. As long as no child is a fault, what has been read are the groups up to there
(`Reads.step`, `Reads.foldlM`). So a list is refused exactly for a fault, the first one, and else
every definition belongs to its term (`definitions_assigns`).
-/

namespace ScriptTypings.Markup

open NameMap

/-! ### Faults -/

/-- What is wrong with a child of a definition list that stands behind some others. -/
inductive IsFault (before : List Node) : Node → DefinitionListError → Prop
  | strayText {content : String} {kind : TextKind}
      (h : ∃ c ∈ content.toList, Text.isBlank c = false) :
      IsFault before (.text content kind) .strayText
  | strayElement {tag : String} {attributes : List (String × String)} {children : List Node}
      (hterm : tag ≠ "dt") (hdefinition : tag ≠ "dd") :
      IsFault before (.element tag attributes children) (.strayElement tag)
  | definitionFirst {tag : String} {attributes : List (String × String)} {children : List Node}
      (hdefinition : tag = "dd") (h : ∀ node ∈ before, node.hasTag "dt" = false) :
      IsFault before (.element tag attributes children) .definitionFirst

/-- Some child is a fault behind those in front of it. -/
def HasFault (children : List Node) : Prop :=
  ∃ before node after e, children = before ++ node :: after ∧ IsFault before node e

/-- What is wrong with the first child that is a fault. -/
def IsFirstFault (children : List Node) (e : DefinitionListError) : Prop :=
  ∃ before node after, children = before ++ node :: after ∧ ¬HasFault before ∧ IsFault before node e

theorem IsFirstFault.hasFault {children : List Node} {e : DefinitionListError}
    (h : IsFirstFault children e) : HasFault children := by
  obtain ⟨before, node, after, hchildren, -, hfault⟩ := h
  exact ⟨before, node, after, e, hchildren, hfault⟩

theorem not_hasFault_nil : ¬HasFault [] := by
  rintro ⟨before, node, after, e, hchildren, -⟩
  simp at hchildren

/-- A fault among some children and one more is among them or is the last one. -/
theorem not_hasFault_concat {children : List Node} {node : Node} (h : ¬HasFault children)
    (hnode : ∀ e, ¬IsFault children node e) : ¬HasFault (children ++ [node]) := by
  rintro ⟨before, fault, after, e, hchildren, hfault⟩
  rcases List.eq_nil_or_concat' after with rfl | ⟨after, last, rfl⟩
  · obtain ⟨rfl, hlast⟩ := List.append_inj' hchildren rfl
    obtain rfl := List.singleton_inj.mp hlast
    exact hnode e hfault
  · rw [← List.cons_append, ← List.append_assoc] at hchildren
    obtain ⟨rfl, -⟩ := List.append_inj' hchildren rfl
    exact h ⟨before, fault, after, e, rfl, hfault⟩

/-! ### Groups -/

/-- The text that a definition is found under. -/
def termText (node : Node) : String :=
  Text.trimmed node.innerText

/-- The definitions in front of the next term. -/
def definitionsUpTo (nodes : List Node) : List Node :=
  (nodes.takeWhile fun node => !node.hasTag "dt").filter (Node.hasTag "dd")

/-- The terms in order, each with the definitions up to the next one. -/
def groups : List Node → List (String × List Node)
  | [] => []
  | node :: nodes =>
    if node.hasTag "dt" then (termText node, definitionsUpTo nodes) :: groups nodes
    else groups nodes

/-- Children of which none is a term. -/
def HasNoTerm (nodes : List Node) : Prop :=
  ∀ node ∈ nodes, node.hasTag "dt" = false

theorem HasNoTerm.concat {nodes : List Node} (h : HasNoTerm nodes) {node : Node}
    (hnode : node.hasTag "dt" = false) : HasNoTerm (nodes ++ [node]) :=
  List.forall_mem_append.mpr ⟨h, List.forall_mem_singleton.mpr hnode⟩

theorem HasNoTerm.groups_eq {nodes : List Node} (h : HasNoTerm nodes) : groups nodes = [] := by
  induction nodes with
  | nil => rfl
  | cons node nodes ih =>
    obtain ⟨hnode, hrest⟩ := List.forall_mem_cons.mp h
    rw [groups, if_neg (by simp [hnode]), ih hrest]

theorem HasNoTerm.definitionsUpTo_eq {nodes : List Node} (h : HasNoTerm nodes) :
    definitionsUpTo nodes = nodes.filter (Node.hasTag "dd") := by
  have hall : nodes.takeWhile (fun node => !node.hasTag "dt") = nodes :=
    List.takeWhile_eq_self_iff.mpr fun node hnode => by rw [h node hnode]; rfl
  rw [definitionsUpTo, hall]

theorem definitionsUpTo_append_cons {term : Node} (hterm : term.hasTag "dt" = true)
    (before behind : List Node) :
    definitionsUpTo (before ++ term :: behind) = definitionsUpTo before := by
  induction before with
  | nil => simp [definitionsUpTo, hterm]
  | cons node before ih =>
    simp only [definitionsUpTo] at ih
    cases hnode : node.hasTag "dt" with
    | true => simp [definitionsUpTo, hnode]
    | false => simp [definitionsUpTo, hnode, List.filter_cons, ih]

/-- A term begins a group of its own. -/
theorem groups_append_cons {term : Node} (hterm : term.hasTag "dt" = true)
    (before behind : List Node) :
    groups (before ++ term :: behind) =
      groups before ++ (termText term, definitionsUpTo behind) :: groups behind := by
  induction before with
  | nil =>
    rw [List.nil_append, groups.eq_2, if_pos hterm]
    rfl
  | cons node before ih =>
    rw [List.cons_append, groups, groups, ih, definitionsUpTo_append_cons hterm]
    split <;> rfl

theorem map_fst_groups (nodes : List Node) :
    (groups nodes).map Prod.fst = (nodes.filter (Node.hasTag "dt")).map termText := by
  induction nodes with
  | nil => rfl
  | cons node nodes ih =>
    rw [groups, List.filter_cons]
    split
    · rw [List.map_cons, List.map_cons, ih]
    · exact ih

/-- Every definition stands in front of the first term or in the group of one. -/
theorem definitionsUpTo_append_groups (nodes : List Node) :
    definitionsUpTo nodes ++ (groups nodes).flatMap Prod.snd =
      nodes.filter (Node.hasTag "dd") := by
  induction nodes with
  | nil => rfl
  | cons node nodes ih =>
    cases hnode : node.hasTag "dt" with
    | true =>
      have hother : node.hasTag "dd" = false := by
        rw [Node.hasTag, decide_eq_true_eq] at hnode
        simp [Node.hasTag, hnode]
      simpa [groups, definitionsUpTo, hnode, hother] using ih
    | false =>
      rw [groups, if_neg (by simp [hnode]), List.filter_cons, ← ih]
      simp only [definitionsUpTo, hnode, Bool.not_false, List.takeWhile_cons_of_pos,
        List.filter_cons]
      split <;> rfl

/-! ### Reading -/

/-- What is read of some children without a fault: nothing in front of the first term, and then the
groups, of which the last one is still open. -/
inductive Reads : List Node → Definitions → Prop
  | outside {nodes : List Node} (h : HasNoTerm nodes) : Reads nodes {}
  | inside {before behind : List Node} {term : Node} (hterm : term.hasTag "dt" = true)
      (h : HasNoTerm behind) :
      Reads (before ++ term :: behind)
        ⟨ofPairs (groups before ++ [(termText term, behind.filter (Node.hasTag "dd"))]),
          some (termText term)⟩

theorem Reads.found_eq {nodes : List Node} {d : Definitions} (h : Reads nodes d) :
    d.found = ofPairs (groups nodes) := by
  cases h with
  | outside hnone => rw [hnone.groups_eq]; rfl
  | inside hterm hnone =>
    rw [groups_append_cons hterm, hnone.groups_eq, hnone.definitionsUpTo_eq]

/-- A child that is neither a term nor a definition leaves everything as it is. -/
theorem Reads.concat_of_other {nodes : List Node} {d : Definitions} (h : Reads nodes d)
    {node : Node} (hterm : node.hasTag "dt" = false) (hdefinition : node.hasTag "dd" = false) :
    Reads (nodes ++ [node]) d := by
  cases h with
  | outside hnone => exact .outside (hnone.concat hterm)
  | @inside before behind term hopen hnone =>
    have hsame : behind.filter (Node.hasTag "dd") =
        (behind ++ [node]).filter (Node.hasTag "dd") := by
      rw [List.filter_append]
      simp [hdefinition]
    rw [List.append_assoc, List.cons_append, hsame]
    exact .inside hopen (hnone.concat hterm)

/-- One child is a fault, and is refused as such, or is read. -/
theorem Reads.step {nodes : List Node} {d : Definitions} (h : Reads nodes d) (node : Node) :
    (∃ e, IsFault nodes node e ∧ d.step node = .error e) ∨
      (∀ e, ¬IsFault nodes node e) ∧ ∃ d', d.step node = .ok d' ∧ Reads (nodes ++ [node]) d' := by
  cases node with
  | comment content => exact .inr ⟨nofun, d, rfl, h.concat_of_other rfl rfl⟩
  | text content kind =>
    by_cases hblank : content.toList.all Text.isBlank = true
    · refine .inr ⟨?_, d, if_pos hblank, h.concat_of_other rfl rfl⟩
      rintro _ ⟨c, hc, hfilled⟩
      rw [List.all_eq_true.mp hblank c hc] at hfilled
      cases hfilled
    · refine .inl ⟨.strayText, .strayText ?_, if_neg hblank⟩
      simpa using hblank
  | element tag attributes children =>
    by_cases hterm : tag = "dt"
    · subst hterm
      refine .inr ⟨?_, _, rfl, ?_⟩
      · rintro _ (_ | ⟨hother, -⟩ | ⟨hother, -⟩)
        · exact hother rfl
        · exact absurd hother (by decide)
      · rw [h.found_eq, ← ofPairs_concat]
        exact .inside rfl nofun
    · by_cases hdefinition : tag = "dd"
      · subst hdefinition
        cases h with
        | outside hnone => exact .inl ⟨_, .definitionFirst rfl hnone, rfl⟩
        | @inside before behind term hopen hnone =>
          refine .inr ⟨?_, _, rfl, ?_⟩
          · rintro _ (_ | ⟨-, hother⟩ | ⟨-, hfirst⟩)
            · exact hother rfl
            · rw [hfirst term (by simp)] at hopen
              cases hopen
          · -- the definitions of the open term are looked up and put back with one more
            simp only [ofPairs_concat, find?_put_self, Option.getD_some, put_put]
            rw [← ofPairs_concat, List.append_assoc, List.cons_append]
            have hmore : behind.filter (Node.hasTag "dd") ++ [Node.element "dd" attributes children]
                = (behind ++ [Node.element "dd" attributes children]).filter (Node.hasTag "dd") := by
              rw [List.filter_append]
              rfl
            rw [hmore]
            exact .inside hopen (hnone.concat rfl)
      · exact .inl ⟨_, .strayElement hterm hdefinition, by
          rw [Definitions.step, if_neg hterm, if_neg hdefinition]⟩

/-- All children are read, or the first fault among them ends the reading. -/
theorem Reads.foldlM {nodes : List Node} {d : Definitions} (h : Reads nodes d)
    (hnone : ¬HasFault nodes) (rest : List Node) :
    (∃ e, IsFirstFault (nodes ++ rest) e ∧ rest.foldlM Definitions.step d = .error e) ∨
      ¬HasFault (nodes ++ rest) ∧
        ∃ d', rest.foldlM Definitions.step d = .ok d' ∧ Reads (nodes ++ rest) d' := by
  induction rest generalizing nodes d with
  | nil =>
    rw [List.append_nil]
    exact .inr ⟨hnone, d, rfl, h⟩
  | cons node rest ih =>
    rw [List.foldlM_cons]
    rcases h.step node with ⟨e, hfault, hstep⟩ | ⟨hfine, d', hstep, hreads⟩
    · rw [hstep]
      exact .inl ⟨e, ⟨nodes, node, rest, rfl, hnone, hfault⟩, rfl⟩
    · rw [hstep, ← List.singleton_append, ← List.append_assoc]
      exact ih hreads (not_hasFault_concat hnone hfine)

/-! ### Definition lists -/

/-- The definitions in front of the first term are faults. -/
theorem definitionsUpTo_eq_nil {children : List Node} (h : ¬HasFault children) :
    definitionsUpTo children = [] := by
  refine List.filter_eq_nil_iff.mpr fun node hnode hdefinition => h ?_
  obtain ⟨before, after, hsplit⟩ := List.append_of_mem hnode
  have hbefore : HasNoTerm before := by
    intro other hother
    have hmem : other ∈ children.takeWhile fun node => !node.hasTag "dt" := by
      rw [hsplit]
      exact List.mem_append_left _ hother
    simpa using List.all_eq_true.mp List.all_takeWhile other hmem
  have hchildren : children = before ++ node ::
      (after ++ children.dropWhile fun node => !node.hasTag "dt") := by
    conv_lhs => rw [← List.takeWhile_append_dropWhile (p := fun node => !node.hasTag "dt")
      (l := children), hsplit]
    simp
  cases node with
  | element tag attributes below =>
    obtain rfl : tag = "dd" := by simpa [Node.hasTag, Node.tag?] using hdefinition
    exact ⟨before, _, _, _, hchildren, .definitionFirst rfl hbefore⟩
  | _ => cases hdefinition

/-- Every definition belongs to its term: the keys are the texts of the terms, and under each of
them stand the definitions behind the last term of this text, up to the next term. -/
structure Assigns (children : List Node) (found : NameMap (List Node)) : Prop where
  names : found.names = ((children.filter (Node.hasTag "dt")).map termText).eraseDups
  find? : ∀ before term behind, children = before ++ term :: behind → term.hasTag "dt" = true →
    (∀ node ∈ behind, node.hasTag "dt" = true → termText node ≠ termText term) →
    NameMap.find? (termText term) found = some (definitionsUpTo behind)
  kept : ((children.filter (Node.hasTag "dt")).map termText).Nodup →
    found.flatMap Prod.snd = children.filter (Node.hasTag "dd")

theorem assigns_groups {children : List Node} (h : ¬HasFault children) :
    Assigns children (ofPairs (groups children)) where
  names := by rw [names_ofPairs, map_fst_groups]
  find? before term behind hchildren hterm hlast := by
    have hothers : ∀ p ∈ groups behind, p.1 ≠ termText term := by
      intro p hp
      have hname : p.1 ∈ (groups behind).map Prod.fst := List.mem_map_of_mem hp
      rw [map_fst_groups] at hname
      obtain ⟨node, hnode, hname⟩ := List.mem_map.mp hname
      obtain ⟨hmem, hnode⟩ := List.mem_filter.mp hnode
      exact hname ▸ hlast node hmem hnode
    rw [hchildren, groups_append_cons hterm]
    exact find?_update_append_cons hothers [] _ _
  kept hnodup := by
    rw [← map_fst_groups] at hnodup
    have hall := definitionsUpTo_append_groups children
    rwa [definitionsUpTo_eq_nil h, List.nil_append, ← ofPairs_of_nodup hnodup] at hall

/-- A definition list is refused exactly if a child of it is a fault, for the first one; else every
definition belongs to its term. -/
theorem definitions_assigns (list : Node) :
    ((∃ e, definitions list = .error e) ↔ HasFault list.children) ∧
      (∀ e, definitions list = .error e → IsFirstFault list.children e) ∧
      (¬HasFault list.children →
        ∃ found, definitions list = .ok found ∧ Assigns list.children found) := by
  have hstart : Reads [] {} := .outside nofun
  rcases hstart.foldlM not_hasFault_nil list.children with
    ⟨e, hfirst, hrun⟩ | ⟨hnone, d, hrun, hreads⟩
  · have herror : definitions list = .error e := by rw [definitions, hrun]; rfl
    refine ⟨⟨fun _ => hfirst.hasFault, fun _ => ⟨e, herror⟩⟩, fun e' he' => ?_, fun hnone => ?_⟩
    · obtain rfl := Except.error.inj (herror.symm.trans he')
      exact hfirst
    · exact absurd hfirst.hasFault hnone
  · have hok : definitions list = .ok d.found := by rw [definitions, hrun]; rfl
    rw [hok]
    refine ⟨⟨nofun, fun hfault => absurd hfault hnone⟩, nofun, fun _ => ⟨_, rfl, ?_⟩⟩
    rw [hreads.found_eq]
    exact assigns_groups hnone

/-- A term or a definition with nothing but a text. -/
def textItem (tag content : String) : Node :=
  .element tag [] [.text content .plain]

/-- A list that has its first term again at its end. -/
def repeatedTerm : Node :=
  .element "dl" [] [.text "\n" .plain, textItem "dt" "size", textItem "dd" "lost",
    textItem "dt" "name", .comment "of the file", textItem "dd" "kept", textItem "dt" " size ",
    textItem "dd" "first", textItem "dd" "second"]

theorem definitions_assigns_repeatedTerm :
    (¬HasFault repeatedTerm.children ∧
      ∃ found, definitions repeatedTerm = .ok found ∧ Assigns repeatedTerm.children found ∧
        NameMap.find? "size" found = some [textItem "dd" "first", textItem "dd" "second"]) ∧
      definitions (.element "dl" [] [textItem "dd" "first"]) = .error .definitionFirst ∧
      IsFirstFault [textItem "dd" "first"] .definitionFirst := by
  have hfine : ¬HasFault repeatedTerm.children := by
    intro hfault
    obtain ⟨e, he⟩ := (definitions_assigns repeatedTerm).1.mpr hfault
    cases he
  have hfirst : definitions (.element "dl" [] [textItem "dd" "first"]) =
      .error .definitionFirst := rfl
  obtain ⟨found, hfound, hassigns⟩ := (definitions_assigns repeatedTerm).2.2 hfine
  have hterm : termText (textItem "dt" " size ") = "size" := by decide +kernel
  refine ⟨⟨hfine, found, hfound, hassigns, ?_⟩, hfirst,
    (definitions_assigns _).2.1 _ hfirst⟩
  have hnext : ∀ node ∈ [textItem "dd" "first", textItem "dd" "second"],
      node.hasTag "dt" = false := by decide
  have hlast := hassigns.find? (repeatedTerm.children.take 6) (textItem "dt" " size ")
    [textItem "dd" "first", textItem "dd" "second"] rfl rfl fun node hnode hother =>
      absurd hother (by rw [hnext node hnode]; decide)
  rwa [hterm] at hlast

end ScriptTypings.Markup
