import Mathlib.Data.List.Nodup
import ScriptTypings.Markup.Section
import ScriptTypings.Proofs.NameMap
import ScriptTypings.Proofs.Text.Search

/-!
# Outlines of sections

Siblings that are nested by their headings have an `Outline`: the nodes in front of the first
heading, and every heading with the outline of what stands below it. There is exactly one outline
that reads as the siblings up to the first heading of the base level or above, in which every
section runs up to a heading of its own level or above. Sections are put together from it, and a
title that is repeated in a section keeps its first place and its last content
(`Section.ofNodes_outline`).
-/

namespace ScriptTypings.Markup

open Text (takeWhile_append_of_head? append_inj_of_head?)

/-- Whether a node is a heading at which a section of the given level ends. -/
def endsSection (level : Nat) (node : Node) : Bool :=
  (headingLevel? node).any fun depth => depth ≤ level

theorem endsSection_of_none {node : Node} (h : headingLevel? node = none) (level : Nat) :
    endsSection level node = false := by
  rw [endsSection, h]
  rfl

theorem endsSection_of_some {node : Node} {depth : Nat} (h : headingLevel? node = some depth)
    (level : Nat) : endsSection level node = decide (depth ≤ level) := by
  rw [endsSection, h]
  rfl

/-- What ends a section ends the sections inside of it. -/
theorem endsSection_mono {level depth : Nat} (hlevel : level ≤ depth) {node : Node}
    (h : endsSection depth node = false) : endsSection level node = false := by
  cases hheading : headingLevel? node with
  | none => exact endsSection_of_none hheading level
  | some own =>
    rw [endsSection_of_some hheading, decide_eq_false_iff_not] at h ⊢
    omega

/-- Siblings nested by their headings: the nodes in front of the first heading, and every heading
with what stands below it. -/
inductive Outline
  | mk (own : List Node) (parts : List (Node × Outline))

namespace Outline

def own : Outline → List Node
  | mk own _ => own

def parts : Outline → List (Node × Outline)
  | mk _ parts => parts

mutual

/-- The nodes in the order of the page: a section's own ones, then each heading and its content. -/
def reading : Outline → List Node
  | mk own parts => own ++ readingOf parts

def readingOf : List (Node × Outline) → List Node
  | [] => []
  | (heading, content) :: parts => heading :: (content.reading ++ readingOf parts)

end

mutual

/-- No section has a heading among its own nodes, and a section of a level holds headings of deeper
levels only, below each of which stands a section of its level. -/
def IsNested (level : Nat) : Outline → Prop
  | mk own parts =>
    (∀ node ∈ own, headingLevel? node = none) ∧
      (∀ node ∈ readingOf parts, endsSection level node = false) ∧ AreNested parts

def AreNested : List (Node × Outline) → Prop
  | [] => True
  | (heading, content) :: parts =>
    (∃ depth, headingLevel? heading = some depth ∧ content.IsNested depth) ∧ AreNested parts

end

mutual

/-- Every section runs up to a heading of its own level or above. -/
def IsFull : Outline → Prop
  | mk _ parts => AreFull parts

def AreFull : List (Node × Outline) → Prop
  | [] => True
  | (heading, content) :: parts =>
    content.IsFull ∧
      (∀ depth, headingLevel? heading = some depth →
        ∀ next ∈ parts.head?, endsSection depth next.1 = true) ∧
      AreFull parts

end

/-- The outline of some siblings below a base level: it reads as the siblings up to the first
heading of that level or above. -/
structure IsOf (base : Nat) (nodes : List Node) (o : Outline) : Prop where
  reading : o.reading = nodes.takeWhile fun node => !endsSection base node
  nested : o.IsNested base
  full : o.IsFull

/-! ### One outline for a reading -/

theorem head?_readingOf (parts : List (Node × Outline)) :
    (readingOf parts).head? = parts.head?.map Prod.fst := by
  cases parts <;> rfl

theorem IsNested.endsSection_eq_false {level : Nat} :
    ∀ {o : Outline}, o.IsNested level → ∀ node ∈ o.reading, endsSection level node = false
  | mk _ _, ⟨hown, hparts, _⟩, node, hnode => by
    rcases List.mem_append.mp hnode with hnode | hnode
    · exact endsSection_of_none (hown node hnode) level
    · exact hparts node hnode

/-- The parts of a section begin with a heading. -/
theorem AreNested.isSome_headingLevel? {parts : List (Node × Outline)} (h : AreNested parts) :
    ∀ node ∈ (readingOf parts).head?, (headingLevel? node).isNone = false := by
  cases parts with
  | nil => exact nofun
  | cons part parts =>
    rintro node ⟨⟩
    obtain ⟨⟨depth, hdepth, -⟩, -⟩ := h
    rw [hdepth]
    rfl

mutual

/-- Outlines in which all sections are full are known by their readings. -/
theorem eq_of_reading {level level' : Nat} :
    ∀ {o o' : Outline}, o.IsNested level → o'.IsNested level' → o.IsFull → o'.IsFull →
      o.reading = o'.reading → o = o'
  | mk own parts, mk own' parts', ⟨hown, _, hparts⟩, ⟨hown', _, hparts'⟩, hfull, hfull', h => by
    have hplain : ∀ {own : List Node}, (∀ node ∈ own, headingLevel? node = none) →
        ∀ node ∈ own, (headingLevel? node).isNone = true :=
      fun hown node hnode => Option.isNone_iff_eq_none.mpr (hown node hnode)
    obtain ⟨rfl, hreading⟩ := append_inj_of_head? h (hplain hown) hparts.isSome_headingLevel?
      (hplain hown') hparts'.isSome_headingLevel?
    rw [eq_of_readingOf hparts hparts' hfull hfull' hreading]

theorem eq_of_readingOf :
    ∀ {parts parts' : List (Node × Outline)}, AreNested parts → AreNested parts' →
      AreFull parts → AreFull parts' → readingOf parts = readingOf parts' → parts = parts'
  | [], [], _, _, _, _, _ => rfl
  | [], _ :: _, _, _, _, _, h => by cases h
  | _ :: _, [], _, _, _, _, h => by cases h
  | (heading, content) :: parts, (heading', content') :: parts', hnested, hnested', hfull, hfull',
      h => by
    obtain ⟨⟨depth, hdepth, hcontent⟩, hparts⟩ := hnested
    obtain ⟨⟨depth', hdepth', hcontent'⟩, hparts'⟩ := hnested'
    obtain ⟨hin, hnext, hrest⟩ := hfull
    obtain ⟨hin', hnext', hrest'⟩ := hfull'
    obtain ⟨rfl, htail⟩ := List.cons.inj h
    obtain rfl : depth = depth' := Option.some.inj (hdepth.symm.trans hdepth')
    -- the content ends at the first heading of the level of its own heading, or above
    have hinside : ∀ {content : Outline}, content.IsNested depth →
        ∀ node ∈ content.reading, (!endsSection depth node) = true :=
      fun hcontent node hnode => by rw [hcontent.endsSection_eq_false node hnode]; rfl
    have hends : ∀ {parts : List (Node × Outline)},
        (∀ next ∈ parts.head?, endsSection depth next.1 = true) →
        ∀ node ∈ (readingOf parts).head?, (!endsSection depth node) = false := by
      intro parts hparts node hnode
      rw [head?_readingOf] at hnode
      obtain ⟨next, hmem, rfl⟩ := Option.map_eq_some_iff.mp hnode
      rw [hparts next hmem]
      rfl
    obtain ⟨hsame, hreading⟩ := append_inj_of_head? htail (hinside hcontent)
      (hends (hnext depth hdepth)) (hinside hcontent') (hends (hnext' depth hdepth'))
    rw [eq_of_reading hcontent hcontent' hin hin' hsame,
      eq_of_readingOf hparts hparts' hrest hrest' hreading]

end

/-! ### Sections of an outline -/

mutual

/-- The section with the contents of an outline, its subsections by the titles that the headings
show. -/
def toSection : Outline → Section
  | mk own parts => .mk own (subsectionsOf parts)

def subsectionsOf : List (Node × Outline) → List (String × Section)
  | [] => []
  | (heading, content) :: parts => (titleOf heading, content.toSection) :: subsectionsOf parts

end

/-- The title of a part. -/
def titleOfPart (part : Node × Outline) : String :=
  titleOf part.1

/-- The parts with the last content of each title, in the place where the title stands first. -/
def lastParts (parts : List (Node × Outline)) : List (Node × Outline) :=
  (parts.map titleOfPart).eraseDups.filterMap fun title =>
    parts.reverse.find? fun part => titleOfPart part = title

mutual

/-- The outline without the parts that are replaced by later ones of the same title. -/
def kept : Outline → Outline
  | mk own parts => mk own (lastParts (keptOf parts))

def keptOf : List (Node × Outline) → List (Node × Outline)
  | [] => []
  | (heading, content) :: parts => (heading, content.kept) :: keptOf parts

end

mutual

/-- No two parts of one section have the same title. -/
def HasDistinctTitles : Outline → Prop
  | mk _ parts => (parts.map titleOfPart).Nodup ∧ HaveDistinctTitles parts

def HaveDistinctTitles : List (Node × Outline) → Prop
  | [] => True
  | (_, content) :: parts => content.HasDistinctTitles ∧ HaveDistinctTitles parts

end

theorem subsectionsOf_eq_map (parts : List (Node × Outline)) :
    subsectionsOf parts = parts.map fun part => (titleOfPart part, part.2.toSection) := by
  induction parts with
  | nil => rfl
  | cons part parts ih => rw [subsectionsOf, ih]; rfl

/-- Putting in subsections one after the other leaves the last one of each title. -/
theorem ofPairs_subsectionsOf (parts : List (Node × Outline)) :
    NameMap.ofPairs (subsectionsOf parts) = subsectionsOf (lastParts parts) := by
  have hlast : ∀ title, NameMap.lastPair? (subsectionsOf parts) title =
      (parts.reverse.find? fun part => titleOfPart part = title).map fun part =>
        (titleOfPart part, part.2.toSection) := by
    intro title
    rw [NameMap.lastPair?, subsectionsOf_eq_map, ← List.map_reverse, List.find?_map]
    rfl
  have htitles : (subsectionsOf parts).map Prod.fst = parts.map titleOfPart := by
    rw [subsectionsOf_eq_map, List.map_map]
    rfl
  rw [NameMap.ofPairs_eq, htitles, subsectionsOf_eq_map (lastParts parts), lastParts,
    List.map_filterMap]
  exact List.filterMap_congr fun title _ => hlast title

/-! ### Titles that are repeated -/

theorem mem_readingOf_iff {parts : List (Node × Outline)} {node : Node} :
    node ∈ readingOf parts ↔ ∃ part ∈ parts, node = part.1 ∨ node ∈ part.2.reading := by
  induction parts with
  | nil => simp [readingOf]
  | cons part parts ih => simp [readingOf, ih, or_assoc]

theorem areNested_iff {parts : List (Node × Outline)} : AreNested parts ↔ ∀ part ∈ parts,
    ∃ depth, headingLevel? part.1 = some depth ∧ part.2.IsNested depth := by
  induction parts with
  | nil => exact ⟨fun _ => nofun, fun _ => trivial⟩
  | cons part parts ih => rw [AreNested, List.forall_mem_cons, ih]

theorem lastParts_subset (parts : List (Node × Outline)) : lastParts parts ⊆ parts := by
  intro part hpart
  obtain ⟨title, -, hlast⟩ := List.mem_filterMap.mp hpart
  exact List.mem_reverse.mp (List.mem_of_find?_eq_some hlast)

theorem lastParts_eq_self {parts : List (Node × Outline)} (h : (parts.map titleOfPart).Nodup) :
    lastParts parts = parts := by
  have hlast : ∀ part ∈ parts,
      parts.reverse.find? (fun other => titleOfPart other = titleOfPart part) = some part := by
    intro part hpart
    have hfound : (parts.reverse.find? fun other => titleOfPart other = titleOfPart part).isSome :=
      List.find?_isSome.mpr ⟨part, List.mem_reverse.mpr hpart, decide_eq_true rfl⟩
    obtain ⟨other, hother⟩ := Option.isSome_iff_exists.mp hfound
    have hmem : other ∈ parts := List.mem_reverse.mp (List.mem_of_find?_eq_some hother)
    have htitle : titleOfPart other = titleOfPart part := by simpa using List.find?_some hother
    rw [hother, List.inj_on_of_nodup_map h hmem hpart htitle]
  rw [lastParts, eraseDups_eq_self h, List.filterMap_map]
  exact (List.filterMap_congr hlast).trans List.filterMap_some

mutual

/-- Nothing is left out where no title is repeated. -/
theorem HasDistinctTitles.kept_eq_self : ∀ {o : Outline}, o.HasDistinctTitles → o.kept = o
  | mk own parts, ⟨htitles, hparts⟩ => by
    rw [kept, hparts.keptOf_eq_self, lastParts_eq_self htitles]

theorem HaveDistinctTitles.keptOf_eq_self :
    ∀ {parts : List (Node × Outline)}, HaveDistinctTitles parts → keptOf parts = parts
  | [], _ => rfl
  | (heading, content) :: parts, ⟨hcontent, hparts⟩ => by
    rw [keptOf, hcontent.kept_eq_self, hparts.keptOf_eq_self]

end

theorem readingOf_subset {parts parts' : List (Node × Outline)} (h : parts ⊆ parts') :
    readingOf parts ⊆ readingOf parts' := by
  intro node hnode
  obtain ⟨part, hpart, hin⟩ := mem_readingOf_iff.mp hnode
  exact mem_readingOf_iff.mpr ⟨part, h hpart, hin⟩

mutual

theorem reading_kept_subset : ∀ o : Outline, o.kept.reading ⊆ o.reading
  | mk own parts => by
    have hlast : readingOf (lastParts (keptOf parts)) ⊆ readingOf parts :=
      List.Subset.trans (readingOf_subset (lastParts_subset _)) (readingOf_keptOf_subset parts)
    exact List.append_subset.mpr ⟨List.subset_append_left own _,
      List.Subset.trans hlast (List.subset_append_right own _)⟩

theorem readingOf_keptOf_subset :
    ∀ parts : List (Node × Outline), readingOf (keptOf parts) ⊆ readingOf parts
  | [] => List.Subset.refl _
  | (heading, content) :: parts =>
    List.cons_subset_cons heading (List.append_subset.mpr
      ⟨List.Subset.trans (reading_kept_subset content) (List.subset_append_left _ _),
        List.Subset.trans (readingOf_keptOf_subset parts) (List.subset_append_right _ _)⟩)

end

mutual

/-- What is kept is nested as before. -/
theorem IsNested.kept {level : Nat} :
    ∀ {o : Outline}, o.IsNested level → o.kept.IsNested level
  | mk own parts, ⟨hown, hdeeper, hparts⟩ => by
    have hlast := lastParts_subset (keptOf parts)
    refine ⟨hown, fun node hnode => hdeeper node ?_, ?_⟩
    · exact readingOf_keptOf_subset parts (readingOf_subset hlast hnode)
    · exact areNested_iff.mpr fun part hpart =>
        areNested_iff.mp hparts.keptOf part (hlast hpart)

theorem AreNested.keptOf :
    ∀ {parts : List (Node × Outline)}, AreNested parts → AreNested (keptOf parts)
  | [], _ => trivial
  | (_, _) :: _, ⟨⟨depth, hdepth, hcontent⟩, hparts⟩ =>
    ⟨⟨depth, hdepth, hcontent.kept⟩, hparts.keptOf⟩

end

end Outline

/-! ### Reading siblings -/

open Outline

/-- What reading siblings into a section adds to it: nodes of its own and parts, up to a heading
that ends it. -/
structure Gathers (level : Nat) (found : Section) (nodes own : List Node)
    (parts : List (Node × Outline)) (result : Section) (rest : List Node) : Prop where
  reading : nodes = own ++ readingOf parts ++ rest
  nested : (Outline.mk own parts).IsNested level
  full : AreFull parts
  stops : ∀ node ∈ rest.head?, endsSection level node = true
  result : result = .mk (found.nodes ++ own)
    (NameMap.update found.subsections (subsectionsOf (keptOf parts)))

variable {level : Nat} {found result : Section} {nodes own rest : List Node}
  {parts : List (Node × Outline)}

/-- At its end a section is as it was found. -/
theorem gathers_nothing (hstops : ∀ node ∈ nodes.head?, endsSection level node = true) :
    Gathers level found nodes [] [] found nodes where
  reading := rfl
  nested := ⟨nofun, nofun, trivial⟩
  full := trivial
  stops := hstops
  result := by
    obtain ⟨before, subsections⟩ := found
    simp [Section.nodes, Section.subsections, keptOf, subsectionsOf, NameMap.update]

/-- A node that is no heading is one of the section's own. -/
theorem Gathers.cons {node : Node} (hplain : headingLevel? node = none)
    (h : Gathers level (found.addNode node) nodes own parts result rest) :
    Gathers level found (node :: nodes) (node :: own) parts result rest where
  reading := by rw [h.reading]; rfl
  nested := ⟨List.forall_mem_cons.mpr ⟨hplain, h.nested.1⟩, h.nested.2⟩
  full := h.full
  stops := h.stops
  result := by
    rw [h.result]
    simp [Section.addNode, Section.nodes, Section.subsections]

/-- The section of a read outline. -/
theorem Gathers.result_eq_toSection
    (h : Gathers level Section.empty nodes own parts result rest) :
    result = (Outline.mk own parts).kept.toSection := by
  have hempty : NameMap.update Section.empty.subsections (subsectionsOf (keptOf parts)) =
      NameMap.ofPairs (subsectionsOf (keptOf parts)) := rfl
  rw [h.result, hempty, ofPairs_subsectionsOf, kept, toSection]
  rfl

/-- A deeper heading opens a part, and another part or nothing follows it. -/
theorem Gathers.part {heading : Node} {depth : Nat} (hdepth : headingLevel? heading = some depth)
    (hdeeper : level < depth) {sub : Section} {own' rest' : List Node}
    {parts' : List (Node × Outline)}
    (hsub : Gathers depth Section.empty nodes own parts sub rest)
    (h : Gathers level (found.addSubsection (titleOf heading) sub) rest own' parts' result rest') :
    Gathers level found (heading :: nodes) [] ((heading, .mk own parts) :: parts') result
      rest' := by
  -- what the part leaves begins with a heading, so there is no node of its own behind the part
  have hown : own' = [] := by
    cases own' with
    | nil => rfl
    | cons node own' =>
      have hends := hsub.stops node (by rw [h.reading]; rfl)
      rw [endsSection_of_none (h.nested.1 node List.mem_cons_self)] at hends
      cases hends
  subst hown
  have hhead : endsSection level heading = false := by
    rw [endsSection_of_some hdepth, decide_eq_false_iff_not]
    omega
  refine ⟨?_, ⟨nofun, ?_, ⟨⟨depth, hdepth, hsub.nested⟩, h.nested.2.2⟩⟩, ?_, h.stops, ?_⟩
  · rw [hsub.reading, h.reading]
    simp [readingOf, Outline.reading]
  · intro node hnode
    rcases List.mem_cons.mp hnode with rfl | hnode
    · exact hhead
    · rcases List.mem_append.mp hnode with hnode | hnode
      · exact endsSection_mono (Nat.le_of_lt hdeeper) (hsub.nested.endsSection_eq_false node hnode)
      · exact h.nested.2.1 node hnode
  · refine ⟨hsub.full, fun own howndepth next hnext => ?_, h.full⟩
    obtain rfl : depth = own := Option.some.inj (hdepth.symm.trans howndepth)
    refine hsub.stops next.1 ?_
    cases parts' with
    | nil => cases hnext
    | cons part parts' =>
      obtain rfl : part = next := Option.some.inj hnext
      rw [h.reading]
      rfl
  · rw [h.result, hsub.result_eq_toSection]
    obtain ⟨before, subsections⟩ := found
    simp [Section.addSubsection, Section.nodes, Section.subsections, keptOf, subsectionsOf,
      NameMap.update]

theorem exists_gathers_collect (level : Nat) (found : Section) (nodes : List Node) :
    ∃ own parts, Gathers level found nodes own parts (collect level found nodes).1
      (collect level found nodes).2.val := by
  fun_induction collect level found nodes with
  | case1 level found => exact ⟨[], [], gathers_nothing nofun⟩
  | case2 level found node nodes hplain s rest hrest hcollect ih =>
    rw [hcollect] at ih
    obtain ⟨own, parts, h⟩ := ih
    exact ⟨node :: own, parts, h.cons hplain⟩
  | case3 level found node nodes depth hdepth hends =>
    refine ⟨[], [], gathers_nothing fun first hfirst => ?_⟩
    obtain rfl := Option.some.inj hfirst
    rw [endsSection_of_some hdepth, decide_eq_true hends]
  | case4 level found node nodes depth hdepth hends sub rest _ hsub s rest' _ hcollect ihsub ih =>
    rw [hsub] at ihsub
    rw [hcollect] at ih
    obtain ⟨own, parts, hpart⟩ := ihsub
    obtain ⟨own', parts', h⟩ := ih
    exact ⟨[], _, hpart.part hdepth (Nat.lt_of_not_le hends) h⟩

/-- Siblings have exactly one outline below a base level. The section that they form has the
contents of the outline, a repeated title in its first place and with its last content. Where no
title is repeated, that is the whole outline. -/
theorem Section.ofNodes_outline (base : Nat) (nodes : List Node) :
    ∃ o : Outline, (∀ o' : Outline, o'.IsOf base nodes ↔ o' = o) ∧
      Section.ofNodes base nodes = o.kept.toSection ∧ o.kept.IsNested base ∧
      (o.HasDistinctTitles → o.kept = o) := by
  obtain ⟨own, parts, h⟩ := exists_gathers_collect base Section.empty nodes
  have hfull : (Outline.mk own parts).IsFull := h.full
  have hnodes : nodes =
      (Outline.mk own parts).reading ++ (collect base Section.empty nodes).2.val := h.reading
  have hreading :
      (Outline.mk own parts).reading = nodes.takeWhile fun node => !endsSection base node := by
    have hcut := takeWhile_append_of_head? (p := fun node => !endsSection base node)
      (fun node hnode => by rw [h.nested.endsSection_eq_false node hnode]; rfl)
      (fun node hnode => by rw [h.stops node hnode]; rfl)
    conv_rhs => rw [hnodes]
    exact hcut.symm
  refine ⟨.mk own parts, fun o' => ⟨fun ho' => ?_, ?_⟩, h.result_eq_toSection, h.nested.kept,
    HasDistinctTitles.kept_eq_self⟩
  · exact eq_of_reading ho'.nested h.nested ho'.full hfull (ho'.reading.trans hreading.symm)
  · rintro rfl
    exact ⟨hreading, h.nested, hfull⟩

/-- A heading far below its section opens a section all the same, and the second `A` replaces the
first one in its place. -/
example :
    let heading (tag title : String) := Node.element tag [] [.text title .plain]
    let note (content : String) := Node.text content .plain
    Section.ofNodes 0 [note "x", heading "h2" "A", heading "h4" "B", note "y", heading "h2" "C",
        heading "h4" "D", note "z", heading "h2" " A "] =
      .mk [note "x"] [("A", .mk [] []), ("C", .mk [] [("D", .mk [note "z"] [])])] := by
  cbv

end ScriptTypings.Markup
