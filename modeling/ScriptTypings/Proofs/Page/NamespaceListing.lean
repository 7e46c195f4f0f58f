import Mathlib.Data.List.TakeWhile
import ScriptTypings.Page.Entries
import ScriptTypings.Proofs.Markup.Outline
import ScriptTypings.Proofs.Markup.Tables
import ScriptTypings.Proofs.Text.Ascii

/-!
# The two layouts of namespace pages

A namespace page lists its members in one table for each category below the heading `Members`, or
in one combined table whose labels end with the category. `entries_space_of_layout` says that both
layouts give the same entry: the members of each category in their order.
-/

namespace ScriptTypings.Page

open Text Markup Outline

/-- The kinds of types that a namespace lists. -/
inductive Category
  | record
  | delegate
  | interface
  deriving DecidableEq

namespace Category

/-- The title above the table of a category. -/
def title : Category → String
  | record => "Structures"
  | delegate => "Delegates"
  | interface => "Interfaces"

/-- The last word of a label in a combined table. -/
def word : Category → String
  | record => "structure"
  | delegate => "delegate"
  | interface => "interface"

end Category

/-- A member of a namespace; classes, enumerations and the like are in no category. -/
structure Member where
  identifier : String
  category : Option Category

/-- The members of one category, in order. -/
def identifiersOf (category : Category) (members : List Member) : List String :=
  (members.filter fun m => m.category = some category).map Member.identifier

def listingOf (members : List Member) : NamespaceListing where
  structures := (identifiersOf .record members).map .text
  delegates := (identifiersOf .delegate members).map .text
  interfaces := (identifiersOf .interface members).map .text

/-! ### Rows -/

/-- The first link in a row is to an identifier. -/
def LinksTo (row : List Node) (identifier : String) : Prop :=
  ∃ anchor target, (row.flatMap Node.descendants).find? (Node.hasTag "a") = some anchor ∧
    anchor.filledAttribute? "href" = some target ∧ Identifier.ofLink target = identifier

/-- A table has a header, and the rows below it stand for some items; empty rows do not count. -/
def HasRows {α : Type} (describes : List Node → α → Prop) (table : Node) (items : List α) : Prop :=
  ∃ header rows, tableRows table = header :: rows ∧
    List.Forall₂ describes (rows.filter fun row => !row.isEmpty) items

def labelOf (row : List Node) : List Char :=
  ((row.head?.map Node.innerText).getD "").toList

/-- On one line, the label of a row ends with a space and the word of a category in some casing. -/
def IsLabelled (row : List Node) (category : Category) : Prop :=
  ∃ front spelled, oneLine (labelOf row) = front ++ ' ' :: spelled ∧
    lower spelled = category.word.toList

/-- A row of a combined table stands for a member. -/
structure Describes (row : List Node) (member : Member) : Prop where
  links : LinksTo row member.identifier
  label : ∀ category, IsLabelled row category ↔ member.category = some category

/-! ### Layouts -/

/-- The content of the first part whose title begins so. -/
def FirstPart (lead : String) (parts : List (Node × Outline)) (content : Outline) : Prop :=
  ∃ before heading after, parts = before ++ (heading, content) :: after ∧
    hasLead lead (titleOf heading) = true ∧
    ∀ part ∈ before, hasLead lead (titleOfPart part) = false

def NoPart (lead : String) (parts : List (Node × Outline)) : Prop :=
  ∀ part ∈ parts, hasLead lead (titleOfPart part) = false

/-- Below the heading of a category there is a table of its members; where it has none, the table
or the heading may be missing. -/
inductive IsCategorized (members : List Member) (parts : List (Node × Outline))
    (category : Category) : Prop
  | table {content : Outline} {table : Node} (first : FirstPart category.title parts content)
    (holds : HoldTable content.own table)
    (rows : HasRows LinksTo table (identifiersOf category members))
  | empty {content : Outline} (first : FirstPart category.title parts content)
    (holds : tablesAmong content.own = []) (none : identifiersOf category members = [])
  | missing (first : NoPart category.title parts) (none : identifiersOf category members = [])

/-- The members of each category stand below a heading of their own in the section `Members`, which
has no other table. -/
structure HasCategories (members : List Member) (parts : List (Node × Outline)) : Prop where
  categorized : ∃ content, FirstPart "Members" parts content ∧
    (∀ category, IsCategorized members content.parts category) ∧
    tablesAmong content.own = [] ∧ NoPart "In this section" content.parts
  uncombined : NoPart "In this section" parts

/-- The places where a combined table may stand: a section of its own, such a section among the
members, or the section of the members itself. -/
inductive IsCombined (parts : List (Node × Outline)) : Outline → Prop
  | apart {content : Outline} (first : FirstPart "In this section" parts content) :
    IsCombined parts content
  | inside {members content : Outline} (none : NoPart "In this section" parts)
    (first : FirstPart "Members" parts members)
    (second : FirstPart "In this section" members.parts content) : IsCombined parts content
  | directly {members : Outline} (none : NoPart "In this section" parts)
    (first : FirstPart "Members" parts members)
    (second : NoPart "In this section" members.parts) : IsCombined parts members

/-- One table lists all members, and no category has a table. -/
structure HasCombined (members : List Member) (parts : List (Node × Outline)) : Prop where
  combined : ∃ content table, IsCombined parts content ∧ HoldTable content.own table ∧
    HasRows Describes table members
  uncategorized : ∀ content, FirstPart "Members" parts content → ∀ (category : Category) part,
    FirstPart category.title content.parts part → tablesAmong part.own = []

/-- A page is divided by its headings into some parts. -/
structure IsDivided (page : Page) (parts : List (Node × Outline)) : Prop where
  sections : page.sections = Section.ofNodes 1 page.main.children
  outline : ∃ o : Outline, o.IsOf 1 page.main.children ∧ o.kept.parts = parts

/-! ### Sections -/

theorem subsection?_of_firstPart {lead : String} {o content : Outline}
    (h : FirstPart lead o.parts content) :
    o.toSection.subsection? lead = some content.toSection := by
  obtain ⟨own, parts⟩ := o
  obtain ⟨before, heading, after, rfl, hlead, hbefore⟩ := h
  have hnone : (subsectionsOf before).find?
      (fun entry => lead.toList.isPrefixOf entry.1.toList) = none := by
    rw [List.find?_eq_none, subsectionsOf_eq_map]
    intro entry hentry
    obtain ⟨part, hpart, rfl⟩ := List.mem_map.mp hentry
    exact Bool.eq_false_iff.mp (hbefore part hpart)
  have happend : subsectionsOf (before ++ (heading, content) :: after) =
      subsectionsOf before ++ (titleOf heading, content.toSection) :: subsectionsOf after := by
    simp only [subsectionsOf_eq_map, List.map_append, List.map_cons]
    rfl
  have hfirst : lead.toList.isPrefixOf (titleOf heading).toList = true := hlead
  rw [Section.subsection?, toSection, Section.subsections, happend, List.find?_append, hnone,
    Option.none_or]
  simp only [List.find?_cons, hfirst, Option.map_some]

theorem subsection?_of_noPart {lead : String} {o : Outline} (h : NoPart lead o.parts) :
    o.toSection.subsection? lead = none := by
  obtain ⟨own, parts⟩ := o
  rw [Section.subsection?, toSection, Section.subsections, Option.map_eq_none_iff,
    List.find?_eq_none, subsectionsOf_eq_map]
  intro entry hentry
  obtain ⟨part, hpart, rfl⟩ := List.mem_map.mp hentry
  exact Bool.eq_false_iff.mp (h part hpart)

theorem exists_firstPart_or_noPart (lead : String) (parts : List (Node × Outline)) :
    (∃ content, FirstPart lead parts content) ∨ NoPart lead parts := by
  by_cases h : ∃ part ∈ parts, hasLead lead (titleOfPart part) = true
  · obtain ⟨part, hpart⟩ := List.find?_isSome.mpr h |> Option.isSome_iff_exists.mp
    obtain ⟨hlead, before, after, rfl, hbefore⟩ := List.find?_eq_some_iff_append.mp hpart
    refine .inl ⟨part.2, before, part.1, after, rfl, hlead, fun other hother => ?_⟩
    simpa using hbefore other hother
  · exact .inr fun part hpart => Bool.eq_false_iff.mpr fun hlead => h ⟨part, hpart, hlead⟩

theorem nodes_toSection (o : Outline) : o.toSection.nodes = o.own := by
  cases o
  rfl

theorem firstTable?_of_holdTable {content : Outline} {table : Node}
    (h : HoldTable content.own table) : firstTable? content.toSection = some table :=
  firstTable?_eq_some ((nodes_toSection content).symm ▸ h)

theorem firstTable?_of_tablesAmong {content : Outline} (h : tablesAmong content.own = []) :
    firstTable? content.toSection = none :=
  firstTable?_eq_none ((nodes_toSection content).symm ▸ h)

/-! ### Rows of both kinds -/

theorem rowLink_eq_ok {row : List Node} {identifier : String} (h : LinksTo row identifier) :
    rowLink row = .ok identifier := by
  obtain ⟨anchor, target, hanchor, htarget, rfl⟩ := h
  have hfound : row.findSome? (fun cell => cell.findBelow? (Node.hasTag "a")) = some anchor := by
    rw [← hanchor, List.find?_flatMap]
    rfl
  simp only [rowLink, hfound, htarget]

theorem dataRows_of_hasRows {α : Type} {describes : List Node → α → Prop} {table : Node}
    {items : List α} (h : HasRows describes table items) :
    List.Forall₂ describes (dataRows table) items := by
  obtain ⟨header, rows, hrows, hdescribes⟩ := h
  rwa [dataRows, hrows, List.drop_one, List.tail_cons]

theorem linkedMembers_eq_ok {table : Node} {identifiers : List String}
    (h : HasRows LinksTo table identifiers) :
    linkedMembers table = .ok (identifiers.map .text) := by
  have hrows := dataRows_of_hasRows h
  clear h
  rw [linkedMembers]
  generalize dataRows table = rows at hrows ⊢
  induction hrows with
  | nil => rfl
  | cons hlinks _ ih =>
    rw [List.mapM_cons, rowLink_eq_ok hlinks, ih]
    rfl

/-- Puts a member behind those of its category. -/
def addMember (listing : NamespaceListing) (member : Member) : NamespaceListing :=
  match member.category with
  | some .record =>
    { listing with structures := listing.structures ++ [.text member.identifier] }
  | some .delegate =>
    { listing with delegates := listing.delegates ++ [.text member.identifier] }
  | some .interface =>
    { listing with interfaces := listing.interfaces ++ [.text member.identifier] }
  | none => listing

theorem endsWith_label_iff (row : List Node) (category : Category) :
    endsWith (lower (oneLine (labelOf row))) (' ' :: category.word.toList) = true ↔
      IsLabelled row category := by
  cases category <;> exact endsWith_lower_iff (by decide) (by decide)

theorem addLabelled_eq_addMember {row : List Node} {member : Member} (h : Describes row member)
    (listing : NamespaceListing) :
    addLabelled listing (row, member.identifier) = addMember listing member := by
  have hword : ∀ category : Category,
      endsWith (lower (oneLine (labelOf row))) (' ' :: category.word.toList) =
        decide (member.category = some category) := fun category => by
    rw [Bool.eq_iff_iff, endsWith_label_iff, h.label, decide_eq_true_eq]
  have hrecord := hword .record
  have hdelegate := hword .delegate
  have hinterface := hword .interface
  rw [addLabelled, addMember]
  change (if endsWith (lower (oneLine (labelOf row))) (' ' :: Category.record.word.toList) then _
    else if endsWith (lower (oneLine (labelOf row))) (' ' :: Category.delegate.word.toList) then _
    else if endsWith (lower (oneLine (labelOf row))) (' ' :: Category.interface.word.toList) then _
    else _) = _
  rw [hrecord, hdelegate, hinterface]
  rcases member.category with _ | (_ | _ | _) <;> rfl

theorem foldl_addMember (listing : NamespaceListing) (members : List Member) :
    members.foldl addMember listing =
      { structures := listing.structures ++ (listingOf members).structures
        delegates := listing.delegates ++ (listingOf members).delegates
        interfaces := listing.interfaces ++ (listingOf members).interfaces } := by
  induction members generalizing listing with
  | nil => simp [listingOf, identifiersOf]
  | cons member members ih =>
    rw [List.foldl_cons, ih, addMember]
    rcases hcategory : member.category with _ | (_ | _ | _) <;>
      simp [listingOf, identifiersOf, hcategory]

theorem mapM_rowLink {rows : List (List Node)} {members : List Member}
    (h : List.Forall₂ Describes rows members) :
    rows.mapM (fun row => do return (row, ← rowLink row)) =
      (.ok (rows.zip (members.map Member.identifier)) : Reading (List (List Node × String))) := by
  induction h with
  | nil => rfl
  | cons hdescribes _ ih =>
    rw [List.mapM_cons, rowLink_eq_ok hdescribes.links, ih]
    rfl

theorem foldl_addLabelled {rows : List (List Node)} {members : List Member}
    (h : List.Forall₂ Describes rows members) (listing : NamespaceListing) :
    (rows.zip (members.map Member.identifier)).foldl addLabelled listing =
      members.foldl addMember listing := by
  induction h generalizing listing with
  | nil => rfl
  | cons hdescribes _ ih =>
    rw [List.map_cons, List.zip_cons_cons, List.foldl_cons, addLabelled_eq_addMember hdescribes,
      ih, List.foldl_cons]

theorem combinedListing_eq_ok {table : Node} {members : List Member}
    (h : HasRows Describes table members) : combinedListing table = .ok (listingOf members) := by
  have hrows := dataRows_of_hasRows h
  rw [combinedListing, mapM_rowLink hrows]
  show Except.ok (List.foldl addLabelled {} _) = _
  rw [foldl_addLabelled hrows, foldl_addMember]
  rfl

/-! ### Pages -/

variable {members : List Member} {page : Page} {parts : List (Node × Outline)}

theorem categoryMembers_eq_ok {content : Outline} {category : Category}
    (h : IsCategorized members content.parts category) :
    ∃ found, categoryMembers content.toSection category.title = .ok found ∧
      found.getD [] = (identifiersOf category members).map .text := by
  rw [categoryMembers]
  cases h with
  | table hfirst hholds hrows =>
    rw [subsection?_of_firstPart hfirst, Option.bind_some, firstTable?_of_holdTable hholds]
    dsimp only
    rw [linkedMembers_eq_ok hrows]
    exact ⟨_, rfl, rfl⟩
  | empty hfirst hholds hnone =>
    rw [subsection?_of_firstPart hfirst, Option.bind_some, firstTable?_of_tablesAmong hholds, hnone]
    exact ⟨_, rfl, rfl⟩
  | missing hfirst hnone =>
    rw [subsection?_of_noPart hfirst, hnone]
    exact ⟨_, rfl, rfl⟩

/-- The listing of the tables of the categories, if there is any such table. -/
theorem categorizedListing_eq_ok {content : Outline}
    (h : ∀ category, IsCategorized members content.parts category) :
    categorizedListing content.toSection = .ok (some (listingOf members)) ∨
      categorizedListing content.toSection = .ok none ∧ listingOf members = {} := by
  obtain ⟨structures, hrecord, hstructures⟩ := categoryMembers_eq_ok (h .record)
  obtain ⟨delegates, hdelegate, hdelegates⟩ := categoryMembers_eq_ok (h .delegate)
  obtain ⟨interfaces, hinterface, hinterfaces⟩ := categoryMembers_eq_ok (h .interface)
  change categoryMembers content.toSection "Structures" = .ok structures at hrecord
  change categoryMembers content.toSection "Delegates" = .ok delegates at hdelegate
  change categoryMembers content.toSection "Interfaces" = .ok interfaces at hinterface
  have hlisting : categorizedListing content.toSection = .ok
      (if structures.isNone && delegates.isNone && interfaces.isNone then none
        else some (listingOf members)) := by
    rw [listingOf, ← hstructures, ← hdelegates, ← hinterfaces, categorizedListing, hrecord,
      hdelegate, hinterface]
    cases structures <;> cases delegates <;> cases interfaces <;> rfl
  rw [hlisting]
  split
  · rename_i hnone
    simp only [Bool.and_eq_true, Option.isNone_iff_eq_none] at hnone
    obtain ⟨⟨rfl, rfl⟩, rfl⟩ := hnone
    refine .inr ⟨rfl, ?_⟩
    rw [listingOf, ← hstructures, ← hdelegates, ← hinterfaces]
    rfl
  · exact .inl rfl

theorem IsDivided.exists_toSection (h : page.IsDivided parts) :
    ∃ o : Outline, page.sections = o.toSection ∧ o.parts = parts := by
  obtain ⟨hsections, o, ho, hparts⟩ := h
  obtain ⟨o', hunique, hread, -⟩ := Section.ofNodes_outline 1 page.main.children
  obtain rfl := (hunique o).mp ho
  exact ⟨o.kept, hsections.trans hread, hparts⟩

theorem namespaceListing_eq_ok {s : Markup.Section} {listing : NamespaceListing}
    (hmembers : page.sections.subsection? "Members" = some s)
    (h : categorizedListing s = .ok (some listing)) : page.namespaceListing = .ok listing := by
  rw [namespaceListing, hmembers]
  simp only [h]
  rfl

/-- Without tables for the categories, the combined table counts. -/
theorem namespaceListing_eq_combined
    (h : ∀ s, page.sections.subsection? "Members" = some s → categorizedListing s = .ok none) :
    page.namespaceListing =
      match page.combinedSection?.bind firstTable? with
      | some table => combinedListing table
      | none => .ok {} := by
  rw [namespaceListing]
  cases hmembers : page.sections.subsection? "Members" with
  | none => rfl
  | some s =>
    simp only [h s hmembers]
    rfl

theorem namespaceListing_of_hasCategories (hpage : page.IsDivided parts)
    (h : HasCategories members parts) : page.namespaceListing = .ok (listingOf members) := by
  obtain ⟨o, hsections, rfl⟩ := hpage.exists_toSection
  obtain ⟨content, hfirst, hcategories, hplain, huncombined⟩ := h.categorized
  have hmembers : page.sections.subsection? "Members" = some content.toSection :=
    hsections ▸ subsection?_of_firstPart hfirst
  have hcombined : page.sections.subsection? "In this section" = none :=
    hsections ▸ subsection?_of_noPart h.uncombined
  rcases categorizedListing_eq_ok hcategories with hlisting | ⟨hlisting, hempty⟩
  · exact namespaceListing_eq_ok hmembers hlisting
  · -- then the section of the members is searched for a combined table, which it does not have
    have hnone : page.combinedSection?.bind firstTable? = none := by
      rw [combinedSection?, hmembers, hcombined]
      dsimp only
      rw [subsection?_of_noPart huncombined, Option.getD_none, Option.bind_some,
        firstTable?_of_tablesAmong hplain]
    have huncategorized : ∀ s, page.sections.subsection? "Members" = some s →
        categorizedListing s = .ok none := by
      intro s hs
      rwa [← Option.some.inj (hmembers.symm.trans hs)]
    rw [namespaceListing_eq_combined huncategorized, hnone, hempty]

theorem combinedSection?_of_isCombined {content : Outline} {o : Outline}
    (hsections : page.sections = o.toSection) (h : IsCombined o.parts content) :
    page.combinedSection? = some content.toSection := by
  rw [combinedSection?, hsections]
  cases h with
  | apart hfirst =>
    rw [subsection?_of_firstPart hfirst]
  | inside hnone hfirst hsecond =>
    rw [subsection?_of_noPart hnone, subsection?_of_firstPart hfirst]
    dsimp only
    rw [subsection?_of_firstPart hsecond, Option.getD_some]
  | directly hnone hfirst hsecond =>
    rw [subsection?_of_noPart hnone, subsection?_of_firstPart hfirst]
    dsimp only
    rw [subsection?_of_noPart hsecond, Option.getD_none]

/-- A section of members without tables for the categories has no categorized listing. -/
theorem categorizedListing_of_tablesAmong {content : Outline}
    (h : ∀ (category : Category) part, FirstPart category.title content.parts part →
      tablesAmong part.own = []) : categorizedListing content.toSection = .ok none := by
  have hnone : ∀ category : Category,
      categoryMembers content.toSection category.title = .ok none := by
    intro category
    rw [categoryMembers]
    rcases exists_firstPart_or_noPart category.title content.parts with ⟨part, hfirst⟩ | hmissing
    · rw [subsection?_of_firstPart hfirst, Option.bind_some,
        firstTable?_of_tablesAmong (h category part hfirst)]
    · rw [subsection?_of_noPart hmissing]
      rfl
  have hrecord : categoryMembers content.toSection "Structures" = .ok none := hnone .record
  have hdelegate : categoryMembers content.toSection "Delegates" = .ok none := hnone .delegate
  have hinterface : categoryMembers content.toSection "Interfaces" = .ok none := hnone .interface
  rw [categorizedListing, hrecord, hdelegate, hinterface]
  rfl

theorem namespaceListing_of_hasCombined (hpage : page.IsDivided parts)
    (h : HasCombined members parts) : page.namespaceListing = .ok (listingOf members) := by
  obtain ⟨o, hsections, rfl⟩ := hpage.exists_toSection
  obtain ⟨content, table, hcombined, hholds, hrows⟩ := h.combined
  have htable : page.combinedSection?.bind firstTable? = some table := by
    rw [combinedSection?_of_isCombined hsections hcombined, Option.bind_some,
      firstTable?_of_holdTable hholds]
  have huncategorized : ∀ s, page.sections.subsection? "Members" = some s →
      categorizedListing s = .ok none := by
    intro s hs
    rw [hsections] at hs
    rcases exists_firstPart_or_noPart "Members" o.parts with ⟨part, hfirst⟩ | hmissing
    · rw [subsection?_of_firstPart hfirst] at hs
      rw [← Option.some.inj hs]
      exact categorizedListing_of_tablesAmong (h.uncategorized part hfirst)
    · rw [subsection?_of_noPart hmissing] at hs
      cases hs
  rw [namespaceListing_eq_combined huncategorized, htable]
  exact combinedListing_eq_ok hrows

/-- In either layout, the entry of a namespace page lists the members of each category in their
order. -/
theorem entries_space_of_layout (hpage : page.IsDivided parts)
    (hlayout : HasCategories members parts ∨ HasCombined members parts) :
    page.entries .space =
      .ok (page.own (firstParagraph page.main) (.space (listingOf members))) := by
  have hlisting : page.namespaceListing = .ok (listingOf members) :=
    hlayout.elim (namespaceListing_of_hasCategories hpage) (namespaceListing_of_hasCombined hpage)
  rw [entries, namespaceEntries, hlisting]
  rfl

/-- A page that is divided in a given way. -/
def samplePage (o : Outline) : Page :=
  { title := "N namespace", identifier := "N", main := .element "div" [] o.reading,
    sections := .ofNodes 1 o.reading, language := "JavaScript" }

theorem isDivided_samplePage {o : Outline} (hnested : o.IsNested 1) (hfull : o.IsFull)
    (htitles : o.HasDistinctTitles) : (samplePage o).IsDivided o.parts := by
  have hinside : ∀ node ∈ o.reading, (!endsSection 1 node) = true :=
    fun node hnode => by rw [hnested.endsSection_eq_false node hnode]; rfl
  have hreading : o.reading.takeWhile (fun node => !endsSection 1 node) = o.reading :=
    List.takeWhile_eq_self_iff.mpr hinside
  exact ⟨rfl, o, ⟨hreading.symm, hnested, hfull⟩, congrArg Outline.parts htitles.kept_eq_self⟩

def sampleHeading (tag title : String) : Node :=
  .element tag [] [.text title .plain]

/-- A cell with a label that links to an identifier. -/
def sampleCell (link : String × String) : Node :=
  .element "td" [] [.element "a" [("href", link.1)] [.text link.2 .plain]]

/-- A table with an empty header and such cells. -/
def sampleTable (links : List (String × String)) : Node :=
  .element "table" []
    (.element "tr" [] [] :: links.map fun link => .element "tr" [] [sampleCell link])

theorem tableRows_sampleTable (links : List (String × String)) :
    tableRows (sampleTable links) = [] :: links.map fun link => [sampleCell link] := by
  have hrows : rowsAmong (links.map fun link => .element "tr" [] [sampleCell link]) =
      links.map fun link => .element "tr" [] [sampleCell link] := by
    induction links with
    | nil => rfl
    | cons link links ih =>
      rw [List.map_cons, rowsAmong, ih]
      rfl
  have hall : rowsAmong (sampleTable links).children =
      .element "tr" [] [] :: links.map fun link => .element "tr" [] [sampleCell link] := by
    show rowsAmong (.element "tr" [] [] :: links.map _) = _
    rw [rowsAmong, hrows]
    rfl
  rw [tableRows, hall, List.map_cons, List.map_map]
  rfl

theorem linksTo_sampleCell {target identifier : String} (h : target ≠ "") (label : String)
    (hlink : Identifier.ofLink target = identifier) :
    LinksTo [sampleCell (target, label)] identifier :=
  ⟨_, target, rfl, by simp [Node.filledAttribute?, Node.attribute?, NameMap.find?, h], hlink⟩

def sampleMembers : List Member :=
  [⟨"N.Uri", none⟩, ⟨"N.Point", some .record⟩]

/-- A table of classes, and one of structures. -/
def categorizedMembers : Outline :=
  .mk [] [(sampleHeading "h3" "Classes", .mk [sampleTable [("N.Uri", "Uri")]] []),
    (sampleHeading "h3" "Structures", .mk [sampleTable [("N.Point", "Point")]] [])]

def categorizedOutline : Outline :=
  .mk [] [(sampleHeading "h2" "Members", categorizedMembers)]

/-- One table of both. -/
def combinedOutline : Outline :=
  .mk [] [(sampleHeading "h2" "In this section",
    .mk [sampleTable [("N.Uri", "Uri class"), ("N.Point", "Point \n STRUCTURE")]] [])]

theorem isDivided_categorizedOutline :
    (samplePage categorizedOutline).IsDivided categorizedOutline.parts := by
  have hplain : ∀ links, ∀ node ∈ [sampleTable links], headingLevel? node = none :=
    fun _ => List.forall_mem_singleton.mpr rfl
  have hinside : ∀ node ∈ categorizedMembers.reading, endsSection 2 node = false := by
    have hall : categorizedMembers.reading.all (fun node => !endsSection 2 node) = true := rfl
    simpa using hall
  have hmembers : categorizedMembers.IsNested 2 :=
    ⟨nofun, hinside, ⟨3, rfl, hplain _, nofun, trivial⟩, ⟨3, rfl, hplain _, nofun, trivial⟩,
      trivial⟩
  have hnext : ∀ depth, headingLevel? (sampleHeading "h3" "Classes") = some depth →
      ∀ next ∈ categorizedMembers.parts.tail.head?, endsSection depth next.1 = true := by
    intro depth hdepth next hnext
    obtain rfl : 3 = depth := Option.some.inj hdepth
    obtain rfl := Option.some.inj hnext
    rfl
  have hdeeper : ∀ node ∈ categorizedOutline.reading, endsSection 1 node = false := by
    have hall : categorizedOutline.reading.all (fun node => !endsSection 1 node) = true := rfl
    simpa using hall
  refine isDivided_samplePage ⟨nofun, hdeeper, ⟨2, rfl, hmembers⟩, trivial⟩ ?_ ?_
  · exact ⟨⟨trivial, hnext, trivial, fun _ _ => nofun, trivial⟩, fun _ _ => nofun, trivial⟩
  · exact ⟨List.nodup_singleton _, ⟨by decide, ⟨List.nodup_nil, trivial⟩,
      ⟨List.nodup_nil, trivial⟩, trivial⟩, trivial⟩

theorem hasCategories_sampleMembers : HasCategories sampleMembers categorizedOutline.parts := by
  have hmissing : ∀ lead, hasLead lead "Classes" = false → hasLead lead "Structures" = false →
      NoPart lead categorizedMembers.parts := fun lead hclasses hstructures =>
    List.forall_mem_cons.mpr ⟨hclasses, List.forall_mem_singleton.mpr hstructures⟩
  have hpoint : LinksTo [sampleCell ("N.Point", "Point")] "N.Point" :=
    linksTo_sampleCell (by decide) _ (by decide +kernel)
  refine ⟨⟨categorizedMembers, ⟨[], _, [], rfl, rfl, nofun⟩, fun category => ?_, rfl,
    hmissing _ rfl rfl⟩, List.forall_mem_singleton.mpr rfl⟩
  cases category with
  | record =>
    exact .table ⟨[_], _, [], rfl, rfl, List.forall_mem_singleton.mpr rfl⟩
      (holdTable_singleton rfl) ⟨[], _, tableRows_sampleTable _, .cons hpoint .nil⟩
  | delegate => exact .missing (hmissing _ rfl rfl) rfl
  | interface => exact .missing (hmissing _ rfl rfl) rfl

theorem hasCombined_sampleMembers : HasCombined sampleMembers combinedOutline.parts := by
  have huri : Describes [sampleCell ("N.Uri", "Uri class")] ⟨"N.Uri", none⟩ := by
    refine ⟨linksTo_sampleCell (by decide) _ (by decide +kernel), fun category => ?_⟩
    rw [← endsWith_label_iff]
    cases category <;> decide +kernel
  have hpoint : Describes [sampleCell ("N.Point", "Point \n STRUCTURE")]
      ⟨"N.Point", some .record⟩ := by
    refine ⟨linksTo_sampleCell (by decide) _ (by decide +kernel), fun category => ?_⟩
    rw [← endsWith_label_iff]
    cases category <;> decide +kernel
  have hmembers : NoPart "Members" combinedOutline.parts := List.forall_mem_singleton.mpr rfl
  refine ⟨⟨_, _, .apart ⟨[], _, [], rfl, rfl, nofun⟩, holdTable_singleton rfl, [], _,
    tableRows_sampleTable _, .cons huri (.cons hpoint .nil)⟩, fun content hfirst => ?_⟩
  obtain ⟨before, heading, after, hparts, hlead, -⟩ := hfirst
  have hnone := hmembers (heading, content)
    (hparts ▸ List.mem_append_right _ List.mem_cons_self)
  exact absurd hlead (Bool.eq_false_iff.mp hnone)

/-- Both layouts of the same members. -/
theorem entries_space_of_layout_point :
    (samplePage categorizedOutline).entries .space = .ok ((samplePage categorizedOutline).own ""
      (.space { structures := [.text "N.Point"] })) ∧
    (samplePage combinedOutline).entries .space = .ok ((samplePage combinedOutline).own ""
      (.space { structures := [.text "N.Point"] })) := by
  have hinside : ∀ node ∈ combinedOutline.reading, endsSection 1 node = false := by
    have hall : combinedOutline.reading.all (fun node => !endsSection 1 node) = true := rfl
    simpa using hall
  have hcombined : (samplePage combinedOutline).IsDivided combinedOutline.parts :=
    isDivided_samplePage
      ⟨nofun, hinside, ⟨2, rfl, List.forall_mem_singleton.mpr rfl, nofun, trivial⟩, trivial⟩
      ⟨trivial, fun _ _ => nofun, trivial⟩
      ⟨List.nodup_singleton _, ⟨List.nodup_nil, trivial⟩, trivial⟩
  exact ⟨entries_space_of_layout isDivided_categorizedOutline (.inl hasCategories_sampleMembers),
    entries_space_of_layout hcombined (.inr hasCombined_sampleMembers)⟩

end ScriptTypings.Page
