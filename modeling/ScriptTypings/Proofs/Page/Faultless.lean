import ScriptTypings.Proofs.Page.FaultlessParts
import ScriptTypings.Proofs.Reading

/-!
# No lookup fails

Reading a page without asking gives what reading it safely gives: every lookup stands behind a test
that keeps it from failing. So no page causes a fault, and the signal that a type has no spelling
goes no further than the page.
-/

namespace ScriptTypings.Unguarded

open Text Markup

/-! ### Kinds of pages -/

theorem classEntries_eq (isAttribute : Bool) (page : Page) (description : String) :
    classEntries isAttribute page description =
      lift (page.classEntries description isAttribute) := by
  rw [classEntries, Page.classEntries, snippets_eq, lift_bind]
  congr 1
  funext found
  rw [bases_eq]
  rfl

/-- The row of a member of an enumeration. -/
theorem enumerationMember_eq (page : Page) (row : List Node) :
    enumerationMember page row = .ok (page.enumerationMember row) := by
  cases row with
  | nil => rfl
  | cons cell rest =>
    rw [enumerationMember, Page.enumerationMember]
    simp only [List.isEmpty_cons, Bool.false_eq_true, if_false, item_zero, ok_bind, textAt_eq,
      List.head?_cons, Option.map_some]
    match Page.emphasised cell with
    | [] => rfl
    | [_] => rfl
    | first :: second :: names =>
      have hlength : ¬ (first :: second :: names).length < 2 := by simp
      simp only [if_neg hlength, item_one, ok_bind]
      rfl

theorem enumerationEntries_eq (page : Page) (description : String) :
    enumerationEntries page description = lift (page.enumerationEntries description) := by
  rw [enumerationEntries, Page.enumerationEntries, firstTable_eq, ok_bind]
  cases (page.sections.subsection? "Members").bind firstTable? with
  | none => rfl
  | some table =>
    have hall : ∀ rows : List (List Node),
        rows.mapM (enumerationMember page) = .ok (rows.map page.enumerationMember) := by
      intro rows
      induction rows with
      | nil => rfl
      | cons row rows ih =>
        rw [List.mapM_cons, enumerationMember_eq, ih]
        rfl
    have hempty : ∀ rows : List (List Node), (rows.map page.enumerationMember).filterMap id =
        (rows.filter fun row => !row.isEmpty).filterMap page.enumerationMember := by
      intro rows
      rw [List.filterMap_map, List.filterMap_filter]
      congr 1
      funext row
      cases row <;> rfl
    show (do
      let members ← ((← matrix (some table)).drop 1).mapM (enumerationMember page)
      return page.own description .enumeration ++ members.filterMap id) = _
    rw [matrix, asked_some, ok_bind, pure_bind, hall, ok_bind, hempty]
    rfl

/-! ### Namespaces -/

/-- The lists of a listing by category. -/
def byCategory (listing : NamespaceListing) : NameMap (List Json) :=
  [("Structures", listing.structures), ("Delegates", listing.delegates),
    ("Interfaces", listing.interfaces)]

theorem addLabelled_eq (listing : NamespaceListing) {row : List Node × String}
    (hrow : row.1.isEmpty = false) :
    addLabelled (byCategory listing) row = .ok (byCategory (Page.addLabelled listing row)) := by
  obtain ⟨cells, id⟩ := row
  cases cells with
  | nil => cases hrow
  | cons cell rest =>
    rw [addLabelled, Page.addLabelled]
    simp only [item_zero, ok_bind, labelEndings, List.find?_cons, List.head?_cons, Option.map_some,
      Option.getD_some]
    by_cases hstructure :
        endsWith (lower (oneLine cell.innerText.toList)) " structure".toList = true
    · simp only [hstructure, if_true]
      rfl
    · by_cases hdelegate :
          endsWith (lower (oneLine cell.innerText.toList)) " delegate".toList = true
      · simp only [hstructure, hdelegate, if_true]
        rfl
      · by_cases hinterface :
            endsWith (lower (oneLine cell.innerText.toList)) " interface".toList = true
        · simp only [hstructure, hdelegate, hinterface, if_true]
          rfl
        · simp only [hstructure, hdelegate, hinterface]
          rfl

theorem foldlM_addLabelled (listing : NamespaceListing) {rows : List (List Node × String)}
    (hrows : ∀ row ∈ rows, row.1.isEmpty = false) :
    rows.foldlM addLabelled (byCategory listing) =
      .ok (byCategory (rows.foldl Page.addLabelled listing)) := by
  induction rows generalizing listing with
  | nil => rfl
  | cons row rows ih =>
    rw [List.foldlM_cons, addLabelled_eq listing (hrows row List.mem_cons_self), ok_bind]
    exact ih _ fun row hrow => hrows row (List.mem_cons_of_mem _ hrow)

theorem combined_eq (table : Node) :
    (rowLinks (some table) >>= fun rows => rows.foldlM addLabelled (byCategory {})) =
      lift (byCategory <$> Page.combinedListing table) := by
  have hrows : Gives ((Page.dataRows table).mapM fun row => do return (row, ← Page.rowLink row))
      fun rows => ∀ row ∈ rows, row.1.isEmpty = false := by
    apply Gives.mapM
    intro row hrow
    have hcells : row.isEmpty = false := by simpa using (List.mem_filter.mp hrow).2
    exact (Gives.anything (Page.rowLink row)).bind fun id _ => Gives.ok hcells
  -- the label is looked up in the first cell, so that it matters that no row is empty
  rw [rowLinks_eq, Page.combinedListing]
  cases hread : (Page.dataRows table).mapM fun row => do return (row, ← Page.rowLink row) with
  | error r => cases r <;> rfl
  | ok rows => exact foldlM_addLabelled {} (hrows rows hread)

/-- What a category adds to a map that has a list for it: nothing if it has no table. -/
def withListed (found : NameMap (List Json) × Bool) (category : String) (before : List Json) :
    Option (List Json) → NameMap (List Json) × Bool
  | none => found
  | some listed => (NameMap.put category (before ++ listed) found.1, true)

theorem addCategory_eq (members : Markup.Section) {found : NameMap (List Json) × Bool}
    {category : String} {before : List Json}
    (hbefore : NameMap.find? category found.1 = some before) :
    addCategory (some members) found category =
      lift (withListed found category before <$> Page.categoryMembers members category) := by
  rw [addCategory, Page.categoryMembers, asked_some, ok_bind, firstTable_eq, ok_bind,
    entry_of_find? hbefore]
  cases (members.subsection? category).bind firstTable? with
  | none => rfl
  | some table =>
    have hlinked : (rowLinks (some table) >>= fun rows =>
        pure (withListed found category before (some (rows.map fun row => .text row.2)))) =
        lift (Page.linkedMembers table) >>= fun listed =>
          pure (withListed found category before (some listed)) := by
      rw [← linkedMembers_eq, bind_assoc]
      rfl
    refine hlinked.trans ?_
    show _ = lift (withListed found category before <$> some <$> Page.linkedMembers table)
    cases Page.linkedMembers table with
    | ok listed => rfl
    | error r => cases r <;> rfl

/-- Going through the categories gives the listing got from one table for each of them. -/
theorem foldlM_addCategory (members : Markup.Section) :
    categories.foldlM (addCategory (some members)) (byCategory {}, false) =
      lift ((fun listing => (byCategory (listing.getD {}), listing.isSome)) <$>
        Page.categorizedListing members) := by
  -- each category finds its own list, which is empty until it is added to
  have hstructures : NameMap.find? "Structures" (byCategory {}) = some [] := rfl
  rw [Page.categorizedListing, categories, List.foldlM_cons, addCategory_eq members hstructures]
  cases Page.categoryMembers members "Structures" with
  | error r => cases r <;> rfl
  | ok structures =>
    have hdelegates : NameMap.find? "Delegates"
        (withListed (byCategory {}, false) "Structures" [] structures).1 = some [] := by
      cases structures <;> rfl
    show List.foldlM (addCategory (some members))
      (withListed (byCategory {}, false) "Structures" [] structures) ["Delegates", "Interfaces"] = _
    rw [List.foldlM_cons, addCategory_eq members hdelegates]
    cases Page.categoryMembers members "Delegates" with
    | error r => cases r <;> rfl
    | ok delegates =>
      have hinterfaces : NameMap.find? "Interfaces"
          (withListed (withListed (byCategory {}, false) "Structures" [] structures) "Delegates" []
            delegates).1 = some [] := by
        cases structures <;> cases delegates <;> rfl
      show List.foldlM (addCategory (some members))
        (withListed (withListed (byCategory {}, false) "Structures" [] structures) "Delegates" []
          delegates) ["Interfaces"] = _
      rw [List.foldlM_cons, addCategory_eq members hinterfaces]
      cases Page.categoryMembers members "Interfaces" with
      | error r => cases r <;> rfl
      | ok interfaces => cases structures <;> cases delegates <;> cases interfaces <;> rfl

/-- The listing got from the combined table that a section may hold. -/
def combinedListing (s : Option Markup.Section) : Page.Reading NamespaceListing :=
  match s.bind firstTable? with
  | some table => Page.combinedListing table
  | none => return {}

theorem addCombined_eq (page : Page) :
    addCombined page (page.sections.subsection? "Members") (byCategory {}) =
      lift (byCategory <$> combinedListing page.combinedSection?) := by
  have htable : ∀ s : Option Markup.Section,
      (do
        let table ← firstTable s
        if table.isNone then return byCategory {}
        (← rowLinks table).foldlM addLabelled (byCategory {})) =
      lift (byCategory <$> combinedListing s) := by
    intro s
    rw [firstTable_eq, ok_bind, combinedListing]
    cases s.bind firstTable? with
    | none => rfl
    | some table => exact combined_eq table
  rw [addCombined, Page.combinedSection?]
  cases page.sections.subsection? "In this section" with
  | some combined => exact htable (some combined)
  | none =>
    cases page.sections.subsection? "Members" with
    | none => exact htable none
    | some members => exact htable (some _)

/-- The listing that a map of lists by category stands for. -/
theorem listing_byCategory (x : Page.Reading NamespaceListing) :
    (lift (byCategory <$> x) >>= fun found => do
      return ({ structures := ← entry "Structures" found, delegates := ← entry "Delegates" found,
                interfaces := ← entry "Interfaces" found } : NamespaceListing)) = lift x := by
  cases x with
  | ok listing => rfl
  | error r => cases r <;> rfl

theorem namespaceListing_eq (page : Page) :
    namespaceListing page = lift page.namespaceListing := by
  have hcombined := addCombined_eq page
  rw [namespaceListing, Page.namespaceListing]
  cases hmembers : page.sections.subsection? "Members" with
  | none =>
    rw [hmembers] at hcombined
    refine Eq.trans ?_ (listing_byCategory (combinedListing page.combinedSection?))
    rw [← hcombined]
    rfl
  | some members =>
    rw [hmembers] at hcombined
    have hcategories := foldlM_addCategory members
    simp only [Option.isSome_some, if_true]
    show (categories.foldlM (addCategory (some members)) (byCategory {}, false) >>= _) = _
    rw [hcategories]
    cases Page.categorizedListing members with
    | error r => cases r <;> rfl
    | ok categorized =>
      cases categorized with
      | some listing => rfl
      | none =>
        -- no category has a table, so the lists are empty still when the combined table is read
        refine Eq.trans ?_ (listing_byCategory (combinedListing page.combinedSection?))
        rw [← hcombined]
        rfl

/-! ### Properties, functions and events -/

theorem propertyEntries_eq (page : Page) (description : String) :
    propertyEntries page description = lift (page.propertyEntries description) := by
  rw [propertyEntries, Page.propertyEntries, Page.elementAfter?]
  obtain ⟨hheading, hfollowing⟩ | ⟨node, nodes, hheading, hfollowing⟩ :=
    heading_cases page "Property value"
  · rw [hheading, hfollowing]
    rfl
  · rw [hheading, hfollowing]
    simp only [List.isEmpty_cons, Bool.false_eq_true, if_false, next_cons, ok_bind, firstElement?,
      ← List.head?_filter, Option.bind_some]
    cases nodes.filter Node.isElement with
    | nil => rfl
    | cons container following =>
      simp only [List.head?_cons, typeIn_eq, lift_bind]
      rfl

theorem delegateEntries_eq (page : Page) (description : String) :
    delegateEntries page description = lift (page.delegateEntries description) := by
  rw [delegateEntries, Page.delegateEntries, parameters_eq, lift_bind]
  rfl

theorem constructorEntries_eq (page : Page) (description : String) :
    constructorEntries page description = lift (page.constructorEntries description) := by
  rw [constructorEntries, Page.constructorEntries, Page.constructorIdentifier]
  cases splitAt? ".#ctor".toList (lower page.identifier.toList) with
  | none => rfl
  | some cut =>
    simp only [parameters_eq, snippets_eq, lift_bind]
    rfl

theorem returnValue_eq (page : Page) : returnValue page = lift page.returnValue := by
  rw [returnValue, Page.returnValue]
  obtain ⟨hheading, hfollowing⟩ | ⟨node, nodes, hheading, hfollowing⟩ :=
    heading_cases page "Return value"
  · rw [hheading, hfollowing]
    rfl
  · rw [hheading, hfollowing]
    simp only [List.isEmpty_cons, Bool.false_eq_true, if_false, next_cons, ok_bind]
    cases nodes.filter Node.isElement with
    | nil => rfl
    | cons element following =>
      simp only [isAt_cons, ok_bind, List.head?_cons, asked_some, next_cons]
      cases element.hasTag "p" with
      | false => rfl
      | true =>
        cases TypeSpelling.typeLead.isPrefixOf (trimStart element.innerText.toList) with
        | false => rfl
        | true =>
          simp only [typeIn_eq, Bool.not_true, Bool.false_eq_true, if_false]
          cases page.typeIn element with
          | error r => cases r <;> rfl
          | ok typeName =>
            cases following with
            | nil => rfl
            | cons next following =>
              simp only [lift_ok, ok_bind, isAt_cons, List.head?_cons, asked_some]
              cases next.hasTag "p" <;> rfl

theorem methodEntries_eq (page : Page) (description : String) :
    methodEntries page description = lift (page.methodEntries description) := by
  rw [methodEntries, Page.methodEntries, snippets_eq, parameters_eq, returnValue_eq]
  simp only [lift_bind]
  rfl

/-- The second cell of the only row of a table. -/
theorem eventTypeCell_eq (page : Page) : eventTypeCell page = lift page.eventTypeCell := by
  rw [eventTypeCell, Page.eventTypeCell, Page.elementAfter?]
  obtain ⟨hheading, hfollowing⟩ | ⟨node, nodes, hheading, hfollowing⟩ :=
    heading_cases page "Event information"
  · rw [hheading, hfollowing]
    rfl
  · rw [hheading, hfollowing]
    simp only [List.isEmpty_cons, Bool.false_eq_true, if_false, next_cons, ok_bind, firstElement?,
      ← List.head?_filter, Option.bind_some]
    cases nodes.filter Node.isElement with
    | nil => rfl
    | cons table following =>
      simp only [isAt_cons, ok_bind, List.head?_cons]
      cases table.hasTag "table" with
      | false => rfl
      | true =>
        simp only [Bool.not_true, refuse_false, ok_bind, matrix, asked_some, pure_bind, if_true]
        -- no row, or one of no cell, one cell or more, and other rows behind it or none
        rcases tableRows table with _ | ⟨_ | ⟨_, _ | ⟨cell, cells⟩⟩, _ | ⟨row, rows⟩⟩ <;> rfl

theorem eventEntries_eq (page : Page) (description : String) :
    eventEntries page description = lift (page.eventEntries description) := by
  rw [eventEntries, Page.eventEntries, snippets_eq, lift_bind]
  congr 1
  funext found
  cases NameMap.find? page.language found with
  | none => rfl
  | some code =>
    simp only [Option.isNone_some, refuse_false, given_some, ok_bind, eventTypeCell_eq]
    cases EventSyntax.isComplete code with
    | false => rfl
    | true =>
      simp only [Bool.not_true, refuse_false, ok_bind, if_true, spelling_eq, lift_bind, lift_check]
      congr 1
      funext cell
      congr 1
      funext spelled
      rw [Page.handlerIdentifier]
      cases page.spelling? spelled with
      | none => rfl
      | some handler =>
        cases Identifier.mapLast? (fun name => 'o' :: 'n' :: name) page.identifier <;> rfl

theorem fieldOf_eq (page : Page) (row : List Node) :
    fieldOf page row = lift (page.fieldOf row) := by
  rcases row with _ | ⟨nameCell, _ | ⟨typeCell, _ | ⟨descriptionCell, rest⟩⟩⟩
  · rfl
  · rfl
  · rfl
  · rw [fieldOf, Page.fieldOf]
    have hlength :
        decide ((nameCell :: typeCell :: descriptionCell :: rest).length < 3) = false := by
      simp
    simp only [hlength, refuse_false, item_zero, item_one, item_two, ok_bind]
    rcases Page.emphasised nameCell with
      _ | ⟨otherName, _ | ⟨scriptName, _ | ⟨third, names⟩⟩⟩
    · rfl
    · rfl
    · have hcount : decide ([otherName, scriptName].length ≠ 2) = false := rfl
      simp only [hcount, refuse_false, item_one, ok_bind, spelling_eq, lift_bind, lift_check]
      congr 1
      funext spelled
      cases page.spelling? spelled <;> rfl
    · have hcount : decide ((otherName :: scriptName :: third :: names).length ≠ 2) = true := by
        simp
      rw [hcount]
      rfl

/-- The fields in the first table of a section. -/
theorem tableFields_eq (page : Page) (description : String) (s : Markup.Section) :
    (do
      let table ← firstTable (some s)
      if table.isNone then return page.own description (.record [])
      let found ← ((← matrix table).drop 1).mapM (fieldOf page)
      return page.own description (.record (found.filterMap id))) =
    lift (match firstTable? s with
      | none => return page.own description (.record [])
      | some table => do
        let fields ← ((tableRows table).drop 1).mapM page.fieldOf
        return page.own description (.record (fields.filterMap id))) := by
  have hfield : fieldOf page = fun row => lift (page.fieldOf row) := funext (fieldOf_eq page)
  rw [firstTable_eq, ok_bind, Option.bind_some, hfield]
  cases firstTable? s with
  | none => rfl
  | some table =>
    simp only [lift_bind, lift_mapM]
    rfl

theorem recordEntries_eq (page : Page) (description : String) :
    recordEntries page description = lift (page.recordEntries description) := by
  rw [recordEntries, Page.recordEntries]
  cases page.sections.subsection? "Members" with
  | none => rfl
  | some members =>
    simp only [Option.isNone_some, refuse_false, ok_bind, asked_some]
    -- the fields stand in a section of their own, or among the members
    cases members.subsection? "Fields" with
    | none => exact tableFields_eq page description members
    | some fields => exact tableFields_eq page description fields

theorem interfaceEntries_eq (page : Page) (description : String) :
    interfaceEntries page description = lift (page.interfaceEntries description) := by
  rw [interfaceEntries, Page.interfaceEntries, snippets_eq]
  simp only [lift_bind, bases_eq, ok_bind, membersOf_eq, lift_map, bind_map_left]
  rfl

theorem readingOf_eq {kind : PageKind} (h : kind ≠ .overview) (page : Page) :
    (readingOf kind >>= fun reading => reading page (Page.firstParagraph page.main)) =
      lift (page.entries kind) := by
  cases kind with
  | overview => exact absurd rfl h
  | cls => exact classEntries_eq false page _
  | attributeType => exact classEntries_eq true page _
  | enumeration => exact enumerationEntries_eq page _
  | space =>
    show namespaceEntries page _ = lift (page.namespaceEntries _)
    rw [namespaceEntries, Page.namespaceEntries, namespaceListing_eq, lift_bind]
    rfl
  | property => exact propertyEntries_eq page _
  | delegate => exact delegateEntries_eq page _
  | constructor => exact constructorEntries_eq page _
  | method => exact methodEntries_eq page _
  | event => exact eventEntries_eq page _
  | record => exact recordEntries_eq page _
  | interface => exact interfaceEntries_eq page _

/-! ### Whole pages -/

/-- What a read page gives. -/
def Parsed.of (document : Document) : Parsed :=
  match document.outcome with
  | .entries entries => { title := document.title, kind? := document.kind, entries }
  | .skipped reason => { title := document.title, kind? := document.kind, skip? := some reason }

/-- A page that is read as a document, or refused, as a run. -/
def liftDocument : Except PageError Document → Run Parsed
  | .ok document => .ok (.of document)
  | .error e => fail e

theorem sectionsOf_eq (main : Node) : sectionsOf main = .ok (Section.ofNodes 1 main.children) := by
  rw [sectionsOf]
  cases main.children with
  | nil =>
    rw [Section.ofNodes, collect]
    rfl
  | cons first rest => rfl

theorem readParts_eq (options : DocumentOptions) (page : Node) (identifier : String) :
    readParts options page identifier = liftDocument (Document.read options page identifier) := by
  rw [readParts, Document.read]
  cases page.findBelow? Document.isTitleFrame with
  | none => rfl
  | some frame =>
    cases page.findBelow? Document.isMainPart with
    | none => rfl
    | some main =>
      simp only [Option.isNone_some, Bool.or_false, refuse_false, ok_bind, asked_some]
      cases PageKind.ofTitle (trimmed frame.innerText) with
      | error e => rfl
      | ok kind =>
        by_cases hkind : kind = .overview
        · obtain rfl := hkind
          rfl
        · simp only [ok_bind, hkind, if_false]
          have hentries : (readingOf kind >>= fun reading => reading
              { title := trimmed frame.innerText, identifier, main,
                sections := Section.ofNodes 1 main.children, language := options.language }
              (Page.firstParagraph main)) = lift (Page.entries
              { title := trimmed frame.innerText, identifier, main,
                sections := Section.ofNodes 1 main.children, language := options.language } kind) :=
            readingOf_eq hkind _
          rw [pure_bind, if_neg hkind, sectionsOf_eq, ok_bind, hentries]
          cases Page.entries
              { title := trimmed frame.innerText, identifier, main,
                sections := Section.ofNodes 1 main.children,
                language := options.language } kind with
          | ok found => rfl
          | error r => cases r <;> rfl

theorem pageTitle_eq (page : Node) :
    pageTitle page =
      .ok (((page.findBelow? (Node.hasTag "title")).map fun t => trimmed t.innerText).getD "") := by
  rw [pageTitle]
  cases page.findBelow? (Node.hasTag "title") <;> rfl

theorem parse_eq (options : DocumentOptions) (page : Node) :
    parse options page = liftDocument (Document.ofPage options page) := by
  rw [parse, Document.ofPage, Document.helpId?, pageTitle_eq, ok_bind]
  cases page.findBelow? (Document.isMeta "Microsoft.Help.Id") with
  | none => rfl
  | some identified =>
    have hlacks : lacks "content" (some identified) =
        .ok (identified.filledAttribute? "content").isNone := rfl
    simp only [hlacks, ok_bind, asked_some, Option.bind_some]
    cases hvalue : identified.filledAttribute? "content" with
    | none => rfl
    | some rawId =>
      simp only [Option.isNone_some, Bool.false_eq_true, if_false, valueOf_of_filled hvalue,
        ok_bind]
      cases Document.identifier? options.root rawId with
      | none => rfl
      | some identifier =>
        dsimp only
        split
        · rfl
        · split
          · rfl
          · exact readParts_eq options page identifier

/-- Reading a page without asking is reading it safely: it gives entries, or a reason to skip the
page and no entries, or it is refused because the page differs from its template. No lookup fails,
and no signal that a type has no spelling is left over. -/
theorem parse_faultless (options : DocumentOptions) (page : Node) :
    parse options page = liftDocument (Document.ofPage options page) ∧
    ((∃ title kind? entries, parse options page = .ok { title, kind?, entries, skip? := none }) ∨
      (∃ title kind? reason, parse options page =
        .ok { title, kind?, entries := [], skip? := some reason }) ∨
      ∃ e, parse options page = .error (.malformed e)) := by
  refine ⟨parse_eq options page, ?_⟩
  rw [parse_eq]
  cases Document.ofPage options page with
  | error e => exact .inr (.inr ⟨e, rfl⟩)
  | ok document =>
    obtain ⟨title, kind?, outcome⟩ := document
    cases outcome with
    | entries found => exact .inl ⟨title, kind?, found, rfl⟩
    | skipped reason => exact .inr (.inl ⟨title, kind?, reason, rfl⟩)

end ScriptTypings.Unguarded
