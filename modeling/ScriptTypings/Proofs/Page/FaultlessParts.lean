import ScriptTypings.Proofs.NameMap
import ScriptTypings.Proofs.Page.Unguarded

/-!
# Lookups in the parts of a page

The parts that the kinds of pages have in common are read without a fault: types, syntax samples,
member tables, and parameter lists. Each reading without asking is the safe reading of the same
part, as a run.
-/

namespace ScriptTypings.Unguarded

open Text Markup

variable {α β : Type}

/-! ### Safe readings as runs -/

/-- A safe reading as a run: it ends early in the same way, and never by a fault. -/
def lift : Page.Reading α → Run α
  | .ok a => .ok a
  | .error .unspelled => .error .unspelled
  | .error (.malformed e) => fail e

@[simp] theorem lift_ok (a : α) : lift (.ok a) = .ok a := rfl

@[simp] theorem lift_pure (a : α) : lift (pure a) = pure a := rfl

@[simp] theorem ok_bind {ε : Type} (a : α) (f : α → Except ε β) : Except.ok a >>= f = f a := rfl

theorem lift_bind (x : Page.Reading α) (f : α → Page.Reading β) :
    lift (x >>= f) = lift x >>= fun a => lift (f a) := by
  cases x with
  | ok a => rfl
  | error r => cases r <;> rfl

theorem lift_map (f : α → β) (x : Page.Reading α) : lift (f <$> x) = f <$> lift x := by
  cases x with
  | ok a => rfl
  | error r => cases r <;> rfl

theorem lift_mapM (f : α → Page.Reading β) (l : List α) :
    lift (l.mapM f) = l.mapM fun a => lift (f a) := by
  induction l with
  | nil => rfl
  | cons a l ih => simp only [List.mapM_cons, lift_bind, ih, lift_pure]

@[simp] theorem refuse_false (e : PageError) : refuse false e = .ok () := rfl

/-! ### Lookups that succeed -/

@[simp] theorem asked_some (a : α) : asked (some a) = .ok a := rfl

@[simp] theorem given_some (text : String) : given (some text) = .ok text := rfl

@[simp] theorem item_zero (a : α) (l : List α) : item 0 (a :: l) = .ok a := rfl

@[simp] theorem item_one (a b : α) (l : List α) : item 1 (a :: b :: l) = .ok b := rfl

@[simp] theorem item_two (a b c : α) (l : List α) : item 2 (a :: b :: c :: l) = .ok c := rfl

theorem entry_of_find? {name : String} {m : NameMap α} {a : α} (h : NameMap.find? name m = some a) :
    entry name m = .ok a := by
  rw [entry, h]

theorem isAt_cons (tag : String) (element : Node) (following : List Node) :
    isAt tag (element :: following) = .ok (element.hasTag tag) := rfl

theorem next_cons (element : Node) (following : List Node) :
    next (element :: following) = .ok following := rfl

theorem textAt_eq (position : Nat) (elements : List Node) :
    textAt position elements =
      .ok ((elements[position]?.map fun e => inlined e.innerText).getD "") := by
  rw [textAt]
  by_cases h : position < elements.length
  · simp only [if_neg (Nat.not_le.mpr h)]
    rw [item, List.getElem?_eq_getElem h]
    rfl
  · rw [if_pos (Nat.not_lt.mp h), List.getElem?_eq_none (Nat.not_lt.mp h)]
    rfl

/-- Where an element has a value for an attribute, taking the value succeeds. -/
theorem valueOf_of_filled {name value : String} {node : Node}
    (h : node.filledAttribute? name = some value) : valueOf name node = .ok value := by
  obtain ⟨h, -⟩ := Option.filter_eq_some_iff.mp h
  rw [valueOf, h]

/-! ### Tables and definition lists -/

theorem firstTable_eq (s : Option Markup.Section) :
    firstTable s = .ok (s.bind firstTable?) := by
  cases s <;> rfl

/-- A run that reads a definition list. -/
def liftDefinitions : Except DefinitionListError α → Run α
  | .ok a => .ok a
  | .error e => fail (.definitionList e)

/-- The term that is being read has definitions, perhaps none of them yet. -/
def HasTerm (d : Definitions) : Prop :=
  ∀ term, d.term = some term → ∃ before, NameMap.find? term d.found = some before

theorem HasTerm.start : HasTerm {} := nofun

/-- One child of a definition list is read without a fault, and the term that is being read then has
definitions again. -/
theorem HasTerm.addDefinition_eq {d : Definitions} (h : HasTerm d) (node : Node) :
    addDefinition d node = liftDefinitions (d.step node) ∧
      ∀ d', d.step node = .ok d' → HasTerm d' := by
  cases node with
  | comment => exact ⟨rfl, fun d' hd' => Except.ok.inj hd' ▸ h⟩
  | text content kind =>
    rw [addDefinition, Definitions.step]
    split
    · exact ⟨rfl, fun d' hd' => Except.ok.inj hd' ▸ h⟩
    · exact ⟨rfl, fun d' hd' => by cases hd'⟩
  | element tag attributes children =>
    rw [addDefinition, Definitions.step]
    by_cases hdt : tag = "dt"
    · rw [if_pos hdt, if_pos hdt]
      refine ⟨rfl, fun d' hd' => ?_⟩
      obtain rfl := Except.ok.inj hd'
      intro term hterm
      obtain rfl := Option.some.inj hterm
      exact ⟨[], NameMap.find?_put_self _ _ _⟩
    · rw [if_neg hdt, if_neg hdt]
      by_cases hdd : tag = "dd"
      · rw [if_pos hdd, if_pos hdd]
        cases hterm : d.term with
        | none => exact ⟨rfl, fun d' hd' => by cases hd'⟩
        | some term =>
          -- the definitions of the term are looked up and put back under the same term
          obtain ⟨before, hbefore⟩ := h term hterm
          refine ⟨?_, fun d' hd' => ?_⟩
          · simp only [entry_of_find? hbefore, hbefore]
            rfl
          · obtain rfl := Except.ok.inj hd'
            intro other hother
            obtain rfl := Option.some.inj hother
            exact ⟨_, NameMap.find?_put_self _ _ _⟩
      · rw [if_neg hdd, if_neg hdd]
        exact ⟨rfl, fun d' hd' => by cases hd'⟩

theorem HasTerm.foldlM_addDefinition {d : Definitions} (h : HasTerm d) (nodes : List Node) :
    nodes.foldlM addDefinition d = liftDefinitions (nodes.foldlM Definitions.step d) := by
  induction nodes generalizing d with
  | nil => rfl
  | cons node nodes ih =>
    obtain ⟨hstep, hkeep⟩ := h.addDefinition_eq node
    rw [List.foldlM_cons, List.foldlM_cons, hstep]
    cases hd : d.step node with
    | error e => rfl
    | ok d' => exact ih (hkeep d' hd)

theorem definitions_eq (list : Node) :
    definitions (some list) = liftDefinitions (Markup.definitions list) := by
  rw [definitions, Markup.definitions, asked_some, ok_bind, HasTerm.start.foldlM_addDefinition]
  cases list.children.foldlM Definitions.step {} <;> rfl

/-! ### Types -/

theorem alternative_eq (piece : List Char) : alternative piece = .ok (.ofPiece piece) := by
  rw [alternative, Alternative.ofPiece]
  cases Alternative.brackets? piece with
  | none => rfl
  | some brackets =>
    obtain ⟨before, inside⟩ := brackets
    have hlists : listsLanguages (some (before, inside)) = .ok (!(trim inside).isEmpty) := rfl
    simp only [hlists, ok_bind, asked_some]
    cases (trim inside).isEmpty <;> rfl

theorem alternatives_eq (text : List Char) : alternatives text = .ok (Alternative.ofText text) := by
  rw [alternatives, Alternative.ofText]
  have hall : ∀ pieces : List (List Char),
      pieces.mapM alternative = .ok (pieces.map Alternative.ofPiece) := by
    intro pieces
    induction pieces with
    | nil => rfl
    | cons piece pieces ih =>
      rw [List.mapM_cons, alternative_eq, ih]
      rfl
  exact hall _

theorem readText_eq (s : TypeSpelling.State) (text : List Char) :
    readText s text = .ok (s.readText text) := by
  rw [readText, alternatives_eq]
  rfl

/-- A run that reads a type. -/
def liftSpelling : Except PageError α → Run α
  | .ok a => .ok a
  | .error e => fail e

theorem lift_check (x : Except PageError α) : lift (Page.check x) = liftSpelling x := by
  cases x <;> rfl

theorem readNodes_eq (s : TypeSpelling.State) (nodes : List Node) :
    readNodes s nodes = liftSpelling (TypeSpelling.readNodes s nodes) := by
  induction nodes generalizing s with
  | nil => rfl
  | cons node nodes ih =>
    cases node with
    | comment => exact ih s
    | text content kind =>
      rw [readNodes, TypeSpelling.readNodes, readText_eq]
      split
      · exact ih s
      · exact ih _
    | element tag attributes children =>
      rw [readNodes, TypeSpelling.readNodes]
      split
      · exact ih _
      · split
        · exact ih _
        · split
          · rfl
          · split
            · exact ih s
            · rfl

/-- Whether alternatives are a single one that names no language and is no array mark. -/
theorem isWhole_eq (found : List Alternative) :
    isWhole found = .ok (match found with
      | [⟨name, []⟩] => name ≠ some (.ofList TypeText.arrayOf)
      | _ => false) := by
  match found with
  | [] => rfl
  | [⟨name, []⟩] => rfl
  | [⟨name, _ :: _⟩] => rfl
  | first :: second :: rest =>
    have hlength : (first :: second :: rest).length ≠ 1 := by simp
    rw [isWhole, if_pos hlength]
    obtain ⟨name, languages⟩ := first
    cases languages <;> rfl

theorem spelling_eq (container : Node) (unmarked : Bool) :
    spelling container unmarked = liftSpelling (TypeSpelling.parse container unmarked) := by
  rw [spelling, TypeSpelling.parse]
  generalize container.children.filter (fun node => !node.isComment) = nodes
  cases unmarked with
  | true =>
    show (do return (← readNodes {} nodes).result?) =
      liftSpelling (do return (← TypeSpelling.readNodes {} nodes).result?)
    rw [readNodes_eq]
    cases TypeSpelling.readNodes {} nodes <;> rfl
  | false =>
    cases nodes with
    | nil => rfl
    | cons first nodes =>
      cases first with
      | element => rfl
      | comment => rfl
      | text content kind =>
        have hfirst : (some <$> item 0 (Node.text content kind :: nodes) : Run (Option Node)) =
            .ok (some (.text content kind)) := rfl
        simp only [Bool.false_eq_true, if_false, TypeSpelling.parseMarked, List.isEmpty_cons,
          hfirst, ok_bind]
        cases hlead : dropLead? TypeSpelling.typeLead (trimStart content.toList) with
        | none => rfl
        | some rest =>
          simp only [alternatives_eq, isWhole_eq, readText_eq, readNodes_eq, ok_bind]
          have hgoOn : (do return (← liftSpelling (TypeSpelling.readNodes
                (({} : TypeSpelling.State).readText (trim rest)) nodes)).result?) =
              liftSpelling (do return (← TypeSpelling.readNodes
                (({} : TypeSpelling.State).readText (trim rest)) nodes).result?) := by
            cases TypeSpelling.readNodes (({} : TypeSpelling.State).readText (trim rest)) nodes <;>
              rfl
          -- only a single alternative without languages may be the whole type
          rcases Alternative.ofText (trim rest) with
            _ | ⟨⟨name, _ | ⟨language, languages⟩⟩, _ | ⟨second, others⟩⟩
          · exact hgoOn
          · dsimp only
            by_cases hname : name = some (.ofList TypeText.arrayOf)
            · rw [if_pos hname, if_neg (by simpa using hname)]
              exact hgoOn
            · rw [if_neg hname, if_pos (by simpa using hname)]
              rfl
          · exact hgoOn
          · exact hgoOn
          · exact hgoOn

theorem typeIn_eq (page : Page) (container : Node) :
    typeIn page container = lift (page.typeIn container) := by
  rw [typeIn, Page.typeIn, spelling_eq]
  simp only [lift_bind, lift_check]
  congr 1
  funext found
  cases page.spelling? found <;> rfl

/-! ### Parts of pages -/

theorem bases_eq (snippets : NameMap String) (languages : List String) :
    bases snippets languages =
      .ok (match languages.findSome? (Inheritance.sampleDeclaration? snippets) with
        | some declaration => Inheritance.clauseBases declaration
        | none => []) := by
  induction languages with
  | nil => rfl
  | cons language languages ih =>
    rw [bases, List.findSome?_cons, Inheritance.sampleDeclaration?]
    cases NameMap.find? language snippets with
    | none => exact ih
    | some code =>
      by_cases hcode : code = ""
      · obtain rfl := hcode
        exact ih
      · have hfilled : ((some code).filter (· ≠ "")).isNone = false := by
          simp [Option.filter, hcode]
        simp only [hfilled, Bool.false_eq_true, if_false, asked_some, ok_bind]
        cases Inheritance.declaration? false (Inheritance.dotScopes code.toList) with
        | none => exact ih
        | some declaration => rfl

/-- A heading is found together with the elements behind it, or there is none. -/
theorem heading_cases (page : Page) (lead : String) :
    (heading page lead = [] ∧ page.following? lead = none) ∨
    ∃ node nodes, heading page lead = node :: nodes.filter Node.isElement ∧
      page.following? lead = some nodes := by
  rw [heading, Page.following?]
  cases page.main.placesBelow.find? fun place =>
      place.1.hasTag "h2" && Page.hasLead lead (titleOf place.1) with
  | none => exact .inl ⟨rfl, rfl⟩
  | some place => exact .inr ⟨place.1, place.2, rfl, rfl⟩

theorem samples_eq (found : NameMap String) (elements : List Node) :
    samples found elements =
      lift ((elements.takeWhile (Node.hasTag "codesnippet")).foldlM Page.addSnippet found) := by
  induction elements generalizing found with
  | nil => rfl
  | cons element following ih =>
    rw [samples, List.takeWhile_cons]
    cases element.hasTag "codesnippet" with
    | false => rfl
    | true =>
      simp only [if_true, List.foldlM_cons, lift_bind, Page.addSnippet]
      rw [show element.filledAttribute? "language" =
        (element.attribute? "language").filter (· ≠ "") from rfl]
      cases hvalue : element.attribute? "language" with
      | none => rfl
      | some language =>
        by_cases hlanguage : language = ""
        · obtain rfl := hlanguage
          rfl
        · have hfilled : (some language).filter (· ≠ "") = some language := by
            simp [Option.filter, hlanguage]
          rw [hfilled]
          exact ih _

theorem snippets_eq (page : Page) : snippets page = lift page.snippets := by
  rw [snippets, Page.snippets]
  obtain ⟨hheading, hfollowing⟩ | ⟨node, nodes, hheading, hfollowing⟩ := heading_cases page "Syntax"
  · rw [hheading, hfollowing]
    rfl
  · rw [hheading, hfollowing]
    exact samples_eq [] (nodes.filter Node.isElement)

/-! ### Member tables -/

theorem map_mapM {γ : Type} (g : β → γ) (f : α → Run β) (l : List α) :
    List.map g <$> l.mapM f = l.mapM fun a => g <$> f a := by
  induction l with
  | nil => rfl
  | cons a l ih =>
    rw [List.mapM_cons, List.mapM_cons, ← ih]
    cases f a with
    | error e => rfl
    | ok b => cases l.mapM f <;> rfl

/-- Leaving items out before they are read, or reading them as nothing. -/
theorem filterMap_mapM (p : α → Bool) {f : α → Run β} {g : α → Run (Option β)}
    (hkept : ∀ a, p a = true → g a = some <$> f a) (hleft : ∀ a, p a = false → g a = .ok none)
    (l : List α) : List.filterMap id <$> l.mapM g = (l.filter p).mapM f := by
  induction l with
  | nil => rfl
  | cons a l ih =>
    rw [List.mapM_cons]
    cases hp : p a with
    | false =>
      rw [List.filter_cons_of_neg (by simp [hp]), ← ih, hleft a hp]
      cases l.mapM g <;> rfl
    | true =>
      rw [List.filter_cons_of_pos hp, List.mapM_cons, ← ih, hkept a hp]
      cases f a with
      | error e => rfl
      | ok b => cases l.mapM g <;> rfl

theorem rowLink_eq (row : List Node) :
    rowLink row = if row.isEmpty then .ok none
      else some <$> lift (Page.rowLink row >>= fun id => pure (row, id)) := by
  rw [rowLink, Page.rowLink]
  cases row.isEmpty with
  | true => rfl
  | false =>
    simp only [Bool.false_eq_true, if_false]
    cases row.findSome? fun cell => cell.findBelow? (Node.hasTag "a") with
    | none => rfl
    | some anchor =>
      have hlacks : lacks "href" (some anchor) = .ok (anchor.filledAttribute? "href").isNone := rfl
      simp only [hlacks, ok_bind, asked_some]
      cases hvalue : anchor.filledAttribute? "href" with
      | none =>
        dsimp only
        rfl
      | some target =>
        simp only [valueOf_of_filled hvalue]
        rfl

theorem rowLinks_eq (table : Node) :
    rowLinks (some table) =
      lift ((Page.dataRows table).mapM fun row => do return (row, ← Page.rowLink row)) := by
  -- one reading leaves out rows without cells first, the other one reads them as nothing
  have hkept : ∀ row : List Node, (!row.isEmpty) = true →
      rowLink row = some <$> lift (Page.rowLink row >>= fun id => pure (row, id)) := by
    intro row hrow
    rw [rowLink_eq, if_neg (by simpa using hrow)]
  have hleft : ∀ row : List Node, (!row.isEmpty) = false → rowLink row = .ok none := by
    intro row hrow
    rw [rowLink_eq, if_pos (by simpa using hrow)]
  rw [lift_mapM, Page.dataRows]
  exact filterMap_mapM _ hkept hleft _

theorem linkedMembers_eq (table : Node) :
    (rowLinks (some table) >>= fun rows => pure (rows.map fun row => Json.text row.2)) =
      lift (Page.linkedMembers table) := by
  rw [rowLinks_eq, Page.linkedMembers, lift_mapM, lift_mapM]
  refine (map_mapM (fun row : List Node × String => Json.text row.2) _ _).trans ?_
  congr 1
  funext row
  cases Page.rowLink row with
  | ok id => rfl
  | error r => cases r <;> rfl

theorem membersOf_eq (s : Markup.Section) (title : String) :
    membersOf s title = lift ((fun found => found.getD []) <$> Page.categoryMembers s title) := by
  rw [membersOf, Page.categoryMembers, firstTable_eq, ok_bind]
  cases (s.subsection? title).bind firstTable? with
  | none => rfl
  | some table =>
    refine (linkedMembers_eq table).trans ?_
    show _ = lift ((fun found => found.getD []) <$> some <$> Page.linkedMembers table)
    cases Page.linkedMembers table with
    | ok found => rfl
    | error r => cases r <;> rfl

/-! ### Parameters -/

theorem parameter_eq (page : Page) (described : String × List Node) :
    parameter page described = lift (page.parameter described) := by
  obtain ⟨name, found⟩ := described
  cases found with
  | nil => rfl
  | cons definition rest =>
    rw [parameter, Page.parameter]
    simp only [List.isEmpty_cons, refuse_false, item_zero, ok_bind]
    cases definition.elements with
    | nil => rfl
    | cons container rest =>
      simp only [List.isEmpty_cons, refuse_false, item_zero, ok_bind, typeIn_eq, textAt_eq,
        List.getElem?_cons_succ, lift_bind]
      cases page.typeIn container with
      | ok typeName => cases rest <;> rfl
      | error r => cases r <;> rfl

theorem parameters_eq (page : Page) : parameters page = lift page.parameters := by
  rw [parameters, Page.parameters]
  obtain ⟨hheading, hfollowing⟩ | ⟨node, nodes, hheading, hfollowing⟩ :=
    heading_cases page "Parameters"
  · rw [hheading, hfollowing]
    rfl
  · rw [hheading, hfollowing]
    simp only [List.isEmpty_cons, refuse_false, next_cons, ok_bind, firstElement?,
      ← List.head?_filter]
    cases nodes.filter Node.isElement with
    | nil => rfl
    | cons element following =>
      simp only [isAt_cons, ok_bind, List.head?_cons, definitions_eq]
      cases element.hasTag "dl" with
      | true =>
        cases Markup.definitions element with
        | error e => rfl
        | ok found =>
          have hparameter : parameter page = fun described => lift (page.parameter described) :=
            funext (parameter_eq page)
          simp only [Bool.not_true, Bool.false_eq_true, if_false, if_true, liftDefinitions, ok_bind,
            lift_mapM, hparameter]
      | false => cases element.hasTag "p" <;> rfl

end ScriptTypings.Unguarded
