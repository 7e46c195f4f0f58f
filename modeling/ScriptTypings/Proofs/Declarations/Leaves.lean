import Mathlib.Data.List.Perm.Subperm
import ScriptTypings.Proofs.Declarations.Comment
import ScriptTypings.Proofs.Declarations.Distinct
import ScriptTypings.Proofs.Surface.Declared

/-!
# Declarations of leaves

What is written for a leaf depends on where its member map stands: in a namespace, in an
enumeration, or on a side of a class. Each of these `Site`s has a form of its own for the lines that
declare its members. An object inside of an enumeration or of a prototype is written as a name only,
so that what is below it is `unseen`. `declared_rootLines` says that every other leaf has a line of
its own in the declarations, up to members that the index functions of a vector replace.
-/

namespace ScriptTypings.Declarations

/-- Where a member map stands. A prototype stands with the element type of its class, if that is a
vector; an unseen member map has no lines. -/
inductive Site
  | space
  | enumeration
  | statics
  | prototype (element : Option String)
  | unseen
  deriving DecidableEq, Repr

/-- A leaf under the name that its member map has for it. -/
structure SitedLeaf where
  name : String
  node : Surface
  site : Site

namespace Site

/-- The site of the members of an object. They have lines if the object is in a namespace: its own,
or the one beside its class. -/
def within (outer inner : Site) : Site :=
  match outer with
  | space => inner
  | statics => inner
  | _ => unseen

/-- Whether a line, wherever it begins, declares the member of a name. -/
def Declares (site : Site) (name text : String) : Prop :=
  match site with
  | space => ∃ lead ∈ ["function ", "var "], ∃ tail, text = lead ++ name ++ tail ∧ Opens tail
  | enumeration => text = memberName name ++ ","
  | statics => Declarations.Declares "static " name text
  | prototype _ => Declarations.Declares "" name text
  | unseen => False

end Site

namespace SitedLeaf

/-- Whether a leaf has a line. In a vector, members called like its index functions are replaced. -/
def isWritten (leaf : SitedLeaf) : Bool :=
  match leaf.site with
  | .prototype element => !(element.isSome && leaf.name = "indexOf")
  | .unseen => false
  | _ => true

/-- Whether a line of the declarations is that of a leaf. -/
def DeclaredBy (leaf : SitedLeaf) (line : String) : Prop :=
  ∃ depth text, line = padded depth text ∧ leaf.site.Declares leaf.name text

end SitedLeaf

variable (table : ArityTable)

mutual

/-- The leaves of a node with their sites, in the order of `Surface.leaves`. -/
def leavesAt (site : Site) (name : String) : Surface → List SitedLeaf
  | .space _ _ _ members => leavesAtOf (site.within .space) members
  | .enumeration _ _ _ members => leavesAtOf (site.within .enumeration) members
  | .cls header statics prototype =>
    leavesAtOf (site.within .statics) statics ++
      leavesAtOf (site.within (.prototype (classElement? table header))) prototype
  | .record _ _ _ _ => []
  | .delegate _ _ _ _ => []
  | .interface _ => []
  | leaf => [⟨name, leaf, site⟩]

def leavesAtOf (site : Site) : List (String × Surface) → List SitedLeaf
  | [] => []
  | (name, node) :: members => leavesAt site name node ++ leavesAtOf site members

end

/-- The leaves of a root with their sites. The root is written as a namespace, whatever it is. -/
def rootLeaves (root : Surface) : List SitedLeaf :=
  ((rootParts? root).map fun parts => leavesAtOf table .space parts.2.2).getD []

variable {table}

/-! ### Leaves and their sites -/

theorem leavesAt_of_leaf {s : Surface} (hflat : s.isNested = false) (site : Site) (name : String) :
    leavesAt table site name s = if s.isDeclared then [] else [⟨name, s, site⟩] := by
  cases s <;> first | rfl | cases hflat

/-- The sited leaves are those that coverage counts. -/
theorem node_leavesAt :
    (∀ s site name, (leavesAt table site name s).map SitedLeaf.node = s.leaves) ∧
      ∀ ms site, (leavesAtOf table site ms).map SitedLeaf.node = Surface.leavesOf ms := by
  refine Surface.tree_induction ?space ?enumeration ?cls ?leaf ?nil ?cons
  case space =>
    intro own fullname description members ih site name
    exact ih _
  case enumeration =>
    intro own fullname description members ih site name
    exact ih _
  case cls =>
    intro header statics prototype ihs ihp site name
    rw [leavesAt, Surface.leaves, List.map_append, ihs, ihp]
  case leaf =>
    intro s hs site name
    cases s <;> first | rfl | cases hs
  case nil => exact fun _ => rfl
  case cons =>
    intro name node members ihn ihm site
    rw [leavesAtOf, Surface.leavesOf, List.map_append, ihn, ihm]

/-- What is below an unseen node is unseen. -/
theorem site_eq_unseen :
    (∀ s name, ∀ leaf ∈ leavesAt table .unseen name s, leaf.site = .unseen) ∧
      ∀ ms, ∀ leaf ∈ leavesAtOf table .unseen ms, leaf.site = .unseen := by
  refine Surface.tree_induction ?space ?enumeration ?cls ?leaf ?nil ?cons
  case space =>
    intro own fullname description members ih name
    exact ih
  case enumeration =>
    intro own fullname description members ih name
    exact ih
  case cls =>
    intro header statics prototype ihs ihp name leaf hleaf
    exact (List.mem_append.mp hleaf).elim (ihs leaf) (ihp leaf)
  case leaf =>
    intro s hs name leaf hleaf
    rw [leavesAt_of_leaf hs] at hleaf
    split at hleaf
    · cases hleaf
    · rw [List.mem_singleton.mp hleaf]
  case nil =>
    intro leaf hleaf
    cases hleaf
  case cons =>
    intro name node members ihn ihm leaf hleaf
    exact (List.mem_append.mp hleaf).elim (ihn name leaf) (ihm leaf)

/-- Where objects are written as names, a leaf is one of the members or unseen. -/
theorem site_of_mem_leavesAt {site : Site} (hsite : ∀ inner, site.within inner = .unseen)
    {s : Surface} {name : String} {leaf : SitedLeaf} (hleaf : leaf ∈ leavesAt table site name s) :
    leaf.site = .unseen ∨ s.isNested = false ∧ leaf = ⟨name, s, site⟩ := by
  cases hnested : s.isNested with
  | false =>
    rw [leavesAt_of_leaf hnested] at hleaf
    split at hleaf
    · cases hleaf
    · exact .inr ⟨rfl, List.mem_singleton.mp hleaf⟩
  | true =>
    cases s with
    | space _ _ _ members =>
      rw [leavesAt, hsite] at hleaf
      exact .inl (site_eq_unseen.2 members leaf hleaf)
    | enumeration _ _ _ members =>
      rw [leavesAt, hsite] at hleaf
      exact .inl (site_eq_unseen.2 members leaf hleaf)
    | cls _ statics prototype =>
      rw [leavesAt, hsite, hsite] at hleaf
      exact .inl ((List.mem_append.mp hleaf).elim (site_eq_unseen.2 statics leaf)
        (site_eq_unseen.2 prototype leaf))
    | _ => cases hnested

theorem site_of_mem_leavesAtOf {site : Site} (hsite : ∀ inner, site.within inner = .unseen)
    {ms : List (String × Surface)} {leaf : SitedLeaf} (hleaf : leaf ∈ leavesAtOf table site ms) :
    leaf.site = .unseen ∨ leaf.site = site := by
  induction ms with
  | nil => cases hleaf
  | cons m ms ih =>
    rcases List.mem_append.mp hleaf with hleaf | hleaf
    · rcases site_of_mem_leavesAt hsite hleaf with hunseen | ⟨-, rfl⟩
      · exact .inl hunseen
      · exact .inr rfl
    · exact ih hleaf

theorem isWritten_of_unseen {leaf : SitedLeaf} (h : leaf.site = .unseen) :
    leaf.isWritten = false := by
  rw [SitedLeaf.isWritten, h]

/-! ### Lines for leaves -/

theorem append_ne_empty {front tail : String} (h : Opens tail) : front ++ tail ≠ "" := by
  obtain ⟨c, rest, hchars, -⟩ := h
  intro hempty
  have hnil := congrArg String.toList hempty
  rw [String.toList_append, hchars] at hnil
  exact List.append_ne_nil_of_right_ne_nil _ (List.cons_ne_nil _ _) hnil

theorem Site.Declares.ne_empty {site : Site} {name text : String} (h : site.Declares name text) :
    text ≠ "" := by
  cases site with
  | space =>
    obtain ⟨lead, -, tail, rfl, hopens⟩ := h
    exact append_ne_empty hopens
  | enumeration =>
    intro hempty
    have hnil := congrArg String.toList (h.symm.trans hempty)
    rw [String.toList_append] at hnil
    exact List.append_ne_nil_of_right_ne_nil _ (List.cons_ne_nil _ _) hnil
  | statics =>
    obtain ⟨tail, rfl, hopens⟩ := h
    exact append_ne_empty hopens
  | prototype element =>
    obtain ⟨tail, rfl, hopens⟩ := h
    exact append_ne_empty hopens
  | unseen => exact h.elim

theorem SitedLeaf.DeclaredBy.indentLine {leaf : SitedLeaf} {line : String}
    (h : leaf.DeclaredBy line) : leaf.DeclaredBy (Declarations.indentLine line) := by
  obtain ⟨depth, text, rfl, htext⟩ := h
  exact ⟨4 + depth, text, indentLine_padded depth htext.ne_empty, htext⟩

theorem indent_sublist_block (description : Json) (opening : String) (lines : List String) :
    (indent lines).Sublist (block description opening lines) := by
  rw [block, List.append_assoc]
  refine List.Sublist.trans ?_ (List.sublist_append_right _ _)
  exact (List.sublist_append_left _ _).trans (List.sublist_cons_self _ _)

/-- Every leaf that is written has a line of its own. -/
def DeclaredAmong (leaves : List SitedLeaf) (lines : List String) : Prop :=
  ∃ declared, List.Forall₂ SitedLeaf.DeclaredBy (leaves.filter SitedLeaf.isWritten) declared ∧
    declared.Subperm lines

namespace DeclaredAmong

variable {leaves leaves' : List SitedLeaf} {lines lines' : List String}

theorem of_not_isWritten (h : ∀ leaf ∈ leaves, leaf.isWritten = false) (lines : List String) :
    DeclaredAmong leaves lines := by
  have hnone : leaves.filter SitedLeaf.isWritten = [] :=
    List.filter_eq_nil_iff.mpr fun leaf hleaf => ne_true_of_eq_false (h leaf hleaf)
  exact ⟨[], by rw [hnone]; exact .nil, List.nil_subperm⟩

theorem nil (lines : List String) : DeclaredAmong [] lines :=
  ⟨[], .nil, List.nil_subperm⟩

theorem single {leaf : SitedLeaf} {line : String} (hline : line ∈ lines)
    (h : leaf.DeclaredBy line) : DeclaredAmong [leaf] lines := by
  rw [DeclaredAmong, List.filter_singleton]
  cases leaf.isWritten with
  | true => exact ⟨[line], .cons h .nil, List.singleton_subperm_iff.mpr hline⟩
  | false => exact ⟨[], .nil, List.nil_subperm⟩

theorem append (h : DeclaredAmong leaves lines) (h' : DeclaredAmong leaves' lines') :
    DeclaredAmong (leaves ++ leaves') (lines ++ lines') := by
  obtain ⟨declared, hdeclared, hamong⟩ := h
  obtain ⟨declared', hdeclared', hamong'⟩ := h'
  exact ⟨declared ++ declared', by
    rw [List.filter_append]
    exact List.rel_append hdeclared hdeclared', hamong.append hamong'⟩

theorem mono (h : DeclaredAmong leaves lines) (hlines : lines.Subperm lines') :
    DeclaredAmong leaves lines' := by
  obtain ⟨declared, hdeclared, hamong⟩ := h
  exact ⟨declared, hdeclared, hamong.trans hlines⟩

theorem indent (h : DeclaredAmong leaves lines) :
    DeclaredAmong leaves (Declarations.indent lines) := by
  obtain ⟨declared, hdeclared, part, hperm, hpart⟩ := h
  refine ⟨declared.map indentLine, ?_, part.map indentLine, hperm.map _, hpart.map _⟩
  exact List.forall₂_map_right_iff.mpr (hdeclared.imp fun _ _ h => h.indentLine)

theorem block (h : DeclaredAmong leaves lines) (description : Json) (opening : String) :
    DeclaredAmong leaves (Declarations.block description opening lines) :=
  h.indent.mono (indent_sublist_block ..).subperm

end DeclaredAmong

/-! ### Lines of members -/

variable (table)

/-- The lines of the static members that are not nested. -/
def staticLines (statics : List (String × Surface)) : List String :=
  (statics.filter fun m => !m.2.isNested).flatMap fun m => classMemberLines table "static " m.1 m.2

/-- The lines of the instance members, without index functions of a vector. -/
def instanceLines (header : ClassHeader) (prototype : List (String × Surface)) : List String :=
  (declaredInstances table header prototype).flatMap fun m => classMemberLines table "" m.1 m.2

/-- Every leaf in a namespace has a line that declares it. -/
theorem exists_declares_emit {s : Surface} (hflat : s.isNested = false)
    (hleaf : s.isDeclared = false) (name : String) :
    ∃ line ∈ emit table name s, Site.space.Declares name line := by
  have hfunction : "function " ∈ ["function ", "var "] := List.mem_cons_self
  have hvar : "var " ∈ ["function ", "var "] := List.mem_cons_of_mem _ List.mem_cons_self
  cases s with
  | function signatures =>
    obtain ⟨line, hline, hdeclares⟩ :=
      exists_mem_signatureLines table "function " name signatures
    exact ⟨line, hline, _, hfunction, hdeclares⟩
  | event handler description =>
    obtain ⟨line, hline, hdeclares⟩ := exists_mem_typedLine table "var " name description handler
    exact ⟨line, hline, _, hvar, hdeclares⟩
  | property member =>
    obtain ⟨line, hline, hdeclares⟩ :=
      exists_mem_typedLine table "var " name member.description member.typeName
    exact ⟨line, hline, _, hvar, hdeclares⟩
  | unresolved placeholder =>
    refine ⟨_, List.mem_singleton_self _, _, hvar, ": " ++ (placeholderType placeholder ++ ";"), ?_,
      opens_colon _⟩
    simp only [String.append_assoc]
  | space _ _ _ _ => cases hflat
  | enumeration _ _ _ _ => cases hflat
  | cls _ _ _ => cases hflat
  | record _ _ _ _ => cases hleaf
  | delegate _ _ _ _ => cases hleaf
  | interface _ => cases hleaf

variable {table}

/-- A member that is a leaf itself is declared by any of its lines. -/
theorem declaredAmong_leaf {s : Surface} (hflat : s.isNested = false) {site : Site}
    {name : String} {lines : List String}
    (hline : SitedLeaf.isWritten ⟨name, s, site⟩ = true → s.isDeclared = false →
      ∃ line ∈ lines, site.Declares name line) :
    DeclaredAmong (leavesAt table site name s) lines := by
  rw [leavesAt_of_leaf hflat]
  split
  · exact .nil _
  · rename_i hleaf
    cases hwritten : SitedLeaf.isWritten ⟨name, s, site⟩ with
    | true =>
      obtain ⟨line, hmem, hdeclares⟩ := hline hwritten (Bool.eq_false_of_not_eq_true hleaf)
      exact .single hmem ⟨0, line, (padded_zero line).symm, hdeclares⟩
    | false => exact .of_not_isWritten (List.forall_mem_singleton.mpr hwritten) _

/-- Where objects are written as names, the lines of the members declare all leaves that are
written. -/
theorem declaredAmong_members {site : Site} (hsite : ∀ inner, site.within inner = .unseen)
    {declares : String × Surface → Bool} {linesOf : String × Surface → List String}
    (h : ∀ m : String × Surface, SitedLeaf.isWritten ⟨m.1, m.2, site⟩ = true →
      declares m = true ∧ ∃ line ∈ linesOf m, site.Declares m.1 line)
    (ms : List (String × Surface)) :
    DeclaredAmong (leavesAtOf table site ms) ((ms.filter declares).flatMap linesOf) := by
  induction ms with
  | nil => exact .nil _
  | cons m ms ih =>
    have hfirst : DeclaredAmong (leavesAt table site m.1 m.2)
        (([m].filter declares).flatMap linesOf) := by
      cases hnested : m.2.isNested with
      | true =>
        refine .of_not_isWritten (fun leaf hleaf => ?_) _
        rcases site_of_mem_leavesAt hsite hleaf with hunseen | ⟨hflat, -⟩
        · exact isWritten_of_unseen hunseen
        · exact absurd (hnested.symm.trans hflat) Bool.noConfusion
      | false =>
        refine declaredAmong_leaf hnested fun hwritten _ => ?_
        obtain ⟨hdeclares, line, hline, hdeclared⟩ := h m hwritten
        rw [List.filter_singleton, hdeclares]
        exact ⟨line, List.mem_flatMap.mpr ⟨m, List.mem_singleton_self _, hline⟩, hdeclared⟩
    have hsplit : (m :: ms).filter declares = [m].filter declares ++ ms.filter declares :=
      List.filter_append [m] ms
    rw [hsplit, List.flatMap_append]
    exact hfirst.append ih

/-- The members of an enumeration all have lines, whatever they are. -/
theorem declaredAmong_enumerationBody (ms : List (String × Surface)) :
    DeclaredAmong (leavesAtOf table .enumeration ms) (enumerationBody ms) := by
  have hall : ms.filter (fun _ => true) = ms := List.filter_eq_self.mpr fun _ _ => rfl
  suffices h : DeclaredAmong (leavesAtOf table .enumeration ms)
      (enumerationBody (ms.filter fun _ => true)) by
    rwa [hall] at h
  refine declaredAmong_members (fun _ => rfl)
    (fun m _ => ⟨rfl, memberName m.1 ++ ",", ?_, by rw [Site.Declares]⟩) ms
  obtain ⟨name, node⟩ := m
  cases node with
  | property member => exact List.mem_append_right _ (List.mem_singleton_self _)
  | _ => exact List.mem_singleton_self _

theorem declaredAmong_instanceLines (header : ClassHeader) (ms : List (String × Surface)) :
    DeclaredAmong (leavesAtOf table (.prototype (classElement? table header)) ms)
      (instanceLines table header ms) :=
  declaredAmong_members (fun _ => rfl)
    (fun m hwritten => ⟨hwritten, exists_declares_classMemberLines table "" m.1 m.2⟩) ms

/-! ### Lines of the whole -/

theorem leavesAt_statics_of_isNested {s : Surface} (hnested : s.isNested = true) (name : String) :
    leavesAt table .statics name s = leavesAt table .space name s := by
  cases s <;> first | rfl | cases hnested

theorem emitNested_eq_nil {ms : List (String × Surface)}
    (h : (ms.any fun m => m.2.isNested) = false) : emitNested table ms = [] := by
  induction ms with
  | nil => rfl
  | cons m ms ih =>
    rw [List.any_cons, Bool.or_eq_false_iff] at h
    rw [emitNested, h.1, ih h.2]
    rfl

theorem subperm_classBody (header : ClassHeader) (statics prototype : List (String × Surface)) :
    (staticLines table statics ++ instanceLines table header prototype).Subperm
      (classBody table header statics prototype) := by
  refine List.Subperm.trans ?_ (classBody_perm table header statics prototype).symm.subperm
  refine List.Subperm.append (List.sublist_append_left _ _).subperm (List.Sublist.subperm ?_)
  refine List.Sublist.trans ?_ (List.sublist_append_right _ _)
  exact (List.sublist_append_left _ _).trans (List.sublist_append_left _ _)

theorem indent_emitNested_sublist (header : ClassHeader) (statics : List (String × Surface)) :
    (indent (emitNested table statics)).Sublist
      (if statics.any fun m => m.2.isNested then
        ("namespace " ++ header.name ++ " \x7b") :: indent (emitNested table statics) ++ ["\x7d"]
      else []) := by
  split
  · exact (List.sublist_cons_self _ _).trans (List.sublist_append_left _ _)
  · rename_i hnone
    rw [emitNested_eq_nil (Bool.eq_false_of_not_eq_true hnone)]
    exact .slnil

/-- The lines of a class hold those of its members, nested ones included. -/
theorem subperm_emit_cls (header : ClassHeader) (statics prototype : List (String × Surface))
    (name : String) :
    (indent (staticLines table statics ++ emitNested table statics) ++
      indent (instanceLines table header prototype)).Subperm
        (emit table name (.cls header statics prototype)) := by
  obtain ⟨part, hperm, hpart⟩ := subperm_classBody header statics prototype
  have hbody : (indent (staticLines table statics ++ instanceLines table header prototype)).Subperm
      (indent (classBody table header statics prototype)) :=
    ⟨indent part, hperm.map indentLine, hpart.map indentLine⟩
  rw [emit]
  refine List.Subperm.trans (List.Perm.subperm ?_)
    ((hbody.trans (indent_sublist_block _ _ _).subperm).append
      (indent_emitNested_sublist header statics).subperm)
  simp only [indent, List.map_append, List.append_assoc]
  exact List.perm_append_comm.append_left _

/-- The lines of one more static member: in the class, or in the namespace beside it. -/
theorem declaredAmong_static {name : String} {node : Surface} {ms : List (String × Surface)}
    (hnode : DeclaredAmong (leavesAt table .space name node) (emit table name node))
    (hms : DeclaredAmong (leavesAtOf table .statics ms)
      (staticLines table ms ++ emitNested table ms)) :
    DeclaredAmong (leavesAtOf table .statics ((name, node) :: ms))
      (staticLines table ((name, node) :: ms) ++ emitNested table ((name, node) :: ms)) := by
  rw [leavesAtOf, emitNested, staticLines, List.filter_cons]
  cases hnested : node.isNested with
  | true =>
    rw [leavesAt_statics_of_isNested hnested]
    exact (hnode.append hms).mono (List.perm_append_comm_assoc _ _ _).subperm
  | false =>
    have hmember : DeclaredAmong (leavesAt table .statics name node)
        (classMemberLines table "static " name node) :=
      declaredAmong_leaf hnested fun _ _ =>
        exists_declares_classMemberLines table "static " name node
    have happend := hmember.append hms
    rwa [← List.append_assoc] at happend

/-- Every leaf in the members of a namespace that is written has a line of its own. -/
theorem declaredAmong_emit :
    (∀ s name, DeclaredAmong (leavesAt table .space name s) (emit table name s)) ∧
      ∀ ms, DeclaredAmong (leavesAtOf table .space ms) (emitMembers table ms) ∧
        DeclaredAmong (leavesAtOf table .statics ms)
          (staticLines table ms ++ emitNested table ms) := by
  -- static members are declared in two places, so that these are followed together
  refine Surface.tree_induction ?space ?enumeration ?cls ?leaf ?nil ?cons
  case space =>
    intro own fullname description members ih name
    exact ih.1.block _ _
  case enumeration =>
    intro own fullname description members _ name
    exact (declaredAmong_enumerationBody members).block _ _
  case cls =>
    intro header statics prototype ihs _ name
    exact (ihs.2.indent.append (declaredAmong_instanceLines _ prototype).indent).mono
      (subperm_emit_cls header statics prototype name)
  case leaf =>
    intro s hs name
    exact declaredAmong_leaf hs fun _ hleaf => exists_declares_emit table hs hleaf name
  case nil => exact ⟨.nil _, .nil _⟩
  case cons =>
    intro name node members ihn ihm
    exact ⟨(ihn name).append ihm.1, declaredAmong_static (ihn name) ihm.2⟩

/-! ### Vectors -/

/-- The index functions of a vector stand among the lines, wherever these begin. -/
def IndexedAmong (leaf : SitedLeaf) (lines : List String) : Prop :=
  ∀ element, leaf.site = .prototype (some element) →
    ∃ depth, ∀ line ∈ indexLines element, padded depth line ∈ lines

namespace IndexedAmong

variable {leaf : SitedLeaf} {lines lines' : List String}

theorem of_site_ne (h : ∀ element, leaf.site ≠ .prototype (some element)) (lines : List String) :
    IndexedAmong leaf lines :=
  fun element helement => absurd helement (h element)

theorem mono (h : IndexedAmong leaf lines) (hlines : lines ⊆ lines') :
    IndexedAmong leaf lines' := by
  intro element helement
  obtain ⟨depth, hindex⟩ := h element helement
  exact ⟨depth, fun line hline => hlines (hindex line hline)⟩

theorem indent (h : IndexedAmong leaf lines) :
    IndexedAmong leaf (Declarations.indent lines) := by
  intro element helement
  obtain ⟨depth, hindex⟩ := h element helement
  refine ⟨4 + depth, fun line hline => ?_⟩
  have hne : line ≠ "" := by
    obtain ⟨tail, rfl, hopens⟩ := exists_opens_indexLines hline
    exact append_ne_empty hopens
  rw [← indentLine_padded depth hne]
  exact List.mem_map_of_mem (hindex line hline)

theorem block (h : IndexedAmong leaf lines) (description : Json) (opening : String) :
    IndexedAmong leaf (Declarations.block description opening lines) :=
  h.indent.mono (indent_sublist_block ..).subset

end IndexedAmong

theorem indexedAmong_classBody (header : ClassHeader) (statics prototype : List (String × Surface))
    {leaf : SitedLeaf}
    (hleaf : leaf ∈ leavesAtOf table (.prototype (classElement? table header)) prototype) :
    IndexedAmong leaf (classBody table header statics prototype) := by
  intro element helement
  rcases site_of_mem_leavesAtOf (fun _ => rfl) hleaf with hunseen | hsite
  · rw [hunseen] at helement
    cases helement
  · have hvector : classElement? table header = some element :=
      Site.prototype.inj (hsite.symm.trans helement)
    refine ⟨0, fun line hline => ?_⟩
    rw [padded_zero, (classBody_perm table header statics prototype).mem_iff]
    refine List.mem_append_right _ (List.mem_append_left _ ?_)
    rw [vectorLines, hvector]
    exact hline

theorem indexedAmong_leaf {s : Surface} (hflat : s.isNested = false) {site : Site}
    (hsite : ∀ element, site ≠ .prototype (some element)) {name : String} {leaf : SitedLeaf}
    (hleaf : leaf ∈ leavesAt table site name s) (lines : List String) :
    IndexedAmong leaf lines := by
  rw [leavesAt_of_leaf hflat] at hleaf
  split at hleaf
  · cases hleaf
  · rw [List.mem_singleton.mp hleaf]
    exact .of_site_ne hsite lines

/-- The index functions of a vector are among the lines for its leaves. -/
theorem indexedAmong_emit :
    (∀ s name, ∀ leaf ∈ leavesAt table .space name s, IndexedAmong leaf (emit table name s)) ∧
      ∀ ms, (∀ leaf ∈ leavesAtOf table .space ms, IndexedAmong leaf (emitMembers table ms)) ∧
        ∀ leaf ∈ leavesAtOf table .statics ms, IndexedAmong leaf (emitNested table ms) := by
  refine Surface.tree_induction ?space ?enumeration ?cls ?leaf ?nil ?cons
  case space =>
    intro own fullname description members ih name leaf hleaf
    exact (ih.1 leaf hleaf).block _ _
  case enumeration =>
    intro own fullname description members _ name leaf hleaf
    refine .of_site_ne (fun element helement => ?_) _
    rcases site_of_mem_leavesAtOf (fun _ => rfl) hleaf with hsite | hsite
    · exact absurd (hsite.symm.trans helement) Site.noConfusion
    · exact absurd (hsite.symm.trans helement) Site.noConfusion
  case cls =>
    intro header statics prototype ihs _ name leaf hleaf
    rw [emit]
    rcases List.mem_append.mp hleaf with hleaf | hleaf
    · exact (ihs.2 leaf hleaf).indent.mono (List.Subset.trans
        (indent_emitNested_sublist header statics).subset (List.subset_append_right _ _))
    · exact ((indexedAmong_classBody header statics prototype hleaf).block _ _).mono
        (List.subset_append_left _ _)
  case leaf =>
    intro s hs name leaf hleaf
    exact indexedAmong_leaf hs (fun _ => Site.noConfusion) hleaf _
  case nil =>
    refine ⟨fun leaf hleaf => ?_, fun leaf hleaf => ?_⟩
    · cases hleaf
    · cases hleaf
  case cons =>
    intro name node members ihn ihm
    refine ⟨fun leaf hleaf => ?_, fun leaf hleaf => ?_⟩
    · rcases List.mem_append.mp hleaf with hleaf | hleaf
      · exact (ihn name leaf hleaf).mono (List.subset_append_left _ _)
      · exact (ihm.1 leaf hleaf).mono (List.subset_append_right _ _)
    · rw [emitNested]
      rcases List.mem_append.mp hleaf with hleaf | hleaf
      · cases hnested : node.isNested with
        | true =>
          rw [leavesAt_statics_of_isNested hnested] at hleaf
          exact (ihn name leaf hleaf).mono (List.subset_append_left _ _)
        | false => exact indexedAmong_leaf hnested (fun _ => Site.noConfusion) hleaf _
      · exact (ihm.2 leaf hleaf).mono (List.subset_append_right _ _)

/-! ### Lines of a root -/

variable (table)

/-- A root is written with a line of its own for every leaf that is written, and with the index
functions of vectors in place of others. -/
theorem declared_rootLines {root : Surface} {name : String} {description : Json}
    {members : List (String × Surface)} (h : rootParts? root = some (name, description, members)) :
    DeclaredAmong (rootLeaves table root) (rootLines table name description members) ∧
      ∀ leaf ∈ rootLeaves table root,
        IndexedAmong leaf (rootLines table name description members) := by
  rw [rootLeaves, h]
  exact ⟨(declaredAmong_emit.2 members).1.block _ _,
    fun leaf hleaf => ((indexedAmong_emit.2 members).1 leaf hleaf).block _ _⟩

theorem node_rootLeaves {root : Surface} {parts : String × Json × List (String × Surface)}
    (h : rootParts? root = some parts) :
    (rootLeaves table root).map SitedLeaf.node = root.leaves := by
  rw [rootLeaves, h]
  cases root with
  | space name fullname description members =>
    cases h
    exact node_leavesAt.2 members _
  | enumeration name fullname description members =>
    cases h
    exact node_leavesAt.2 members _
  | _ => cases h

end ScriptTypings.Declarations
