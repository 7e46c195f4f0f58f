import ScriptTypings.Declarations.Emitter
import ScriptTypings.Proofs.Merge.DeclaredLeaves
import ScriptTypings.Proofs.Merge.Repetition
import ScriptTypings.Proofs.Reflected
import ScriptTypings.Proofs.Surface.Dumped

/-!
# Dumps of merged trees

Every merged tree is legible: the tree that a file holds keeps its names apart, resolving and
dropping listeners change no name, and a declaration stands under its own name, which no other
member of its namespace has. So a merged tree is known by its dump, unless a declaration takes the
place of its namespace's own data in it, as `collides_headings` shows.
-/

namespace ScriptTypings

open Surface (IsLegible AreLegible StandApart headingNames headerNames)
open Declarations (declarationText? rootTrace)

namespace Reflected

mutual

/-- No member in a tree has a name that begins with two underscores. -/
def HasPlainNames : Reflected → Prop
  | placeholder _ => True
  | space _ members => HavePlainNames members
  | cls _ _ statics prototype => HavePlainNames statics ∧ HavePlainNames prototype

def HavePlainNames : List (String × Reflected) → Prop
  | [] => True
  | (name, node) :: members =>
    ¬ "__".toList <+: name.toList ∧ HasPlainNames node ∧ HavePlainNames members

end

theorem HavePlainNames.not_prefix {members : List (String × Reflected)}
    (h : HavePlainNames members) : ∀ m ∈ members, ¬ "__".toList <+: m.1.toList := by
  induction members with
  | nil => exact nofun
  | cons m members ih =>
    obtain ⟨hname, -, hrest⟩ := h
    exact List.forall_mem_cons.mpr ⟨hname, ih hrest⟩

end Reflected

/-! ### Legible surfaces -/

namespace Surface

/-- All own data begins with two underscores. -/
theorem prefix_of_mem_headerNames {name : String} (h : name ∈ headerNames) :
    "__".toList <+: name.toList := by
  have hall : ∀ name ∈ headerNames, "__".toList <+: name.toList := by decide
  exact hall name h

theorem headingNames_subset_headerNames : headingNames ⊆ headerNames :=
  List.subset_append_left _ _

theorem StandApart.mono {taken taken' : List String} {members : List (String × Surface)}
    (h : StandApart taken members) (hsub : taken' ⊆ taken) : StandApart taken' members :=
  ⟨h.nodup, fun m hm hmem => h.apart m hm (hsub hmem)⟩

theorem StandApart.of_names {taken : List String} {members members' : List (String × Surface)}
    (h : StandApart taken members) (hnames : members'.map Prod.fst = members.map Prod.fst) :
    StandApart taken members' := by
  refine ⟨hnames ▸ h.nodup, fun m hm => ?_⟩
  obtain ⟨other, hother, hname⟩ := List.mem_map.mp (hnames ▸ List.mem_map_of_mem hm)
  exact hname ▸ h.apart other hother

end Surface

namespace Reference

variable (r : Reference)

theorem names_resolveMembers (parent : String) (ms : List (String × Reflected)) :
    (r.resolveMembers parent ms).map Prod.fst = ms.map Prod.fst := by
  induction ms with
  | nil => rfl
  | cons m ms ih => rw [resolveMembers, List.map_cons, List.map_cons, ih]

theorem standApart_resolveMembers (parent : String) {ms : List (String × Reflected)}
    (hdistinct : Reflected.HaveDistinctNames ms) (hplain : Reflected.HavePlainNames ms) :
    StandApart headerNames (r.resolveMembers parent ms) := by
  have hnames := r.names_resolveMembers parent ms
  refine ⟨hnames ▸ hdistinct.nodup, fun m hm hmem => ?_⟩
  obtain ⟨m', hm', hname⟩ := List.mem_map.mp (hnames ▸ List.mem_map_of_mem hm)
  exact hplain.not_prefix m' hm' (hname ▸ Surface.prefix_of_mem_headerNames hmem)

/-- The surface of a tree that a file holds is legible. -/
theorem isLegible_resolve :
    (∀ (node : Reflected) parent name, node.HasDistinctNames → node.HasOwnPrototypes →
      node.HasPlainNames → (r.resolve parent name node).IsLegible name) ∧
    ∀ ms parent, Reflected.HaveDistinctNames ms → Reflected.HaveOwnPrototypes ms →
      Reflected.HavePlainNames ms → AreLegible (r.resolveMembers parent ms) := by
  refine Reflected.tree_induction ?placeholder ?space ?cls ?nil ?cons
  case placeholder =>
    intro word parent name _ _ _
    obtain ⟨hleaf, hdeclared⟩ := r.resolveLeaf_leaf (Identifier.member parent name) word
    refine (Surface.isLegible_of_leaf hleaf name).mpr fun h => ?_
    exact absurd (hdeclared.symm.trans h) Bool.false_ne_true
  case space =>
    intro fullname members ih parent name hdistinct hown hplain
    have hapart : StandApart headingNames (r.resolveMembers fullname members) :=
      (r.standApart_resolveMembers fullname hdistinct hplain).mono
        Surface.headingNames_subset_headerNames
    have hmembers := ih fullname hdistinct hown hplain
    rw [resolve]
    split
    · exact ⟨rfl, hapart, hmembers⟩
    · exact ⟨rfl, hapart.nodup, fun m hm hmem => absurd hmem (hapart.apart m hm), hmembers⟩
  case cls =>
    intro fullname base statics prototype ihs ihp parent name hdistinct hown hplain
    obtain ⟨hprototype, hownStatics, hownPrototype⟩ := hown
    obtain ⟨hnodup, hapart⟩ := r.standApart_resolveMembers fullname hdistinct.1 hplain.1
    refine ⟨rfl, ⟨hnodup, fun m hm hmem => ?_⟩, ihs fullname hdistinct.1 hownStatics hplain.1,
      ihp fullname hdistinct.2 hownPrototype hplain.2⟩
    rcases List.mem_cons.mp hmem with hname | hmem
    · refine hprototype ?_
      rw [← r.names_resolveMembers fullname statics, ← hname]
      exact List.mem_map_of_mem hm
    · exact hapart m hm hmem
  case nil => exact fun _ _ _ _ => trivial
  case cons =>
    intro name node members ihn ihm parent hdistinct hown hplain
    exact ⟨ihn parent name hdistinct.2.1 hown.1 hplain.2.1,
      ihm parent hdistinct.2.2 hown.2 hplain.2.2⟩

end Reference

namespace Surface

/-- Declarations that stand under their own names, which are new ones. -/
structure FitsIn (names : List String) (added : List (String × Surface)) : Prop where
  nodup : (added.map Prod.fst).Nodup
  fresh : ∀ m ∈ added, m.1 ∉ names
  declared : ∀ m ∈ added, m.2.isDeclared = true ∧ m.2.ownName = m.1

theorem isDeclared_attach (additions : Nat → List (String × Surface)) (number : Nat)
    (s : Surface) : (attach additions number s).isDeclared = s.isDeclared := by
  cases s <;> rfl

theorem mem_attachAll {additions : Nat → List (String × Surface)} {number : Nat}
    {ms : List (String × Surface)} {m : String × Surface}
    (h : m ∈ attachAll additions number ms) :
    ∃ m' ∈ ms, m'.1 = m.1 ∧ m'.2.isDeclared = m.2.isDeclared := by
  induction ms generalizing number with
  | nil => cases h
  | cons first ms ih =>
    rw [attachAll] at h
    rcases List.mem_cons.mp h with rfl | h
    · exact ⟨first, List.mem_cons_self, rfl, (isDeclared_attach _ _ _).symm⟩
    · obtain ⟨m', hm', hsame⟩ := ih h
      exact ⟨m', List.mem_cons_of_mem _ hm', hsame⟩

/-- Attaching declarations that fit into their namespaces keeps a surface legible. -/
theorem isLegible_attach (additions : Nat → List (String × Surface)) :
    (∀ (s : Surface) number name, s.IsLegible name →
      (∀ e ∈ s.spaces.zipIdx number, FitsIn e.1.names (additions e.2)) →
      (attach additions number s).IsLegible name) ∧
    ∀ ms number, AreLegible ms →
      (∀ e ∈ (spacesOf ms).zipIdx number, FitsIn e.1.names (additions e.2)) →
      AreLegible (attachAll additions number ms) := by
  refine tree_induction ?space ?enumeration ?cls ?leaf ?nil ?cons
  case space =>
    intro own fullname description members ih number name h hfits
    obtain ⟨hname, hnodup, hdeclared, hmembers⟩ := h
    rw [spaces, List.zipIdx_cons, List.forall_mem_cons] at hfits
    obtain ⟨hfit, hfits⟩ := hfits
    have hnames := Merger.names_attachAll additions (number + 1) members
    refine ⟨hname, ?_, fun m hm hmem => ?_, ?_⟩
    · rw [List.map_append, hnames, List.nodup_append]
      refine ⟨hnodup, hfit.nodup, fun n hn other hother heq => ?_⟩
      obtain ⟨m, hm, rfl⟩ := List.mem_map.mp hother
      exact hfit.fresh m hm (heq ▸ hn)
    · rcases List.mem_append.mp hm with hm | hm
      · obtain ⟨m', hm', hsame, hkind⟩ := mem_attachAll hm
        exact hkind ▸ hdeclared m' hm' (hsame ▸ hmem)
      · exact (hfit.declared m hm).1
    · rw [areLegible_iff, List.forall_mem_append]
      refine ⟨areLegible_iff.mp (ih _ hmembers hfits), fun m hm => ?_⟩
      obtain ⟨hdecl, hown⟩ := hfit.declared m hm
      exact (isLegible_of_leaf (isNested_of_isDeclared hdecl) m.1).mpr fun _ => hown
  case enumeration =>
    intro own fullname description members ih number name h hfits
    obtain ⟨hname, hapart, hmembers⟩ := h
    exact ⟨hname, hapart.of_names (Merger.names_attachAll _ _ _), ih _ hmembers hfits⟩
  case cls =>
    intro header statics prototype ihs ihp number name h hfits
    obtain ⟨hname, hapart, hstatics, hprototype⟩ := h
    rw [spaces, List.zipIdx_append, List.forall_mem_append] at hfits
    exact ⟨hname, hapart.of_names (Merger.names_attachAll _ _ _), ihs _ hstatics hfits.1,
      ihp _ hprototype hfits.2⟩
  case leaf =>
    intro s hs number name h _
    rwa [attach_of_leaf hs]
  case nil => exact fun _ _ _ => trivial
  case cons =>
    intro name node members ihn ihm number h hfits
    rw [spacesOf, List.zipIdx_append, List.forall_mem_append] at hfits
    exact ⟨ihn _ _ h.1 hfits.1, ihm _ h.2 hfits.2⟩

theorem names_withListenersOf (ms : List (String × Surface)) :
    (withListenersOf ms).map Prod.fst = ms.map Prod.fst := by
  rw [withListenersOf_eq_map, List.map_map]
  rfl

/-- Dropping listeners keeps a surface legible. -/
theorem isLegible_withListeners :
    (∀ (s : Surface) name, s.IsLegible name → s.withListeners.IsLegible name) ∧
      ∀ ms, AreLegible ms → AreLegible (withListenersOf ms) := by
  refine tree_induction ?space ?enumeration ?cls ?leaf ?nil ?cons
  case space =>
    intro own fullname description members ih name h
    obtain ⟨hname, hnodup, hdeclared, hmembers⟩ := h
    refine ⟨hname, by rwa [names_withListenersOf], fun m hm hmem => ?_, ih hmembers⟩
    rw [withListenersOf_eq_map] at hm
    obtain ⟨m', hm', rfl⟩ := List.mem_map.mp hm
    exact (isDeclared_withListeners m'.2).trans (hdeclared m' hm' hmem)
  case enumeration =>
    intro own fullname description members ih name h
    obtain ⟨hname, hapart, hmembers⟩ := h
    exact ⟨hname, hapart.of_names (names_withListenersOf _), ih hmembers⟩
  case cls =>
    intro header statics prototype ihs ihp name h
    obtain ⟨hname, hapart, hstatics, hprototype⟩ := h
    have legible_of_sublist : ∀ {ms}, AreLegible ms → AreLegible (withoutListeners ms) :=
      fun h => areLegible_iff.mpr fun m hm =>
        areLegible_iff.mp h m ((withoutListeners_sublist _).subset hm)
    exact ⟨hname, (hapart.of_names (names_withListenersOf _)).sublist (withoutListeners_sublist _),
      legible_of_sublist (ihs hstatics), legible_of_sublist (ihp hprototype)⟩
  case leaf =>
    intro s hs name h
    rwa [withListeners_of_leaf hs]
  case nil => exact fun _ => trivial
  case cons =>
    intro name node members ihn ihm h
    exact ⟨ihn name h.1, ihm h.2⟩

end Surface

namespace Merger

/-! ### Declarations under their names -/

/-- What is declared under a name has that name. -/
theorem ownName_declared {r : Reference} {name : String} {entry : Entry}
    {declared : Reference.Declared} (h : r.declare? name entry = some declared) :
    declared.node.ownName = name := by
  obtain ⟨identifier, description, content⟩ := entry
  cases content with
  | record members => cases h; rfl
  | delegate signature => cases h; rfl
  | interface listing =>
    cases h
    obtain ⟨methods, properties, hparts⟩ :=
      exists_foldl_addPart (r.interfaceParts listing) (r.interfaceFrame name _ listing)
    rw [Surface.ownName, Reference.expandInterface, hparts]
    rfl
  | _ => cases h

theorem namesIn_of_mem_zipIdx {before spaces : List Surface.Space} {e : Surface.Space × Nat}
    (h : e ∈ spaces.zipIdx before.length) :
    e.2 < (before ++ spaces).length ∧ namesIn (before ++ spaces) e.2 = e.1.names := by
  obtain ⟨hle, hlt, hspace⟩ := List.mem_zipIdx h
  refine ⟨by rw [List.length_append]; exact hlt, ?_⟩
  rw [namesIn, List.getElem?_append_right hle, List.getElem?_eq_getElem (by omega), ← hspace]
  rfl

/-- What a backfill adds fits into the namespaces of the tree. -/
theorem fitsIn_backfill {r : Reference} {owners : NameMap Nat} {p : Progress}
    {before spaces : List Surface.Space} (hspaces : p.spaces = before ++ spaces)
    (howners : ∀ key number, NameMap.find? key owners = some number → number < p.spaces.length)
    (hdistinct : p.memory.Distinct) (hstart : p.additions = []) :
    ∀ e ∈ spaces.zipIdx before.length,
      Surface.FitsIn e.1.names (additionsTo (backfill r owners p).additions e.2) := by
  intro e he
  obtain ⟨hlt, hnames⟩ := namesIn_of_mem_zipIdx he
  rw [← hspaces] at hlt hnames
  obtain ⟨hnodup, hfresh⟩ := (addsApart_backfill howners hdistinct hstart).fresh e.2 hlt
  rw [hnames] at hfresh
  refine ⟨hnodup, hfresh, fun m hm => ?_⟩
  obtain ⟨_, entry, declared, -, hname, hdeclared, hnode⟩ :=
    exists_isDeclarationOf hdistinct hstart e.2 m hm
  rw [hnode, hname]
  exact ⟨(declared_node hdeclared).1, ownName_declared hdeclared⟩

section

variable {corpus : Corpus} {overrides : List (String × Json)} {m : Merger}

/-- The merged tree of a file is legible. -/
theorem Reachable.isLegible_merge (h : Reachable corpus overrides m) {path : Path} {text : String}
    {root : Reflected.Root} (hroot : Reflected.rootOfText path text = .ok root)
    (hplain : root.node.HasPlainNames) :
    (m.merge root).2.surface.IsLegible (Identifier.lastSegment root.fullname) := by
  have hresolved := (m.reference.isLegible_resolve.1 root.node "" _
    (Reflected.hasDistinctNames_of_rootOfText hroot)
    (Reflected.hasOwnPrototypes_of_rootOfText hroot) hplain :
      (m.reference.resolve "" (Identifier.lastSegment root.fullname) root.node).IsLegible _)
  refine Surface.isLegible_withListeners.1 _ _ ((Surface.isLegible_attach _).1 _ _ _ hresolved ?_)
  refine fitsIn_backfill rfl (fun key number hfind => ?_) (h.sound.distinct.addAll _) rfl
  rw [List.length_append]
  exact owned_registerAll h.sound.owned hfind

theorem exists_space_or_enumeration_merge (m : Merger) (root : Reflected.Root) :
    ∃ description members, (m.merge root).2.surface =
        .space (Identifier.lastSegment root.fullname) root.fullname description members ∨
      (m.merge root).2.surface =
        .enumeration (Identifier.lastSegment root.fullname) root.fullname description members := by
  simp only [merge, Reflected.Root.node, Reference.resolve]
  split
  · exact ⟨_, _, .inr rfl⟩
  · exact ⟨_, _, .inl rfl⟩

/-- The dump of a merged tree tells its full name. -/
theorem Reachable.fullname_dump_merge (h : Reachable corpus overrides m) {path : Path}
    {text : String} {root : Reflected.Root} (hroot : Reflected.rootOfText path text = .ok root)
    (hplain : root.node.HasPlainNames)
    (hfree : ∀ d ∈ (m.merge root).2.surface.declarations, d.ownName ∉ headingNames) :
    (m.merge root).2.surface.dump.member? "__fullname" = some (.text root.fullname) := by
  have hlegible := h.isLegible_merge hroot hplain
  obtain ⟨description, members, hsurface | hsurface⟩ := exists_space_or_enumeration_merge m root
  · rw [hsurface] at hlegible hfree ⊢
    rw [Surface.dump_space (hlegible.standApart hfree)]
    rfl
  · rw [hsurface] at hlegible ⊢
    rw [Surface.dump_enumeration hlegible.2.1]
    rfl

/-- The dump of a merged tree determines its declarations, with any header and any table of
arguments, and its coverage. The trees may come from different files, corpora and mergers; no member
in the files begins with two underscores, and no declaration in the merged trees is called like own
data of its namespace. -/
theorem declarationText?_eq_of_dump_eq {corpus' : Corpus} {overrides' : List (String × Json)}
    {m' : Merger} (h : Reachable corpus overrides m) (h' : Reachable corpus' overrides' m')
    {path path' : Path} {text text' : String} {root root' : Reflected.Root}
    (hroot : Reflected.rootOfText path text = .ok root)
    (hroot' : Reflected.rootOfText path' text' = .ok root')
    (hplain : root.node.HasPlainNames) (hplain' : root'.node.HasPlainNames)
    {next next' : Merger} {merged merged' : Merged}
    (hrun : m.mergeUntilMisfit root = (next, .ok merged))
    (hrun' : m'.mergeUntilMisfit root' = (next', .ok merged'))
    (hfree : ∀ d ∈ merged.surface.declarations, d.ownName ∉ headingNames)
    (hfree' : ∀ d ∈ merged'.surface.declarations, d.ownName ∉ headingNames)
    (hdump : merged.surface.dump = merged'.surface.dump) :
    merged.surface = merged'.surface ∧
    (∀ table header, ∃ text, declarationText? table header merged.surface = some text ∧
      declarationText? table header merged'.surface = some text) ∧
    (∀ table, rootTrace table merged.surface = rootTrace table merged'.surface) ∧
    Coverage.ofSurface merged.surface = Coverage.ofSurface merged'.surface := by
  have hlegible := h.isLegible_merge hroot hplain
  have hlegible' := h'.isLegible_merge hroot' hplain'
  have hfullname := h.fullname_dump_merge hroot hplain
  have hfullname' := h'.fullname_dump_merge hroot' hplain'
  obtain ⟨members, hparts⟩ := exists_rootParts?_merge m root
  rw [merge_of_mergeUntilMisfit hrun] at hlegible hfullname hparts
  rw [merge_of_mergeUntilMisfit hrun'] at hlegible' hfullname'
  -- the roots have one full name, so that they stand under one name
  have hsame : root.fullname = root'.fullname := by
    have hfound := hfullname hfree
    rw [hdump, hfullname' hfree'] at hfound
    exact (Json.text.inj (Option.some.inj hfound)).symm
  have hsurface : merged.surface = merged'.surface :=
    Surface.eq_of_dump_eq.1 _ _ _ hlegible (hsame ▸ hlegible') hfree hfree' hdump
  rw [← hsurface]
  refine ⟨rfl, fun table header => ?_, fun _ => rfl, rfl⟩
  rw [declarationText?, hparts]
  exact ⟨_, rfl, rfl⟩

end

/-! ### Declarations in the place of own data -/

/-- A namespace with two properties, of two structures that its page lists. Some names are
remembered before it is merged. -/
structure Sketch where
  fullname : String
  description : String
  /-- The short name of the first structure. -/
  short : String
  before : List String

namespace Sketch

variable (s : Sketch)

def corpus : Corpus where
  entries :=
    [(s.fullname, ⟨s.fullname, s.description, .space { structures := ["x." ++ s.short, "x.z"] }⟩),
     ("x." ++ s.short, ⟨"x." ++ s.short, "", .record []⟩),
     ("x.z", ⟨"x.z", "", .record []⟩),
     (s.fullname ++ ".first", ⟨s.fullname ++ ".first", "", .property ("x." ++ s.short)⟩),
     (s.fullname ++ ".second", ⟨s.fullname ++ ".second", "", .property "x.z"⟩)]

def tree : Json :=
  .object [("__type", "structure"), ("__fullname", s.fullname), ("first", "object"),
    ("second", "object")]

def root : Reflected.Root where
  fullname := s.fullname
  members := [("first", .placeholder "object"), ("second", .placeholder "object")]

def merger : Merger :=
  s.before.foldl rememberName (ofCorpus s.corpus [])

theorem reachable_merger : Reachable s.corpus [] s.merger := by
  rw [merger]
  generalize hnew : ofCorpus s.corpus [] = m
  have hm : Reachable s.corpus [] m := hnew ▸ .new
  clear hnew
  induction s.before generalizing m with
  | nil => exact hm
  | cons name names ih => exact ih _ (.rememberName hm name)

theorem rootOfText_tree :
    Reflected.rootOfText (.ofText "tree.json") (s.tree.write {} ++ "\n") = .ok s.root := by
  have hvalue : s.tree.isReadable = true := by rfl
  exact decodeText_of_read (Json.read_write_newline _ hvalue) hvalue rfl

theorem hasPlainNames_root : s.root.node.HasPlainNames := by
  refine ⟨?_, trivial, ?_, trivial, trivial⟩ <;> decide

theorem mergeUntilMisfit_root :
    s.merger.mergeUntilMisfit s.root =
      ((s.merger.merge s.root).1, .ok (s.merger.merge s.root).2) := by
  refine s.reachable_merger.mergeUntilMisfit_eq ?_ nofun s.root
  simp only [corpus, List.forall_mem_cons]
  exact ⟨rfl, rfl, rfl, rfl, rfl, nofun⟩

/-- The surface before its declarations. -/
def resolved : Surface :=
  s.merger.reference.resolve "" (Identifier.lastSegment s.root.fullname) s.root.node

/-- The progress after the names that are remembered when the backfill begins. -/
def visited : Progress :=
  (s.merger.started s.resolved).memory.names.foldl
    (visit s.merger.reference (s.merger.ownersWith s.resolved)) (s.merger.started s.resolved)

/-- The surface with the declarations for these names. -/
def surface : Surface :=
  (s.resolved.attach (additionsTo s.visited.additions) s.merger.spaces.length).withListeners

/-- The structures mention no other types, so that these are all declarations. -/
theorem surface_merge
    (hsettled : s.visited.memory.byKey = (s.merger.started s.resolved).memory.byKey) :
    (s.merger.merge s.root).2.surface = s.surface := by
  have hbackfill := backfill_of_settled (s.reachable_merger.sound.distinct.addAll
    s.resolved.mentions) (congrArg Memory.mk hsettled)
  rw [merge_eq]
  exact congrArg (fun p : Progress =>
    (s.resolved.attach (additionsTo p.additions) s.merger.spaces.length).withListeners) hbackfill

/-- Two sketches, read from files, are merged into trees that show the same and are declared
differently. -/
def Collides (s s' : Sketch) : Prop :=
  Reflected.rootOfText (.ofText "tree.json") (s.tree.write {} ++ "\n") = .ok s.root ∧
  Reflected.rootOfText (.ofText "tree.json") (s'.tree.write {} ++ "\n") = .ok s'.root ∧
  s.root.node.HasPlainNames ∧ s'.root.node.HasPlainNames ∧
  Reachable s.corpus [] s.merger ∧ Reachable s'.corpus [] s'.merger ∧
  ∃ next merged next' merged', s.merger.mergeUntilMisfit s.root = (next, .ok merged) ∧
    s'.merger.mergeUntilMisfit s'.root = (next', .ok merged') ∧
    merged.surface.dump = merged'.surface.dump ∧
    declarationText? {} "" merged.surface ≠ declarationText? {} "" merged'.surface

theorem collides_of_surface {s s' : Sketch}
    (hsettled : s.visited.memory.byKey = (s.merger.started s.resolved).memory.byKey)
    (hsettled' : s'.visited.memory.byKey = (s'.merger.started s'.resolved).memory.byKey)
    (hdump : s.surface.dump = s'.surface.dump)
    (htext : declarationText? {} "" s.surface ≠ declarationText? {} "" s'.surface) :
    Collides s s' := by
  refine ⟨s.rootOfText_tree, s'.rootOfText_tree, s.hasPlainNames_root, s'.hasPlainNames_root,
    s.reachable_merger, s'.reachable_merger, _, _, _, _, s.mergeUntilMisfit_root,
    s'.mergeUntilMisfit_root, ?_⟩
  rw [s.surface_merge hsettled, s'.surface_merge hsettled']
  exact ⟨hdump, htext⟩

end Sketch

/-- A declaration under any of the three names hides what a dump shows there: the description of its
namespace, the full name, or the place of the declaration itself. -/
theorem collides_headings :
    Sketch.Collides ⟨"n", "a", "__description", []⟩ ⟨"n", "b", "__description", []⟩ ∧
    Sketch.Collides ⟨"n", "a", "__fullname", []⟩ ⟨"m", "a", "__fullname", []⟩ ∧
    Sketch.Collides ⟨"n", "a", "__type", []⟩ ⟨"n", "a", "__type", ["x.z"]⟩ := by
  refine ⟨?_, ?_, ?_⟩ <;> apply Sketch.collides_of_surface <;> decide +kernel

/-- A tree has the same dump and the same declarations if a name without entry was remembered
before. -/
theorem declarationText?_eq_of_dump_eq_sketch :
    let s : Sketch := ⟨"n", "a", "y", []⟩
    let s' : Sketch := ⟨"n", "a", "y", ["q"]⟩
    ∃ next merged next' merged', s.merger.mergeUntilMisfit s.root = (next, .ok merged) ∧
      s'.merger.mergeUntilMisfit s'.root = (next', .ok merged') ∧
      merged.surface.dump = merged'.surface.dump ∧ merged.surface = merged'.surface := by
  intro s s'
  have hsurface := s.surface_merge (by decide +kernel)
  have hsurface' := s'.surface_merge (by decide +kernel)
  have hfree : ∀ d ∈ s.surface.declarations, d.ownName ∉ headingNames := by decide +kernel
  have hfree' : ∀ d ∈ s'.surface.declarations, d.ownName ∉ headingNames := by decide +kernel
  have hdump : s.surface.dump = s'.surface.dump := by decide +kernel
  rw [← hsurface] at hfree hdump
  rw [← hsurface'] at hfree' hdump
  exact ⟨_, _, _, _, s.mergeUntilMisfit_root, s'.mergeUntilMisfit_root, hdump,
    (declarationText?_eq_of_dump_eq s.reachable_merger s'.reachable_merger s.rootOfText_tree
      s'.rootOfText_tree s.hasPlainNames_root s'.hasPlainNames_root s.mergeUntilMisfit_root
      s'.mergeUntilMisfit_root hfree hfree' hdump).1⟩

end Merger

end ScriptTypings
