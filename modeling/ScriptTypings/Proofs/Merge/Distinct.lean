import ScriptTypings.Proofs.Declarations.Distinct
import ScriptTypings.Proofs.Json.RoundTrip
import ScriptTypings.Proofs.Merge.Listeners
import ScriptTypings.Proofs.Reflected

/-!
# Merged classes with a line that is written twice

The members of a merged class have the names of reflected ones, and no object repeats a name. So the
body of a class repeats a line outside of comments in two cases only. Its constructor is documented
and reflection shows a member under that name too: the member is described by the same entry. Or two
of its events agree, up to the mark of events, in their names, and in their handlers.
`nodup_bodies_of_mergeUntilMisfit` says so of all classes that are on the surface.
-/

namespace ScriptTypings

open Surface (listenerNames)
open Declarations (ArityTable DeclareOnly classBody classMemberLines constructorLines
  declaringLines handler? listenerText signatureLines)

namespace Reflected

/-- The names on both sides of a class are distinct. -/
def ClassNode.HasDistinctNames (c : ClassNode) : Prop :=
  (c.statics.map Prod.fst).Nodup ∧ (c.prototype.map Prod.fst).Nodup

theorem hasDistinctNames_of_mem_classes (corpus : Corpus) :
    (∀ node : Reflected, node.HasDistinctNames →
      ∀ c ∈ classes corpus node, c.HasDistinctNames) ∧
    ∀ ms, HaveDistinctNames ms → ∀ withoutListeners,
      ∀ c ∈ classesOf corpus withoutListeners ms, c.HasDistinctNames := by
  refine Reflected.tree_induction ?placeholder ?space ?cls ?nil ?cons
  case placeholder =>
    intro word _ c hc
    cases hc
  case space => exact fun fullname members ih h => ih h false
  case cls =>
    intro fullname base statics prototype ihs ihp h c hc
    obtain ⟨hstatics, hprototype⟩ := h
    rw [classes, List.mem_cons, List.mem_append] at hc
    rcases hc with rfl | hc | hc
    · exact ⟨hstatics.nodup, hprototype.nodup⟩
    · exact ihs hstatics _ c hc
    · exact ihp hprototype _ c hc
  case nil =>
    intro _ withoutListeners c hc
    cases hc
  case cons =>
    intro name node members ihn ihm h withoutListeners c hc
    obtain ⟨-, hnode, hmembers⟩ := h
    rw [classesOf, List.mem_append] at hc
    rcases hc with hc | hc
    · split at hc
      · cases hc
      · exact ihn hnode c hc
    · exact ihm hmembers withoutListeners c hc

end Reflected

namespace Reference

variable (r : Reference)

/-- The constructor of a class is documented, and reflection shows a member under its name. -/
def RepeatsConstructor (c : Reflected.ClassNode) : Prop :=
  (r.constructor? c.fullname).isSome ∧ ∃ word, ("constructor", .placeholder word) ∈ c.prototype

/-- Of the events on one side of a class, no two have the same name, without the mark of events, and
the same handler. -/
def EventsDiffer (table : ArityTable) (parent : String) (ms : List (String × Reflected)) : Prop :=
  ((r.events parent (Reflected.kept (Reflected.hasEvent r.corpus parent ms) ms)).map
    (listenerText table)).Nodup

variable {r} {parent : String} {ms : List (String × Reflected)} {dispatches : Bool}
  {ms' : List (String × Surface)}

theorem SideStandsFor.nodup_names (h : r.SideStandsFor parent ms dispatches ms')
    (hnames : (ms.map Prod.fst).Nodup) : (ms'.map Prod.fst).Nodup := by
  rw [names_of_standsFor h.members]
  exact hnames.sublist (List.filter_sublist.map _)

theorem SideStandsFor.not_mem_listenerNames (h : r.SideStandsFor parent ms dispatches ms')
    (hdispatches : dispatches = true) : ∀ m ∈ ms', m.1 ∉ listenerNames := by
  have hmembers := h.members
  rw [hdispatches] at hmembers
  exact not_mem_listenerNames_of_standsFor hmembers

/-- The lines that are made for the events of a side differ just if the events do. -/
theorem SideStandsFor.nodup_listenerTexts_iff (h : r.SideStandsFor parent ms dispatches ms')
    (table : ArityTable) :
    (dispatches = true → ((ms'.filterMap handler?).map (listenerText table)).Nodup) ↔
      r.EventsDiffer table parent ms := by
  obtain ⟨rfl, hmembers, -⟩ := h
  rw [filterMap_handler? hmembers, EventsDiffer]
  cases hflag : Reflected.hasEvent r.corpus parent ms with
  | true => exact forall_prop_of_true rfl
  | false =>
    have hnone : r.events parent ms = [] := by
      by_contra hsome
      rw [(r.hasEvent_iff parent ms).mpr hsome] at hflag
      cases hflag
    rw [Reflected.kept_false, hnone]
    exact ⟨fun _ => List.nodup_nil, fun _ => nofun⟩

/-! ### Constructors -/

theorem exists_of_mem_forall₂ {α β : Type} {R : α → β → Prop} {xs : List α} {ys : List β}
    (h : List.Forall₂ R xs ys) {x : α} (hx : x ∈ xs) : ∃ y ∈ ys, R x y := by
  induction h with
  | nil => cases hx
  | cons hfirst _ ih =>
    rcases List.mem_cons.mp hx with rfl | hx
    · exact ⟨_, List.mem_cons_self, hfirst⟩
    · obtain ⟨y, hy, hrel⟩ := ih hx
      exact ⟨y, List.mem_cons_of_mem _ hy, hrel⟩

theorem resolveLeaf_of_function? {fullname : String} {signatures : List Signature}
    (h : r.corpus.function? fullname = some signatures) (word : String) :
    r.resolveLeaf fullname word = .function (signatures.map r.qualifySignature) := by
  unfold Corpus.function? at h
  split at h
  · rename_i hget
    cases h
    rw [resolveLeaf, hget]
  · cases h

/-- The constructor is written with the signatures of its entry. -/
theorem ClassStandsFor.constructorLines_eq {c : Reflected.ClassNode} {c' : Surface.ClassNode}
    (h : r.ClassStandsFor c c') {signatures : List Signature}
    (hsignatures : r.constructor? c.fullname = some signatures) (table : ArityTable) :
    constructorLines table c'.header = signatureLines table ""
      (Declarations.memberName "constructor") (signatures.map r.qualifySignature) := by
  rw [constructorLines, h.constructor, hsignatures, Declarations.memberName_constructor]
  rfl

theorem ClassStandsFor.constructorLines_eq_nil {c : Reflected.ClassNode}
    {c' : Surface.ClassNode} (h : r.ClassStandsFor c c') (hnone : r.constructor? c.fullname = none)
    (table : ArityTable) : constructorLines table c'.header = [] := by
  rw [constructorLines, h.constructor, hnone]
  rfl

/-- The constructor of a class has a line in common with a member under its name just if both are
described by the same entry. -/
theorem ClassStandsFor.disjoint_constructorLines_iff {c : Reflected.ClassNode}
    {c' : Surface.ClassNode} (h : r.ClassStandsFor c c') (table : ArityTable) :
    (∀ m ∈ c'.prototype, m.1 = "constructor" →
      (declaringLines (constructorLines table c'.header)).Disjoint
        (declaringLines (classMemberLines table "" m.1 m.2))) ↔ ¬r.RepeatsConstructor c := by
  have hmembers := h.prototype.members
  constructor
  · rintro hdisjoint ⟨hsome, word, hword⟩
    obtain ⟨signatures, hsignatures⟩ := Option.isSome_iff_exists.mp hsome
    have hother : listenerNames.contains "constructor" = false := by decide
    have hkept : ("constructor", .placeholder word) ∈
        Reflected.kept c'.header.dispatchesEvents c.prototype :=
      List.mem_filter.mpr ⟨hword, by rw [hother, Bool.and_false]; rfl⟩
    obtain ⟨m, hm, hstands⟩ := exists_of_mem_forall₂ hmembers hkept
    have hname : m.1 = "constructor" := hstands.name
    have hnode : m.2 = .function (signatures.map r.qualifySignature) :=
      (hstands.placeholder word rfl).trans (resolveLeaf_of_function? hsignatures word)
    have hlines := hdisjoint m hm hname
    rw [hname, hnode, h.constructorLines_eq hsignatures] at hlines
    obtain ⟨line, hline⟩ := List.exists_mem_of_ne_nil _
      (Declarations.declaringLines_signatureLines_ne_nil table Declarations.empty_mem_memberLeads
        "constructor" (signatures.map r.qualifySignature))
    exact hlines hline hline
  · intro hnot m hm hname
    cases hconstructor : r.constructor? c.fullname with
    | none =>
      rw [h.constructorLines_eq_nil hconstructor]
      exact List.disjoint_nil_left _
    | some signatures =>
      obtain ⟨m', hm', hstands⟩ := exists_of_mem_forall₂ hmembers.flip hm
      have hnested : m.2.isNested = true := by
        refine hstands.nested fun word hword => hnot ⟨by rw [hconstructor]; rfl, word, ?_⟩
        have hpair : m' = ("constructor", .placeholder word) :=
          Prod.ext (hstands.name.symm.trans hname) hword
        exact hpair ▸ List.mem_of_mem_filter hm'
      rw [hname]
      exact Declarations.disjoint_constructorLines_of_isNested table c'.header hnested

/-- The body of a class repeats no line if its constructor stands once and its events differ. -/
theorem ClassStandsFor.nodup_body_iff {c : Reflected.ClassNode} {c' : Surface.ClassNode}
    (h : r.ClassStandsFor c c') (hnames : c.HasDistinctNames) (table : ArityTable) :
    (declaringLines (classBody table c'.header c'.statics c'.prototype)).Nodup ↔
      ¬r.RepeatsConstructor c ∧ r.EventsDiffer table c.fullname c.statics ∧
        r.EventsDiffer table c.fullname c.prototype := by
  rw [Declarations.nodup_classBody_iff table (h.statics.nodup_names hnames.1)
      (h.prototype.nodup_names hnames.2) h.statics.not_mem_listenerNames
      h.prototype.not_mem_listenerNames,
    h.disjoint_constructorLines_iff, h.statics.nodup_listenerTexts_iff,
    h.prototype.nodup_listenerTexts_iff]

end Reference

namespace Merger

variable {corpus : Corpus} {overrides : List (String × Json)} {m : Merger}

/-- A tree that a file holds is merged into classes that stand for the reflected ones. Comments
aside, the body of a class has a line twice in two cases only: its constructor is documented and
reflection shows a member under that name, or two events on one of its sides have the same name,
without the mark of events, and the same handler. -/
theorem nodup_bodies_of_mergeUntilMisfit (h : Reachable corpus overrides m) {path : Path}
    {text : String} {root : Reflected.Root} (hroot : Reflected.rootOfText path text = .ok root)
    (table : ArityTable) :
    let r := Reference.ofCorpus corpus overrides
    ((∀ e ∈ corpus.entries, e.2.isWellTyped = true) → (∀ o ∈ overrides, o.2.isText = true) →
      ∃ next merged, m.mergeUntilMisfit root = (next, .ok merged)) ∧
    ∀ next merged, m.mergeUntilMisfit root = (next, .ok merged) →
      List.Forall₂ (fun c c' =>
        (declaringLines (classBody table c'.header c'.statics c'.prototype)).Nodup ↔
          ¬r.RepeatsConstructor c ∧ r.EventsDiffer table c.fullname c.statics ∧
            r.EventsDiffer table c.fullname c.prototype)
        (Reflected.classes corpus root.node) merged.surface.classes := by
  intro r
  refine ⟨fun hentries hoverrides => ⟨_, _, h.mergeUntilMisfit_eq hentries hoverrides root⟩,
    fun next merged hrun => ?_⟩
  have hclasses := h.classStandsFor_merge root
  rw [merge_of_mergeUntilMisfit hrun, h.reference] at hclasses
  have hnames := (Reflected.hasDistinctNames_of_mem_classes corpus).1 root.node
    (Reflected.hasDistinctNames_of_rootOfText hroot)
  refine ((List.forall₂_and_left _ _).mpr ⟨hnames, hclasses⟩).imp fun c c' hc => ?_
  exact hc.2.nodup_body_iff hc.1 table

/-- A class with a constructor, as its pages describe it. -/
def engineCorpus : Corpus where
  entries :=
    [("n.engine", ⟨"N.Engine", "", .cls [] false⟩),
     ("n.engine.constructor",
       ⟨"N.Engine.constructor", "", .function [{ returned := .newInstance }]⟩)]

/-- The class as reflection shows it: every prototype has its constructor among its members. -/
def engineTree : Json :=
  .object [("__type", "structure"), ("__fullname", "N"),
    ("Engine", .object [("__type", "class"), ("__fullname", "N.Engine"),
      ("prototype", .object [("constructor", "function")])])]

def engineRoot : Reflected.Root where
  fullname := "N"
  members := [("Engine", .cls "N.Engine" none [] [("constructor", .placeholder "function")])]

/-- The line of the constructor stands twice in the body of its class. -/
theorem nodup_bodies_of_mergeUntilMisfit_engine :
    Reachable engineCorpus [] (ofCorpus engineCorpus []) ∧
    Reflected.rootOfText (.ofText "tree.json") (engineTree.write {} ++ "\n") = .ok engineRoot ∧
    ∃ next merged c, (ofCorpus engineCorpus []).mergeUntilMisfit engineRoot = (next, .ok merged) ∧
      merged.surface.classes = [c] ∧
      ¬(declaringLines (classBody {} c.header c.statics c.prototype)).Nodup := by
  have hreachable : Reachable engineCorpus [] (ofCorpus engineCorpus []) := .new
  have hroot : Reflected.rootOfText (.ofText "tree.json") (engineTree.write {} ++ "\n") =
      .ok engineRoot := by
    have hvalue : engineTree.isReadable = true := by decide
    exact decodeText_of_read (Json.read_write_newline _ hvalue) hvalue rfl
  obtain ⟨hends, hclasses⟩ := nodup_bodies_of_mergeUntilMisfit hreachable hroot {}
  obtain ⟨next, merged, hrun⟩ := hends (by decide) nofun
  obtain ⟨c, classes, hbody, hnil, heq⟩ := List.forall₂_cons_left_iff.mp (hclasses next merged hrun)
  obtain rfl := List.forall₂_nil_left_iff.mp hnil
  refine ⟨hreachable, hroot, next, merged, c, hrun, heq, fun hnodup => ?_⟩
  have hconstructor : (Reference.ofCorpus engineCorpus []).RepeatsConstructor
      ⟨"N.Engine", [], [("constructor", .placeholder "function")]⟩ :=
    ⟨by decide +kernel, "function", List.mem_cons_self⟩
  exact (hbody.mp hnodup).1 hconstructor

end Merger

end ScriptTypings
