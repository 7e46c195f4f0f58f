import Mathlib.Data.List.Nodup
import ScriptTypings.Proofs.Merge.Backfill
import ScriptTypings.Proofs.Merge.Completion

/-!
# Merged trees

`Backfilled` says what a merge makes of the resolved tree: which structural types are declared, and
where. `backfilled_merge` shows it for every merge by a new merger.
-/

namespace ScriptTypings.Merger

open Text

/-- The surface `full` is the resolved one, with the remembered structural types declared in the
namespaces that own them. -/
structure Backfilled (r : Reference) (memory : Memory) (resolved full : Surface) : Prop where
  /-- Apart from declarations, the surface is the resolved one. -/
  kept : full.withoutDeclarations = resolved
  /-- Every remembered structural type that some namespace lists has a member in the last one that
  does. -/
  complete : ∀ name ∈ memory.names, ∀ entry, r.corpus.get? name = some entry →
    isStructural entry = true → ∀ space ∈ resolved.spaces,
    lowered name ∈ listedTypes r space.fullname →
    ∃ number fullname members, ListsLast r resolved.spaces (lowered name) number ∧
      full.memberLists[number]? = some (fullname, members) ∧
      shortName entry ∈ members.map Prod.fst
  /-- A namespace has its own members, and behind them the declarations of remembered structural
  types that it is the last to list, under names that no other member has. -/
  sound : ∀ number fullname members, full.memberLists[number]? = some (fullname, members) →
    ∃ own added, members = own ++ added ∧
      resolved.memberLists[number]? = some (fullname, Surface.withoutDeclarationsOf own) ∧
      (added.map Prod.fst).Nodup ∧ ∀ m ∈ added, m.1 ∉ own.map Prod.fst ∧
        ∃ name ∈ memory.names, ∃ entry declared, r.corpus.get? name = some entry ∧
          isStructural entry = true ∧ ListsLast r resolved.spaces (lowered name) number ∧
          m.1 = shortName entry ∧ r.declare? m.1 entry = some declared ∧ m.2 = declared.node
  /-- No entry is declared twice. -/
  once : (full.declarations.map Surface.declaredKey).Nodup

/-- The names of the members of a numbered namespace. -/
theorem namesIn_spaces {s : Surface} {number : Nat} {fullname : String}
    {members : List (String × Surface)} (h : s.memberLists[number]? = some (fullname, members)) :
    namesIn s.spaces number = members.map Prod.fst := by
  simp [namesIn, Surface.spaces_eq_map_memberLists.1 s, h]

theorem names_attachAll (additions : Nat → List (String × Surface)) (number : Nat)
    (ms : List (String × Surface)) :
    (Surface.attachAll additions number ms).map Prod.fst = ms.map Prod.fst := by
  induction ms generalizing number with
  | nil => rfl
  | cons m ms ih => simp [Surface.attachAll, ih]

/-- Declarations of different entries are different in whatever namespaces they are. -/
theorem nodup_additionsTo {additions : List Addition}
    (h : (additions.map fun a => a.node.declaredKey).Nodup) (numbers : List Nat)
    (hnumbers : numbers.Nodup) : ((numbers.flatMap fun number =>
      (additionsTo additions number).map Prod.snd).map Surface.declaredKey).Nodup := by
  rw [List.map_flatMap, List.nodup_flatMap]
  have hkeys : ∀ number, ((additionsTo additions number).map Prod.snd).map Surface.declaredKey =
      (additions.filter fun a => a.owner = number).map fun a => a.node.declaredKey := by
    intro number
    simp [additionsTo]
  simp only [hkeys]
  refine ⟨fun number _ => h.sublist (List.filter_sublist.map _), ?_⟩
  refine hnumbers.imp fun {number other} hne key hkey hkey' => ?_
  obtain ⟨a, ha, rfl⟩ := List.mem_map.mp hkey
  obtain ⟨b, hb, hsame⟩ := List.mem_map.mp hkey'
  obtain ⟨ha, hnumber⟩ := List.mem_filter.mp ha
  obtain ⟨hb, hother⟩ := List.mem_filter.mp hb
  have hab : b = a := List.inj_on_of_nodup_map h hb ha hsame
  exact hne ((of_decide_eq_true hnumber).symm.trans (hab ▸ of_decide_eq_true hother))

/-- A numbered namespace with declarations attached has its own members and then these. -/
theorem getElem?_memberLists_attach {additions : List Addition}
    (hdeclared : ∀ number, ∀ m ∈ additionsTo additions number, m.2.isDeclared = true)
    (s : Surface) (number : Nat) :
    (s.attach (additionsTo additions) 0).memberLists[number]? =
      s.memberLists[number]?.map fun e => (e.1,
        Surface.attachAll (additionsTo additions) (number + 1) e.2 ++
          additionsTo additions number) := by
  rw [(Surface.memberLists_attach _ hdeclared).1 s 0]
  simp [Option.map_map, Function.comp_def]

section

variable {r : Reference} {resolved : Surface} {p : Progress}

/-- All additions of the backfill are declarations. -/
theorem Backfilling.isDeclared {owners : NameMap Nat} {spaces : List Surface.Space}
    {seen : List String} (h : Backfilling r owners spaces seen p) (number : Nat) :
    ∀ m ∈ additionsTo p.additions number, m.2.isDeclared = true := by
  intro m hm
  obtain ⟨_, _, _, declared, _, _, hdeclared, hnode⟩ := h.sound number m hm
  exact hnode ▸ (declared_node hdeclared).1

/-- What the progress of the backfill says of the surface to which its declarations are attached. -/
theorem Backfilling.backfilled
    (h : Backfilling r (registerAll r 0 resolved.spaces []) resolved.spaces p.memory.names p)
    (hdistinct : p.memory.Distinct) (hresolved : resolved.withoutDeclarations = resolved)
    (hmembers : ∀ e ∈ resolved.memberLists, Surface.withoutDeclarationsOf e.2 = e.2)
    (hdeclarations : resolved.declarations = []) :
    Backfilled r p.memory resolved (resolved.attach (additionsTo p.additions) 0) where
  kept := by rw [(Surface.withoutDeclarations_attach _ h.isDeclared).1, hresolved]
  complete := by
    intro name hname entry hget hstructural space hspace hlisted
    -- the last namespace that lists the type owns it
    obtain ⟨number, hlast⟩ := exists_listsLast hspace hlisted
    have hmem := h.complete name hname entry number
      ⟨hget, hstructural, (find?_registerAll ..).mpr hlast⟩
    have hlt := hlast.lt_length
    obtain ⟨⟨fullname, own⟩, hown⟩ : ∃ e, resolved.memberLists[number]? = some e :=
      ⟨_, List.getElem?_eq_getElem (by rwa [Surface.length_memberLists])⟩
    rw [h.names number hlt, namesIn_spaces hown] at hmem
    refine ⟨number, _, _, hlast, by rw [getElem?_memberLists_attach h.isDeclared, hown]; rfl, ?_⟩
    rwa [List.map_append, names_attachAll]
  sound := by
    intro number fullname members hget
    rw [getElem?_memberLists_attach h.isDeclared, Option.map_eq_some_iff] at hget
    obtain ⟨⟨_, own⟩, hown, heq⟩ := hget
    obtain ⟨rfl, rfl⟩ := Prod.mk.inj heq
    have hlt : number < resolved.spaces.length := by
      rw [← Surface.length_memberLists]
      exact (List.getElem?_eq_some_iff.mp hown).1
    obtain ⟨hnodup, hapart⟩ := h.fresh number hlt
    refine ⟨_, _, rfl, ?_, hnodup, fun m hm => ⟨?_, ?_⟩⟩
    · rw [(Surface.withoutDeclarations_attach _ h.isDeclared).2,
        hmembers _ (List.mem_of_getElem? hown)]
      exact hown
    · rw [names_attachAll, ← namesIn_spaces hown]
      exact hapart m hm
    · obtain ⟨name, hname, entry, declared, htarget, hshort, hdecl, hnode⟩ := h.sound number m hm
      exact ⟨name, hname, entry, declared, htarget.get?, htarget.structural,
        (find?_registerAll ..).mp htarget.owned, hshort, hshort ▸ hdecl, hnode⟩
  once := by
    have hperm := (Surface.declarations_attach_perm _ h.isDeclared).1 resolved 0
    rw [hdeclarations, List.nil_append] at hperm
    refine (hperm.map Surface.declaredKey).nodup_iff.mpr ?_
    exact nodup_additionsTo (h.once.nodup hdistinct.nodup_lowered) _ List.nodup_range'

end

/-- A merge by a new merger declares the remembered structural types in the namespaces that own
them, whichever way they refer to each other. -/
theorem backfilled_merge {corpus : Corpus} (hcorpus : corpus.KeyedByIdentifier)
    (overrides : List (String × Json)) (root : Reflected.Root) :
    let r := Reference.ofCorpus corpus overrides
    let resolved := r.resolve "" (Identifier.lastSegment root.fullname) root.node
    let result := (ofCorpus corpus overrides).merge root
    ∃ full, result.2.surface = full.withListeners ∧
      Backfilled r result.1.memory resolved full := by
  intro r resolved result
  have hdistinct : (({} : Memory).addAll resolved.mentions).Distinct :=
    Memory.distinct_empty.addAll _
  have howners : ∀ key number,
      NameMap.find? key (registerAll r 0 resolved.spaces []) = some number →
        number < resolved.spaces.length :=
    fun key number h => ((find?_registerAll ..).mp h).lt_length
  have hrun := backfilling_backfill (r := r)
    (p := { memory := ({} : Memory).addAll resolved.mentions, spaces := resolved.spaces })
    hcorpus howners hdistinct rfl
  exact ⟨_, rfl, hrun.backfilled (distinct_backfill hdistinct)
    (r.withoutDeclarations_resolve.1 _ _ _) (r.withoutDeclarationsOf_of_mem_memberLists.1 _ _ _)
    (r.declarations_resolve.1 _ _ _)⟩

/-- Every merge by a new merger ends, with a tree if all entries are well typed and all overrides
are texts. The tree is the resolved one, with every remembered structural type in the last namespace
that lists it and no entry declared twice; classes in it may lose reflected listener functions, and
no other namespace changes. -/
theorem mergeUntilMisfit_declares_remembered {corpus : Corpus}
    (hcorpus : corpus.KeyedByIdentifier) (overrides : List (String × Json))
    (root : Reflected.Root) :
    let r := Reference.ofCorpus corpus overrides
    let resolved := r.resolve "" (Identifier.lastSegment root.fullname) root.node
    ((∀ e ∈ corpus.entries, e.2.isWellTyped = true) → (∀ o ∈ overrides, o.2.isText = true) →
      ShortNames.misfit? corpus = none ∧ ∃ done merged,
        (ofCorpus corpus overrides).mergeUntilMisfit root = (done, .ok merged)) ∧
    ∀ done merged, (ofCorpus corpus overrides).mergeUntilMisfit root = (done, .ok merged) →
      (merged.surface.declarations.map Surface.declaredKey).Nodup ∧
      merged.surface.withoutDeclarations = resolved.withListeners ∧
      ∃ full, merged.surface = full.withListeners ∧
        merged.surface.memberLists.Sublist
          (full.memberLists.map fun e => (e.1, Surface.withListenersOf e.2)) ∧
        Backfilled r done.memory resolved full := by
  intro r resolved
  refine ⟨fun hentries hoverrides => ⟨misfit?_shortNames hentries, _, _,
    mergeUntilMisfit_eq hentries hoverrides root⟩, fun done merged hrun => ?_⟩
  obtain ⟨full, hfull, hbackfilled⟩ := backfilled_merge hcorpus overrides root
  rw [merge_of_mergeUntilMisfit hrun] at hfull hbackfilled
  refine ⟨?_, ?_, full, hfull, hfull ▸ Surface.memberLists_withListeners_sublist.1 full,
    hbackfilled⟩
  · have hsublist := Surface.declarations_withListeners_sublist.1 full
    rw [← hfull] at hsublist
    exact hbackfilled.once.sublist (hsublist.map _)
  · rw [hfull, Surface.withoutDeclarations_withListeners.1, hbackfilled.kept]

/-- A namespace whose page lists two structures, each with a field of the type of the other. -/
def ringCorpus : Corpus where
  entries :=
    [("n", ⟨"N", "", .space { structures := ["N.Here", "N.There"] }⟩),
     ("n.here", ⟨"N.Here", "", .record [⟨"next", "There", ""⟩]⟩),
     ("n.there", ⟨"N.There", "", .record [⟨"next", "Here", ""⟩]⟩),
     ("n.start", ⟨"N.Start", "", .property "Here"⟩)]

/-- Structures that refer to each other are declared once each. -/
theorem mergeUntilMisfit_declares_ring :
    ringCorpus.KeyedByIdentifier ∧ (∀ e ∈ ringCorpus.entries, e.2.isWellTyped = true) ∧
    ∃ done merged, (ofCorpus ringCorpus []).mergeUntilMisfit
        ⟨"N", [("Start", .placeholder "property")]⟩ = (done, .ok merged) ∧
      (merged.surface.declarations.map Surface.declaredKey).Nodup := by
  have hkeyed : ringCorpus.KeyedByIdentifier := by decide
  have htyped : ∀ e ∈ ringCorpus.entries, e.2.isWellTyped = true := by decide
  obtain ⟨hends, hdeclares⟩ := mergeUntilMisfit_declares_remembered hkeyed []
    ⟨"N", [("Start", .placeholder "property")]⟩
  obtain ⟨-, done, merged, hrun⟩ := hends htyped nofun
  exact ⟨hkeyed, htyped, done, merged, hrun, (hdeclares done merged hrun).1⟩

end ScriptTypings.Merger
