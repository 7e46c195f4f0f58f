import ScriptTypings.Proofs.Merge.Backfilled
import ScriptTypings.Proofs.Merge.Reachable
import ScriptTypings.Surface.Coverage

/-!
# The leaves of merged trees

Reflection shows placeholders in their places: every `Place` of a tree tells where its placeholder
stands. In a merged tree the members that count as coverage are those that the places stand for, one
for one and in order, without the hidden ones: these are listener functions of classes that dispatch
events, and what is below them.
-/

namespace ScriptTypings

open Surface (listenerNames)

/-- Where a placeholder stands: the full name of its parent, its own name and what reflection shows.
A hidden one is not on the surface. -/
structure Place where
  parent : String
  name : String
  word : String
  hidden : Bool
  deriving DecidableEq, Repr

namespace Place

/-- The name under which the corpus may have an entry. -/
def fullname (place : Place) : String :=
  Identifier.member place.parent place.name

end Place

namespace Corpus

/-- Whether the entry of a name is that of an event. -/
def isEvent (corpus : Corpus) (fullname : String) : Bool :=
  match corpus.get? fullname with
  | some ⟨_, _, .event _⟩ => true
  | _ => false

/-- Whether the entry of a name is that of a function, an event or a property. -/
def describesMember (corpus : Corpus) (fullname : String) : Bool :=
  match corpus.get? fullname with
  | some ⟨_, _, .function _⟩ => true
  | some ⟨_, _, .event _⟩ => true
  | some ⟨_, _, .property _⟩ => true
  | _ => false

end Corpus

namespace Reflected

/-- Whether some member in a member map of a class is a placeholder for an event. -/
def hasEvent (corpus : Corpus) (parent : String) (members : List (String × Reflected)) : Bool :=
  members.any fun
    | (name, .placeholder _) => corpus.isEvent (Identifier.member parent name)
    | _ => false

mutual

/-- The places of all placeholders in a tree, those of a class's own object first. Below an entry
for listener functions in a member map with an event, they are hidden. -/
def places (corpus : Corpus) (hidden : Bool) (parent name : String) : Reflected → List Place
  | .placeholder word => [⟨parent, name, word, hidden⟩]
  | .space fullname members => placesOf corpus hidden false fullname members
  | .cls fullname _ statics prototype =>
    placesOf corpus hidden (hasEvent corpus fullname statics) fullname statics ++
      placesOf corpus hidden (hasEvent corpus fullname prototype) fullname prototype

/-- The places among the members of a node; a flag tells whether the listener functions are left
out. -/
def placesOf (corpus : Corpus) (hidden withoutListeners : Bool) (parent : String) :
    List (String × Reflected) → List Place
  | [] => []
  | (name, node) :: members =>
    places corpus (hidden || (withoutListeners && listenerNames.contains name)) parent name node ++
      placesOf corpus hidden withoutListeners parent members

end

/-- The places that are on the surface. -/
def shownPlaces (corpus : Corpus) (root : Root) : List Place :=
  (places corpus false "" (Identifier.lastSegment root.fullname) root.node).filter (!·.hidden)

/-- All that is below a hidden node is hidden. -/
theorem filter_places_hidden (corpus : Corpus) :
    (∀ node parent name, (places corpus true parent name node).filter (!·.hidden) = []) ∧
      ∀ ms withoutListeners parent,
        (placesOf corpus true withoutListeners parent ms).filter (!·.hidden) = [] := by
  refine tree_induction ?placeholder ?space ?cls ?nil ?cons
  case placeholder =>
    intro word parent name
    rfl
  case space =>
    intro fullname members ih parent name
    exact ih _ _
  case cls =>
    intro fullname base statics prototype ihs ihp parent name
    rw [places, List.filter_append, ihs, ihp]
    rfl
  case nil =>
    intro withoutListeners parent
    rfl
  case cons =>
    intro name node members ihn ihm withoutListeners parent
    rw [placesOf, Bool.true_or, List.filter_append, ihn, ihm]
    rfl

end Reflected

namespace Surface

/-! ### Leaves of members -/

@[simp] theorem isEvent_withListeners (s : Surface) : s.withListeners.isEvent = s.isEvent := by
  cases s <;> rfl

@[simp] theorem isEvent_attach (additions : Nat → List (String × Surface)) (number : Nat)
    (s : Surface) : (attach additions number s).isEvent = s.isEvent := by
  cases s <;> rfl

theorem dispatches_withListenersOf (ms : List (String × Surface)) :
    dispatches (withListenersOf ms) = dispatches ms := by
  simp [dispatches, withListenersOf_eq_map, List.any_map, Function.comp_def]

theorem leavesOf_append (ms ms' : List (String × Surface)) :
    leavesOf (ms ++ ms') = leavesOf ms ++ leavesOf ms' := by
  induction ms with
  | nil => rfl
  | cons m ms ih => rw [List.cons_append, leavesOf, leavesOf, ih, List.append_assoc]

/-- The members that stay if listener functions are left out. -/
def shown (withoutListeners : Bool) (ms : List (String × Surface)) : List (String × Surface) :=
  ms.filter fun m => !(withoutListeners && listenerNames.contains m.1)

theorem withoutListeners_eq_shown (ms : List (String × Surface)) :
    withoutListeners ms = shown (dispatches ms) ms := by
  rw [withoutListeners, shown]
  cases dispatches ms with
  | true => rfl
  | false => exact (List.filter_eq_self.mpr fun _ _ => rfl).symm

theorem shown_false (ms : List (String × Surface)) : shown false ms = ms :=
  List.filter_eq_self.mpr fun _ _ => rfl

theorem leavesOf_shown_cons (withoutListeners : Bool) (name : String) (node : Surface)
    (ms : List (String × Surface)) : leavesOf (shown withoutListeners ((name, node) :: ms)) =
      (if withoutListeners && listenerNames.contains name then [] else node.leaves) ++
        leavesOf (shown withoutListeners ms) := by
  rw [shown, List.filter_cons]
  cases withoutListeners && listenerNames.contains name with
  | true => rfl
  | false => rfl

theorem dispatches_attachAll (additions : Nat → List (String × Surface)) (number : Nat)
    (ms : List (String × Surface)) :
    dispatches (attachAll additions number ms) = dispatches ms := by
  induction ms generalizing number with
  | nil => rfl
  | cons m ms ih =>
    have hrest := ih (number + m.2.spaces.length)
    rw [dispatches] at hrest
    rw [attachAll, dispatches, List.any_cons, isEvent_attach, hrest]
    rfl

theorem leavesOf_of_isDeclared {ms : List (String × Surface)}
    (h : ∀ m ∈ ms, m.2.isDeclared = true) : leavesOf (withListenersOf ms) = [] := by
  induction ms with
  | nil => rfl
  | cons m ms ih =>
    obtain ⟨hm, hms⟩ := List.forall_mem_cons.mp h
    obtain ⟨name, node⟩ := m
    rw [withListenersOf, leavesOf, ih hms, withListeners_of_leaf (isNested_of_isDeclared hm)]
    cases node <;> first | rfl | cases hm

/-- Declarations are no leaves, so that putting them into namespaces changes no leaf. -/
theorem leaves_withListeners_attach {additions : Nat → List (String × Surface)}
    (h : ∀ number, ∀ m ∈ additions number, m.2.isDeclared = true) :
    (∀ s number, (attach additions number s).withListeners.leaves = s.withListeners.leaves) ∧
      ∀ ms number withoutListeners,
        leavesOf (shown withoutListeners (withListenersOf (attachAll additions number ms))) =
          leavesOf (shown withoutListeners (withListenersOf ms)) := by
  refine tree_induction ?space ?enumeration ?cls ?leaf ?nil ?cons
  case space =>
    intro name fullname description members ih number
    have hsame := ih (number + 1) false
    rw [shown_false, shown_false] at hsame
    rw [attach, withListeners, withListeners, leaves, leaves, withListenersOf_eq_map,
      List.map_append, ← withListenersOf_eq_map, ← withListenersOf_eq_map, leavesOf_append, hsame,
      leavesOf_of_isDeclared (h number), List.append_nil]
  case enumeration =>
    intro name fullname description members ih number
    have hsame := ih number false
    rw [shown_false, shown_false] at hsame
    rw [attach, withListeners, withListeners, leaves, leaves, hsame]
  case cls =>
    intro header statics prototype ihs ihp number
    rw [attach, withListeners, withListeners, leaves, leaves]
    simp only [withoutListeners_eq_shown, dispatches_withListenersOf, dispatches_attachAll, ihs,
      ihp]
  case leaf =>
    intro s hs number
    rw [attach_of_leaf hs]
  case nil =>
    intro number withoutListeners
    rfl
  case cons =>
    intro name node members ihn ihm number withoutListeners
    rw [attachAll, withListenersOf, withListenersOf, leavesOf_shown_cons, leavesOf_shown_cons,
      ihn, ihm]

end Surface

namespace Reference

variable (r : Reference)

/-- The member that stands for a place. -/
def leafAt (place : Place) : Surface :=
  r.resolveLeaf place.fullname place.word

theorem isEvent_resolveLeaf (fullname word : String) :
    (r.resolveLeaf fullname word).isEvent = r.corpus.isEvent fullname := by
  unfold resolveLeaf Corpus.isEvent
  split <;> simp_all [Surface.isEvent]

theorem leaves_resolveLeaf (fullname word : String) :
    (r.resolveLeaf fullname word).leaves = [r.resolveLeaf fullname word] := by
  unfold resolveLeaf
  split <;> rfl

theorem dispatches_resolveMembers (parent : String) (ms : List (String × Reflected)) :
    Surface.dispatches (r.resolveMembers parent ms) = Reflected.hasEvent r.corpus parent ms := by
  induction ms with
  | nil => rfl
  | cons m ms ih =>
    obtain ⟨name, node⟩ := m
    rw [Surface.dispatches, Reflected.hasEvent] at ih ⊢
    rw [resolveMembers, List.any_cons, List.any_cons, ih]
    cases node with
    | placeholder word => rw [resolve, isEvent_resolveLeaf]
    | space fullname members =>
      rw [resolve]
      split <;> rfl
    | cls fullname base statics prototype => rfl

/-- The leaves of the resolved tree are the members for the places that are not hidden. -/
theorem leaves_withListeners_resolve :
    (∀ node parent name, (r.resolve parent name node).withListeners.leaves =
      ((Reflected.places r.corpus false parent name node).filter (!·.hidden)).map r.leafAt) ∧
    ∀ ms parent withoutListeners,
      Surface.leavesOf (Surface.shown withoutListeners
        (Surface.withListenersOf (r.resolveMembers parent ms))) =
      ((Reflected.placesOf r.corpus false withoutListeners parent ms).filter (!·.hidden)).map
        r.leafAt := by
  refine Reflected.tree_induction ?placeholder ?space ?cls ?nil ?cons
  case placeholder =>
    intro word parent name
    rw [resolve, Surface.withListeners_of_leaf (r.resolveLeaf_leaf _ word).1, leaves_resolveLeaf]
    rfl
  case space =>
    intro fullname members ih parent name
    have hmembers := ih fullname false
    rw [Surface.shown_false] at hmembers
    rw [resolve, Reflected.places]
    split
    · exact hmembers
    · exact hmembers
  case cls =>
    intro fullname base statics prototype ihs ihp parent name
    rw [resolve, Surface.withListeners, Surface.leaves, Reflected.places, List.filter_append,
      List.map_append]
    -- a map dispatches events exactly if one of its placeholders is for an event
    simp only [Surface.withoutListeners_eq_shown, Surface.dispatches_withListenersOf,
      dispatches_resolveMembers, ihs, ihp]
  case nil =>
    intro parent withoutListeners
    rfl
  case cons =>
    intro name node members ihn ihm parent withoutListeners
    rw [resolveMembers, Surface.withListenersOf, Surface.leavesOf_shown_cons, Reflected.placesOf,
      List.filter_append, List.map_append, ihn, ihm, Bool.false_or]
    cases withoutListeners && Surface.listenerNames.contains name with
    | true => rw [(Reflected.filter_places_hidden r.corpus).1]; rfl
    | false => rfl

theorem isUnresolved_leafAt (place : Place) :
    (r.leafAt place).isUnresolved = !r.corpus.describesMember place.fullname := by
  unfold leafAt resolveLeaf Corpus.describesMember
  split <;> simp_all [Surface.isUnresolved]

/-- A member that is not described keeps what reflection shows. -/
theorem leafAt_of_not_describesMember {place : Place}
    (h : r.corpus.describesMember place.fullname = false) :
    r.leafAt place = .unresolved place.word := by
  unfold leafAt resolveLeaf
  unfold Corpus.describesMember at h
  split <;> simp_all

end Reference

namespace Merger

variable {r : Reference} {owners : NameMap Nat}

/-- Whatever a backfill adds is a declaration. -/
theorem isDeclared_backfill {p : Progress} (hdistinct : p.memory.Distinct)
    (hstart : p.additions = []) (number : Nat) :
    ∀ m ∈ additionsTo (backfill r owners p).additions number, m.2.isDeclared = true := by
  intro m hm
  obtain ⟨_, _, declared, -, -, hdeclared, hnode⟩ :=
    exists_isDeclarationOf hdistinct hstart number m hm
  rw [hnode]
  exact (declared_node hdeclared).1

variable {corpus : Corpus} {overrides : List (String × Json)} {m : Merger}

theorem Reachable.leaves_merge (h : Reachable corpus overrides m) (root : Reflected.Root) :
    (m.merge root).2.surface.leaves = (m.reference.resolve "" (Identifier.lastSegment root.fullname)
      root.node).withListeners.leaves :=
  (Surface.leaves_withListeners_attach (isDeclared_backfill (h.sound.distinct.addAll _) rfl)).1 _ _

/-- The members that a merged tree shows are those for the placeholders of the reflected tree, in
order and each once, without hidden ones. One is unresolved, and shows what reflection does, if the
corpus describes no function, event or property under its name. Coverage counts just these, and
declarations do not change it. -/
theorem leaves_mergeUntilMisfit (h : Reachable corpus overrides m) (root : Reflected.Root) :
    let r := Reference.ofCorpus corpus overrides
    let shown := Reflected.shownPlaces corpus root
    ((∀ e ∈ corpus.entries, e.2.isWellTyped = true) → (∀ o ∈ overrides, o.2.isText = true) →
      ∃ next merged, m.mergeUntilMisfit root = (next, .ok merged)) ∧
    (∀ place ∈ shown, ((r.leafAt place).isUnresolved = true ↔
        corpus.describesMember place.fullname = false) ∧
      ((r.leafAt place).isUnresolved = true → r.leafAt place = .unresolved place.word)) ∧
    ∀ next merged, m.mergeUntilMisfit root = (next, .ok merged) →
      merged.surface.leaves = shown.map r.leafAt ∧
      Coverage.ofSurface merged.surface =
        { resolved := (shown.filter fun place => corpus.describesMember place.fullname).length
          total := shown.length } ∧
      Coverage.ofSurface merged.surface = Coverage.ofSurface
        (r.resolve "" (Identifier.lastSegment root.fullname) root.node).withListeners := by
  intro r shown
  refine ⟨fun hentries hoverrides => ⟨_, _, h.mergeUntilMisfit_eq hentries hoverrides root⟩,
    fun place _ => ?_, fun next merged hrun => ?_⟩
  · rw [r.isUnresolved_leafAt, Bool.not_eq_true']
    exact ⟨Iff.rfl, r.leafAt_of_not_describesMember⟩
  · have hkept := h.leaves_merge root
    rw [merge_of_mergeUntilMisfit hrun, h.reference] at hkept
    have hleaves : merged.surface.leaves = shown.map r.leafAt :=
      hkept.trans (r.leaves_withListeners_resolve.1 _ _ _)
    refine ⟨hleaves, ?_, ?_⟩
    · rw [Coverage.ofSurface, hleaves, List.length_map, List.filter_map, List.length_map]
      congr 2
      refine List.filter_congr fun place _ => ?_
      rw [Function.comp_apply, r.isUnresolved_leafAt, Bool.not_not]
      rfl
    · rw [Coverage.ofSurface, Coverage.ofSurface, hkept]

/-- A class with an event, as its page describes it. -/
def sensorCorpus : Corpus where
  entries :=
    [("n.sensor", ⟨"N.Sensor", "", .cls [] false⟩),
     ("n.sensor.onchanged", ⟨"N.Sensor.onchanged", "", .event "Handler"⟩)]

/-- The class as reflection shows it: with a listener function and a member without entry. -/
def sensorRoot : Reflected.Root where
  fullname := "N"
  members := [("Sensor", .cls "N.Sensor" none [] [("onchanged", .placeholder "object"),
    ("addEventListener", .placeholder "function"), ("size", .placeholder "number")])]

/-- The listener function does not count, and the member without entry is not described. -/
theorem leaves_mergeUntilMisfit_sensor :
    Reachable sensorCorpus [] (ofCorpus sensorCorpus []) ∧
    (∀ e ∈ sensorCorpus.entries, e.2.isWellTyped = true) ∧
    ∃ next merged, (ofCorpus sensorCorpus []).mergeUntilMisfit sensorRoot = (next, .ok merged) ∧
      Coverage.ofSurface merged.surface = { resolved := 1, total := 2 } := by
  have htyped : ∀ e ∈ sensorCorpus.entries, e.2.isWellTyped = true := by decide
  have hreachable : Reachable sensorCorpus [] (ofCorpus sensorCorpus []) := .new
  obtain ⟨hends, -, hleaves⟩ := leaves_mergeUntilMisfit hreachable sensorRoot
  obtain ⟨next, merged, hrun⟩ := hends htyped nofun
  refine ⟨hreachable, htyped, next, merged, hrun, ?_⟩
  rw [(hleaves next merged hrun).2.1]
  decide

end Merger

end ScriptTypings
