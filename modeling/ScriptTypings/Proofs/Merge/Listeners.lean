import Mathlib.Data.List.Forall2
import ScriptTypings.Page.Basic
import ScriptTypings.Proofs.Declarations.Listeners
import ScriptTypings.Proofs.Merge.Leaves
import ScriptTypings.Proofs.Text.Ascii

/-!
# Listener functions of merged classes

A class of a merged tree stands for a class of the reflected tree. On each of its sides it dispatches
events if one of the reflected members is an event; then it has no reflected listener function there,
and its body declares a pair of them for every event and one pair for all others. Otherwise it has
all reflected members and nothing is added. `listenersMatch_of_mergeUntilMisfit` says so of all
classes that are on the surface.
-/

namespace ScriptTypings

open Text
open Surface (listenerNames withListenersOf attachAll shown)
open Declarations (ArityTable classBody classMemberLines eventName isListenerLine listenerLine
  listenerLines listenerPairs memberLeads typeName)

/-! ### Classes -/

namespace Reflected

/-- A class of a reflected tree. -/
structure ClassNode where
  fullname : String
  statics : List (String × Reflected)
  prototype : List (String × Reflected)

mutual

/-- The classes of a tree that are on the surface, each before those inside of it. What is listed
under the name of a listener function beside an event is not. -/
def classes (corpus : Corpus) : Reflected → List ClassNode
  | .placeholder _ => []
  | .space _ members => classesOf corpus false members
  | .cls fullname _ statics prototype =>
    ⟨fullname, statics, prototype⟩ ::
      (classesOf corpus (hasEvent corpus fullname statics) statics ++
        classesOf corpus (hasEvent corpus fullname prototype) prototype)

def classesOf (corpus : Corpus) (withoutListeners : Bool) :
    List (String × Reflected) → List ClassNode
  | [] => []
  | (name, node) :: members =>
    (if withoutListeners && listenerNames.contains name then [] else classes corpus node) ++
      classesOf corpus withoutListeners members

end

/-- The reflected members that stay if listener functions are left out. -/
def kept (withoutListeners : Bool) (members : List (String × Reflected)) :
    List (String × Reflected) :=
  members.filter fun m => !(withoutListeners && listenerNames.contains m.1)

theorem kept_false (members : List (String × Reflected)) : kept false members = members :=
  List.filter_eq_self.mpr fun _ _ => rfl

end Reflected

namespace Surface

/-- A class of a surface. -/
structure ClassNode where
  header : ClassHeader
  statics : List (String × Surface)
  prototype : List (String × Surface)

mutual

/-- The classes of a surface, each before those inside of it. -/
def classes : Surface → List ClassNode
  | space _ _ _ members => classesOf members
  | enumeration _ _ _ members => classesOf members
  | cls header statics prototype =>
    ⟨header, statics, prototype⟩ :: (classesOf statics ++ classesOf prototype)
  | _ => []

def classesOf : List (String × Surface) → List ClassNode
  | [] => []
  | (_, node) :: members => node.classes ++ classesOf members

end

theorem classesOf_append (ms ms' : List (String × Surface)) :
    classesOf (ms ++ ms') = classesOf ms ++ classesOf ms' := by
  induction ms with
  | nil => rfl
  | cons m ms ih => rw [List.cons_append, classesOf, classesOf, ih, List.append_assoc]

theorem classes_of_leaf {s : Surface} (h : s.isNested = false) : s.classes = [] := by
  cases s <;> first | rfl | cases h

theorem classesOf_of_isDeclared {ms : List (String × Surface)}
    (h : ∀ m ∈ ms, m.2.isDeclared = true) : classesOf (withListenersOf ms) = [] := by
  induction ms with
  | nil => rfl
  | cons m ms ih =>
    obtain ⟨hm, hms⟩ := List.forall_mem_cons.mp h
    obtain ⟨name, node⟩ := m
    have hleaf := isNested_of_isDeclared hm
    rw [withListenersOf, classesOf, ih hms, withListeners_of_leaf hleaf, classes_of_leaf hleaf]
    rfl

theorem classesOf_shown_cons (withoutListeners : Bool) (name : String) (node : Surface)
    (ms : List (String × Surface)) : classesOf (shown withoutListeners ((name, node) :: ms)) =
      (if withoutListeners && listenerNames.contains name then [] else node.classes) ++
        classesOf (shown withoutListeners ms) := by
  rw [shown, List.filter_cons]
  cases withoutListeners && listenerNames.contains name with
  | true => rfl
  | false => rfl

end Surface

/-! ### Members -/

namespace Reference

variable (r : Reference)

/-- A member of a class on the surface stands for a reflected one: under the same name it has what
the corpus says about a placeholder, or holds members itself. -/
structure StandsFor (parent : String) (m : String × Reflected) (m' : String × Surface) : Prop where
  name : m'.1 = m.1
  placeholder : ∀ word, m.2 = .placeholder word →
    m'.2 = r.resolveLeaf (Identifier.member parent m.1) word
  nested : (∀ word, m.2 ≠ .placeholder word) → m'.2.isNested = true

theorem standsFor_members (additions : Nat → List (String × Surface)) (number : Nat)
    (parent : String) (ms : List (String × Reflected)) :
    List.Forall₂ (r.StandsFor parent) ms
      (withListenersOf (attachAll additions number (r.resolveMembers parent ms))) := by
  induction ms generalizing number with
  | nil => exact .nil
  | cons m ms ih =>
    obtain ⟨name, node⟩ := m
    rw [resolveMembers, Surface.attachAll, Surface.withListenersOf]
    refine .cons ⟨rfl, ?_, ?_⟩ (ih _)
    · rintro word rfl
      have hleaf := (r.resolveLeaf_leaf (Identifier.member parent name) word).1
      dsimp only
      rw [resolve, Surface.attach_of_leaf hleaf, Surface.withListeners_of_leaf hleaf]
    · intro hother
      cases node with
      | placeholder word => exact absurd rfl (hother word)
      | space fullname members =>
        rw [resolve]
        split <;> rfl
      | cls fullname base statics prototype => rfl

/-- The members that stay stand for the reflected ones that stay. -/
theorem standsFor_kept (additions : Nat → List (String × Surface)) (number : Nat)
    (parent : String) (withoutListeners : Bool) (ms : List (String × Reflected)) :
    List.Forall₂ (r.StandsFor parent) (Reflected.kept withoutListeners ms)
      (shown withoutListeners
        (withListenersOf (attachAll additions number (r.resolveMembers parent ms)))) := by
  refine List.rel_filter ?_ (r.standsFor_members additions number parent ms)
  intro m m' hm
  dsimp only
  rw [hm.name]

variable {r} in
theorem names_of_standsFor {parent : String} {ms : List (String × Reflected)}
    {ms' : List (String × Surface)} (h : List.Forall₂ (r.StandsFor parent) ms ms') :
    ms'.map Prod.fst = ms.map Prod.fst := by
  induction h with
  | nil => rfl
  | cons hm _ ih => rw [List.map_cons, List.map_cons, hm.name, ih]

/-! ### Events -/

/-- The handler of an event. -/
def handlerOf? (fullname : String) : Option Json :=
  match r.corpus.get? fullname with
  | some ⟨_, _, .event handler⟩ => some (r.qualify handler)
  | _ => none

/-- The event that a reflected member is: its name and its handler. -/
def event? (parent : String) : String × Reflected → Option (String × Json)
  | (name, .placeholder _) =>
    (r.handlerOf? (Identifier.member parent name)).map fun handler => (name, handler)
  | _ => none

/-- The events among reflected members, in order. -/
def events (parent : String) (ms : List (String × Reflected)) : List (String × Json) :=
  ms.filterMap (r.event? parent)

theorem isSome_handlerOf? (fullname : String) :
    (r.handlerOf? fullname).isSome = r.corpus.isEvent fullname := by
  unfold handlerOf? Corpus.isEvent
  split <;> simp_all

/-- A side has an event if and only if some event is found among its members. -/
theorem hasEvent_iff (parent : String) (ms : List (String × Reflected)) :
    Reflected.hasEvent r.corpus parent ms = true ↔ r.events parent ms ≠ [] := by
  induction ms with
  | nil => simp [Reflected.hasEvent, events]
  | cons m ms ih =>
    obtain ⟨name, node⟩ := m
    rw [Reflected.hasEvent, events] at ih ⊢
    rw [List.any_cons, Bool.or_eq_true, ih, List.filterMap_cons]
    cases node with
    | placeholder word =>
      have hsame := r.isSome_handlerOf? (Identifier.member parent name)
      dsimp only
      rw [event?, ← hsame]
      cases r.handlerOf? (Identifier.member parent name) with
      | none => simp
      | some handler => simp
    | space fullname members => simp [event?]
    | cls fullname base statics prototype => simp [event?]

theorem handler?_resolveLeaf (name fullname word : String) :
    Declarations.handler? (name, r.resolveLeaf fullname word) =
      (r.handlerOf? fullname).map fun handler => (name, handler) := by
  unfold resolveLeaf handlerOf?
  cases r.corpus.get? fullname with
  | none => rfl
  | some entry =>
    obtain ⟨identifier, description, content⟩ := entry
    cases content <;> rfl

variable {r}

/-- What stands for an event is an event with the same handler. -/
theorem StandsFor.handler? {parent : String} {m : String × Reflected} {m' : String × Surface}
    (h : r.StandsFor parent m m') : Declarations.handler? m' = r.event? parent m := by
  obtain ⟨name, node⟩ := m
  obtain ⟨name', node'⟩ := m'
  obtain rfl : name' = name := h.name
  have hnested (hnested : node'.isNested = true) : Declarations.handler? (name', node') = none := by
    cases node' <;> first | rfl | cases hnested
  cases node with
  | placeholder word =>
    obtain rfl : node' = r.resolveLeaf (Identifier.member parent name') word :=
      h.placeholder word rfl
    exact r.handler?_resolveLeaf ..
  | space fullname members => exact hnested (h.nested nofun)
  | cls fullname base statics prototype => exact hnested (h.nested nofun)

theorem filterMap_handler? {parent : String} {ms : List (String × Reflected)}
    {ms' : List (String × Surface)} (h : List.Forall₂ (r.StandsFor parent) ms ms') :
    ms'.filterMap Declarations.handler? = r.events parent ms := by
  induction h with
  | nil => rfl
  | cons hm _ ih => rw [events, List.filterMap_cons, List.filterMap_cons, hm.handler?, ih, events]

/-- If the keys of all events end in names that begin with the mark of an event, then no event is
listed under the name of a listener function. -/
theorem isEvent_of_mem_listenerNames
    (hevents : ∀ e ∈ r.corpus.entries, ∀ handler, e.2.content = .event handler →
      Page.hasLead "on" (Identifier.lastSegment e.1) = true)
    (parent : String) {name : String} (hname : name ∈ listenerNames) :
    r.corpus.isEvent (Identifier.member parent name) = false := by
  have hascii : ∀ name ∈ listenerNames, IsAscii ('.' :: name.toList) := by decide
  have hlowered : ∀ name ∈ listenerNames, ∃ tail, lower ('.' :: name.toList) = '.' :: tail ∧
      '.' ∉ tail ∧ "on".toList.isPrefixOf tail = false := by
    intro name hname
    rw [listenerNames, List.mem_cons, List.mem_singleton] at hname
    rcases hname with rfl | rfl
    · exact ⟨"addeventlistener".toList, by decide +kernel⟩
    · exact ⟨"removeeventlistener".toList, by decide +kernel⟩
  obtain ⟨tail, htail, hdot, hother⟩ := hlowered name hname
  obtain ⟨front, hfront⟩ := exists_lower_append (hascii name hname) parent.toList
  have hkey : lowered (Identifier.member parent name) = .ofList (front ++ '.' :: tail) := by
    have hchars : (Identifier.member parent name).toList = parent.toList ++ '.' :: name.toList := by
      simp [Identifier.member]
    rw [lowered, hchars, hfront, htail]
  unfold Corpus.isEvent
  split
  · rename_i identifier description handler hget
    have hlead := hevents _ (Corpus.mem_entries_of_get? hget) handler rfl
    have hsegment : (Identifier.lastSegment (lowered (Identifier.member parent name))).toList =
        tail := by
      rw [hkey, Identifier.lastSegment, String.toList_ofList, String.toList_ofList,
        afterLast_append_cons hdot]
    rw [Page.hasLead, hsegment, hother] at hlead
    exact absurd hlead Bool.false_ne_true
  · rfl

/-- Leaving out listener functions leaves all events. -/
theorem events_kept
    (hevents : ∀ e ∈ r.corpus.entries, ∀ handler, e.2.content = .event handler →
      Page.hasLead "on" (Identifier.lastSegment e.1) = true)
    (parent : String) (withoutListeners : Bool) (ms : List (String × Reflected)) :
    r.events parent (Reflected.kept withoutListeners ms) = r.events parent ms := by
  induction ms with
  | nil => rfl
  | cons m ms ih =>
    rw [events, events, Reflected.kept] at ih
    rw [events, events, Reflected.kept, List.filter_cons, List.filterMap_cons (a := m)]
    split
    · rw [List.filterMap_cons, ih]
    · rename_i hleft
      obtain ⟨name, node⟩ := m
      have hname : name ∈ listenerNames := by
        by_contra hother
        simp [hother] at hleft
      have hnone : r.event? parent (name, node) = none := by
        cases node with
        | placeholder word =>
          have hsome := r.isSome_handlerOf? (Identifier.member parent name)
          rw [isEvent_of_mem_listenerNames hevents parent hname, Option.isSome_eq_false_iff,
            Option.isNone_iff_eq_none] at hsome
          rw [event?, hsome, Option.map_none]
        | space fullname members => rfl
        | cls fullname base statics prototype => rfl
      rw [ih, hnone]

/-! ### Sides of classes -/

variable (r)

/-- A member map of a class on the surface stands for a reflected one. The flag tells whether it has
an event; then it does not have, and coverage does not count, what is listed under the names of
listener functions. -/
structure SideStandsFor (parent : String) (ms : List (String × Reflected)) (dispatches : Bool)
    (ms' : List (String × Surface)) : Prop where
  flag : dispatches = Reflected.hasEvent r.corpus parent ms
  members : List.Forall₂ (r.StandsFor parent) (Reflected.kept dispatches ms) ms'
  leaves : Surface.leavesOf ms' =
    ((Reflected.placesOf r.corpus false dispatches parent ms).filter (!·.hidden)).map r.leafAt

/-- A class on the surface stands for a reflected one. -/
structure ClassStandsFor (c : Reflected.ClassNode) (c' : Surface.ClassNode) : Prop where
  fullname : c'.header.fullname = c.fullname
  constructor : c'.header.constructor =
    (r.constructor? c.fullname).map fun signatures => signatures.map r.qualifySignature
  statics : r.SideStandsFor c.fullname c.statics c'.header.dispatchesStaticEvents c'.statics
  prototype : r.SideStandsFor c.fullname c.prototype c'.header.dispatchesEvents c'.prototype

variable {r} {additions : Nat → List (String × Surface)}
  (hadditions : ∀ number, ∀ m ∈ additions number, m.2.isDeclared = true)

include hadditions

theorem sideStandsFor (number : Nat) (parent : String) (ms : List (String × Reflected)) :
    r.SideStandsFor parent ms
      (Surface.dispatches (attachAll additions number (r.resolveMembers parent ms)))
      (Surface.withoutListeners
        (withListenersOf (attachAll additions number (r.resolveMembers parent ms)))) := by
  rw [Surface.withoutListeners_eq_shown, Surface.dispatches_withListenersOf]
  refine ⟨?_, r.standsFor_kept additions number parent _ ms, ?_⟩
  · rw [Surface.dispatches_attachAll, dispatches_resolveMembers]
  · rw [(Surface.leaves_withListeners_attach hadditions).2, r.leaves_withListeners_resolve.2]

/-- The classes on the surface of a merged tree stand for those of the reflected tree, one for one
and in order. -/
theorem forall₂_classStandsFor :
    (∀ node parent name number, List.Forall₂ r.ClassStandsFor (Reflected.classes r.corpus node)
      (Surface.attach additions number (r.resolve parent name node)).withListeners.classes) ∧
    ∀ ms parent number withoutListeners, List.Forall₂ r.ClassStandsFor
      (Reflected.classesOf r.corpus withoutListeners ms)
      (Surface.classesOf (shown withoutListeners
        (withListenersOf (attachAll additions number (r.resolveMembers parent ms))))) := by
  refine Reflected.tree_induction ?placeholder ?space ?cls ?nil ?cons
  case placeholder =>
    intro word parent name number
    have hleaf := (r.resolveLeaf_leaf (Identifier.member parent name) word).1
    rw [resolve, Surface.attach_of_leaf hleaf, Surface.withListeners_of_leaf hleaf,
      Surface.classes_of_leaf hleaf]
    exact .nil
  case space =>
    intro fullname members ih parent name number
    rw [resolve, Reflected.classes]
    split
    · have hmembers := ih fullname number false
      rwa [Surface.shown_false] at hmembers
    · have hmembers := ih fullname (number + 1) false
      rw [Surface.shown_false] at hmembers
      -- the declarations behind the members are no classes
      rw [Surface.attach, Surface.withListeners, Surface.classes, Surface.withListenersOf_eq_map,
        List.map_append, ← Surface.withListenersOf_eq_map, ← Surface.withListenersOf_eq_map,
        Surface.classesOf_append, Surface.classesOf_of_isDeclared (hadditions number),
        List.append_nil]
      exact hmembers
  case cls =>
    intro fullname base statics prototype ihs ihp parent name number
    rw [resolve, Surface.attach, Surface.withListeners, Surface.classes, Reflected.classes]
    have hstatics := sideStandsFor (r := r) hadditions number fullname statics
    have hprototype := sideStandsFor (r := r) hadditions
      (number + (Surface.spacesOf (r.resolveMembers fullname statics)).length) fullname prototype
    refine .cons ⟨rfl, rfl, hstatics, hprototype⟩ (List.rel_append ?_ ?_)
    · rw [Surface.withoutListeners_eq_shown, Surface.dispatches_withListenersOf, hstatics.flag]
      exact ihs ..
    · rw [Surface.withoutListeners_eq_shown, Surface.dispatches_withListenersOf, hprototype.flag]
      exact ihp ..
  case nil =>
    intro parent number withoutListeners
    exact .nil
  case cons =>
    intro name node members ihn ihm parent number withoutListeners
    rw [resolveMembers, attachAll, withListenersOf, Surface.classesOf_shown_cons,
      Reflected.classesOf]
    refine List.rel_append ?_ (ihm ..)
    split
    · exact .nil
    · exact ihn ..

omit hadditions

/-! ### Lines of classes -/

variable (r)

/-- The listener functions on one side of a class, which `lead` marks in the lines of the body. The
first two lists are the reflected members and those on the surface; `declares` tells which of the
latter have their lines in the body. -/
structure ListenersMatch (table : ArityTable) (lead parent : String)
    (declares : String × Surface → Bool) (ms : List (String × Reflected))
    (ms' : List (String × Surface)) (body : List String) : Prop where
  members : List.Forall₂ (r.StandsFor parent)
    (Reflected.kept (Reflected.hasEvent r.corpus parent ms) ms) ms'
  counted : Surface.leavesOf ms' = ((Reflected.placesOf r.corpus false
    (Reflected.hasEvent r.corpus parent ms) parent ms).filter (!·.hidden)).map r.leafAt
  declared : ∀ m ∈ ms', declares m = true → classMemberLines table lead m.1 m.2 <:+: body
  /-- With an event, no reflected listener function is left, and the body has just the lines that are
  made for the events. -/
  synthesised : r.events parent ms ≠ [] → (∀ m ∈ ms', m.1 ∉ listenerNames) ∧
    body.filter (isListenerLine lead) = listenerPairs table lead (r.events parent ms)
  /-- Without events, all reflected members are left, and listener functions are declared by lines of
  their own. -/
  reflected : r.events parent ms = [] → List.Forall₂ (r.StandsFor parent) ms ms' ∧
    body.filter (isListenerLine lead) =
      ((ms'.filter declares).filter fun m => listenerNames.contains m.1).flatMap fun m =>
        (classMemberLines table lead m.1 m.2).filter (isListenerLine lead)

variable {r} {parent lead : String} {ms : List (String × Reflected)} {dispatches : Bool}
  {ms' : List (String × Surface)}

/-- Without the reflected listener functions, no member has the name of one. -/
theorem not_mem_listenerNames_of_standsFor
    (h : List.Forall₂ (r.StandsFor parent) (Reflected.kept true ms) ms') :
    ∀ m ∈ ms', m.1 ∉ listenerNames := by
  intro m' hm' hlistener
  have hname : m'.1 ∈ ms'.map Prod.fst := List.mem_map_of_mem hm'
  rw [names_of_standsFor h] at hname
  obtain ⟨m, hm, hsame⟩ := List.mem_map.mp hname
  rw [← hsame] at hlistener
  have hkept := (List.mem_filter.mp hm).2
  rw [Bool.true_and, Bool.not_eq_true', ← Bool.not_eq_true, List.contains_iff_mem] at hkept
  exact hkept hlistener

/-- The listener functions of a side, if its lines in the body are those of the members that are
declared there, and those made for events if it dispatches events. -/
theorem SideStandsFor.listenersMatch (h : r.SideStandsFor parent ms dispatches ms')
    (hevents : ∀ e ∈ r.corpus.entries, ∀ handler, e.2.content = .event handler →
      Page.hasLead "on" (Identifier.lastSegment e.1) = true)
    {table : ArityTable} {declares : String × Surface → Bool} {body : List String}
    (hdeclared : ∀ m ∈ ms', declares m = true → classMemberLines table lead m.1 m.2 <:+: body)
    (hbody : body.filter (isListenerLine lead) =
      ((ms'.filter declares).filter fun m => listenerNames.contains m.1).flatMap (fun m =>
        (classMemberLines table lead m.1 m.2).filter (isListenerLine lead)) ++
      if dispatches then listenerLines table lead ms' else []) :
    r.ListenersMatch table lead parent declares ms ms' body := by
  obtain ⟨rfl, hmembers, hleaves⟩ := h
  refine ⟨hmembers, hleaves, hdeclared, fun hsome => ?_, fun hnone => ?_⟩
  · have hflag := (r.hasEvent_iff parent ms).mpr hsome
    rw [hflag] at hmembers
    have hleft := not_mem_listenerNames_of_standsFor hmembers
    have hnone : (ms'.filter declares).filter (fun m => listenerNames.contains m.1) = [] := by
      refine List.filter_eq_nil_iff.mpr fun m hm => ?_
      rw [List.contains_iff_mem]
      exact hleft m (List.mem_of_mem_filter hm)
    rw [hbody, hnone, hflag, if_pos rfl, Declarations.listenerLines_eq,
      filterMap_handler? hmembers, events_kept hevents]
    exact ⟨hleft, rfl⟩
  · have hflag : Reflected.hasEvent r.corpus parent ms = false := by
      rw [Bool.eq_false_iff, ne_eq, r.hasEvent_iff]
      exact fun hsome => hsome hnone
    rw [hbody, hflag, if_neg Bool.false_ne_true, List.append_nil]
    rw [hflag, Reflected.kept_false] at hmembers
    exact ⟨hmembers, rfl⟩

end Reference

namespace Merger

variable {corpus : Corpus} {overrides : List (String × Json)} {m : Merger}

theorem Reachable.classStandsFor_merge (h : Reachable corpus overrides m) (root : Reflected.Root) :
    List.Forall₂ m.reference.ClassStandsFor (Reflected.classes m.reference.corpus root.node)
      (m.merge root).2.surface.classes :=
  (Reference.forall₂_classStandsFor (isDeclared_backfill (h.sound.distinct.addAll _) rfl)).1 ..

/-- The classes of a merged tree stand for those that reflection shows, and on both of their sides
the declared listener functions match the events. With at least one event among the members of a
side, these are a pair of functions for every event in order, under its name and with its handler,
and a pair for all other names; no listener function that reflection shows is left there. Without
events, nothing is added and all that reflection shows is left. -/
theorem listenersMatch_of_mergeUntilMisfit (h : Reachable corpus overrides m)
    (hevents : ∀ e ∈ corpus.entries, ∀ handler, e.2.content = .event handler →
      Page.hasLead "on" (Identifier.lastSegment e.1) = true)
    (root : Reflected.Root) (table : ArityTable) :
    let r := Reference.ofCorpus corpus overrides
    ((∀ e ∈ corpus.entries, e.2.isWellTyped = true) → (∀ o ∈ overrides, o.2.isText = true) →
      ∃ next merged, m.mergeUntilMisfit root = (next, .ok merged)) ∧
    ∀ next merged, m.mergeUntilMisfit root = (next, .ok merged) →
      List.Forall₂ (fun c c' =>
        let body := classBody table c'.header c'.statics c'.prototype
        c'.header.fullname = c.fullname ∧
        r.ListenersMatch table "static " c.fullname (fun m => !m.2.isNested) c.statics c'.statics
          body ∧
        r.ListenersMatch table "" c.fullname (fun m => m.1 ≠ "indexOf") c.prototype c'.prototype
          body ∧
        -- a nested member of the class's own object is declared in the namespace beside the class
        ∀ m ∈ c'.statics, m.2.isNested = true →
          Declarations.emit table m.1 m.2 <:+: Declarations.emitNested table c'.statics)
        (Reflected.classes corpus root.node) merged.surface.classes := by
  intro r
  refine ⟨fun hentries hoverrides => ⟨_, _, h.mergeUntilMisfit_eq hentries hoverrides root⟩,
    fun next merged hrun => ?_⟩
  have hclasses := h.classStandsFor_merge root
  rw [merge_of_mergeUntilMisfit hrun, h.reference] at hclasses
  refine hclasses.imp fun c c' hc => ?_
  have hother : listenerNames.contains "indexOf" = false := by decide
  have hprototype : (c'.prototype.filter fun m => m.1 ≠ "indexOf").filter
      (fun m => listenerNames.contains m.1) =
        c'.prototype.filter fun m => listenerNames.contains m.1 := by
    rw [List.filter_filter]
    refine List.filter_congr fun m _ => ?_
    by_cases hm : m.1 = "indexOf"
    · rw [hm, hother, Bool.false_and]
    · simp [hm]
  refine ⟨hc.fullname, hc.statics.listenersMatch hevents (fun m hm hflat => ?_)
      (Declarations.filter_classBody_static ..),
    hc.prototype.listenersMatch hevents (fun m hm hkept => ?_) ?_,
    fun m hm hnested => Declarations.isInfix_emitNested table hm hnested⟩
  · rw [Bool.not_eq_true'] at hflat
    exact Declarations.isInfix_classBody_static table _ _ hm hflat
  · exact Declarations.isInfix_classBody_prototype table _ _ hm (of_decide_eq_true hkept)
  · rw [hprototype]
    exact Declarations.filter_classBody_prototype ..

/-- In place of the listener function that reflection shows, the class of the sensor has two pairs of
them. -/
theorem listenersMatch_of_mergeUntilMisfit_sensor :
    Reachable sensorCorpus [] (ofCorpus sensorCorpus []) ∧
    (∀ e ∈ sensorCorpus.entries, ∀ handler, e.2.content = .event handler →
      Page.hasLead "on" (Identifier.lastSegment e.1) = true) ∧
    ∃ next merged c, (ofCorpus sensorCorpus []).mergeUntilMisfit sensorRoot = (next, .ok merged) ∧
      merged.surface.classes = [c] ∧
      (classBody {} c.header c.statics c.prototype).filter (isListenerLine "") =
        ["addEventListener(type: \x22changed\x22, listener: Handler): void;",
         "removeEventListener(type: \x22changed\x22, listener: Handler): void;",
         "addEventListener(type: string, listener: Windows.Foundation.EventHandler<any>): void;",
         "removeEventListener(type: string, listener: Windows.Foundation.EventHandler<any>): void;"] := by
  have hevents : ∀ e ∈ sensorCorpus.entries, ∀ handler, e.2.content = .event handler →
      Page.hasLead "on" (Identifier.lastSegment e.1) = true := by
    intro e he handler hcontent
    rcases List.mem_cons.mp he with rfl | he
    · cases hcontent
    · rw [List.mem_singleton.mp he]
      decide +kernel
  have hreachable : Reachable sensorCorpus [] (ofCorpus sensorCorpus []) := .new
  obtain ⟨hends, hclasses⟩ := listenersMatch_of_mergeUntilMisfit hreachable hevents sensorRoot {}
  obtain ⟨next, merged, hrun⟩ := hends (by decide) nofun
  have hall := hclasses next merged hrun
  obtain ⟨c, classes, ⟨-, -, hprototype, -⟩, hnil, heq⟩ := List.forall₂_cons_left_iff.mp hall
  obtain rfl := List.forall₂_nil_left_iff.mp hnil
  refine ⟨hreachable, hevents, next, merged, c, hrun, heq, ?_⟩
  have hitems : sensorCorpus.items = sensorCorpus.entries := List.mergeSort_of_pairwise (by decide)
  have hnames : ShortNames.ofCorpus sensorCorpus [] = [("sensor", .text "N.Sensor")] := by
    rw [ShortNames.ofCorpus, ShortNames.referable, hitems]
    decide +kernel
  rw [(hprototype.synthesised (by decide +kernel)).2, Reference.ofCorpus, hnames]
  decide +kernel

end Merger

end ScriptTypings
