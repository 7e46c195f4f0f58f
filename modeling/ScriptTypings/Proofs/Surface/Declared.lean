import ScriptTypings.Merge.Resolution

/-!
# Declarations on the surface

Structures, delegates and interfaces are declared inside of namespaces. `memberLists` are the
members of all namespaces of a surface, in the order of `spaces`, `declarations` are all the
declared nodes, and `withoutDeclarations` takes them out of the namespaces. The lemmas say what
these are for a surface to which declarations are attached, and that dropping listeners does not
interfere.
-/

namespace ScriptTypings.Surface

/-- Induction over a surface and over lists of members together; nodes without members are one
case. -/
theorem tree_induction {P : Surface → Prop} {Q : List (String × Surface) → Prop}
    (space : ∀ name fullname description members, Q members →
      P (.space name fullname description members))
    (enumeration : ∀ name fullname description members, Q members →
      P (.enumeration name fullname description members))
    (cls : ∀ header statics prototype, Q statics → Q prototype →
      P (.cls header statics prototype))
    (leaf : ∀ s : Surface, s.isNested = false → P s)
    (nil : Q [])
    (cons : ∀ name node members, P node → Q members → Q ((name, node) :: members)) :
    (∀ s, P s) ∧ ∀ members, Q members := by
  have tree : ∀ s, P s := @Surface.rec P Q (fun member => P member.2) space enumeration cls
    (fun _ _ _ _ => leaf _ rfl) (fun _ _ _ _ => leaf _ rfl) (fun _ => leaf _ rfl)
    (fun _ => leaf _ rfl) (fun _ _ => leaf _ rfl) (fun _ => leaf _ rfl) (fun _ => leaf _ rfl)
    nil (fun member members => cons member.1 member.2 members) fun _ _ => id
  refine ⟨tree, fun members => ?_⟩
  induction members with
  | nil => exact nil
  | cons member members ih => exact cons member.1 member.2 members (tree member.2) ih

/-- Whether a node is the declaration of a structure, a delegate or an interface. -/
def isDeclared : Surface → Bool
  | record _ _ _ _ => true
  | delegate _ _ _ _ => true
  | interface _ => true
  | _ => false

theorem isNested_of_isDeclared {s : Surface} (h : s.isDeclared = true) : s.isNested = false := by
  cases s <;> first | rfl | cases h

/-- The key of the entry that a declared node declares. -/
def declaredKey : Surface → String
  | record _ fullname _ _ => Text.lowered fullname.asText
  | delegate _ fullname _ _ => Text.lowered fullname.asText
  | interface declaration => Text.lowered declaration.fullname.asText
  | _ => ""

mutual

/-- The namespaces of a surface by full name, each with its members and before those inside it. -/
def memberLists : Surface → List (String × List (String × Surface))
  | space _ fullname _ members => (fullname, members) :: memberListsOf members
  | enumeration _ _ _ members => memberListsOf members
  | cls _ statics prototype => memberListsOf statics ++ memberListsOf prototype
  | _ => []

def memberListsOf : List (String × Surface) → List (String × List (String × Surface))
  | [] => []
  | (_, node) :: members => node.memberLists ++ memberListsOf members

end

mutual

/-- All declared nodes of a surface. -/
def declarations : Surface → List Surface
  | space _ _ _ members => declarationsOf members
  | enumeration _ _ _ members => declarationsOf members
  | cls _ statics prototype => declarationsOf statics ++ declarationsOf prototype
  | other => if other.isDeclared then [other] else []

def declarationsOf : List (String × Surface) → List Surface
  | [] => []
  | (_, node) :: members => node.declarations ++ declarationsOf members

end

mutual

/-- The surface with all declared nodes taken out of its namespaces. -/
def withoutDeclarations : Surface → Surface
  | space name fullname description members =>
    space name fullname description
      ((withoutDeclarationsOf members).filter fun m => !m.2.isDeclared)
  | enumeration name fullname description members =>
    enumeration name fullname description (withoutDeclarationsOf members)
  | cls header statics prototype =>
    cls header (withoutDeclarationsOf statics) (withoutDeclarationsOf prototype)
  | other => other

/-- The members, with all declared nodes taken out of the namespaces inside of them. -/
def withoutDeclarationsOf : List (String × Surface) → List (String × Surface)
  | [] => []
  | (name, node) :: members => (name, node.withoutDeclarations) :: withoutDeclarationsOf members

end

/-! ### Lists of members -/

@[simp] theorem memberListsOf_append (ms ms' : List (String × Surface)) :
    memberListsOf (ms ++ ms') = memberListsOf ms ++ memberListsOf ms' := by
  induction ms with
  | nil => rfl
  | cons m ms ih => simp [memberListsOf, ih]

@[simp] theorem declarationsOf_append (ms ms' : List (String × Surface)) :
    declarationsOf (ms ++ ms') = declarationsOf ms ++ declarationsOf ms' := by
  induction ms with
  | nil => rfl
  | cons m ms ih => simp [declarationsOf, ih]

theorem withoutDeclarationsOf_eq_map (ms : List (String × Surface)) :
    withoutDeclarationsOf ms = ms.map fun m => (m.1, m.2.withoutDeclarations) := by
  induction ms with
  | nil => rfl
  | cons m ms ih => simp [withoutDeclarationsOf, ih]

theorem withListenersOf_eq_map (ms : List (String × Surface)) :
    withListenersOf ms = ms.map fun m => (m.1, m.2.withListeners) := by
  induction ms with
  | nil => rfl
  | cons m ms ih => simp [withListenersOf, ih]

/-! ### Nodes without members -/

theorem memberLists_of_leaf {s : Surface} (h : s.isNested = false) : s.memberLists = [] := by
  cases s <;> first | rfl | cases h

theorem spaces_of_leaf {s : Surface} (h : s.isNested = false) : s.spaces = [] := by
  cases s <;> first | rfl | cases h

theorem declarations_of_leaf {s : Surface} (h : s.isNested = false) :
    s.declarations = if s.isDeclared then [s] else [] := by
  cases s <;> first | rfl | cases h

theorem withoutDeclarations_of_leaf {s : Surface} (h : s.isNested = false) :
    s.withoutDeclarations = s := by
  cases s <;> first | rfl | cases h

theorem withListeners_of_leaf {s : Surface} (h : s.isNested = false) : s.withListeners = s := by
  cases s <;> first | rfl | cases h

theorem attach_of_leaf {s : Surface} (h : s.isNested = false)
    (additions : Nat → List (String × Surface)) (number : Nat) :
    attach additions number s = s := by
  cases s <;> first | rfl | cases h

/-! ### What a node is stays the same -/

@[simp] theorem isDeclared_withoutDeclarations (s : Surface) :
    s.withoutDeclarations.isDeclared = s.isDeclared := by
  cases s <;> rfl

@[simp] theorem isEvent_withoutDeclarations (s : Surface) :
    s.withoutDeclarations.isEvent = s.isEvent := by
  cases s <;> rfl

@[simp] theorem isDeclared_withListeners (s : Surface) :
    s.withListeners.isDeclared = s.isDeclared := by
  cases s <;> rfl

/-! ### The numbered namespaces -/

/-- The namespaces with their members, and those with the names of their members, are the same. -/
theorem spaces_eq_map_memberLists :
    (∀ s : Surface, s.spaces = s.memberLists.map fun e => ⟨e.1, e.2.map Prod.fst⟩) ∧
      ∀ ms, spacesOf ms = (memberListsOf ms).map fun e => ⟨e.1, e.2.map Prod.fst⟩ := by
  refine tree_induction ?space ?enumeration ?cls ?leaf ?nil ?cons
  case space =>
    intro name fullname description members ih
    simp [spaces, memberLists, ih]
  case enumeration =>
    intro name fullname description members ih
    simp [spaces, memberLists, ih]
  case cls =>
    intro header statics prototype ihs ihp
    simp [spaces, memberLists, ihs, ihp]
  case leaf =>
    intro s hs
    simp [spaces_of_leaf hs, memberLists_of_leaf hs]
  case nil => rfl
  case cons =>
    intro name node members ihn ihm
    simp [spacesOf, memberListsOf, ihn, ihm]

theorem length_memberLists (s : Surface) : s.memberLists.length = s.spaces.length := by
  rw [spaces_eq_map_memberLists.1 s, List.length_map]

theorem length_memberListsOf (ms : List (String × Surface)) :
    (memberListsOf ms).length = (spacesOf ms).length := by
  rw [spaces_eq_map_memberLists.2 ms, List.length_map]

section Attaching

variable (additions : Nat → List (String × Surface))

theorem memberListsOf_of_isDeclared {ms : List (String × Surface)}
    (h : ∀ m ∈ ms, m.2.isDeclared = true) : memberListsOf ms = [] := by
  induction ms with
  | nil => rfl
  | cons m ms ih =>
    rw [memberListsOf, memberLists_of_leaf (isNested_of_isDeclared (h m List.mem_cons_self)),
      ih fun m hm => h m (List.mem_cons_of_mem _ hm)]
    rfl

/-- Attaching puts its declarations behind the members of the namespace of each number, and leaves
the namespaces and their order alone. -/
theorem memberLists_attach (h : ∀ k, ∀ m ∈ additions k, m.2.isDeclared = true) :
    (∀ s number, (attach additions number s).memberLists =
        (s.memberLists.zipIdx number).map fun e =>
          (e.1.1, attachAll additions (e.2 + 1) e.1.2 ++ additions e.2)) ∧
      ∀ ms number, memberListsOf (attachAll additions number ms) =
        ((memberListsOf ms).zipIdx number).map fun e =>
          (e.1.1, attachAll additions (e.2 + 1) e.1.2 ++ additions e.2) := by
  refine tree_induction ?space ?enumeration ?cls ?leaf ?nil ?cons
  case space =>
    intro name fullname description members ih number
    simp [attach, memberLists, ih, memberListsOf_of_isDeclared (h number)]
  case enumeration =>
    intro name fullname description members ih number
    simp [attach, memberLists, ih]
  case cls =>
    intro header statics prototype ihs ihp number
    simp [attach, memberLists, ihs, ihp, List.zipIdx_append, length_memberListsOf]
  case leaf =>
    intro s hs number
    simp [attach_of_leaf hs, memberLists_of_leaf hs]
  case nil =>
    intro number
    rfl
  case cons =>
    intro name node members ihn ihm number
    simp [attachAll, memberListsOf, ihn, ihm, List.zipIdx_append, length_memberLists]

/-- What is attached is taken out again, and nothing else. -/
theorem withoutDeclarations_attach (h : ∀ k, ∀ m ∈ additions k, m.2.isDeclared = true) :
    (∀ s number, (attach additions number s).withoutDeclarations = s.withoutDeclarations) ∧
      ∀ ms number,
        withoutDeclarationsOf (attachAll additions number ms) = withoutDeclarationsOf ms := by
  refine tree_induction ?space ?enumeration ?cls ?leaf ?nil ?cons
  case space =>
    intro name fullname description members ih number
    have hnone : (withoutDeclarationsOf (additions number)).filter (fun m => !m.2.isDeclared) =
        [] := by
      rw [withoutDeclarationsOf_eq_map, List.filter_eq_nil_iff]
      intro member hmember
      obtain ⟨m, hm, rfl⟩ := List.mem_map.mp hmember
      simp [h number m hm]
    have happend : withoutDeclarationsOf (attachAll additions (number + 1) members ++
        additions number) = withoutDeclarationsOf members ++
          withoutDeclarationsOf (additions number) := by
      rw [← ih (number + 1)]
      simp [withoutDeclarationsOf_eq_map]
    simp only [attach, withoutDeclarations, happend, List.filter_append, hnone, List.append_nil]
  case enumeration =>
    intro name fullname description members ih number
    simp [attach, withoutDeclarations, ih]
  case cls =>
    intro header statics prototype ihs ihp number
    simp [attach, withoutDeclarations, ihs, ihp]
  case leaf =>
    intro s hs number
    rw [attach_of_leaf hs]
  case nil =>
    intro number
    rfl
  case cons =>
    intro name node members ihn ihm number
    simp [attachAll, withoutDeclarationsOf, ihn, ihm]

theorem declarationsOf_of_isDeclared {ms : List (String × Surface)}
    (h : ∀ m ∈ ms, m.2.isDeclared = true) : declarationsOf ms = ms.map Prod.snd := by
  induction ms with
  | nil => rfl
  | cons m ms ih =>
    have hm := h m List.mem_cons_self
    rw [declarationsOf, declarations_of_leaf (isNested_of_isDeclared hm), if_pos hm,
      ih fun m hm => h m (List.mem_cons_of_mem _ hm)]
    rfl

/-- What is attached to the numbers of two parts in turn is attached to the numbers of both. -/
theorem append_perm_range' {α : Type} (attached : Nat → List α) {l l' m m' : List α}
    {number first second : Nat}
    (hl : l.Perm (l' ++ (List.range' number first).flatMap attached))
    (hm : m.Perm (m' ++ (List.range' (number + first) second).flatMap attached)) :
    (l ++ m).Perm (l' ++ m' ++ (List.range' number (first + second)).flatMap attached) := by
  refine (hl.append hm).trans ?_
  rw [← List.range'_append_1, List.flatMap_append, List.append_assoc, List.append_assoc]
  refine List.Perm.append_left _ ?_
  rw [← List.append_assoc, ← List.append_assoc]
  exact List.perm_append_comm.append_right _

/-- The declared nodes of a surface with declarations attached are its own ones and, for every
namespace, those that are attached to it. -/
theorem declarations_attach_perm (h : ∀ k, ∀ m ∈ additions k, m.2.isDeclared = true) :
    (∀ s number, (attach additions number s).declarations.Perm
        (s.declarations ++ (List.range' number s.spaces.length).flatMap fun k =>
          (additions k).map Prod.snd)) ∧
      ∀ ms number, (declarationsOf (attachAll additions number ms)).Perm
        (declarationsOf ms ++ (List.range' number (spacesOf ms).length).flatMap fun k =>
          (additions k).map Prod.snd) := by
  refine tree_induction ?space ?enumeration ?cls ?leaf ?nil ?cons
  case space =>
    intro name fullname description members ih number
    simp only [attach, declarations, declarationsOf_append, spaces, List.length_cons,
      List.range'_succ, List.flatMap_cons, declarationsOf_of_isDeclared (h number)]
    refine ((ih (number + 1)).append_right _).trans ?_
    rw [List.append_assoc]
    exact List.perm_append_comm.append_left _
  case enumeration =>
    intro name fullname description members ih number
    exact ih number
  case cls =>
    intro header statics prototype ihs ihp number
    simp only [attach, declarations, spaces, List.length_append]
    exact append_perm_range' _ (ihs number) (ihp _)
  case leaf =>
    intro s hs number
    simp [attach_of_leaf hs, spaces_of_leaf hs]
  case nil =>
    intro number
    exact .nil
  case cons =>
    intro name node members ihn ihm number
    simp only [attachAll, declarationsOf, spacesOf, List.length_append]
    exact append_perm_range' _ (ihn number) (ihm _)

end Attaching

/-! ### Dropped listeners -/

theorem dispatches_withoutDeclarationsOf (ms : List (String × Surface)) :
    dispatches (withoutDeclarationsOf ms) = dispatches ms := by
  simp [dispatches, withoutDeclarationsOf_eq_map, List.any_map, Function.comp_def]

theorem withoutDeclarationsOf_withoutListeners (ms : List (String × Surface)) :
    withoutDeclarationsOf (withoutListeners ms) = withoutListeners (withoutDeclarationsOf ms) := by
  rw [withoutListeners, withoutListeners, dispatches_withoutDeclarationsOf]
  split
  · simp [withoutDeclarationsOf_eq_map, List.filter_map, Function.comp_def]
  · rfl

/-- Listeners are dropped alike whether or not there are declarations. -/
theorem withoutDeclarations_withListeners :
    (∀ s : Surface, s.withListeners.withoutDeclarations = s.withoutDeclarations.withListeners) ∧
      ∀ ms, withoutDeclarationsOf (withListenersOf ms) =
        withListenersOf (withoutDeclarationsOf ms) := by
  refine tree_induction ?space ?enumeration ?cls ?leaf ?nil ?cons
  case space =>
    intro name fullname description members ih
    simp only [withListeners, withoutDeclarations, ih]
    simp [withListenersOf_eq_map, List.filter_map, Function.comp_def]
  case enumeration =>
    intro name fullname description members ih
    simp [withListeners, withoutDeclarations, ih]
  case cls =>
    intro header statics prototype ihs ihp
    simp [withListeners, withoutDeclarations, withoutDeclarationsOf_withoutListeners, ihs, ihp,
      dispatches_withoutDeclarationsOf]
  case leaf =>
    intro s hs
    rw [withListeners_of_leaf hs, withoutDeclarations_of_leaf hs, withListeners_of_leaf hs]
  case nil => rfl
  case cons =>
    intro name node members ihn ihm
    simp [withListenersOf, withoutDeclarationsOf, ihn, ihm]

theorem declarationsOf_sublist {ms ms' : List (String × Surface)} (h : ms.Sublist ms') :
    (declarationsOf ms).Sublist (declarationsOf ms') := by
  induction h with
  | slnil => exact .slnil
  | cons m _ ih => exact ih.trans (List.sublist_append_right _ _)
  | cons_cons m _ ih => exact (List.Sublist.refl _).append ih

theorem withoutListeners_sublist (ms : List (String × Surface)) :
    (withoutListeners ms).Sublist ms := by
  rw [withoutListeners]
  split
  · exact List.filter_sublist
  · exact .refl _

theorem memberListsOf_sublist {ms ms' : List (String × Surface)} (h : ms.Sublist ms') :
    (memberListsOf ms).Sublist (memberListsOf ms') := by
  induction h with
  | slnil => exact .slnil
  | cons m _ ih => exact ih.trans (List.sublist_append_right _ _)
  | cons_cons m _ ih => exact (List.Sublist.refl _).append ih

/-- Dropping listeners leaves every namespace that is not dropped itself with all its members. -/
theorem memberLists_withListeners_sublist :
    (∀ s : Surface, s.withListeners.memberLists.Sublist
        (s.memberLists.map fun e => (e.1, withListenersOf e.2))) ∧
      ∀ ms, (memberListsOf (withListenersOf ms)).Sublist
        ((memberListsOf ms).map fun e => (e.1, withListenersOf e.2)) := by
  refine tree_induction ?space ?enumeration ?cls ?leaf ?nil ?cons
  case space =>
    intro name fullname description members ih
    exact ih.cons_cons _
  case enumeration =>
    intro name fullname description members ih
    exact ih
  case cls =>
    intro header statics prototype ihs ihp
    rw [memberLists, List.map_append]
    exact ((memberListsOf_sublist (withoutListeners_sublist _)).trans ihs).append
      ((memberListsOf_sublist (withoutListeners_sublist _)).trans ihp)
  case leaf =>
    intro s hs
    simp [withListeners_of_leaf hs, memberLists_of_leaf hs]
  case nil => exact .slnil
  case cons =>
    intro name node members ihn ihm
    rw [memberListsOf, List.map_append]
    exact ihn.append ihm

/-- Dropping listeners declares nothing. -/
theorem declarations_withListeners_sublist :
    (∀ s : Surface, s.withListeners.declarations.Sublist s.declarations) ∧
      ∀ ms, (declarationsOf (withListenersOf ms)).Sublist (declarationsOf ms) := by
  refine tree_induction ?space ?enumeration ?cls ?leaf ?nil ?cons
  case space =>
    intro name fullname description members ih
    exact ih
  case enumeration =>
    intro name fullname description members ih
    exact ih
  case cls =>
    intro header statics prototype ihs ihp
    exact ((declarationsOf_sublist (withoutListeners_sublist _)).trans ihs).append
      ((declarationsOf_sublist (withoutListeners_sublist _)).trans ihp)
  case leaf =>
    intro s hs
    rewrite [withListeners_of_leaf hs]
    exact .refl _
  case nil => exact .slnil
  case cons =>
    intro name node members ihn ihm
    exact ihn.append ihm

end ScriptTypings.Surface
