import ScriptTypings.Proofs.Surface.Declared

/-!
# The resolved tree

The surface of a reflected tree has what reflection showed: no structures, delegates or interfaces
are declared in it.
-/

namespace ScriptTypings

/-- Induction over a reflected node and over lists of members together. -/
theorem Reflected.tree_induction {P : Reflected → Prop} {Q : List (String × Reflected) → Prop}
    (placeholder : ∀ word, P (.placeholder word))
    (space : ∀ fullname members, Q members → P (.space fullname members))
    (cls : ∀ fullname base statics prototype, Q statics → Q prototype →
      P (.cls fullname base statics prototype))
    (nil : Q [])
    (cons : ∀ name node members, P node → Q members → Q ((name, node) :: members)) :
    (∀ node, P node) ∧ ∀ members, Q members := by
  have tree : ∀ node, P node := @Reflected.rec P Q (fun member => P member.2) placeholder space cls
    nil (fun member members => cons member.1 member.2 members) fun _ _ => id
  refine ⟨tree, fun members => ?_⟩
  induction members with
  | nil => exact nil
  | cons member members ih => exact cons member.1 member.2 members (tree member.2) ih

namespace Reference

variable (r : Reference)

/-- A placeholder stands for a member of a namespace or class. -/
theorem resolveLeaf_leaf (fullname placeholder : String) :
    (r.resolveLeaf fullname placeholder).isNested = false ∧
      (r.resolveLeaf fullname placeholder).isDeclared = false := by
  unfold resolveLeaf
  split <;> exact ⟨rfl, rfl⟩

theorem isDeclared_resolve (parent name : String) (node : Reflected) :
    (r.resolve parent name node).isDeclared = false := by
  cases node with
  | placeholder word => exact (r.resolveLeaf_leaf _ word).2
  | space fullname members =>
    rw [resolve]
    split <;> rfl
  | cls fullname base statics prototype => rfl

theorem filter_isDeclared_resolveMembers (parent : String) (ms : List (String × Reflected)) :
    (r.resolveMembers parent ms).filter (fun m => !m.2.isDeclared) =
      r.resolveMembers parent ms := by
  induction ms with
  | nil => rfl
  | cons m ms ih => simp [resolveMembers, isDeclared_resolve, ih]

/-- There is no declaration to take out of what reflection showed. -/
theorem withoutDeclarations_resolve :
    (∀ node parent name,
      (r.resolve parent name node).withoutDeclarations = r.resolve parent name node) ∧
      ∀ ms parent,
        Surface.withoutDeclarationsOf (r.resolveMembers parent ms) =
          r.resolveMembers parent ms := by
  refine Reflected.tree_induction ?placeholder ?space ?cls ?nil ?cons
  case placeholder =>
    intro word parent name
    exact Surface.withoutDeclarations_of_leaf (r.resolveLeaf_leaf _ word).1
  case space =>
    intro fullname members ih parent name
    rw [resolve]
    split
    · rw [Surface.withoutDeclarations, ih]
    · rw [Surface.withoutDeclarations, ih, filter_isDeclared_resolveMembers]
  case cls =>
    intro fullname base statics prototype ihs ihp parent name
    rw [resolve, Surface.withoutDeclarations, ihs, ihp]
  case nil =>
    intro parent
    rfl
  case cons =>
    intro name node members ihn ihm parent
    rw [resolveMembers, Surface.withoutDeclarationsOf, ihn, ihm]

/-- No namespace that reflection showed has declarations in it. -/
theorem withoutDeclarationsOf_of_mem_memberLists :
    (∀ node parent name, ∀ e ∈ (r.resolve parent name node).memberLists,
      Surface.withoutDeclarationsOf e.2 = e.2) ∧
      ∀ ms parent, ∀ e ∈ Surface.memberListsOf (r.resolveMembers parent ms),
        Surface.withoutDeclarationsOf e.2 = e.2 := by
  refine Reflected.tree_induction ?placeholder ?space ?cls ?nil ?cons
  case placeholder =>
    intro word parent name e he
    rw [resolve, Surface.memberLists_of_leaf (r.resolveLeaf_leaf _ word).1] at he
    exact absurd he List.not_mem_nil
  case space =>
    intro fullname members ih parent name e he
    rw [resolve] at he
    split at he
    · exact ih fullname e he
    · rcases List.mem_cons.mp he with rfl | he
      · exact r.withoutDeclarations_resolve.2 members fullname
      · exact ih fullname e he
  case cls =>
    intro fullname base statics prototype ihs ihp parent name e he
    rcases List.mem_append.mp he with he | he
    · exact ihs fullname e he
    · exact ihp fullname e he
  case nil => exact fun _ => nofun
  case cons =>
    intro name node members ihn ihm parent e he
    rcases List.mem_append.mp he with he | he
    · exact ihn parent name e he
    · exact ihm parent e he

/-- Reflection shows no declarations. -/
theorem declarations_resolve :
    (∀ node parent name, (r.resolve parent name node).declarations = []) ∧
      ∀ ms parent, Surface.declarationsOf (r.resolveMembers parent ms) = [] := by
  refine Reflected.tree_induction ?placeholder ?space ?cls ?nil ?cons
  case placeholder =>
    intro word parent name
    obtain ⟨hnested, hdeclared⟩ := r.resolveLeaf_leaf (Identifier.member parent name) word
    rw [resolve, Surface.declarations_of_leaf hnested, hdeclared]
    rfl
  case space =>
    intro fullname members ih parent name
    rw [resolve]
    split <;> exact ih fullname
  case cls =>
    intro fullname base statics prototype ihs ihp parent name
    rw [resolve, Surface.declarations, ihs, ihp]
    rfl
  case nil =>
    intro parent
    rfl
  case cons =>
    intro name node members ihn ihm parent
    rw [resolveMembers, Surface.declarationsOf, ihn, ihm]
    rfl

end Reference

end ScriptTypings
