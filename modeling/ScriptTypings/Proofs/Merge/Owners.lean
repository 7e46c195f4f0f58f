import Mathlib.Data.List.Induction
import ScriptTypings.Merge.Merger
import ScriptTypings.Proofs.NameMap

/-!
# The owners of listed types

A type belongs to the last namespace whose page lists it. `ListsLast` says so of the numbered
namespaces, and `find?_registerAll` that the map of owners tells it.
-/

namespace ScriptTypings.Merger

open Text

/-- The namespace of a number lists a type, and none behind it does. -/
structure ListsLast (r : Reference) (spaces : List Surface.Space) (key : String)
    (number : Nat) : Prop where
  listed : ∃ space, spaces[number]? = some space ∧ key ∈ listedTypes r space.fullname
  last : ∀ (other : Nat) (space : Surface.Space), spaces[other]? = some space →
    key ∈ listedTypes r space.fullname → other ≤ number

variable {r : Reference} {spaces : List Surface.Space} {key : String}

theorem ListsLast.lt_length {number : Nat} (h : ListsLast r spaces key number) :
    number < spaces.length := by
  obtain ⟨space, hspace, _⟩ := h.listed
  exact (List.getElem?_eq_some_iff.mp hspace).1

/-- At most one namespace is the last one to list a type. -/
theorem ListsLast.eq {number number' : Nat} (h : ListsLast r spaces key number)
    (h' : ListsLast r spaces key number') : number = number' := by
  obtain ⟨space, hspace, hkey⟩ := h.listed
  obtain ⟨space', hspace', hkey'⟩ := h'.listed
  exact Nat.le_antisymm (h'.last _ _ hspace hkey) (h.last _ _ hspace' hkey')

/-- A namespace behind others takes over the types that it lists. -/
theorem listsLast_append_singleton {space : Surface.Space} {number : Nat} :
    ListsLast r (spaces ++ [space]) key number ↔
      if key ∈ listedTypes r space.fullname then number = spaces.length
      else ListsLast r spaces key number := by
  have hget : ∀ {k : Nat} {other : Surface.Space}, (spaces ++ [space])[k]? = some other ↔
      spaces[k]? = some other ∨ k = spaces.length ∧ space = other := by
    intro k other
    rcases Nat.lt_trichotomy k spaces.length with h | rfl | h
    · rw [List.getElem?_append_left h]
      exact ⟨.inl, fun h' => h'.elim id fun e => absurd e.1 (Nat.ne_of_lt h)⟩
    · simp
    · simp [List.getElem?_append_right (Nat.le_of_lt h), Nat.sub_ne_zero_of_lt h,
        List.getElem?_eq_none (Nat.le_of_lt h), Nat.ne_of_gt h]
  split
  · rename_i hmem
    constructor
    · intro h
      refine Nat.le_antisymm ?_ (h.last _ space (hget.mpr (.inr ⟨rfl, rfl⟩)) hmem)
      have hlt := h.lt_length
      rw [List.length_append] at hlt
      exact Nat.le_of_lt_succ hlt
    · rintro rfl
      refine ⟨⟨space, hget.mpr (.inr ⟨rfl, rfl⟩), hmem⟩, fun other space' h _ => ?_⟩
      rcases hget.mp h with h | h
      · exact Nat.le_of_lt (List.getElem?_eq_some_iff.mp h).1
      · exact Nat.le_of_eq h.1
  · rename_i hmem
    constructor
    · rintro ⟨⟨space', h, hkey⟩, hlast⟩
      rcases hget.mp h with h | ⟨_, rfl⟩
      · exact ⟨⟨space', h, hkey⟩, fun other o ho => hlast other o (hget.mpr (.inl ho))⟩
      · exact absurd hkey hmem
    · rintro ⟨⟨space', h, hkey⟩, hlast⟩
      refine ⟨⟨space', hget.mpr (.inl h), hkey⟩, fun other o ho hkey' => ?_⟩
      rcases hget.mp ho with ho | ⟨_, rfl⟩
      · exact hlast other o ho hkey'
      · exact absurd hkey' hmem

/-- A type that some namespace lists is listed last by one of them. -/
theorem exists_listsLast {space : Surface.Space} (hspace : space ∈ spaces)
    (hkey : key ∈ listedTypes r space.fullname) : ∃ number, ListsLast r spaces key number := by
  induction spaces using List.reverseRecOn with
  | nil => exact absurd hspace List.not_mem_nil
  | append_singleton spaces last ih =>
    simp only [listsLast_append_singleton]
    split
    · exact ⟨_, rfl⟩
    · rename_i hlast
      rcases List.mem_append.mp hspace with hspace | hspace
      · exact ih hspace
      · exact absurd (List.mem_singleton.mp hspace ▸ hkey) hlast

theorem registerAll_append (r : Reference) (number : Nat) (spaces : List Surface.Space)
    (space : Surface.Space) (owners : NameMap Nat) :
    registerAll r number (spaces ++ [space]) owners =
      NameMap.update (registerAll r number spaces owners)
        ((listedTypes r space.fullname).map fun key => (key, number + spaces.length)) := by
  induction spaces generalizing number owners with
  | nil => rfl
  | cons first spaces ih =>
    rw [List.cons_append, registerAll, ih, registerAll, List.length_cons,
      Nat.add_right_comm number 1, Nat.add_assoc number]

/-- The owner of a type is the last namespace that lists it. -/
theorem find?_registerAll (r : Reference) (spaces : List Surface.Space) (key : String)
    (number : Nat) :
    NameMap.find? key (registerAll r 0 spaces []) = some number ↔
      ListsLast r spaces key number := by
  -- from the back, as the last namespace decides
  induction spaces using List.reverseRecOn with
  | nil => exact ⟨nofun, fun h => absurd h.lt_length (Nat.not_lt_zero _)⟩
  | append_singleton spaces space ih =>
    rw [registerAll_append, NameMap.find?_update_const, listsLast_append_singleton, Nat.zero_add]
    split
    · exact ⟨fun h => (Option.some.inj h).symm, fun h => congrArg some h.symm⟩
    · exact ih

/-- To enter namespaces gives the types that they list new owners, and keeps those of all others. -/
theorem find?_registerAll_from (r : Reference) (number : Nat) (spaces : List Surface.Space)
    (owners : NameMap Nat) (key : String) :
    (∃ place, ListsLast r spaces key place ∧
      NameMap.find? key (registerAll r number spaces owners) = some (number + place)) ∨
    ((∀ place, ¬ ListsLast r spaces key place) ∧
      NameMap.find? key (registerAll r number spaces owners) = NameMap.find? key owners) := by
  induction spaces using List.reverseRecOn with
  | nil => exact .inr ⟨fun _ h => absurd h.lt_length (Nat.not_lt_zero _), rfl⟩
  | append_singleton spaces space ih =>
    simp only [registerAll_append, NameMap.find?_update_const, listsLast_append_singleton]
    by_cases hlisted : key ∈ listedTypes r space.fullname
    · simp only [if_pos hlisted]
      exact .inl ⟨spaces.length, rfl, rfl⟩
    · simp only [if_neg hlisted]
      exact ih

end ScriptTypings.Merger
