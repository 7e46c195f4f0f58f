import ScriptTypings.Proofs.Merge.Backfill
import ScriptTypings.Proofs.Merge.Completion

/-!
# Mergers in use

A merger is made once and used for many trees. Between merges, names may be remembered and types
declared. `Reachable` says of a merger that it came about like this, and `Sound` what holds of all
such mergers, whatever was done with them and wherever it stopped.
-/

namespace ScriptTypings.Merger

open Text

/-- The mergers that come of a new one by any calls. -/
inductive Reachable (corpus : Corpus) (overrides : List (String × Json)) : Merger → Prop
  | new : Reachable corpus overrides (ofCorpus corpus overrides)
  | remember {m : Merger} (h : Reachable corpus overrides m) (text : String) :
    Reachable corpus overrides (m.remember text)
  | rememberName {m : Merger} (h : Reachable corpus overrides m) (name : String) :
    Reachable corpus overrides (m.rememberName name)
  | declare {m next : Merger} {result : Except Misfit Surface} {name : String} {entry : Entry}
    (h : Reachable corpus overrides m) (hrun : m.declare? name entry = some (next, result)) :
    Reachable corpus overrides next
  | map {m : Merger} (h : Reachable corpus overrides m) (root : Reflected.Root) :
    Reachable corpus overrides (m.mergeUntilMisfit root).1
  | enterClass {m : Merger} (h : Reachable corpus overrides m) (fullname : String) :
    Reachable corpus overrides (m.enterClass fullname)

/-- No name is remembered twice, and all types belong to namespaces that were met. -/
structure Sound (m : Merger) : Prop where
  distinct : m.memory.Distinct
  owned : ∀ key number, NameMap.find? key m.owners = some number → number < m.spaces.length

variable {corpus : Corpus} {overrides : List (String × Json)} {m : Merger}

theorem sound_ofCorpus : (ofCorpus corpus overrides).Sound :=
  ⟨Memory.distinct_empty, nofun⟩

theorem Sound.addAll (h : m.Sound) (names : List String) :
    Sound { m with memory := m.memory.addAll names } :=
  ⟨h.distinct.addAll names, h.owned⟩

/-! ### Merges that stop -/

theorem Sound.take (h : m.Sound) (event : MergeEvent) : (m.take event).Sound := by
  cases event with
  | mention name => exact ⟨h.distinct.add name, h.owned⟩
  | space fullname listed =>
    refine ⟨h.distinct, fun key number hfind => ?_⟩
    rw [Merger.take, NameMap.find?_update_const] at hfind
    rw [Merger.take, List.length_append]
    split at hfind
    · rw [← Option.some.inj hfind]
      exact Nat.lt_succ_self _
    · exact Nat.lt_succ_of_lt (h.owned key number hfind)
  | member space name =>
    refine ⟨h.distinct, fun key number hfind => ?_⟩
    rw [Merger.take, length_addName]
    exact h.owned key number hfind
  | note text => exact h

theorem Sound.replay (h : m.Sound) (trace : MergeTrace) : (m.replay trace).Sound := by
  rw [Merger.replay]
  induction trace.done generalizing m with
  | nil => exact h
  | cons event events ih => exact ih (h.take event)

/-! ### Merges that end -/

theorem length_spaces_visit (r : Reference) (owners : NameMap Nat) (p : Progress) (name : String) :
    (visit r owners p name).spaces.length = p.spaces.length := by
  obtain ⟨-, hspaces, -⟩ | ⟨_, _, _, -, -, -, -, hspaces, -⟩ := visit_cases r owners p name
  · rw [hspaces]
  · rw [hspaces, length_addName]

theorem length_spaces_foldl_visit (r : Reference) (owners : NameMap Nat) (p : Progress)
    (names : List String) :
    (names.foldl (visit r owners) p).spaces.length = p.spaces.length := by
  induction names generalizing p with
  | nil => rfl
  | cons name names ih => rw [List.foldl_cons, ih, length_spaces_visit]

theorem length_spaces_backfill {r : Reference} {owners : NameMap Nat} {p : Progress}
    (h : p.memory.Distinct) : (backfill r owners p).spaces.length = p.spaces.length := by
  rw [backfill_eq_foldl h, length_spaces_foldl_visit]

/-- The namespaces of a tree come behind those that were met before. -/
theorem owned_registerAll {r : Reference} {number : Nat} {spaces : List Surface.Space}
    {owners : NameMap Nat}
    (h : ∀ key owner, NameMap.find? key owners = some owner → owner < number) {key : String}
    {owner : Nat} (hfind : NameMap.find? key (registerAll r number spaces owners) = some owner) :
    owner < number + spaces.length := by
  obtain ⟨place, hlast, hplace⟩ | ⟨-, hkept⟩ :=
    find?_registerAll_from r number spaces owners key
  · rw [hplace] at hfind
    rw [← Option.some.inj hfind]
    exact Nat.add_lt_add_left hlast.lt_length number
  · rw [hkept] at hfind
    exact Nat.lt_add_right _ (h key owner hfind)

theorem Sound.merge (h : m.Sound) (root : Reflected.Root) : (m.merge root).1.Sound := by
  have hdistinct := h.distinct.addAll
    (m.reference.resolve "" (Identifier.lastSegment root.fullname) root.node).mentions
  refine ⟨distinct_backfill hdistinct, fun key number hfind => ?_⟩
  rw [Merger.merge, length_spaces_backfill hdistinct, List.length_append]
  exact owned_registerAll h.owned hfind

theorem Sound.mergeUntilMisfit (h : m.Sound) (root : Reflected.Root) :
    (m.mergeUntilMisfit root).1.Sound := by
  rw [Merger.mergeUntilMisfit]
  dsimp only
  split
  · exact h.merge root
  · exact h.replay _

/-! ### Declaring -/

/-- A type that is declared outside of any tree leaves behind the names that it mentions; where
declaring it stops, those up to there. -/
theorem declare?_cases {next : Merger} {result : Except Misfit Surface} {name : String}
    {entry : Entry} (h : m.declare? name entry = some (next, result)) :
    ∃ declared, m.reference.declare? name entry = some declared ∧
      ((declared.trace.misfit? = none ∧
          next = { m with memory := m.memory.addAll declared.mentions } ∧
          result = .ok declared.node) ∨
        ∃ misfit, declared.trace.misfit? = some misfit ∧
          next = { m with memory := m.memory.addAll declared.trace.mentions } ∧
          result = .error misfit) := by
  obtain ⟨declared, hdeclared, hnext⟩ := Option.map_eq_some_iff.mp h
  refine ⟨declared, hdeclared, ?_⟩
  cases hends : declared.trace.misfit? with
  | none =>
    rw [hends] at hnext
    cases hnext
    exact .inl ⟨rfl, rfl, rfl⟩
  | some misfit =>
    rw [hends] at hnext
    cases hnext
    exact .inr ⟨misfit, rfl, rfl, rfl⟩

theorem declare?_of_declared {name : String} {entry : Entry} {declared : Reference.Declared}
    (hdeclared : m.reference.declare? name entry = some declared)
    (hends : declared.trace.misfit? = none) :
    m.declare? name entry =
      some ({ m with memory := m.memory.addAll declared.mentions }, .ok declared.node) := by
  rw [Merger.declare?, hdeclared, Option.map_some, hends]

/-! ### Mergers in use -/

theorem Reachable.sound (h : Reachable corpus overrides m) : m.Sound := by
  induction h with
  | new => exact sound_ofCorpus
  | remember _ text ih => exact ih.addAll _
  | rememberName _ name ih => exact ih.addAll [name]
  | declare _ hrun ih =>
    obtain ⟨declared, -, ⟨-, rfl, -⟩ | ⟨_, -, rfl, -⟩⟩ := declare?_cases hrun
    · exact ih.addAll _
    · exact ih.addAll _
  | map _ root ih => exact ih.mergeUntilMisfit root
  | enterClass _ fullname ih =>
    rw [Merger.enterClass]
    split
    · exact ih
    · exact ih.replay _

theorem reference_foldl_take (events : List MergeEvent) (m : Merger) :
    (events.foldl Merger.take m).reference = m.reference := by
  induction events generalizing m with
  | nil => rfl
  | cons event events ih =>
    rw [List.foldl_cons, ih]
    cases event <;> rfl

/-- All of them refer to the same corpus and short names. -/
theorem Reachable.reference (h : Reachable corpus overrides m) :
    m.reference = .ofCorpus corpus overrides := by
  induction h with
  | new => rfl
  | remember _ text ih => exact ih
  | rememberName _ name ih => exact ih
  | declare _ hrun ih =>
    obtain ⟨declared, -, ⟨-, rfl, -⟩ | ⟨_, -, rfl, -⟩⟩ := declare?_cases hrun
    · exact ih
    · exact ih
  | @map m _ root ih =>
    rw [Merger.mergeUntilMisfit]
    dsimp only
    split
    · exact ih
    · exact (reference_foldl_take _ m).trans ih
  | @enterClass m _ fullname ih =>
    rw [Merger.enterClass]
    split
    · exact ih
    · exact (reference_foldl_take _ m).trans ih

/-- With well-typed entries and textual overrides, every merge comes to its end. -/
theorem Reachable.mergeUntilMisfit_eq (h : Reachable corpus overrides m)
    (hentries : ∀ e ∈ corpus.entries, e.2.isWellTyped = true)
    (hoverrides : ∀ o ∈ overrides, o.2.isText = true) (root : Reflected.Root) :
    m.mergeUntilMisfit root = ((m.merge root).1, .ok (m.merge root).2) := by
  have htextual : m.reference.IsTextual := h.reference ▸ isTextual_ofCorpus hentries hoverrides
  exact mergeUntilMisfit_eq_of_isTextual h.sound.distinct htextual root

end ScriptTypings.Merger
