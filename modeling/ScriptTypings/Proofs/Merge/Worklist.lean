import ScriptTypings.Merge.Merger
import ScriptTypings.Proofs.Merge.Memory

/-!
# The worklist of the backfill

The backfill visits the remembered names while its own declarations add to them.
`backfill_eq_foldl` says what that comes to: every name that is remembered in the end is visited
once, in the order in which the names came first. `visit_cases` says what a visit can do.
-/

namespace ScriptTypings.Merger

open Text

/-- What is done for a remembered name: its entry is declared, if the corpus has one. -/
def visit (r : Reference) (owners : NameMap Nat) (p : Progress) (name : String) : Progress :=
  match r.corpus.get? name with
  | some entry => declareName r owners p name entry
  | none => p

/-- The structural entry of a name, and the namespace that it belongs to. -/
structure IsTarget (r : Reference) (owners : NameMap Nat) (name : String) (entry : Entry)
    (owner : Nat) : Prop where
  get? : r.corpus.get? name = some entry
  structural : isStructural entry = true
  owned : NameMap.find? (lowered name) owners = some owner

/-- The name under which an entry is declared. -/
def shortName (entry : Entry) : String :=
  Identifier.lastSegment entry.identifier.asText

theorem exists_declared {entry : Entry} (h : isStructural entry = true) (r : Reference)
    (name : String) : ∃ declared, r.declare? name entry = some declared := by
  obtain ⟨identifier, description, content⟩ := entry
  cases content with
  | record members => exact ⟨_, rfl⟩
  | delegate signature => exact ⟨_, rfl⟩
  | interface listing => exact ⟨_, rfl⟩
  | _ => cases h

section

variable {r : Reference} {owners : NameMap Nat}

theorem visit_of_get? {p : Progress} {name : String} {entry : Entry}
    (h : r.corpus.get? name = some entry) :
    visit r owners p name = declareName r owners p name entry := by
  rw [visit, h]

theorem declareName_of_not_structural {p : Progress} {name : String} {entry : Entry}
    (h : isStructural entry = false) : declareName r owners p name entry = p := by
  simp [declareName, h]

theorem declareName_of_unowned {p : Progress} {name : String} {entry : Entry}
    (hs : isStructural entry = true) (h : NameMap.find? (lowered name) owners = none) :
    declareName r owners p name entry =
      { p with
        trace := p.trace ++
          Trace.step (.note (name ++ " is not listed by any mapped namespace")) } := by
  simp [declareName, hs, h]

theorem declareName_of_mem {p : Progress} {name : String} {entry : Entry} {owner : Nat}
    (hs : isStructural entry = true) (ho : NameMap.find? (lowered name) owners = some owner)
    (h : shortName entry ∈ namesIn p.spaces owner) :
    declareName r owners p name entry =
      { p with trace := p.trace ++ Trace.use entry.identifier } := by
  rw [shortName] at h
  simp [declareName, hs, ho, h]

/-- A structural type is declared in its namespace, if that has no member of its name. -/
theorem declareName_of_not_mem {p : Progress} {name : String} {entry : Entry} {owner : Nat}
    {declared : Reference.Declared}
    (hs : isStructural entry = true) (ho : NameMap.find? (lowered name) owners = some owner)
    (h : shortName entry ∉ namesIn p.spaces owner)
    (hd : r.declare? (shortName entry) entry = some declared) :
    declareName r owners p name entry =
      { memory := p.memory.addAll declared.mentions
        spaces := addName p.spaces owner (shortName entry)
        additions := p.additions ++ [⟨owner, shortName entry, declared.node⟩]
        trace := p.trace ++ Trace.use entry.identifier ++ declared.trace ++
          Trace.step (.member owner (shortName entry)) } := by
  rw [shortName] at h hd
  simp [declareName, hs, ho, h, hd, shortName]

/-- A visit leaves the memory, the namespaces and the declarations alone, as the name has no target
or its namespace has a member of that name, or it adds one declaration. -/
theorem visit_cases (r : Reference) (owners : NameMap Nat) (p : Progress) (name : String) :
    ((visit r owners p name).memory = p.memory ∧ (visit r owners p name).spaces = p.spaces ∧
      (visit r owners p name).additions = p.additions ∧
      ∀ entry owner, IsTarget r owners name entry owner →
        shortName entry ∈ namesIn p.spaces owner) ∨
    ∃ entry owner declared, IsTarget r owners name entry owner ∧
      shortName entry ∉ namesIn p.spaces owner ∧
      r.declare? (shortName entry) entry = some declared ∧
      (visit r owners p name).memory = p.memory.addAll declared.mentions ∧
      (visit r owners p name).spaces = addName p.spaces owner (shortName entry) ∧
      (visit r owners p name).additions =
        p.additions ++ [⟨owner, shortName entry, declared.node⟩] := by
  cases hget : r.corpus.get? name with
  | none =>
    have hvisit : visit r owners p name = p := by rw [visit, hget]
    rw [hvisit]
    refine .inl ⟨rfl, rfl, rfl, fun entry owner h => ?_⟩
    exact absurd (h.get?.symm.trans hget) nofun
  | some entry =>
    rw [visit_of_get? hget]
    have same : ∀ {other owner}, IsTarget r owners name other owner → entry = other :=
      fun h => Option.some.inj (hget.symm.trans h.get?)
    cases hs : isStructural entry with
    | false =>
      rw [declareName_of_not_structural hs]
      refine .inl ⟨rfl, rfl, rfl, fun other owner h => ?_⟩
      exact absurd (same h ▸ h.structural) (by simp [hs])
    | true =>
      cases ho : NameMap.find? (lowered name) owners with
      | none =>
        rw [declareName_of_unowned hs ho]
        refine .inl ⟨rfl, rfl, rfl, fun other owner h => ?_⟩
        exact absurd (h.owned.symm.trans ho) nofun
      | some owner =>
        by_cases hmem : shortName entry ∈ namesIn p.spaces owner
        · rw [declareName_of_mem hs ho hmem]
          refine .inl ⟨rfl, rfl, rfl, fun other k h => ?_⟩
          rw [← same h, ← Option.some.inj (ho.symm.trans h.owned)]
          exact hmem
        · obtain ⟨declared, hd⟩ := exists_declared hs r (shortName entry)
          rw [declareName_of_not_mem hs ho hmem hd]
          exact .inr ⟨entry, owner, declared, ⟨hget, hs, ho⟩, hmem, hd, rfl, rfl, rfl⟩

variable (r owners) in
theorem memory_visit (p : Progress) (name : String) :
    ∃ names, (visit r owners p name).memory = p.memory.addAll names := by
  rcases visit_cases r owners p name with ⟨h, -⟩ | ⟨_, _, declared, _, _, _, h, -⟩
  · exact ⟨[], h⟩
  · exact ⟨declared.mentions, h⟩

theorem distinct_visit {p : Progress} (h : p.memory.Distinct) (name : String) :
    (visit r owners p name).memory.Distinct := by
  obtain ⟨names, hnames⟩ := memory_visit r owners p name
  exact hnames ▸ h.addAll names

variable (r owners) in
theorem names_prefix_visit (p : Progress) (name : String) :
    p.memory.names <+: (visit r owners p name).memory.names := by
  obtain ⟨names, hnames⟩ := memory_visit r owners p name
  exact hnames ▸ p.memory.names_prefix_addAll names

/-- What every visit keeps, with the names that were visited so far, holds after a run. -/
theorem foldl_visit_induction {I : List String → Progress → Prop}
    (step : ∀ seen p name, I seen p → I (seen ++ [name]) (visit r owners p name))
    (seen : List String) {p : Progress} (start : I seen p) (names : List String) :
    I (seen ++ names) (names.foldl (visit r owners) p) := by
  induction names generalizing seen p with
  | nil => simpa using start
  | cons name names ih => simpa using ih _ (step seen p name start)

/-- The names that are left to visit, and those that come up on the way, are visited one after the
other. The visited ones are those whose entries were taken out of `left`. -/
theorem backfillFrom_eq_foldl (left : NameMap Entry) (p : Progress) (visited pending : List String)
    (hdistinct : p.memory.Distinct) (hnames : p.memory.names = visited ++ pending)
    (hleft : ∀ name, lowered name ∉ visited.map lowered →
      NameMap.find? (lowered name) left = r.corpus.get? name) :
    ∃ rest, (backfillFrom r owners left p pending).memory.names = visited ++ (pending ++ rest) ∧
      backfillFrom r owners left p pending = (pending ++ rest).foldl (visit r owners) p := by
  induction left, p, pending using backfillFrom.induct r owners
    generalizing visited with
  | case1 left p => exact ⟨[], by simpa [backfillFrom] using hnames, by simp [backfillFrom]⟩
  | case2 left p name pending hnone ih =>
    -- the name is a new one, so that no visit took its entry out: the corpus has none
    have hnew := not_mem_visited hdistinct hnames
    have hvisit : visit r owners p name = p := by
      rw [visit, ← hleft name hnew, hnone]
    obtain ⟨rest, hmemory, hrun⟩ := ih (visited ++ [name]) hdistinct
      (by simpa using hnames) fun other hother => hleft other (by simp_all)
    rw [backfillFrom, hnone]
    refine ⟨rest, by simpa using hmemory, ?_⟩
    simpa [hvisit] using hrun
  | case3 left p name pending entry hsome next fresh =>
    rename_i ih
    have hnew := not_mem_visited hdistinct hnames
    have hget : r.corpus.get? name = some entry := (hleft name hnew).symm.trans hsome
    have hvisit : visit r owners p name = next := by rw [visit, hget]
    -- what the visit remembers comes behind the names that are pending already
    have hfresh : next.memory.names = visited ++ [name] ++ (pending ++ fresh) := by
      obtain ⟨more, hmore⟩ := hvisit ▸ names_prefix_visit r owners p name
      have hdrop : fresh = more := by simp [fresh, ← hmore]
      rw [hdrop, ← hmore, hnames]
      simp
    obtain ⟨rest, hmemory, hrun⟩ := ih (visited ++ [name])
      (hvisit ▸ distinct_visit hdistinct name) hfresh fun other hother => by
        simp only [List.map_append, List.map_cons, List.map_nil, List.mem_append,
          List.mem_singleton, not_or] at hother
        rw [NameMap.find?_erase_of_ne hother.2, hleft other hother.1]
    rw [backfillFrom, hsome]
    refine ⟨fresh ++ rest, by simpa using hmemory, ?_⟩
    simpa [hvisit] using hrun
where
  not_mem_visited {p : Progress} {visited pending : List String} {name : String}
      (hdistinct : p.memory.Distinct) (hnames : p.memory.names = visited ++ name :: pending) :
      lowered name ∉ visited.map lowered := by
    have h := hnames ▸ hdistinct.nodup_lowered
    rw [List.map_append, List.nodup_append] at h
    exact fun hmem => h.2.2 _ hmem _ (by simp) rfl

/-- A backfill without remembered names adds nothing. -/
theorem backfill_of_names_nil {p : Progress} (h : p.memory.names = []) :
    backfill r owners p = p := by
  rw [backfill, h, backfillFrom]

/-- The backfill visits every name that is remembered in the end, in order. -/
theorem backfill_eq_foldl {p : Progress} (h : p.memory.Distinct) :
    backfill r owners p = (backfill r owners p).memory.names.foldl (visit r owners) p := by
  obtain ⟨rest, hmemory, hrun⟩ := backfillFrom_eq_foldl
    r.corpus.entries p [] p.memory.names h rfl fun _ _ => rfl
  rw [backfill, hmemory]
  exact hrun

theorem distinct_backfill {p : Progress} (h : p.memory.Distinct) :
    (backfill r owners p).memory.Distinct := by
  rw [backfill_eq_foldl h]
  exact foldl_visit_induction (I := fun _ p => p.memory.Distinct)
    (fun _ _ name hp => distinct_visit hp name) [] h _

end

end ScriptTypings.Merger
