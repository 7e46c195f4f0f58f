import ScriptTypings.Proofs.Merge.Backfilled
import ScriptTypings.Proofs.Merge.Reachable

/-!
# Merging a tree again

A second merge of a tree starts with more names in memory, and with owners of which some are
namespaces of older trees. Yet it goes the way of the first one: `Repeats` holds of the two
backfills after the same names, with the numbers of the new namespaces shifted. What older
namespaces own was declared there by the first merge.
-/

namespace ScriptTypings

open Text

theorem Memory.Distinct.ext {memory memory' : Memory} (h : memory.Distinct) (h' : memory'.Distinct)
    (hnames : memory.names = memory'.names) : memory = memory' := by
  have hkeyed : ∀ {memory : Memory}, memory.Distinct →
      memory.byKey = memory.names.map fun name => (lowered name, name) := by
    intro memory h
    rw [Memory.names, List.map_map]
    refine (List.map_id _).symm.trans (List.map_congr_left fun e he => ?_)
    exact Prod.ext (h.keyed e he) rfl
  cases memory
  cases memory'
  rw [Memory.mk.injEq]
  exact (hkeyed h).trans ((congrArg _ hnames).trans (hkeyed h').symm)

namespace Surface

/-- Declarations are attached alike under other numbers, if they are the same ones. -/
theorem attach_congr {additions additions' : Nat → List (String × Surface)} :
    (∀ (s : Surface) (number number' : Nat),
      (∀ place < s.spaces.length, additions (number + place) = additions' (number' + place)) →
      attach additions number s = attach additions' number' s) ∧
    ∀ (ms : List (String × Surface)) (number number' : Nat),
      (∀ place < (spacesOf ms).length,
        additions (number + place) = additions' (number' + place)) →
      attachAll additions number ms = attachAll additions' number' ms := by
  refine tree_induction ?space ?enumeration ?cls ?leaf ?nil ?cons
  case space =>
    intro name fullname description members ih number number' h
    rw [spaces, List.length_cons] at h
    have hmembers : attachAll additions (number + 1) members =
        attachAll additions' (number' + 1) members := by
      refine ih _ _ fun place hplace => ?_
      rw [Nat.add_right_comm, Nat.add_right_comm number']
      exact h (place + 1) (Nat.succ_lt_succ hplace)
    have hown : additions number = additions' number' := h 0 (Nat.zero_lt_succ _)
    rw [attach, attach, hmembers, hown]
  case enumeration =>
    intro name fullname description members ih number number' h
    rw [attach, attach, ih number number' h]
  case cls =>
    intro header statics prototype ihs ihp number number' h
    rw [spaces, List.length_append] at h
    have hprototype : attachAll additions (number + (spacesOf statics).length) prototype =
        attachAll additions' (number' + (spacesOf statics).length) prototype := by
      refine ihp _ _ fun place hplace => ?_
      rw [Nat.add_assoc, Nat.add_assoc]
      exact h _ (Nat.add_lt_add_left hplace _)
    rw [attach, attach, hprototype,
      ihs number number' fun place hplace => h place (Nat.lt_add_right _ hplace)]
  case leaf =>
    intro s hs number number' h
    rw [attach_of_leaf hs, attach_of_leaf hs]
  case nil =>
    intro number number' h
    rfl
  case cons =>
    intro name node members ihn ihm number number' h
    rw [spacesOf, List.length_append] at h
    have hmembers : attachAll additions (number + node.spaces.length) members =
        attachAll additions' (number' + node.spaces.length) members := by
      refine ihm _ _ fun place hplace => ?_
      rw [Nat.add_assoc, Nat.add_assoc]
      exact h _ (Nat.add_lt_add_left hplace _)
    rw [attachAll, attachAll, hmembers,
      ihn number number' fun place hplace => h place (Nat.lt_add_right _ hplace)]

end Surface

/-- Where resolving a tree stops does not depend on the numbers of its namespaces. -/
theorem Reference.misfit?_resolveTrace_number (r : Reference) :
    (∀ node number number' parent name, (r.resolveTrace number parent name node).misfit? =
      (r.resolveTrace number' parent name node).misfit?) ∧
    ∀ ms number number' holder holder' parent, (r.resolveTraceOf number holder parent ms).misfit? =
      (r.resolveTraceOf number' holder' parent ms).misfit? := by
  have henlist : ∀ holder name, (MergeTrace.enlist holder name).misfit? = none := by
    intro holder name
    cases holder <;> rfl
  refine Reflected.tree_induction ?placeholder ?space ?cls ?nil ?cons
  case placeholder =>
    intro word number number' parent name
    rfl
  case space =>
    intro fullname members ih number number' parent name
    rw [resolveTrace, resolveTrace]
    split
    · exact ih ..
    · rw [Trace.misfit?_append, Trace.misfit?_append, ih]
  case cls =>
    intro fullname base statics prototype ihs ihp number number' parent name
    simp only [resolveTrace, Trace.misfit?_append]
    rw [ihs number number' none none, ihp _ _ none none]
  case nil =>
    intro number number' holder holder' parent
    rfl
  case cons =>
    intro name node members ihn ihm number number' holder holder' parent
    simp only [resolveTraceOf, Trace.misfit?_append, henlist]
    rw [ihn number number', ihm _ _ holder holder']

namespace Merger

variable {r : Reference} {owners owners' : NameMap Nat} {p q last : Progress}

/-! ### What a backfill only adds to -/

/-- Whatever is in a progress is in a later one as well. -/
structure Precedes (p last : Progress) : Prop where
  memory : ∃ names, last.memory = p.memory.addAll names
  spaces : ∀ number, namesIn p.spaces number ⊆ namesIn last.spaces number
  trace : p.trace <+: last.trace

theorem Precedes.refl (p : Progress) : Precedes p p :=
  ⟨⟨[], rfl⟩, fun _ => List.Subset.refl _, List.prefix_rfl⟩

theorem Precedes.trans (h : Precedes p q) (h' : Precedes q last) : Precedes p last := by
  obtain ⟨names, hnames⟩ := h.memory
  obtain ⟨names', hnames'⟩ := h'.memory
  refine ⟨⟨names ++ names', ?_⟩,
    fun number => List.Subset.trans (h.spaces number) (h'.spaces number), h.trace.trans h'.trace⟩
  rw [hnames', hnames, Memory.addAll, Memory.addAll, Memory.addAll, List.foldl_append]

theorem Precedes.isPrefix_names (h : Precedes p last) : p.memory.names <+: last.memory.names := by
  obtain ⟨names, hnames⟩ := h.memory
  rw [hnames]
  exact Memory.names_prefix_addAll _ _

theorem Precedes.contains (h : Precedes p last) {name : String}
    (hname : p.memory.contains name = true) : last.memory.contains name = true := by
  obtain ⟨names, hnames⟩ := h.memory
  rw [hnames]
  exact Memory.contains_addAll_of_contains hname names

theorem Precedes.misfit? (h : Precedes p last) (hlast : last.trace.misfit? = none) :
    p.trace.misfit? = none := by
  obtain ⟨rest, hrest⟩ := h.trace
  rw [← hrest, Trace.misfit?_append_eq_none] at hlast
  exact hlast.1

variable (r owners) in
theorem precedes_visit (p : Progress) (name : String) : Precedes p (visit r owners p name) := by
  cases hget : r.corpus.get? name with
  | none =>
    rw [visit, hget]
    exact .refl p
  | some entry =>
    rw [visit_of_get? hget]
    cases hs : isStructural entry with
    | false =>
      rw [declareName_of_not_structural hs]
      exact .refl p
    | true =>
      cases ho : NameMap.find? (lowered name) owners with
      | none =>
        rw [declareName_of_unowned hs ho]
        exact ⟨⟨[], rfl⟩, fun _ => List.Subset.refl _, List.prefix_append _ _⟩
      | some owner =>
        by_cases hmem : shortName entry ∈ namesIn p.spaces owner
        · rw [declareName_of_mem hs ho hmem]
          exact ⟨⟨[], rfl⟩, fun _ => List.Subset.refl _, List.prefix_append _ _⟩
        · obtain ⟨declared, hd⟩ := exists_declared hs r (shortName entry)
          rw [declareName_of_not_mem hs ho hmem hd]
          refine ⟨⟨_, rfl⟩, fun number other hother => mem_namesIn_addName hother _ _, ?_⟩
          simp only [List.append_assoc]
          exact List.prefix_append _ _

variable (r owners) in
theorem precedes_foldl_visit (p : Progress) (names : List String) :
    Precedes p (names.foldl (visit r owners) p) := by
  induction names generalizing p with
  | nil => exact .refl p
  | cons name names ih => exact (precedes_visit r owners p name).trans (ih _)

/-! ### Backfills that remember nothing new -/

/-- If visiting the pending names adds nothing to the memory, these are all that is visited. -/
theorem backfillFrom_of_settled (left : NameMap Entry) (p : Progress)
    (visited pending : List String) (hdistinct : p.memory.Distinct)
    (hnames : p.memory.names = visited ++ pending)
    (hleft : ∀ name, lowered name ∉ visited.map lowered →
      NameMap.find? (lowered name) left = r.corpus.get? name)
    (hsettled : (pending.foldl (visit r owners) p).memory = p.memory) :
    backfillFrom r owners left p pending = pending.foldl (visit r owners) p := by
  induction left, p, pending using backfillFrom.induct r owners generalizing visited with
  | case1 left p => rw [backfillFrom, List.foldl_nil]
  | case2 left p name pending hnone ih =>
    -- no name comes twice, so that the corpus has no entry either
    have hnew := backfillFrom_eq_foldl.not_mem_visited hdistinct hnames
    have hvisit : visit r owners p name = p := by rw [visit, ← hleft name hnew, hnone]
    rw [List.foldl_cons, hvisit] at hsettled ⊢
    rw [backfillFrom, hnone]
    exact ih (visited ++ [name]) hdistinct (by simpa using hnames)
      (fun other hother => hleft other (by simp_all)) hsettled
  | case3 left p name pending entry hsome next fresh =>
    rename_i ih
    have hnew := backfillFrom_eq_foldl.not_mem_visited hdistinct hnames
    have hget : r.corpus.get? name = some entry := (hleft name hnew).symm.trans hsome
    have hvisit : visit r owners p name = next := by rw [visit, hget]
    rw [List.foldl_cons, hvisit] at hsettled ⊢
    -- the memory is the same before, between and behind the visits
    have hsame : next.memory = p.memory := by
      have hbefore : p.memory.names <+: next.memory.names :=
        hvisit ▸ names_prefix_visit r owners p name
      have hbehind := (precedes_foldl_visit r owners next pending).isPrefix_names
      rw [hsettled] at hbehind
      refine (hvisit ▸ distinct_visit hdistinct name).ext hdistinct ?_
      exact (hbefore.eq_of_length
        (Nat.le_antisymm hbefore.length_le hbehind.length_le)).symm
    have hfresh : fresh = [] :=
      List.drop_eq_nil_iff.mpr (Nat.le_of_eq (congrArg (fun memory => memory.names.length) hsame))
    rw [backfillFrom, hsome]
    rw [hfresh, List.append_nil] at ih
    change backfillFrom r owners _ next (pending ++ fresh) = _
    rw [hfresh, List.append_nil]
    refine ih (visited ++ [name]) (hsame ▸ hdistinct) (by rw [hsame, hnames]; simp) ?_
      (hsettled.trans hsame.symm)
    intro other hother
    simp only [List.map_append, List.map_cons, List.map_nil, List.mem_append,
      List.mem_singleton, not_or] at hother
    rw [NameMap.find?_erase_of_ne hother.2, hleft other hother.1]

theorem backfill_of_settled (hdistinct : p.memory.Distinct)
    (hsettled : (p.memory.names.foldl (visit r owners) p).memory = p.memory) :
    backfill r owners p = p.memory.names.foldl (visit r owners) p :=
  backfillFrom_of_settled _ p [] _ hdistinct rfl (fun _ _ => rfl) hsettled

/-! ### Two backfills side by side -/

section Repeating

variable {base count : Nat}

theorem take_addName {spaces : List Surface.Space} {number n : Nat} (h : n ≤ number)
    (name : String) : (addName spaces number name).take n = spaces.take n := by
  rw [addName, List.take_modify]
  exact List.modify_eq_self (Nat.le_trans (List.length_take_le _ _) h)

theorem namesIn_take_subset (n : Nat) (spaces : List Surface.Space) (number : Nat) :
    namesIn (spaces.take n) number ⊆ namesIn spaces number := by
  rw [namesIn, List.getElem?_take]
  split
  · exact List.Subset.refl _
  · exact List.nil_subset _

/-- The owners of a second merge: namespaces of the tree have other numbers, older ones keep
theirs. -/
structure Shifted (base count : Nat) (owners owners' : NameMap Nat) : Prop where
  below : ∀ key number, NameMap.find? key owners = some number → number < base + count
  find? : ∀ key, NameMap.find? key owners' = (NameMap.find? key owners).map fun number =>
    if number < base then number else number + count

/-- The second backfill at a point, compared with the first one at the same point and in the end.
It has done the same in the namespaces of its tree, and nothing in those of earlier trees. -/
structure Repeats (base count : Nat) (last p q : Progress) : Prop where
  length : p.spaces.length = base + count
  length' : q.spaces.length = base + count + count
  names : ∀ place < count,
    namesIn q.spaces (base + count + place) = namesIn p.spaces (base + place)
  additions : ∀ place < count,
    additionsTo q.additions (base + count + place) = additionsTo p.additions (base + place)
  memory : q.memory = last.memory
  kept : q.spaces.take (base + count) = last.spaces
  misfit? : q.trace.misfit? = none

/-- A step of the first backfill that changes nothing in the namespaces of the tree, and one of the
second that only notes something. -/
theorem Repeats.of_same {p' : Progress} {trace : MergeTrace} (h : Repeats base count last p q)
    (hlength : p'.spaces.length = p.spaces.length)
    (hnames : ∀ place < count, namesIn p'.spaces (base + place) = namesIn p.spaces (base + place))
    (hadditions : ∀ place < count,
      additionsTo p'.additions (base + place) = additionsTo p.additions (base + place))
    (htrace : trace.misfit? = none) :
    Repeats base count last p' { q with trace := q.trace ++ trace } where
  length := hlength.trans h.length
  length' := h.length'
  names place hplace := (h.names place hplace).trans (hnames place hplace).symm
  additions place hplace := (h.additions place hplace).trans (hadditions place hplace).symm
  memory := h.memory
  kept := h.kept
  misfit? := Trace.misfit?_append_eq_none.mpr ⟨h.misfit?, htrace⟩

/-- What the first backfill declares in an older namespace is a member there in the second one. -/
theorem Repeats.of_older {p' : Progress} {trace : MergeTrace} {owner : Nat} {name : String}
    {node : Surface} (h : Repeats base count last p q) (howner : owner < base)
    (hspaces : p'.spaces = addName p.spaces owner name)
    (hadditions : p'.additions = p.additions ++ [⟨owner, name, node⟩])
    (htrace : trace.misfit? = none) :
    Repeats base count last p' { q with trace := q.trace ++ trace } := by
  have hne : ∀ place, owner ≠ base + place := fun place =>
    Nat.ne_of_lt (Nat.lt_of_lt_of_le howner (Nat.le_add_right _ _))
  refine h.of_same (by rw [hspaces, length_addName]) ?_ ?_ htrace
  · intro place _
    rw [hspaces, namesIn_addName_of_ne (hne place)]
  · intro place _
    rw [hadditions, additionsTo_append_of_ne (hne place)]

/-- Both backfills declare a type in the same namespace of the tree. -/
theorem Repeats.of_declared {p' q' : Progress} {place : Nat} {name : String} {node : Surface}
    (h : Repeats base count last p q) (trace : MergeTrace) (mentions : List String)
    (hplace : place < count)
    (hspaces : p'.spaces = addName p.spaces (base + place) name)
    (hadditions : p'.additions = p.additions ++ [⟨base + place, name, node⟩])
    (hq : q' =
      { memory := q.memory.addAll mentions
        spaces := addName q.spaces (base + count + place) name
        additions := q.additions ++ [⟨base + count + place, name, node⟩]
        trace := q.trace ++ trace })
    (hmentions : ∀ mention ∈ mentions, last.memory.contains mention = true)
    (htrace : trace.misfit? = none) : Repeats base count last p' q' := by
  subst hq
  have hp : base + place < p.spaces.length := by rw [h.length]; omega
  have hq : base + count + place < q.spaces.length := by rw [h.length']; omega
  refine ⟨?_, ?_, ?_, ?_, ?_, ?_, ?_⟩
  · rw [hspaces, length_addName, h.length]
  · rw [length_addName, h.length']
  · intro other hother
    rw [hspaces]
    by_cases hsame : place = other
    · subst hsame
      rw [namesIn_addName_self hp, namesIn_addName_self hq, h.names place hplace]
    · rw [namesIn_addName_of_ne (by omega), namesIn_addName_of_ne (by omega), h.names other hother]
  · intro other hother
    rw [hadditions]
    by_cases hsame : place = other
    · subst hsame
      rw [additionsTo_append_self, additionsTo_append_self, h.additions place hplace]
    · rw [additionsTo_append_of_ne (by omega), additionsTo_append_of_ne (by omega),
        h.additions other hother]
  · rw [h.memory]
    exact Memory.addAll_of_contains hmentions
  · rw [take_addName (Nat.le_add_right _ _), h.kept]
  · exact Trace.misfit?_append_eq_none.mpr ⟨h.misfit?, htrace⟩

/-- Behind the visit of a structural type, its namespace has a member of its name. -/
theorem mem_namesIn_declareName {name : String} {entry : Entry} {owner : Nat}
    (hs : isStructural entry = true) (ho : NameMap.find? (lowered name) owners = some owner)
    (howner : owner < p.spaces.length) :
    shortName entry ∈ namesIn (declareName r owners p name entry).spaces owner := by
  by_cases hmem : shortName entry ∈ namesIn p.spaces owner
  · rwa [declareName_of_mem hs ho hmem]
  · obtain ⟨declared, hd⟩ := exists_declared hs r (shortName entry)
    rw [declareName_of_not_mem hs ho hmem hd]
    dsimp only
    rw [namesIn_addName_self howner]
    exact List.mem_append_right _ List.mem_cons_self

/-- A visit of the same name in both backfills: what the first one declares in the tree, the second
one declares there, too. -/
theorem Repeats.visit (hshift : Shifted base count owners owners')
    (h : Repeats base count last p q) {name : String}
    (hlast : Precedes (visit r owners p name) last) (hmisfit : last.trace.misfit? = none) :
    Repeats base count last (visit r owners p name) (visit r owners' q name) := by
  have hnone := hlast.misfit? hmisfit
  cases hget : r.corpus.get? name with
  | none =>
    have hp : Merger.visit r owners p name = p := by rw [Merger.visit, hget]
    have hq : Merger.visit r owners' q name = q := by rw [Merger.visit, hget]
    rw [hp, hq]
    exact h
  | some entry =>
    rw [visit_of_get? hget] at hlast hnone ⊢
    rw [visit_of_get? hget]
    cases hs : isStructural entry with
    | false =>
      rw [declareName_of_not_structural hs, declareName_of_not_structural hs]
      exact h
    | true =>
      cases ho : NameMap.find? (lowered name) owners with
      | none =>
        have ho' : NameMap.find? (lowered name) owners' = none := by rw [hshift.find?, ho]; rfl
        rw [declareName_of_unowned hs ho, declareName_of_unowned hs ho']
        exact h.of_same rfl (fun _ _ => rfl) (fun _ _ => rfl) rfl
      | some owner =>
        obtain ⟨declared, hd⟩ := exists_declared hs r (shortName entry)
        have hbelow := hshift.below _ _ ho
        have ho' := hshift.find? (lowered name)
        rw [ho, Option.map_some] at ho'
        by_cases hold : owner < base
        -- an earlier tree owns the type: by the end of the first backfill it has the member
        · rw [if_pos hold] at ho'
          have howner : owner < p.spaces.length := h.length ▸ hbelow
          have hmember : shortName entry ∈ namesIn q.spaces owner := by
            refine namesIn_take_subset (base + count) q.spaces owner ?_
            rw [h.kept]
            exact hlast.spaces owner (mem_namesIn_declareName hs ho howner)
          rw [declareName_of_mem hs ho' hmember]
          by_cases hmem : shortName entry ∈ namesIn p.spaces owner
          · rw [declareName_of_mem hs ho hmem] at hnone ⊢
            exact h.of_same rfl (fun _ _ => rfl) (fun _ _ => rfl)
              (Trace.misfit?_append_eq_none.mp hnone).2
          · rw [declareName_of_not_mem hs ho hmem hd] at hnone ⊢
            simp only [Trace.misfit?_append_eq_none] at hnone
            exact h.of_older hold rfl rfl hnone.1.1.2
        -- the tree owns the type: both backfills find the same members at the same place
        · rw [if_neg hold] at ho'
          obtain ⟨place, rfl⟩ := Nat.exists_eq_add_of_le (Nat.not_lt.mp hold)
          have hplace : place < count := Nat.lt_of_add_lt_add_left hbelow
          rw [Nat.add_right_comm] at ho'
          have hnames := h.names place hplace
          by_cases hmem : shortName entry ∈ namesIn p.spaces (base + place)
          · rw [declareName_of_mem hs ho hmem] at hnone ⊢
            rw [declareName_of_mem hs ho' (hnames ▸ hmem)]
            exact h.of_same rfl (fun _ _ => rfl) (fun _ _ => rfl)
              (Trace.misfit?_append_eq_none.mp hnone).2
          · rw [declareName_of_not_mem hs ho hmem hd] at hlast hnone ⊢
            rw [declareName_of_not_mem hs ho' (hnames ▸ hmem) hd]
            simp only [Trace.misfit?_append_eq_none] at hnone
            refine h.of_declared (Trace.use entry.identifier ++ (declared.trace ++
              Trace.step (.member (base + count + place) (shortName entry)))) declared.mentions
              hplace rfl rfl (by simp only [List.append_assoc]) ?_ ?_
            · exact fun mention hmention =>
                hlast.contains (Memory.contains_addAll_of_mem hmention p.memory)
            · exact Trace.misfit?_append_eq_none.mpr ⟨hnone.1.1.2,
                Trace.misfit?_append_eq_none.mpr ⟨hnone.1.2, rfl⟩⟩

theorem Repeats.foldl_visit (hshift : Shifted base count owners owners') {names : List String}
    (h : Repeats base count (names.foldl (Merger.visit r owners) p) p q)
    (hmisfit : (names.foldl (Merger.visit r owners) p).trace.misfit? = none) :
    Repeats base count (names.foldl (Merger.visit r owners) p)
      (names.foldl (Merger.visit r owners) p) (names.foldl (Merger.visit r owners') q) := by
  induction names generalizing p q with
  | nil => exact h
  | cons name names ih =>
    rw [List.foldl_cons] at h hmisfit
    exact ih (h.visit hshift (precedes_foldl_visit r owners _ names) hmisfit) hmisfit

end Repeating

/-! ### Merging again -/

/-- The owners of a second merge are those of the first one, shifted. -/
theorem shifted_registerAll {base : Nat} {spaces : List Surface.Space} {before : NameMap Nat}
    (h : ∀ key number, NameMap.find? key before = some number → number < base) :
    Shifted base spaces.length (registerAll r base spaces before)
      (registerAll r (base + spaces.length) spaces (registerAll r base spaces before)) := by
  refine ⟨fun key number => owned_registerAll h, fun key => ?_⟩
  obtain ⟨place, hlast, hplace⟩ | ⟨hnone, hkept⟩ :=
    find?_registerAll_from r base spaces before key
  · obtain ⟨place', hlast', hplace'⟩ | ⟨hnone, -⟩ := find?_registerAll_from r
      (base + spaces.length) spaces (registerAll r base spaces before) key
    · rw [hplace, hplace', hlast'.eq hlast, Option.map_some, if_neg (Nat.not_lt.mpr
        (Nat.le_add_right base place)), Nat.add_right_comm]
    · exact absurd hlast (hnone place)
  · obtain ⟨place', hlast', -⟩ | ⟨-, hkept'⟩ := find?_registerAll_from r
      (base + spaces.length) spaces (registerAll r base spaces before) key
    · exact absurd hlast' (hnone place')
    · rw [hkept', hkept]
      cases hfind : NameMap.find? key before with
      | none => rfl
      | some number => rw [Option.map_some, if_pos (h key number hfind)]

theorem namesIn_append_right (spaces spaces' : List Surface.Space) (place : Nat) :
    namesIn (spaces ++ spaces') (spaces.length + place) = namesIn spaces' place := by
  rw [namesIn, namesIn, List.getElem?_append_right (Nat.le_add_right _ _),
    Nat.add_sub_cancel_left]

section Again

variable {m : Merger} {resolved : Surface}

variable (m resolved) in
/-- Where the backfill of a merge begins. -/
def started : Progress :=
  { memory := m.memory.addAll resolved.mentions, spaces := m.spaces ++ resolved.spaces }

variable (m resolved) in
/-- The owners of types during a merge. -/
def ownersWith : NameMap Nat :=
  registerAll m.reference m.spaces.length resolved.spaces m.owners

/-- The second backfill begins like the first one: no member was added in the tree. -/
theorem repeats_started (h : m.Sound) {next : Merger}
    (hlast : last = backfill m.reference (m.ownersWith resolved) (m.started resolved))
    (hmemory : next.memory = last.memory) (hspaces : next.spaces = last.spaces) :
    Repeats m.spaces.length resolved.spaces.length last (m.started resolved)
      (next.started resolved) := by
  have hdistinct : (m.started resolved).memory.Distinct := h.distinct.addAll _
  have hprecedes : Precedes (m.started resolved) last := by
    rw [hlast, backfill_eq_foldl hdistinct]
    exact precedes_foldl_visit ..
  have hlength : last.spaces.length = m.spaces.length + resolved.spaces.length := by
    rw [hlast, length_spaces_backfill hdistinct, started, List.length_append]
  refine ⟨List.length_append, ?_, ?_, fun _ _ => rfl, ?_, ?_, rfl⟩
  · rw [started, List.length_append, hspaces, hlength]
  · intro place _
    rw [started, started, hspaces, ← hlength, namesIn_append_right, namesIn_append_right]
  · rw [started, hmemory]
    refine Memory.addAll_of_contains fun name hname => hprecedes.contains ?_
    exact Memory.contains_addAll_of_mem hname m.memory
  · rw [started, hspaces, List.take_left' hlength]

/-- The backfill of a second merge, compared with that of the first one. -/
theorem repeats_backfill (h : m.Sound) {next : Merger}
    (hlast : last = backfill m.reference (m.ownersWith resolved) (m.started resolved))
    (hreference : next.reference = m.reference) (hmemory : next.memory = last.memory)
    (hspaces : next.spaces = last.spaces) (howners : next.owners = m.ownersWith resolved)
    (hmisfit : last.trace.misfit? = none) :
    Repeats m.spaces.length resolved.spaces.length last last
      (backfill m.reference (next.ownersWith resolved) (next.started resolved)) := by
  have hdistinct : (m.started resolved).memory.Distinct := h.distinct.addAll _
  have hstart := repeats_started h hlast hmemory hspaces
  have hlength : next.spaces.length = m.spaces.length + resolved.spaces.length := by
    rw [hspaces, hlast, length_spaces_backfill hdistinct, started, List.length_append]
  have hshift : Shifted m.spaces.length resolved.spaces.length (m.ownersWith resolved)
      (next.ownersWith resolved) := by
    rw [ownersWith, ownersWith, howners, hlength, hreference]
    exact shifted_registerAll h.owned
  have hrun : last = last.memory.names.foldl
      (visit m.reference (m.ownersWith resolved)) (m.started resolved) := by
    rw [hlast]
    exact backfill_eq_foldl hdistinct
  generalize hnames : last.memory.names = names at hrun
  have hrepeats : Repeats m.spaces.length resolved.spaces.length last last
      (names.foldl (visit m.reference (next.ownersWith resolved)) (next.started resolved)) := by
    have hstart' := hstart
    rw [hrun] at hstart' hmisfit ⊢
    exact hstart'.foldl_visit hshift hmisfit
  -- the second backfill remembers nothing new, so that it visits the same names
  have hsettled : backfill m.reference (next.ownersWith resolved) (next.started resolved) =
      names.foldl (visit m.reference (next.ownersWith resolved)) (next.started resolved) := by
    have hvisited : (next.started resolved).memory.names = names := by rw [hstart.memory, hnames]
    rw [← hvisited]
    refine backfill_of_settled ?_ ?_
    · rw [hstart.memory, hlast]
      exact distinct_backfill hdistinct
    · rw [hvisited, hrepeats.memory, hstart.memory]
  rw [hsettled]
  exact hrepeats

end Again

/-- What a merge comes to, step by step. -/
theorem merge_eq (m : Merger) (root : Reflected.Root) :
    let resolved := m.reference.resolve "" (Identifier.lastSegment root.fullname) root.node
    let p := backfill m.reference (m.ownersWith resolved) (m.started resolved)
    m.merge root =
      ({ m with memory := p.memory, owners := m.ownersWith resolved, spaces := p.spaces },
        { surface := (resolved.attach (additionsTo p.additions) m.spaces.length).withListeners
          trace := m.reference.resolveTrace m.spaces.length ""
            (Identifier.lastSegment root.fullname) root.node ++ p.trace }) :=
  rfl

/-- A merger whose tree was merged merges it as before. -/
theorem Sound.mergeUntilMisfit_merge {m : Merger} (h : m.Sound) (root : Reflected.Root)
    (hmisfit : (m.merge root).2.trace.misfit? = none) :
    ∃ next' merged', (m.merge root).1.mergeUntilMisfit root = (next', .ok merged') ∧
      merged'.surface = (m.merge root).2.surface ∧ next'.memory = (m.merge root).1.memory ∧
      (m.merge root).1.spaces <+: next'.spaces := by
  -- the parts of the first merge under names of their own, so that the second is about these
  obtain ⟨resolved, hresolved⟩ : ∃ resolved, resolved =
    m.reference.resolve "" (Identifier.lastSegment root.fullname) root.node := ⟨_, rfl⟩
  obtain ⟨p, hp⟩ : ∃ p, p = backfill m.reference (m.ownersWith resolved) (m.started resolved) :=
    ⟨_, rfl⟩
  obtain ⟨next, hnext⟩ : ∃ next : Merger, next =
    { m with memory := p.memory, owners := m.ownersWith resolved, spaces := p.spaces } := ⟨_, rfl⟩
  have hmerge := merge_eq m root
  simp only [← hresolved, ← hp, ← hnext] at hmerge
  rw [hmerge] at hmisfit ⊢
  obtain ⟨hresolve, hbackfill⟩ := Trace.misfit?_append_eq_none.mp hmisfit
  have hreference : next.reference = m.reference := by rw [hnext]
  have hmemory : next.memory = p.memory := by rw [hnext]
  have hrepeats := repeats_backfill h hp hreference hmemory (by rw [hnext]) (by rw [hnext])
    hbackfill
  have hbase : next.spaces.length = m.spaces.length + resolved.spaces.length := by
    rw [hnext, hrepeats.length]
  have hagain := merge_eq next root
  simp only [hreference, ← hresolved] at hagain
  refine ⟨_, _, mergeUntilMisfit_eq_ok.mpr ⟨hagain, ?_⟩, ?_, ?_, ?_⟩
  · refine Trace.misfit?_append_eq_none.mpr ⟨?_, hrepeats.misfit?⟩
    rw [m.reference.misfit?_resolveTrace_number.1 _ _ m.spaces.length]
    exact hresolve
  · refine congrArg Surface.withListeners (Surface.attach_congr.1 _ _ _ fun place hplace => ?_)
    rw [hbase]
    exact hrepeats.additions place hplace
  · exact hrepeats.memory.trans hmemory.symm
  · have hspaces : next.spaces = p.spaces := by rw [hnext]
    rw [List.prefix_iff_eq_take, hbase]
    exact hspaces.trans hrepeats.kept.symm

variable {corpus : Corpus} {overrides : List (String × Json)}

/-- A merger merges a tree again as it did before: the second tree is equal to the first one,
declarations and their order included, nothing new is remembered, and the namespaces of earlier
trees, those of the first one among them, get no more members. The first merge ends if all entries
are well typed and all overrides are texts. -/
theorem mergeUntilMisfit_again {m : Merger} (h : Reachable corpus overrides m)
    (root : Reflected.Root) :
    ((∀ e ∈ corpus.entries, e.2.isWellTyped = true) → (∀ o ∈ overrides, o.2.isText = true) →
      ∃ next merged, m.mergeUntilMisfit root = (next, .ok merged)) ∧
    ∀ next merged, m.mergeUntilMisfit root = (next, .ok merged) →
      ∃ next' merged', next.mergeUntilMisfit root = (next', .ok merged') ∧
        merged'.surface = merged.surface ∧ next'.memory = next.memory ∧
        next.spaces <+: next'.spaces := by
  constructor
  · exact fun hentries hoverrides => ⟨_, _, h.mergeUntilMisfit_eq hentries hoverrides root⟩
  · intro next merged hrun
    obtain ⟨hmerge, hmisfit⟩ := mergeUntilMisfit_eq_ok.mp hrun
    have hagain := h.sound.mergeUntilMisfit_merge root
    rw [hmerge] at hagain
    exact hagain hmisfit

/-- A ring of structures is declared once more as before by a merger that remembered one of them
already. -/
theorem mergeUntilMisfit_again_ring :
    Reachable ringCorpus [] ((ofCorpus ringCorpus []).rememberName "N.There") ∧
    ∃ next merged next' merged',
      ((ofCorpus ringCorpus []).rememberName "N.There").mergeUntilMisfit
        ⟨"N", [("Start", .placeholder "property")]⟩ = (next, .ok merged) ∧
      next.mergeUntilMisfit ⟨"N", [("Start", .placeholder "property")]⟩ = (next', .ok merged') ∧
      merged'.surface = merged.surface ∧ next'.memory = next.memory ∧
      next.spaces <+: next'.spaces := by
  have hreachable : Reachable ringCorpus [] ((ofCorpus ringCorpus []).rememberName "N.There") :=
    .rememberName .new _
  obtain ⟨hends, hagain⟩ :=
    mergeUntilMisfit_again hreachable ⟨"N", [("Start", .placeholder "property")]⟩
  obtain ⟨next, merged, hrun⟩ := hends (by decide) nofun
  obtain ⟨next', merged', hrun', hsame⟩ := hagain next merged hrun
  exact ⟨hreachable, next, merged, next', merged', hrun, hrun', hsame⟩

end Merger

end ScriptTypings
