import ScriptTypings.NameMap
import ScriptTypings.Proofs.FirstOccurrences

/-!
# Looking up in name maps

A name map is read through `find?` and `names`. The lemmas say what each operation does to the two,
and when the order of the entries is not seen: a map that names every value once is read alike in
every order. It is known by its names and by what is found under them.
-/

namespace ScriptTypings.NameMap

variable {ν α β : Type}

@[simp] theorem names_nil : names ([] : NameMap α ν) = [] :=
  rfl

@[simp] theorem names_cons (entry : ν × α) (m : NameMap α ν) :
    names (entry :: m) = entry.1 :: names m := rfl

@[simp] theorem names_append (m m' : NameMap α ν) : names (m ++ m') = names m ++ names m' :=
  List.map_append

@[simp] theorem names_mapValues (f : α → β) (m : NameMap α ν) :
    (mapValues f m).names = m.names := by
  simp [names, mapValues]

theorem mapValues_mapValues {γ : Type} (f : α → β) (g : β → γ) (m : NameMap α ν) :
    mapValues g (mapValues f m) = mapValues (fun a => g (f a)) m := by
  simp [mapValues]

theorem mapValues_injective {f : α → β} (hf : Function.Injective f) :
    Function.Injective (mapValues f : NameMap α ν → NameMap β ν) := by
  have hentry : ∀ e e' : ν × α, (e.1, f e.2) = (e'.1, f e'.2) → e = e' := by
    intro e e' h
    obtain ⟨hname, hvalue⟩ := Prod.mk.inj h
    exact Prod.ext hname (hf hvalue)
  exact fun _ _ => (List.map_inj_right hentry).mp

theorem nodup_of_nodup_names {m : NameMap α ν} (hm : m.names.Nodup) : m.Nodup :=
  List.Pairwise.of_map Prod.fst (fun _ _ hne heq => hne (congrArg Prod.fst heq)) hm

variable [DecidableEq ν]

theorem find?_cons (name n : ν) (a : α) (m : NameMap α ν) :
    find? name ((n, a) :: m) = if n = name then some a else find? name m := rfl

theorem mem_of_find?_eq_some {name : ν} {m : NameMap α ν} {a : α}
    (h : find? name m = some a) : (name, a) ∈ m := by
  induction m with
  | nil => simp at h
  | cons entry rest ih =>
    obtain ⟨n, b⟩ := entry
    rw [find?_cons] at h
    split at h
    · rename_i hn
      rw [← hn, ← Option.some.inj h]
      exact List.mem_cons_self
    · exact List.mem_cons_of_mem _ (ih h)

/-- A name has a value exactly when it is among the names of the map. -/
theorem find?_eq_none_iff {name : ν} {m : NameMap α ν} :
    find? name m = none ↔ name ∉ m.names := by
  induction m with
  | nil => simp only [find?_nil, names_nil, List.not_mem_nil, not_false_eq_true]
  | cons entry rest ih =>
    obtain ⟨n, a⟩ := entry
    by_cases h : n = name
    · simp [find?_cons, h]
    · simp [find?_cons, h, ih, Ne.symm h]

theorem has_iff {name : ν} {m : NameMap α ν} : has name m = true ↔ name ∈ m.names := by
  simp [has, names]

/-- Where every value is named once, the value of a name is the one that stands beside it. -/
theorem find?_of_mem {name : ν} {m : NameMap α ν} {a : α} (hm : m.names.Nodup)
    (h : (name, a) ∈ m) : find? name m = some a := by
  induction m with
  | nil => simp at h
  | cons entry rest ih =>
    rw [names_cons, List.nodup_cons] at hm
    rcases List.mem_cons.mp h with rfl | hrest
    · simp [find?_cons]
    · have hname : name ∈ names rest := List.mem_map_of_mem hrest
      have hne : entry.1 ≠ name := fun he => hm.1 (he ▸ hname)
      obtain ⟨n, b⟩ := entry
      rw [find?_cons, if_neg hne]
      exact ih hm.2 hrest

/-- The order of the entries is not seen by looking up, if every value is named once. -/
theorem find?_perm {m m' : NameMap α ν} (h : m.Perm m') (hm : m.names.Nodup) (name : ν) :
    find? name m = find? name m' := by
  have hm' : m'.names.Nodup := (h.map Prod.fst).nodup_iff.mp hm
  cases hf : find? name m with
  | none =>
    rw [find?_eq_none_iff] at hf
    refine (find?_eq_none_iff.mpr fun hmem => hf ?_).symm
    exact (h.map Prod.fst).mem_iff.mpr hmem
  | some a => exact (find?_of_mem hm' (h.mem_iff.mp (mem_of_find?_eq_some hf))).symm

theorem sorted_perm (m : NameMap α) : (sorted m).Perm m :=
  List.mergeSort_perm m _

theorem names_sorted_perm (m : NameMap α) : (sorted m).names.Perm m.names :=
  (sorted_perm m).map Prod.fst

theorem nodup_names_sorted {m : NameMap α} (hm : m.names.Nodup) : (sorted m).names.Nodup :=
  (names_sorted_perm m).nodup_iff.mpr hm

theorem find?_sorted {m : NameMap α} (hm : m.names.Nodup) (name : String) :
    find? name (sorted m) = find? name m :=
  find?_perm (sorted_perm m) (nodup_names_sorted hm) name

theorem find?_mapValues (f : α → β) (m : NameMap α ν) (name : ν) :
    find? name (mapValues f m) = (find? name m).map f := by
  induction m with
  | nil => rfl
  | cons entry rest ih =>
    obtain ⟨n, a⟩ := entry
    by_cases h : n = name
    · simp [mapValues, find?_cons, h]
    · simpa [mapValues, find?_cons, h] using ih

theorem find?_map (f : ν → α → β) (m : NameMap α ν) (name : ν) :
    find? name (m.map fun entry => (entry.1, f entry.1 entry.2)) = (find? name m).map (f name) := by
  induction m with
  | nil => rfl
  | cons entry rest ih =>
    obtain ⟨n, a⟩ := entry
    by_cases h : n = name
    · simp [find?_cons, h]
    · simp [find?_cons, h, ih]

theorem put_mapValues (f : α → β) (name : ν) (a : α) (m : NameMap α ν) :
    put name (f a) (mapValues f m) = mapValues f (put name a m) := by
  induction m with
  | nil => rfl
  | cons entry rest ih =>
    obtain ⟨n, b⟩ := entry
    by_cases h : n = name
    · simp [mapValues, put, h]
    · simpa [mapValues, put, h] using ih

/-- Values are not looked at by sorting. -/
theorem sorted_map (f : String → α → β) (m : NameMap α) :
    sorted (m.map fun entry => (entry.1, f entry.1 entry.2)) =
      (sorted m).map fun entry => (entry.1, f entry.1 entry.2) := by
  have h := List.map_mergeSort (l := m) (r := fun a b => decide (a.1 ≤ b.1))
    (s := fun a b => decide (a.1 ≤ b.1)) (f := fun entry => (entry.1, f entry.1 entry.2))
    fun _ _ _ _ => rfl
  exact h.symm

theorem sorted_mapValues (f : α → β) (m : NameMap α) :
    sorted (mapValues f m) = mapValues f (sorted m) :=
  sorted_map (fun _ => f) m

theorem pairwise_sorted (m : NameMap α) : (sorted m).Pairwise fun a b => decide (a.1 ≤ b.1) := by
  refine List.pairwise_mergeSort ?_ ?_ m
  · intro a b c hab hbc
    simp only [decide_eq_true_eq] at *
    exact String.le_trans hab hbc
  · intro a b
    simp only [Bool.or_eq_true, decide_eq_true_eq]
    exact String.le_total a.1 b.1

theorem pairwise_lt_names_sorted {m : NameMap α} (hm : m.names.Nodup) :
    (sorted m).names.Pairwise (· < ·) := by
  have hle : (sorted m).names.Pairwise (· ≤ ·) :=
    List.pairwise_map.mpr ((pairwise_sorted m).imp fun h => of_decide_eq_true h)
  refine (hle.and (nodup_names_sorted hm)).imp fun {a b} h => ?_
  exact String.not_le.mp fun hba => h.2 (String.le_antisymm h.1 hba)

/-- Sorting again changes nothing. -/
theorem sorted_sorted (m : NameMap α) : sorted (sorted m) = sorted m :=
  List.mergeSort_of_pairwise (pairwise_sorted m)

/-- Two maps that name every value once and are read alike hold the same entries. -/
theorem perm_of_find? {m m' : NameMap α ν} (hm : m.names.Nodup) (hm' : m'.names.Nodup)
    (hfind : ∀ name, find? name m = find? name m') : m.Perm m' := by
  refine (List.perm_ext_iff_of_nodup (nodup_of_nodup_names hm) (nodup_of_nodup_names hm')).mpr ?_
  intro entry
  have hmem : ∀ {m : NameMap α ν}, m.names.Nodup → (entry ∈ m ↔ find? entry.1 m = some entry.2) :=
    fun hm => ⟨fun h => find?_of_mem hm h, mem_of_find?_eq_some⟩
  rw [hmem hm, hmem hm', hfind]

/-- Sorting forgets the order of the entries of a map that names every value once. -/
theorem sorted_congr {m m' : NameMap α} (h : m.Perm m') (hm : m.names.Nodup) :
    sorted m = sorted m' := by
  have hperm : (sorted m).Perm (sorted m') :=
    (sorted_perm m).trans (h.trans (sorted_perm m').symm)
  refine hperm.eq_of_pairwise (fun a b ha hb hab hba => ?_) (pairwise_sorted m) (pairwise_sorted m')
  -- entries of one name are the same entry
  have hname : a.1 = b.1 := String.le_antisymm (of_decide_eq_true hab) (of_decide_eq_true hba)
  have hfirst := find?_of_mem (nodup_names_sorted hm) ha
  have hsecond := find?_of_mem (nodup_names_sorted hm) (hperm.mem_iff.mpr hb)
  rw [hname, hsecond] at hfirst
  exact Prod.ext hname (Option.some.inj hfirst).symm

theorem find?_erase_self (name : ν) (m : NameMap α ν) : find? name (erase name m) = none := by
  rw [find?_eq_none_iff]
  simp [names, erase]

theorem find?_erase_of_ne {name other : ν} (h : other ≠ name) (m : NameMap α ν) :
    find? other (erase name m) = find? other m := by
  induction m with
  | nil => rfl
  | cons entry rest ih =>
    obtain ⟨n, a⟩ := entry
    have hcons : erase name ((n, a) :: rest) =
        if n = name then erase name rest else (n, a) :: erase name rest := by
      by_cases hn : n = name <;> simp [erase, hn]
    rw [hcons]
    by_cases hn : n = name
    · rw [if_pos hn, ih, find?_cons, if_neg (hn ▸ h.symm)]
    · rw [if_neg hn, find?_cons, find?_cons, ih]

theorem put_of_not_mem {name : ν} {m : NameMap α ν} (h : name ∉ m.names) (a : α) :
    put name a m = m ++ [(name, a)] := by
  induction m with
  | nil => rfl
  | cons entry rest ih =>
    obtain ⟨n, b⟩ := entry
    simp only [names_cons, List.mem_cons, not_or] at h
    simp [put, Ne.symm h.1, ih h.2]

/-- Pairs with new names are put behind the map, in their order. -/
theorem update_of_fresh {m : NameMap α ν} {pairs : List (ν × α)}
    (hnodup : (pairs.map Prod.fst).Nodup) (hfresh : ∀ p ∈ pairs, p.1 ∉ m.names) :
    update m pairs = m ++ pairs := by
  induction pairs generalizing m with
  | nil => exact (List.append_nil m).symm
  | cons p pairs ih =>
    obtain ⟨hp, hpairs⟩ := List.forall_mem_cons.mp hfresh
    obtain ⟨hnew, hrest⟩ := List.nodup_cons.mp hnodup
    have hstep : update m (p :: pairs) = update (put p.1 p.2 m) pairs := rfl
    have hapart : ∀ q ∈ pairs, q.1 ∉ (m ++ [p]).names := by
      intro q hq
      rw [names_append, List.mem_append, not_or]
      refine ⟨hpairs q hq, fun hmem => hnew ?_⟩
      exact List.mem_singleton.mp hmem ▸ List.mem_map_of_mem hq
    rw [hstep, put_of_not_mem hp, ih hrest hapart, List.append_assoc, List.singleton_append]

/-- A value that is put twice is the one that is put last. -/
theorem put_put (name : ν) (a b : α) (m : NameMap α ν) :
    put name b (put name a m) = put name b m := by
  induction m with
  | nil => simp [put]
  | cons entry rest ih =>
    obtain ⟨n, c⟩ := entry
    by_cases hn : n = name <;> simp [put, hn, ih]

theorem nodup_names_put {m : NameMap α ν} (hm : m.names.Nodup) (name : ν) (a : α) :
    (put name a m).names.Nodup := by
  rw [names_put]
  split
  · exact hm
  · rename_i h
    rw [List.nodup_append]
    refine ⟨hm, by simp, ?_⟩
    rintro n hn _ hname rfl
    exact h (List.mem_singleton.mp hname ▸ hn)

theorem mem_put {name : ν} {a : α} {m : NameMap α ν} {entry : ν × α}
    (h : entry ∈ put name a m) : entry = (name, a) ∨ entry ∈ m := by
  induction m with
  | nil => exact .inl (List.mem_singleton.mp h)
  | cons first rest ih =>
    obtain ⟨n, b⟩ := first
    rw [put] at h
    split at h
    · rename_i hn
      rcases List.mem_cons.mp h with rfl | h
      · exact .inl (by rw [hn])
      · exact .inr (List.mem_cons_of_mem _ h)
    · rcases List.mem_cons.mp h with rfl | h
      · exact .inr List.mem_cons_self
      · exact (ih h).imp_right (List.mem_cons_of_mem _)

/-- What stands in a map was in it at first, or is one of the pairs that were set. -/
theorem mem_update {m : NameMap α ν} {pairs : List (ν × α)} {entry : ν × α}
    (h : entry ∈ update m pairs) : entry ∈ m ∨ entry ∈ pairs := by
  induction pairs generalizing m with
  | nil => exact .inl h
  | cons p pairs ih =>
    rcases ih h with hput | hpairs
    · exact (mem_put hput).symm.imp_right fun hentry => List.mem_cons.mpr (.inl hentry)
    · exact .inr (List.mem_cons_of_mem _ hpairs)

/-- The last pair with a name decides. -/
theorem find?_update (m : NameMap α ν) (pairs : List (ν × α)) (name : ν) :
    find? name (update m pairs) =
      ((pairs.reverse.find? fun p => p.1 = name).map Prod.snd).or (find? name m) := by
  induction pairs generalizing m with
  | nil => rfl
  | cons p pairs ih =>
    have hstep : update m (p :: pairs) = update (put p.1 p.2 m) pairs := rfl
    rw [hstep, ih, List.reverse_cons, List.find?_append]
    cases pairs.reverse.find? fun p => p.1 = name with
    | some found => rfl
    | none =>
      by_cases hname : p.1 = name
      · simp [hname, find?_put_self]
      · simp [hname, find?_put_of_ne (Ne.symm hname)]

theorem find?_update_of_forall_ne {pairs : List (ν × α)} {name : ν}
    (h : ∀ p ∈ pairs, p.1 ≠ name) (m : NameMap α ν) : find? name (update m pairs) = find? name m := by
  have hmissing : pairs.reverse.find? (fun p => p.1 = name) = none := by
    rw [List.find?_eq_none]
    exact fun p hp => decide_eq_true_iff.not.mpr (h p (List.mem_reverse.mp hp))
  rw [find?_update, hmissing]
  rfl

theorem find?_update_append_cons {after : List (ν × α)} {name : ν}
    (h : ∀ p ∈ after, p.1 ≠ name) (m : NameMap α ν) (before : List (ν × α)) (a : α) :
    find? name (update m (before ++ (name, a) :: after)) = some a := by
  have hstep : update m (before ++ (name, a) :: after) =
      update (put name a (update m before)) after := List.foldl_append
  rw [hstep, find?_update_of_forall_ne h, find?_put_self]

/-- What one value for many names does to looking up. -/
theorem find?_update_const (m : NameMap α ν) (keys : List ν) (a : α) (name : ν) :
    find? name (update m (keys.map fun key => (key, a))) =
      if name ∈ keys then some a else find? name m := by
  induction keys generalizing m with
  | nil => simp [update]
  | cons key keys ih =>
    have hstep : update m ((key :: keys).map fun key => (key, a)) =
        update (put key a m) (keys.map fun key => (key, a)) := rfl
    rw [hstep, ih]
    by_cases hk : name ∈ keys
    · simp [hk]
    · by_cases hn : name = key
      · simp [hn, find?_put_self]
      · simp [hk, hn, find?_put_of_ne hn]

/-- Names are added where they come first. -/
theorem names_update {m : NameMap α} (hm : m.names.Nodup) (pairs : List (String × α)) :
    (update m pairs).names = (m.names ++ pairs.map Prod.fst).eraseDups := by
  induction pairs generalizing m with
  | nil => simpa [update] using (eraseDups_eq_self hm).symm
  | cons pair pairs ih =>
    have hstep : update m (pair :: pairs) = update (put pair.1 pair.2 m) pairs := rfl
    rw [hstep, ih (nodup_names_put hm _ _), names_put, List.map_cons]
    split
    · rename_i hmem
      rw [eraseDups_append_cons_of_mem hmem]
    · rw [List.append_assoc, List.singleton_append]

/-- A map in which every value is named once is known by its names and by looking them up. -/
theorem eq_of_find? {m m' : NameMap α ν} (hm : m.names.Nodup) (hnames : m.names = m'.names)
    (hfind : ∀ name, find? name m = find? name m') : m = m' := by
  induction m generalizing m' with
  | nil =>
    cases m' with
    | nil => rfl
    | cons entry' rest' => cases hnames
  | cons entry rest ih =>
    cases m' with
    | nil => cases hnames
    | cons entry' rest' =>
      obtain ⟨n, a⟩ := entry
      obtain ⟨n', a'⟩ := entry'
      rw [names_cons, List.nodup_cons] at hm
      obtain ⟨rfl, hrest : names rest = names rest'⟩ := List.cons.inj hnames
      have hfirst := hfind n
      rw [find?_cons, find?_cons, if_pos rfl, if_pos rfl] at hfirst
      obtain rfl := Option.some.inj hfirst
      congr 1
      refine ih hm.2 hrest fun name => ?_
      by_cases hname : n = name
      · subst hname
        have hmissing : n ∉ names rest' := hrest ▸ hm.1
        rw [find?_eq_none_iff.mpr hm.1, find?_eq_none_iff.mpr hmissing]
      · have hother := hfind name
        rwa [find?_cons, find?_cons, if_neg hname, if_neg hname] at hother

theorem nodup_names_update {m : NameMap α ν} (hm : m.names.Nodup) (pairs : List (ν × α)) :
    (update m pairs).names.Nodup := by
  induction pairs generalizing m with
  | nil => exact hm
  | cons pair pairs ih => exact ih (nodup_names_put hm pair.1 pair.2)

theorem mapValues_update (f : α → β) (m : NameMap α ν) (pairs : List (ν × α)) :
    mapValues f (update m pairs) = update (mapValues f m) (mapValues f pairs) := by
  induction pairs generalizing m with
  | nil => rfl
  | cons pair pairs ih =>
    exact (ih (put pair.1 pair.2 m)).trans
      (congrArg (update · (mapValues f pairs)) (put_mapValues f pair.1 pair.2 m).symm)

/-- The last pair with a name. -/
def lastPair? (pairs : List (ν × α)) (name : ν) : Option (ν × α) :=
  pairs.reverse.find? fun p => p.1 = name

theorem exists_lastPair? {pairs : List (ν × α)} {name : ν}
    (h : name ∈ pairs.map Prod.fst) : ∃ a, lastPair? pairs name = some (name, a) := by
  obtain ⟨pair, hpair, hsame⟩ := List.mem_map.mp h
  have hfound : (lastPair? pairs name).isSome :=
    List.find?_isSome.mpr ⟨pair, List.mem_reverse.mpr hpair, decide_eq_true hsame⟩
  obtain ⟨last, hlast⟩ := Option.isSome_iff_exists.mp hfound
  have hname : last.1 = name := by simpa using List.find?_some hlast
  exact ⟨last.2, by rw [hlast, ← hname]⟩

theorem names_filterMap_lastPair? {pairs : List (String × α)} {found : List String}
    (h : found ⊆ pairs.map Prod.fst) : names (found.filterMap (lastPair? pairs)) = found := by
  induction found with
  | nil => rfl
  | cons name found ih =>
    rw [List.cons_subset] at h
    obtain ⟨a, hlast⟩ := exists_lastPair? h.1
    rw [List.filterMap_cons, hlast, names_cons, ih h.2]

theorem lastPair?_mapValues (f : α → β) (pairs : List (ν × α)) (name : ν) :
    lastPair? (mapValues f pairs) name = (lastPair? pairs name).map fun p => (p.1, f p.2) := by
  rw [lastPair?, mapValues, ← List.map_reverse, List.find?_map]
  rfl

theorem find?_ofPairs (pairs : List (ν × α)) (name : ν) :
    find? name (ofPairs pairs) = (lastPair? pairs name).map Prod.snd := by
  have hupdate : ofPairs pairs = update [] pairs := rfl
  rw [hupdate, find?_update, find?_nil, Option.or_none]
  rfl

theorem nodup_names_ofPairs (pairs : List (ν × α)) : (ofPairs pairs).names.Nodup :=
  nodup_names_update (m := []) List.nodup_nil pairs

theorem mem_of_mem_ofPairs {pairs : List (ν × α)} {entry : ν × α} (h : entry ∈ ofPairs pairs) :
    entry ∈ pairs :=
  (mem_update (m := []) h).resolve_left List.not_mem_nil

theorem names_ofPairs (pairs : List (String × α)) :
    (ofPairs pairs).names = (pairs.map Prod.fst).eraseDups :=
  names_update (m := []) List.nodup_nil pairs

/-- Pairs that repeat no name are a map as they are. -/
theorem ofPairs_of_nodup {pairs : List (ν × α)} (h : (pairs.map Prod.fst).Nodup) :
    ofPairs pairs = pairs :=
  update_of_fresh (m := []) h fun _ _ => List.not_mem_nil

/-- The map of some pairs has every name where it stands first, with the value that stands beside
it last. -/
theorem ofPairs_eq (pairs : List (String × α)) :
    ofPairs pairs = (pairs.map Prod.fst).eraseDups.filterMap (lastPair? pairs) := by
  have hnames := names_ofPairs pairs
  have hnodup := nodup_names_ofPairs pairs
  have hkept := names_filterMap_lastPair? (eraseDups_sublist (pairs.map Prod.fst)).subset
  refine eq_of_find? hnodup (hnames.trans hkept.symm) fun name => ?_
  by_cases hname : name ∈ (pairs.map Prod.fst).eraseDups
  · obtain ⟨a, hlast⟩ := exists_lastPair? (List.mem_eraseDups.mp hname)
    have hmem := List.mem_filterMap.mpr ⟨name, hname, hlast⟩
    rw [find?_ofPairs, hlast, find?_of_mem (by rwa [hkept, ← hnames]) hmem]
    rfl
  · rw [find?_eq_none_iff.mpr (by rwa [hnames]), find?_eq_none_iff.mpr (by rwa [hkept])]

theorem ofPairs_concat (pairs : List (ν × α)) (name : ν) (a : α) :
    ofPairs (pairs ++ [(name, a)]) = put name a (ofPairs pairs) :=
  List.foldl_concat _ _ _ _

theorem put_ne_nil (name : ν) (a : α) (m : NameMap α ν) : put name a m ≠ [] := by
  cases m with
  | nil => exact List.cons_ne_nil _ _
  | cons entry rest =>
    rw [put]
    split <;> exact List.cons_ne_nil _ _

theorem ofPairs_ne_nil {pairs : List (ν × α)} (h : pairs ≠ []) : ofPairs pairs ≠ [] := by
  have hkeep : ∀ (pairs : List (ν × α)) (m : NameMap α ν), m ≠ [] →
      pairs.foldl (fun m p => put p.1 p.2 m) m ≠ [] := by
    intro pairs
    induction pairs with
    | nil => exact fun _ hm => hm
    | cons p pairs ih => exact fun m _ => ih _ (put_ne_nil p.1 p.2 m)
  cases pairs with
  | nil => exact absurd rfl h
  | cons p pairs => exact hkeep pairs _ (put_ne_nil p.1 p.2 [])


end ScriptTypings.NameMap
