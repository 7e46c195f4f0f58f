import ScriptTypings.Merge.Mention
import ScriptTypings.Proofs.FirstOccurrences
import ScriptTypings.Proofs.NameMap

/-!
# Remembered names

A memory is `Distinct` if it keeps every name under its own lower-case form and once. Names are only
added at the end, and names that are known already change nothing.
-/

namespace ScriptTypings.Memory

open Text

/-- Every name stands under its lower-case form, and no two names have the same one. -/
structure Distinct (memory : Memory) : Prop where
  keyed : ∀ e ∈ memory.byKey, e.1 = lowered e.2
  nodup : memory.byKey.names.Nodup

theorem distinct_empty : ({} : Memory).Distinct :=
  ⟨nofun, List.nodup_nil⟩

theorem contains_iff {memory : Memory} {name : String} :
    memory.contains name = true ↔ lowered name ∈ memory.byKey.names :=
  NameMap.has_iff

theorem Distinct.names_lowered {memory : Memory} (h : memory.Distinct) :
    memory.names.map lowered = memory.byKey.names := by
  rw [names, List.map_map]
  exact List.map_congr_left fun e he => (h.keyed e he).symm

/-- The names of a memory differ by more than case. -/
theorem Distinct.nodup_lowered {memory : Memory} (h : memory.Distinct) :
    (memory.names.map lowered).Nodup :=
  h.names_lowered ▸ h.nodup

theorem add_of_contains {memory : Memory} {name : String} (h : memory.contains name = true) :
    memory.add name = memory :=
  if_pos h

theorem add_of_not_contains {memory : Memory} {name : String}
    (h : memory.contains name = false) :
    memory.add name = ⟨memory.byKey ++ [(lowered name, name)]⟩ :=
  if_neg (by simp [h])

theorem Distinct.add {memory : Memory} (h : memory.Distinct) (name : String) :
    (memory.add name).Distinct := by
  cases hc : memory.contains name with
  | true => rwa [add_of_contains hc]
  | false =>
    rw [add_of_not_contains hc]
    refine ⟨fun e he => ?_, ?_⟩
    · rcases List.mem_append.mp he with he | he
      · exact h.keyed e he
      · rw [List.mem_singleton.mp he]
    · have hnot : lowered name ∉ memory.byKey.names := by
        rw [← contains_iff, hc]
        exact Bool.false_ne_true
      rw [NameMap.names_append, List.nodup_append]
      refine ⟨h.nodup, by simp, fun key hkey other hother => ?_⟩
      rintro rfl
      have hsame : key = lowered name := List.mem_singleton.mp hother
      exact hnot (hsame ▸ hkey)

theorem contains_add_self (memory : Memory) (name : String) :
    (memory.add name).contains name = true := by
  cases hc : memory.contains name with
  | true => rwa [add_of_contains hc]
  | false => simp [add_of_not_contains hc, contains_iff]

theorem contains_add_of_contains {memory : Memory} {name : String}
    (h : memory.contains name = true) (other : String) :
    (memory.add other).contains name = true := by
  cases hc : memory.contains other with
  | true => rwa [add_of_contains hc]
  | false =>
    rw [contains_iff] at h
    simp [add_of_not_contains hc, contains_iff, h]

theorem names_prefix_add (memory : Memory) (name : String) :
    memory.names <+: (memory.add name).names := by
  cases hc : memory.contains name with
  | true =>
    rewrite [add_of_contains hc]
    exact List.prefix_rfl
  | false => simp [add_of_not_contains hc, names]

theorem addAll_cons (memory : Memory) (name : String) (names : List String) :
    memory.addAll (name :: names) = (memory.add name).addAll names := rfl

theorem Distinct.addAll {memory : Memory} (h : memory.Distinct) (names : List String) :
    (memory.addAll names).Distinct := by
  induction names generalizing memory with
  | nil => exact h
  | cons name names ih => exact ih (h.add name)

theorem contains_addAll_of_contains {memory : Memory} {name : String}
    (h : memory.contains name = true) (names : List String) :
    (memory.addAll names).contains name = true := by
  induction names generalizing memory with
  | nil => exact h
  | cons other names ih => exact ih (contains_add_of_contains h other)

theorem contains_addAll_of_mem {name : String} {names : List String} (h : name ∈ names)
    (memory : Memory) : (memory.addAll names).contains name = true := by
  induction names generalizing memory with
  | nil => exact absurd h List.not_mem_nil
  | cons other names ih =>
    rcases List.mem_cons.mp h with rfl | h
    · exact contains_addAll_of_contains (contains_add_self _ _) names
    · exact ih h _

/-- Names are added behind those that are remembered already. -/
theorem names_prefix_addAll (memory : Memory) (names : List String) :
    memory.names <+: (memory.addAll names).names := by
  induction names generalizing memory with
  | nil => exact List.prefix_rfl
  | cons name names ih => exact (names_prefix_add memory name).trans (ih _)

/-- In lower case the names of a memory are the first occurrences among the old and the new ones. -/
theorem Distinct.lowered_names_addAll {memory : Memory} (h : memory.Distinct)
    (names : List String) :
    (memory.addAll names).names.map lowered =
      ((memory.names ++ names).map lowered).eraseDups := by
  induction names generalizing memory with
  | nil =>
    rw [List.append_nil]
    exact (eraseDups_eq_self h.nodup_lowered).symm
  | cons name names ih =>
    rw [addAll_cons, ih (h.add name)]
    cases hc : memory.contains name with
    | true =>
      have hseen : lowered name ∈ memory.names.map lowered :=
        h.names_lowered ▸ contains_iff.mp hc
      rw [add_of_contains hc, List.map_append, List.map_append, List.map_cons,
        eraseDups_append_cons_of_mem hseen]
    | false =>
      rw [add_of_not_contains hc]
      simp [Memory.names]

/-- Names that are known already change nothing. -/
theorem addAll_of_contains {memory : Memory} {names : List String}
    (h : ∀ name ∈ names, memory.contains name = true) : memory.addAll names = memory := by
  induction names with
  | nil => rfl
  | cons name names ih =>
    rw [addAll_cons, add_of_contains (h name List.mem_cons_self)]
    exact ih fun n hn => h n (List.mem_cons_of_mem _ hn)

end ScriptTypings.Memory
