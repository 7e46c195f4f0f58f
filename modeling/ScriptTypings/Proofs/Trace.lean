import ScriptTypings.Trace

/-!
# Traces without errors

A trace that is put together from parts stops where the first of its parts does, and nowhere if none
of them stops.
-/

namespace ScriptTypings.Trace

variable {α β : Type}

theorem misfit?_append (t t' : Trace α) : misfit? (t ++ t') = (misfit? t).or (misfit? t') := by
  induction t with
  | nil => rfl
  | cons step t ih =>
    cases step with
    | ok a => exact ih
    | error misfit => rfl

theorem misfit?_append_eq_none {t t' : Trace α} :
    misfit? (t ++ t') = none ↔ misfit? t = none ∧ misfit? t' = none := by
  rw [misfit?_append, Option.or_eq_none_iff]

theorem misfit?_flatMap_eq_none {f : β → Trace α} {l : List β}
    (h : ∀ b ∈ l, misfit? (f b) = none) : misfit? (l.flatMap f) = none := by
  induction l with
  | nil => rfl
  | cons b l ih =>
    rw [List.flatMap_cons, misfit?_append_eq_none]
    exact ⟨h b List.mem_cons_self, ih fun b hb => h b (List.mem_cons_of_mem _ hb)⟩

theorem misfit?_flatMap_eq_none_iff {f : β → Trace α} {l : List β} :
    misfit? (l.flatMap f) = none ↔ ∀ b ∈ l, misfit? (f b) = none := by
  refine ⟨fun h => ?_, misfit?_flatMap_eq_none⟩
  induction l with
  | nil => exact nofun
  | cons b l ih =>
    rw [List.flatMap_cons, misfit?_append_eq_none] at h
    exact List.forall_mem_cons.mpr ⟨h.1, ih h.2⟩

theorem misfit?_map_ok (f : β → α) (l : List β) :
    misfit? (l.map fun b => (.ok (f b) : Except Misfit α)) = none := by
  induction l with
  | nil => rfl
  | cons b l ih => exact ih

theorem misfit?_use {value : Json} (h : value.isText = true) :
    misfit? (use value : Trace α) = none := by
  rw [use, if_pos h]
  rfl

theorem misfit?_use_eq_none_iff {value : Json} :
    misfit? (use value : Trace α) = none ↔ value.isText = true := by
  rw [use]
  split <;> simp_all [misfit?]

theorem misfit?_combine {value : Json} (h : value.isText = true) :
    misfit? (combine value : Trace α) = none := by
  rw [combine, if_pos h]
  rfl

theorem misfit?_combine_eq_none_iff {value : Json} :
    misfit? (combine value : Trace α) = none ↔ value.isText = true := by
  rw [combine]
  split <;> simp_all [misfit?]

theorem misfit?_useFilled {value : Json} (h : value.isText = true) :
    misfit? (useFilled value : Trace α) = none := by
  rw [useFilled]
  split
  · rfl
  · exact misfit?_use h

end ScriptTypings.Trace
