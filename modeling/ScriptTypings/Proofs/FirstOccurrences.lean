import Mathlib.Data.List.Basic
import Mathlib.Data.List.Flatten

/-!
# First occurrences

`List.eraseDups` keeps every item of a list where it stands first. A list without repetitions is
kept as it is, and an item that has been seen before adds nothing. What is put together for the
items of a list is the same for the first occurrences exactly if nothing is put in for the repeated
items (`flatMap_eraseDups_iff`). `firstsBy` keeps the first items with each key, whose keys are the
first occurrences of keys (`map_firstsBy`).
-/

namespace ScriptTypings

variable {α β : Type}

/-- Items may be left out exactly if nothing is put in for them. -/
theorem flatMap_filter_eq_iff (f : α → List β) (p : α → Bool) (l : List α) :
    (l.filter p).flatMap f = l.flatMap f ↔ ∀ a ∈ l, p a = false → f a = [] := by
  induction l with
  | nil => simp
  | cons a l ih =>
    rw [List.forall_mem_cons, ← ih, List.flatMap_cons]
    by_cases ha : p a = true
    · rw [List.filter_cons_of_pos ha, List.flatMap_cons, List.append_cancel_left_eq]
      simp [ha]
    · rw [List.filter_cons_of_neg ha]
      constructor
      · intro h
        -- leaving out more items can only make the list shorter
        have hshort : ((l.filter p).flatMap f).length ≤ (l.flatMap f).length :=
          (List.filter_sublist.flatMap f).length_le
        have hlength := congrArg List.length h
        rw [List.length_append] at hlength
        have hnil : f a = [] := List.length_eq_zero_iff.mp (by omega)
        rw [hnil, List.nil_append] at h
        exact ⟨fun _ => hnil, h⟩
      · rintro ⟨hnil, h⟩
        rw [hnil (by simpa using ha), List.nil_append, h]

variable [BEq α]

/-- The first items with each key. -/
def firstsBy (key : β → α) (l : List β) : List β :=
  l.eraseDupsBy fun b c => key b == key c

theorem firstsBy_cons (key : β → α) (b : β) (l : List β) :
    firstsBy key (b :: l) = b :: firstsBy key (l.filter fun c => !key c == key b) := by
  simp only [firstsBy, List.eraseDupsBy_cons, Bool.decide_eq_false]

/-- Induction on what is left of a list when the items with the key of the first one are dropped. -/
theorem keyInduction {motive : List β → Prop} (key : β → α) (nil : motive [])
    (cons : ∀ b l, motive (l.filter fun c => !key c == key b) → motive (b :: l)) :
    ∀ l, motive l
  | [] => nil
  | b :: l => cons b l (keyInduction key nil cons _)
termination_by l => l.length
decreasing_by exact Nat.lt_succ_of_le (List.length_filter_le _ _)

theorem map_firstsBy (key : β → α) (l : List β) :
    (firstsBy key l).map key = (l.map key).eraseDups := by
  induction l using keyInduction key with
  | nil => rfl
  | cons b l ih =>
    rw [firstsBy_cons, List.map_cons, List.map_cons, List.eraseDups_cons, ih, List.filter_map]
    rfl

theorem firstsBy_sublist (key : β → α) (l : List β) : (firstsBy key l).Sublist l := by
  induction l using keyInduction key with
  | nil => exact List.nil_sublist []
  | cons b l ih =>
    rw [firstsBy_cons]
    exact (ih.trans List.filter_sublist).cons_cons b

theorem eraseDups_sublist (l : List α) : l.eraseDups.Sublist l :=
  firstsBy_sublist id l

variable [LawfulBEq α]

/-- An item is kept only if it is the first one with its key. -/
theorem find?_of_mem_firstsBy {key : β → α} {b : β} {l : List β} (h : b ∈ firstsBy key l) :
    l.find? (fun c => key c == key b) = some b := by
  induction l using keyInduction key with
  | nil => cases h
  | cons first l ih =>
    rw [firstsBy_cons] at h
    rcases List.mem_cons.mp h with rfl | h
    · exact List.find?_cons_of_pos (by simp)
    · have hne : key b ≠ key first := by
        simpa using (List.mem_filter.mp ((firstsBy_sublist key _).subset h)).2
      have hfind := ih h
      rw [List.find?_filter] at hfind
      rw [List.find?_cons_of_neg (by simpa using hne.symm), ← hfind]
      congr 1
      funext c
      by_cases hc : key c = key b <;> simp [hc, hne]

theorem nodup_eraseDups (l : List α) : l.eraseDups.Nodup := by
  induction l using keyInduction (id : α → α) with
  | nil => exact List.nodup_nil
  | cons a l ih =>
    rw [List.eraseDups_cons, List.nodup_cons]
    exact ⟨by simp, ih⟩

theorem eraseDups_eq_self {l : List α} (h : l.Nodup) : l.eraseDups = l := by
  induction l with
  | nil => rfl
  | cons a l ih =>
    obtain ⟨ha, hl⟩ := List.nodup_cons.mp h
    have hkept : l.filter (fun b => !b == a) = l := by
      apply List.filter_eq_self.mpr
      intro b hb
      have hne : b ≠ a := fun hba => ha (hba ▸ hb)
      simpa using hne
    rw [List.eraseDups_cons, hkept, ih hl]

theorem eraseDups_append_cons_of_mem {as : List α} {a : α} (h : a ∈ as) (bs : List α) :
    (as ++ a :: bs).eraseDups = (as ++ bs).eraseDups := by
  have hseen : (a :: bs).removeAll as = bs.removeAll as := by
    apply List.filter_cons_of_neg
    simpa using h
  rw [List.eraseDups_append, List.eraseDups_append, hseen]

/-- The first occurrences put in as much as the whole list exactly if the repeated items put in
nothing. -/
theorem flatMap_eraseDups_iff (f : α → List β) (l : List α) :
    l.eraseDups.flatMap f = l.flatMap f ↔ ∀ a, 1 < l.count a → f a = [] := by
  induction l using keyInduction (id : α → α) with
  | nil => simp
  | cons a l ih =>
    have hdrop := flatMap_filter_eq_iff f (fun b => !b == a) l
    have hcount : ∀ b, b ≠ a → (l.filter fun b => !b == a).count b = (a :: l).count b := by
      intro b hb
      rw [List.count_filter (by simpa using hb), List.count_cons_of_ne (Ne.symm hb)]
    rw [List.eraseDups_cons, List.flatMap_cons, List.flatMap_cons, List.append_cancel_left_eq]
    constructor
    · intro h b hb
      have hfirst : ((l.filter fun b => !b == a).eraseDups.flatMap f).Sublist
          ((l.filter fun b => !b == a).flatMap f) := (eraseDups_sublist _).flatMap f
      have hmiddle : (l.filter fun b => !b == a).flatMap f = l.flatMap f :=
        (List.filter_sublist.flatMap f).antisymm (h ▸ hfirst)
      by_cases hba : b = a
      · subst hba
        have hmem : b ∈ l := List.count_pos_iff.mp (by rw [List.count_cons_self] at hb; omega)
        exact hdrop.mp hmiddle b hmem (by simp)
      · exact ih.mp (h.trans hmiddle.symm) b (hcount b hba ▸ hb)
    · intro h
      have hothers : ∀ b, 1 < (l.filter fun b => !b == a).count b → f b = [] := by
        intro b hb
        have hmem : b ∈ l.filter fun b => !b == a := List.count_pos_iff.mp (Nat.zero_lt_of_lt hb)
        have hba : b ≠ a := by simpa using (List.mem_filter.mp hmem).2
        exact h b (hcount b hba ▸ hb)
      have hitself : ∀ b ∈ l, (!b == a) = false → f b = [] := by
        intro b hb hbeq
        obtain rfl : b = a := by simpa using hbeq
        have hpos := List.count_pos_iff.mpr hb
        apply h
        rw [List.count_cons_self]
        omega
      exact (ih.mpr hothers).trans (hdrop.mpr hitself)

end ScriptTypings
