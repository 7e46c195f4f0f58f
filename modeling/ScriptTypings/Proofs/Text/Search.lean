import ScriptTypings.Proofs.Text.Trim

/-!
# Where a text is cut

A beginning that a text has is taken from it, and a text that does not have it is left alone. A
character cuts a text where it stands first, or else where it stands last.
-/

namespace ScriptTypings.Text

/-- The front of a list that satisfies a test, up to an item that does not, is taken. -/
theorem takeWhile_append_of_head? {α : Type} {p : α → Bool} {front rest : List α}
    (hfront : ∀ a ∈ front, p a = true) (hrest : ∀ a ∈ rest.head?, p a = false) :
    (front ++ rest).takeWhile p = front := by
  have hstop : rest.takeWhile p = [] := by
    cases rest with
    | nil => rfl
    | cons a rest => exact List.takeWhile_cons_of_neg (by simp [hrest a rfl])
  rw [List.takeWhile_append_of_pos hfront, hstop, List.append_nil]

/-- So a list is cut at its first item that does not satisfy the test in one way only. -/
theorem append_inj_of_head? {α : Type} {p : α → Bool} {front rest front' rest' : List α}
    (h : front ++ rest = front' ++ rest') (hfront : ∀ a ∈ front, p a = true)
    (hrest : ∀ a ∈ rest.head?, p a = false) (hfront' : ∀ a ∈ front', p a = true)
    (hrest' : ∀ a ∈ rest'.head?, p a = false) : front = front' ∧ rest = rest' := by
  have hsame : front = front' := by
    rw [← takeWhile_append_of_head? hfront hrest, h, takeWhile_append_of_head? hfront' hrest']
  exact ⟨hsame, List.append_cancel_left (hsame ▸ h)⟩

/-- A text without either of two marks. -/
theorem forall_ne_and_ne_iff {a b : Char} {s : List Char} :
    (∀ c ∈ s, c ≠ a ∧ c ≠ b) ↔ a ∉ s ∧ b ∉ s := by
  constructor
  · exact fun h => ⟨fun ha => (h a ha).1 rfl, fun hb => (h b hb).2 rfl⟩
  · rintro ⟨ha, hb⟩ c hc
    exact ⟨fun hca => ha (hca ▸ hc), fun hcb => hb (hcb ▸ hc)⟩

theorem dropLead?_append (lead s : List Char) : dropLead? lead (lead ++ s) = some s := by
  induction lead with
  | nil => rfl
  | cons a lead ih => rw [List.cons_append, dropLead?, if_pos rfl, ih]

theorem dropLead?_eq_none {lead s : List Char} (h : ¬ lead <+: s) : dropLead? lead s = none := by
  cases hlead : dropLead? lead s with
  | none => rfl
  | some rest => exact absurd ⟨rest, (eq_append_of_dropLead? hlead).symm⟩ h

theorem dropLead?_singleton_of_ne {a c : Char} (h : c ≠ a) (s : List Char) :
    dropLead? [a] (c :: s) = none := by
  rw [dropLead?, if_neg h.symm]

theorem splitAt?_append_self {a : Char} (needle s : List Char) :
    splitAt? (a :: needle) (a :: needle ++ s) = some ([], s) := by
  rw [List.cons_append, splitAt?, ← List.cons_append, dropLead?_append]

/-- A needle of which no earlier occurrence begins in front of it cuts a text in two. -/
theorem splitAt?_append {needle : List Char} (hneedle : needle ≠ []) {x : List Char}
    (r : List Char) (h : ∀ before after, x ++ needle ++ r = before ++ needle ++ after →
      x.length ≤ before.length) : splitAt? needle (x ++ needle ++ r) = some (x, r) := by
  induction x with
  | nil =>
    cases needle with
    | nil => exact absurd rfl hneedle
    | cons a needle => exact splitAt?_append_self needle r
  | cons c x ih =>
    have hnone : dropLead? needle (c :: x ++ needle ++ r) = none := by
      refine dropLead?_eq_none fun ⟨after, hafter⟩ => ?_
      have hshort := h [] after hafter.symm
      simp at hshort
    have hrest : ∀ before after, x ++ needle ++ r = before ++ needle ++ after →
        x.length ≤ before.length := by
      intro before after hx
      have hlong := h (c :: before) after (by simp only [List.cons_append, hx])
      simpa using hlong
    rw [List.cons_append, List.cons_append, splitAt?]
    rw [List.cons_append, List.cons_append] at hnone
    rw [hnone, ih hrest]
    rfl

/-- A needle is not found where its first character is not. -/
theorem splitAt?_cons_of_ne {a c : Char} (h : c ≠ a) (needle s : List Char) :
    splitAt? (a :: needle) (c :: s) =
      (splitAt? (a :: needle) s).map fun cut => (c :: cut.1, cut.2) := by
  rw [splitAt?, dropLead?, if_neg h.symm]

/-- A character cuts a text where it stands first. -/
theorem splitAt?_append_cons {mark : Char} {s : List Char} (h : mark ∉ s) (rest : List Char) :
    splitAt? [mark] (s ++ mark :: rest) = some (s, rest) := by
  induction s with
  | nil =>
    rw [List.nil_append, splitAt?, show dropLead? [mark] (mark :: rest) = some rest from
      dropLead?_append [mark] rest]
  | cons c s ih =>
    rw [List.mem_cons, not_or] at h
    rw [List.cons_append, splitAt?, dropLead?_singleton_of_ne (Ne.symm h.1), ih h.2]
    rfl

theorem splitAt?_eq_none {mark : Char} {s : List Char} (h : mark ∉ s) :
    splitAt? [mark] s = none := by
  cases hsplit : splitAt? [mark] s with
  | none => rfl
  | some cut =>
    rw [eq_append_of_splitAt? hsplit] at h
    simp at h

/-- A text is cut where the mark stands first, if it does at all. -/
theorem upTo_append_of_head {mark : Char} {s body : List Char} (hs : mark ∉ s)
    (hbody : ∀ c ∈ body.head?, c = mark) : upTo [mark] (s ++ body) = s := by
  cases body with
  | nil => rw [List.append_nil, upTo, splitAt?_eq_none hs]
  | cons c body =>
    obtain rfl := hbody c rfl
    rw [upTo, splitAt?_append_cons hs]

/-- A text without the mark is all that stands behind the last one. -/
theorem afterLast_eq_self {mark : Char} {s : List Char} (h : mark ∉ s) : afterLast mark s = s := by
  have hall : ∀ c ∈ s.reverse, decide (c ≠ mark) = true := by
    intro c hc
    rw [decide_eq_true_eq]
    rintro rfl
    exact h (List.mem_reverse.mp hc)
  have htake : s.reverse.takeWhile (· ≠ mark) = s.reverse := by
    have happend : (s.reverse ++ []).takeWhile (· ≠ mark) = s.reverse ++ [].takeWhile (· ≠ mark) :=
      List.takeWhile_append_of_pos hall
    simpa using happend
  rw [afterLast, htake, List.reverse_reverse]

/-- Another character at the end of a text stands behind the last mark. -/
theorem afterLast_concat_of_ne {mark c : Char} (h : c ≠ mark) (s : List Char) :
    afterLast mark (s ++ [c]) = afterLast mark s ++ [c] := by
  have htake : (c :: s.reverse).takeWhile (· ≠ mark) = c :: s.reverse.takeWhile (· ≠ mark) :=
    List.takeWhile_cons_of_pos (decide_eq_true h)
  rw [afterLast, List.reverse_append, List.reverse_singleton, List.singleton_append, htake,
    List.reverse_cons]
  rfl

theorem exists_eq_append_cons_of_mem {mark : Char} {s : List Char} (h : mark ∈ s) :
    ∃ before after, s = before ++ mark :: after ∧ mark ∉ after := by
  obtain ⟨after, before, hreverse, hafter⟩ :=
    List.eq_append_cons_of_mem (List.mem_reverse.mpr h)
  refine ⟨before.reverse, after.reverse, ?_, fun hmem => hafter (List.mem_reverse.mp hmem)⟩
  simpa using congrArg List.reverse hreverse

/-- The last character of a text is that of its end. -/
theorem endsWith_concat_of_ne {c d : Char} (h : c ≠ d) (s tail : List Char) :
    endsWith (s ++ [c]) (tail ++ [d]) = false := by
  rw [endsWith, ← Bool.not_eq_true, List.isSuffixOf_iff_suffix]
  rintro ⟨front, hfront⟩
  rw [← List.append_assoc] at hfront
  obtain ⟨-, hlast⟩ := List.append_inj' hfront rfl
  exact h (List.cons.inj hlast).1.symm

theorem endsWith_append (s tail : List Char) : endsWith (s ++ tail) tail = true := by
  rw [endsWith, List.isSuffixOf_iff_suffix]
  exact List.suffix_append s tail

end ScriptTypings.Text
