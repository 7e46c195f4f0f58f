import ScriptTypings.Proofs.Text.Search

/-!
# Runs of white space

`collapse` writes every run of white space as one space and leaves all other characters. So it may
be done part by part where a text is cut at a character that is no white space
(`collapse_append_cons`), and it may be done before or after white space is trimmed from the ends
(`trim_collapse`). Once is enough (`collapse_collapse`).
-/

namespace ScriptTypings.Text

theorem collapse_cons_of_not_isBlank {c : Char} (hc : isBlank c = false) (f : Bool)
    (s : List Char) : collapse f (c :: s) = c :: collapse false s := by
  rw [collapse, if_neg (by simp [hc])]

theorem collapse_cons_of_isBlank {c : Char} (hc : isBlank c = true) (f : Bool) (s : List Char) :
    collapse f (c :: s) = (if f then [] else [' ']) ++ collapse true s := by
  rw [collapse, if_pos hc]
  cases f <;> rfl

/-- A character that is no white space separates runs. -/
theorem collapse_append_cons {c : Char} (hc : isBlank c = false) (f : Bool) (s t : List Char) :
    collapse f (s ++ c :: t) = collapse f s ++ c :: collapse false t := by
  induction s generalizing f with
  | nil => exact collapse_cons_of_not_isBlank hc f t
  | cons d s ih =>
    rw [List.cons_append]
    cases hd : isBlank d with
    | true =>
      rw [collapse_cons_of_isBlank hd, collapse_cons_of_isBlank hd, ih, List.append_assoc]
    | false =>
      rw [collapse_cons_of_not_isBlank hd, collapse_cons_of_not_isBlank hd, ih, List.cons_append]

theorem collapse_concat {c : Char} (hc : isBlank c = false) (f : Bool) (s : List Char) :
    collapse f (s ++ [c]) = collapse f s ++ [c] :=
  collapse_append_cons hc f s []

/-- A character stands in a text after its runs are collapsed only if it stood there before, with
the same texts around it up to white space. -/
theorem exists_of_collapse_eq_append_cons {c : Char} (hc : isBlank c = false) {f : Bool}
    {s x y : List Char} (h : collapse f s = x ++ c :: y) :
    ∃ before after, s = before ++ c :: after ∧ collapse f before = x ∧
      collapse false after = y := by
  have hspace : ' ' ≠ c := fun hcs => by rw [← hcs] at hc; exact absurd hc (by decide)
  induction s generalizing f x with
  | nil => simp [collapse] at h
  | cons d s ih =>
    cases hd : isBlank d with
    | true =>
      rw [collapse_cons_of_isBlank hd] at h
      cases f with
      | true =>
        obtain ⟨before, after, rfl, rfl, hafter⟩ := ih h
        exact ⟨d :: before, after, rfl, collapse_cons_of_isBlank hd true before, hafter⟩
      | false =>
        cases x with
        | nil => exact absurd (List.cons.inj h).1 hspace
        | cons e x =>
          obtain ⟨rfl, hrest⟩ := List.cons.inj h
          obtain ⟨before, after, rfl, rfl, hafter⟩ := ih hrest
          exact ⟨d :: before, after, rfl, collapse_cons_of_isBlank hd false before, hafter⟩
    | false =>
      rw [collapse_cons_of_not_isBlank hd] at h
      cases x with
      | nil =>
        obtain ⟨rfl, hrest⟩ := List.cons.inj h
        exact ⟨[], s, rfl, rfl, hrest⟩
      | cons e x =>
        obtain ⟨rfl, hrest⟩ := List.cons.inj h
        obtain ⟨before, after, rfl, rfl, hafter⟩ := ih hrest
        exact ⟨d :: before, after, rfl, collapse_cons_of_not_isBlank hd f before, hafter⟩

theorem mem_collapse_iff {c : Char} (hc : isBlank c = false) {f : Bool} {s : List Char} :
    c ∈ collapse f s ↔ c ∈ s := by
  constructor
  · intro h
    obtain ⟨x, y, hxy⟩ := List.append_of_mem h
    obtain ⟨before, after, rfl, -⟩ := exists_of_collapse_eq_append_cons hc hxy
    exact List.mem_append_right before List.mem_cons_self
  · intro h
    obtain ⟨before, after, rfl⟩ := List.append_of_mem h
    rw [collapse_append_cons hc]
    exact List.mem_append_right _ List.mem_cons_self

theorem collapse_eq_nil_iff {s : List Char} : collapse false s = [] ↔ s = [] := by
  cases s with
  | nil => exact ⟨fun _ => rfl, fun _ => rfl⟩
  | cons c s =>
    cases hc : isBlank c with
    | true => simp [collapse_cons_of_isBlank hc]
    | false => simp [collapse_cons_of_not_isBlank hc]

theorem isEmpty_collapse (s : List Char) : (collapse false s).isEmpty = s.isEmpty := by
  rw [Bool.eq_iff_iff, List.isEmpty_iff, List.isEmpty_iff, collapse_eq_nil_iff]

theorem collapse_true_append {b : List Char} (h : AllBlank b) (t : List Char) :
    collapse true (b ++ t) = collapse true t := by
  induction b with
  | nil => rfl
  | cons c b ih =>
    rw [List.cons_append, collapse_cons_of_isBlank (h c List.mem_cons_self),
      ih fun d hd => h d (List.mem_cons_of_mem c hd)]
    rfl

/-- A run of white space, behind something that is none. -/
theorem collapse_allBlank_append {b : List Char} (h : AllBlank b) (hne : b ≠ [])
    (t : List Char) : collapse false (b ++ t) = ' ' :: collapse true t := by
  cases b with
  | nil => exact absurd rfl hne
  | cons c b =>
    rw [List.cons_append, collapse_cons_of_isBlank (h c List.mem_cons_self),
      collapse_true_append fun d hd => h d (List.mem_cons_of_mem c hd)]
    rfl

theorem allBlank_collapse {b : List Char} (h : AllBlank b) (f : Bool) :
    AllBlank (collapse f b) := by
  have htrue : collapse true b = [] := by simpa [collapse] using collapse_true_append h []
  cases f with
  | true =>
    rw [htrue]
    nofun
  | false =>
    by_cases hne : b = []
    · rw [hne]
      nofun
    · have hspace : collapse false b = [' '] := by
        simpa [collapse] using collapse_allBlank_append h hne []
      rw [hspace]
      intro c hc
      rw [List.mem_singleton.mp hc]
      decide

theorem collapse_append_of_forall {s : List Char} (h : ∀ c ∈ s, isBlank c = false) (hne : s ≠ [])
    (f : Bool) (t : List Char) : collapse f (s ++ t) = s ++ collapse false t := by
  induction s generalizing f with
  | nil => exact absurd rfl hne
  | cons c s ih =>
    rw [List.forall_mem_cons] at h
    rw [List.cons_append, collapse_cons_of_not_isBlank h.1]
    by_cases hs : s = []
    · rw [hs]
      rfl
    · rw [ih h.2 hs, List.cons_append]

/-- Collapsing twice is collapsing once. -/
theorem collapse_collapse (f : Bool) (s : List Char) :
    collapse f (collapse f s) = collapse f s := by
  induction s generalizing f with
  | nil => rfl
  | cons c s ih =>
    cases hc : isBlank c with
    | true =>
      rw [collapse_cons_of_isBlank hc]
      cases f with
      | true => exact ih true
      | false =>
        have hspace : isBlank ' ' = true := by decide
        rw [if_neg Bool.false_ne_true, List.singleton_append, collapse_cons_of_isBlank hspace, ih]
        rfl
    | false => rw [collapse_cons_of_not_isBlank hc, collapse_cons_of_not_isBlank hc, ih]

theorem collapse_collapse_false (f : Bool) (s : List Char) :
    collapse f (collapse false s) = collapse f s := by
  induction s generalizing f with
  | nil => rfl
  | cons c s ih =>
    cases hc : isBlank c with
    | true =>
      have hspace : isBlank ' ' = true := by decide
      rw [collapse_cons_of_isBlank hc, if_neg Bool.false_ne_true, List.singleton_append,
        collapse_cons_of_isBlank hspace, collapse_collapse, collapse_cons_of_isBlank hc]
    | false => rw [collapse_cons_of_not_isBlank hc, collapse_cons_of_not_isBlank hc, ih,
        collapse_cons_of_not_isBlank hc]

/-- A mark that is no white space separates texts whose runs are collapsed one by one. -/
theorem collapse_intercalate {mark : Char} (hmark : isBlank mark = false)
    (texts : List (List Char)) :
    collapse false ([mark].intercalate texts) =
      [mark].intercalate (texts.map (collapse false)) := by
  induction texts with
  | nil => rfl
  | cons text texts ih =>
    cases texts with
    | nil => rw [List.intercalate_singleton, List.map_singleton, List.intercalate_singleton]
    | cons second texts =>
      rw [List.intercalate_cons_cons, List.append_assoc, List.singleton_append,
        collapse_append_cons hmark, ih]
      simp only [List.map_cons, List.intercalate_cons_cons, List.append_assoc,
        List.singleton_append]

/-- A beginning without white space is found in both texts. -/
theorem dropLead?_collapse {lead : List Char} (hlead : ∀ a ∈ lead, isBlank a = false)
    (s : List Char) :
    dropLead? lead (collapse false s) = (dropLead? lead s).map (collapse false) := by
  induction lead generalizing s with
  | nil => rfl
  | cons a lead ih =>
    rw [List.forall_mem_cons] at hlead
    cases s with
    | nil => rfl
    | cons c s =>
      cases hc : isBlank c with
      | true =>
        have hspace : a ≠ ' ' := by
          rintro rfl
          exact absurd hlead.1 (by decide)
        have hac : a ≠ c := by
          rintro rfl
          exact Bool.false_ne_true (hlead.1.symm.trans hc)
        rw [collapse, if_pos hc, if_neg Bool.false_ne_true, dropLead?, if_neg hspace, dropLead?,
          if_neg hac]
        rfl
      | false =>
        rw [collapse_cons_of_not_isBlank hc, dropLead?, dropLead?]
        by_cases hac : a = c
        · rw [if_pos hac, if_pos hac, ih hlead.2]
        · rw [if_neg hac, if_neg hac]
          rfl

/-! ### Trimming before and after -/

theorem trimStart_collapse (f : Bool) (s : List Char) :
    trimStart (collapse f s) = collapse false (trimStart s) := by
  induction s generalizing f with
  | nil => rfl
  | cons c s ih =>
    cases hc : isBlank c with
    | true =>
      have hrest : trimStart (c :: s) = trimStart s := List.dropWhile_cons_of_pos hc
      have hspace : trimStart ((if f then [] else [' ']) ++ collapse true s) =
          trimStart (collapse true s) := by
        cases f <;> rfl
      rw [collapse_cons_of_isBlank hc, hspace, ih, hrest]
    | false =>
      have hkept : ∀ t, trimStart (c :: t) = c :: t := fun t =>
        List.dropWhile_cons_of_neg (by simp [hc])
      rw [collapse_cons_of_not_isBlank hc, hkept, hkept, collapse_cons_of_not_isBlank hc]

theorem trimEnd_collapse (f : Bool) (s : List Char) :
    trimEnd (collapse f s) = collapse f (trimEnd s) := by
  obtain ⟨trail, htrail, hs⟩ := exists_trimEnd s
  rcases trimEnd_cases s with hnil | ⟨front, c, hfront, hc⟩
  · rw [hnil, List.nil_append] at hs
    rw [hnil, hs, trimEnd_of_allBlank (allBlank_collapse htrail f), collapse]
  · rw [hfront] at hs ⊢
    rw [hs, List.append_assoc, List.singleton_append, collapse_append_cons hc,
      trimEnd_append_cons hc, trimEnd_of_allBlank (allBlank_collapse htrail false),
      collapse_concat hc]

/-- White space may be trimmed before or after its runs are collapsed. -/
theorem trim_collapse (f : Bool) (s : List Char) :
    trim (collapse f s) = collapse false (trim s) := by
  rw [trim, trimStart_collapse, trimEnd_collapse]
  rfl

/-- White space behind a text becomes one space, whatever the text ends with. -/
theorem collapse_append_gap {s gap : List Char} (hs : trimEnd s ≠ []) (hgap : AllBlank gap)
    (hne : gap ≠ []) (f : Bool) (t : List Char) :
    collapse f (s ++ (gap ++ t)) = collapse f (trimEnd s) ++ ' ' :: collapse true t := by
  obtain ⟨trail, htrail, htext⟩ := exists_trimEnd s
  obtain ⟨front, c, hfront, hc⟩ := (trimEnd_cases s).resolve_left hs
  have hblank : AllBlank (trail ++ gap) := fun d hd =>
    (List.mem_append.mp hd).elim (htrail d) (hgap d)
  have hsplit : s ++ (gap ++ t) = front ++ c :: (trail ++ gap ++ t) := by
    rw [hfront] at htext
    rw [htext]
    simp
  rw [hsplit, hfront, collapse_append_cons hc, collapse_concat hc,
    collapse_allBlank_append hblank (List.append_ne_nil_of_right_ne_nil trail hne)]
  simp

/-! ### Texts that differ in white space -/

/-- Texts that are the same when every run of white space is one space. -/
def AreAlike (s t : List Char) : Prop :=
  collapse false s = collapse false t

instance (s t : List Char) : Decidable (AreAlike s t) :=
  inferInstanceAs (Decidable (_ = _))

namespace AreAlike

variable {s t : List Char} (h : AreAlike s t)

include h

theorem mem_iff {c : Char} (hc : isBlank c = false) : c ∈ s ↔ c ∈ t := by
  rw [← mem_collapse_iff hc (f := false), ← mem_collapse_iff hc (s := t), h]

theorem all_isBlank : s.all isBlank = t.all isBlank := by
  rw [Bool.eq_iff_iff, List.all_eq_true, List.all_eq_true]
  constructor
  · intro hs c hct
    by_contra hc
    exact hc (hs c ((h.mem_iff (Bool.eq_false_iff.mpr hc)).mpr hct))
  · intro ht c hcs
    by_contra hc
    exact hc (ht c ((h.mem_iff (Bool.eq_false_iff.mpr hc)).mp hcs))

theorem trim : AreAlike (trim s) (trim t) := by
  rw [AreAlike, ← trim_collapse false, ← trim_collapse false, h]

theorem trimStart : AreAlike (trimStart s) (trimStart t) := by
  rw [AreAlike, ← trimStart_collapse false, ← trimStart_collapse false, h]

theorem append_left (front : List Char) : AreAlike (front ++ s) (front ++ t) := by
  have hflag : ∀ f, collapse f s = collapse f t := by
    intro f
    rw [← collapse_collapse_false f s, ← collapse_collapse_false f t, h]
  have hfront : ∀ f, collapse f (front ++ s) = collapse f (front ++ t) := by
    induction front with
    | nil => exact hflag
    | cons c front ih =>
      intro f
      rw [List.cons_append, List.cons_append]
      cases hc : isBlank c with
      | true => rw [collapse_cons_of_isBlank hc, collapse_cons_of_isBlank hc, ih]
      | false => rw [collapse_cons_of_not_isBlank hc, collapse_cons_of_not_isBlank hc, ih]
  exact hfront false

end AreAlike

end ScriptTypings.Text
