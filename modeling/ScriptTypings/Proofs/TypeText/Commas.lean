import Mathlib.Data.List.Infix
import ScriptTypings.Proofs.TypeText

/-!
# Commas outside of brackets

`Balanced` texts are those whose angle brackets pair up, and `IsItem` says that besides every comma
is inside of brackets. A balanced text is cut by its other commas into items in one way only
(`exists_isCut`, `IsCut.unique`), and the parts of a clause are what the cut leaves of it
(`splitInterfaceList_topLevel`).
-/

namespace ScriptTypings.TypeText

open Text

/-! ### Brackets that pair up -/

/-- The number of brackets that a text opens, less those that it closes. -/
def depth (s : List Char) : Int :=
  (s.count '<' : Int) - s.count '>'

@[simp] theorem depth_nil : depth [] = 0 := rfl

@[simp] theorem depth_append (s t : List Char) : depth (s ++ t) = depth s + depth t := by
  simp only [depth, List.count_append]
  omega

@[simp] theorem depth_open (s : List Char) : depth ('<' :: s) = depth s + 1 := by
  simp [depth]
  omega

@[simp] theorem depth_close (s : List Char) : depth ('>' :: s) = depth s - 1 := by
  simp [depth]
  omega

theorem depth_cons_of_ne {c : Char} (hopen : c ≠ '<') (hclose : c ≠ '>') (s : List Char) :
    depth (c :: s) = depth s := by
  simp [depth, hopen, hclose]

/-- Texts whose brackets pair up. -/
inductive Balanced : List Char → Prop
  | nil : Balanced []
  | plain {c : Char} {s : List Char} (hopen : c ≠ '<') (hclose : c ≠ '>') (h : Balanced s) :
      Balanced (c :: s)
  | group {inner s : List Char} (hinner : Balanced inner) (h : Balanced s) :
      Balanced ('<' :: (inner ++ '>' :: s))

theorem Balanced.depth_eq {s : List Char} (h : Balanced s) : depth s = 0 := by
  induction h with
  | nil => rfl
  | plain hopen hclose _ ih => rw [depth_cons_of_ne hopen hclose, ih]
  | group _ _ ihinner ih => simp [ihinner, ih]

/-- The front of a text that begins with a group ends before the group, inside of it or behind. -/
theorem front_of_group {inner s before after : List Char}
    (h : '<' :: (inner ++ '>' :: s) = before ++ after) :
    (before = [] ∧ after = '<' :: (inner ++ '>' :: s)) ∨
      (∃ part rest, before = '<' :: part ∧ inner = part ++ rest) ∨
      ∃ part, before = '<' :: (inner ++ '>' :: part) ∧ s = part ++ after := by
  rcases List.cons_eq_append_iff.mp h with hnone | ⟨front, rfl, hfront⟩
  · exact .inl hnone
  rcases List.append_eq_append_iff.mp hfront with ⟨closed, rfl, hclosed⟩ | ⟨rest, hinside, -⟩
  · rcases List.cons_eq_append_iff.mp hclosed with ⟨rfl, -⟩ | ⟨part, rfl, hbehind⟩
    · exact .inr (.inl ⟨inner, [], by rw [List.append_nil], by rw [List.append_nil]⟩)
    · exact .inr (.inr ⟨part, rfl, hbehind⟩)
  · exact .inr (.inl ⟨front, rest, rfl, hinside⟩)

/-- No bracket is closed before it is opened. -/
theorem Balanced.depth_nonneg {s before after : List Char} (h : Balanced s)
    (hs : s = before ++ after) : 0 ≤ depth before := by
  induction h generalizing before after with
  | nil =>
    obtain ⟨rfl, -⟩ := List.append_eq_nil_iff.mp hs.symm
    exact Int.le_refl 0
  | plain hopen hclose _ ih =>
    rcases List.cons_eq_append_iff.mp hs with ⟨rfl, -⟩ | ⟨before, rfl, hbefore⟩
    · exact Int.le_refl 0
    · rw [depth_cons_of_ne hopen hclose]
      exact ih hbefore
  | group hinner _ ihinner ih =>
    rcases front_of_group hs with ⟨rfl, -⟩ | ⟨part, rest, rfl, hinside⟩ | ⟨part, rfl, hbehind⟩
    · exact Int.le_refl 0
    · have hpart := ihinner hinside
      rw [depth_open]
      omega
    · have hrest := ih hbehind
      simpa [hinner.depth_eq] using hrest

/-- Texts that close some brackets which they do not open, and else are balanced. -/
def Closes : Nat → List Char → Prop
  | 0, s => Balanced s
  | n + 1, s => ∃ inner rest, s = inner ++ '>' :: rest ∧ Balanced inner ∧ Closes n rest

theorem Closes.plain {n : Nat} {c : Char} {s : List Char} (hopen : c ≠ '<') (hclose : c ≠ '>')
    (h : Closes n s) : Closes n (c :: s) := by
  cases n with
  | zero => exact Balanced.plain hopen hclose h
  | succ n =>
    obtain ⟨inner, rest, rfl, hinner, hrest⟩ := h
    exact ⟨c :: inner, rest, rfl, hinner.plain hopen hclose, hrest⟩

/-- An open bracket pairs up with the first one that is closed. -/
theorem Closes.opened {n : Nat} {s : List Char} (h : Closes (n + 1) s) : Closes n ('<' :: s) := by
  obtain ⟨inner, rest, rfl, hinner, hrest⟩ := h
  cases n with
  | zero => exact Balanced.group hinner hrest
  | succ n =>
    obtain ⟨inner', rest', rfl, hinner', hrest'⟩ := hrest
    exact ⟨'<' :: (inner ++ '>' :: inner'), rest', by simp, .group hinner hinner', hrest'⟩

theorem closes_of_depth {n : Nat} {s : List Char} (htotal : n + depth s = 0)
    (hnonneg : ∀ before after, s = before ++ after → 0 ≤ n + depth before) : Closes n s := by
  induction s generalizing n with
  | nil =>
    obtain rfl : n = 0 := by simpa using htotal
    exact .nil
  | cons c s ih =>
    have hrest : ∀ before after, s = before ++ after → 0 ≤ n + depth (c :: before) :=
      fun before after hs => hnonneg (c :: before) after (congrArg (c :: ·) hs)
    by_cases hopen : c = '<'
    · subst hopen
      simp only [depth_open] at htotal hrest
      refine (ih (n := n + 1) (by push_cast; omega) fun before after hs => ?_).opened
      have := hrest before after hs
      push_cast
      omega
    · by_cases hclose : c = '>'
      · subst hclose
        simp only [depth_close] at htotal hrest
        -- nothing stands in front of the bracket, so one must be open
        obtain ⟨m, rfl⟩ : ∃ m, n = m + 1 := by
          have hfirst := hrest [] s rfl
          rw [depth_nil] at hfirst
          exact ⟨n - 1, by omega⟩
        push_cast at htotal hrest
        refine ⟨[], s, rfl, .nil, ih (by omega) fun before after hs => ?_⟩
        have := hrest before after hs
        omega
      · simp only [depth_cons_of_ne hopen hclose] at htotal hrest
        exact (ih htotal hrest).plain hopen hclose

/-- Brackets pair up if as many are closed as opened, and none before it is opened. -/
theorem balanced_iff {s : List Char} :
    Balanced s ↔ depth s = 0 ∧ ∀ before after, s = before ++ after → 0 ≤ depth before := by
  constructor
  · exact fun h => ⟨h.depth_eq, fun _ _ hs => h.depth_nonneg hs⟩
  · rintro ⟨htotal, hnonneg⟩
    refine closes_of_depth (n := 0) (by simpa using htotal) fun before after hs => ?_
    simpa using hnonneg before after hs

instance (s : List Char) : Decidable (Balanced s) :=
  decidable_of_iff (depth s = 0 ∧ ∀ before ∈ s.inits, 0 ≤ depth before) <| by
    rw [balanced_iff]
    refine and_congr_right fun _ => ⟨fun h before after hs => ?_, fun h before hmem => ?_⟩
    · exact h before ((List.mem_inits _ _).mpr ⟨after, hs.symm⟩)
    · obtain ⟨after, hs⟩ := (List.mem_inits _ _).mp hmem
      exact h before after hs.symm

/-- What stands behind a text that leaves no bracket open is balanced as the whole is. -/
theorem Balanced.of_append {lead s : List Char} (hlead : depth lead = 0)
    (h : Balanced (lead ++ s)) : Balanced s := by
  refine balanced_iff.mpr ⟨?_, fun before after hs => ?_⟩
  · have htotal := h.depth_eq
    rwa [depth_append, hlead, Int.zero_add] at htotal
  · have hwhole : lead ++ s = (lead ++ before) ++ after := by rw [hs, List.append_assoc]
    have hpart := h.depth_nonneg hwhole
    rwa [depth_append, hlead, Int.zero_add] at hpart

theorem IsUnmarked.depth_eq {s : List Char} (h : IsUnmarked s) : depth s = 0 := by
  induction s with
  | nil => rfl
  | cons c s ih =>
    obtain ⟨⟨hopen, hclose, -⟩, hrest⟩ := List.forall_mem_cons.mp h
    rw [depth_cons_of_ne hopen hclose, ih hrest]

theorem depth_of_allBlank {b : List Char} (h : AllBlank b) : depth b = 0 :=
  (isUnmarked_of_allBlank h).depth_eq

/-! ### Items -/

/-- A balanced text in which every comma is inside of brackets. -/
structure IsItem (s : List Char) : Prop where
  balanced : Balanced s
  enclosed : ∀ before after, s = before ++ ',' :: after → depth before ≠ 0

instance (s : List Char) : Decidable (IsItem s) :=
  decidable_of_iff
    (Balanced s ∧ ∀ before ∈ s.inits, before ++ [','] <+: s → depth before ≠ 0) <| by
    constructor
    · rintro ⟨hbalanced, henclosed⟩
      refine ⟨hbalanced, fun before after hs => henclosed before ?_ ⟨after, by simp [hs]⟩⟩
      exact (List.mem_inits _ _).mpr ⟨_, hs.symm⟩
    · rintro ⟨hbalanced, henclosed⟩
      refine ⟨hbalanced, fun before _ hcomma => ?_⟩
      obtain ⟨after, hs⟩ := hcomma
      exact henclosed before after (by simp [← hs])

theorem isItem_nil : IsItem [] :=
  ⟨.nil, fun before after hs => by simp at hs⟩

theorem IsItem.plain {c : Char} {s : List Char} (hopen : c ≠ '<') (hclose : c ≠ '>')
    (hcomma : c ≠ ',') (h : IsItem s) : IsItem (c :: s) := by
  refine ⟨.plain hopen hclose h.balanced, fun before after hs => ?_⟩
  rcases List.cons_eq_append_iff.mp hs with ⟨-, hhead⟩ | ⟨before, rfl, hbefore⟩
  · exact absurd (List.cons.inj hhead).1.symm hcomma
  · rw [depth_cons_of_ne hopen hclose]
    exact h.enclosed before after hbefore

/-- Whatever stands inside of brackets, the commas there cut nothing. -/
theorem IsItem.group {inner s : List Char} (hinner : Balanced inner) (h : IsItem s) :
    IsItem ('<' :: (inner ++ '>' :: s)) := by
  refine ⟨.group hinner h.balanced, fun before after hs => ?_⟩
  rcases front_of_group hs with ⟨-, hhead⟩ | ⟨part, rest, rfl, hinside⟩ | ⟨part, rfl, hbehind⟩
  · exact absurd (List.cons.inj hhead).1 (by decide)
  · have hpart := hinner.depth_nonneg hinside
    rw [depth_open]
    omega
  · have hrest := h.enclosed part after hbehind
    simpa [hinner.depth_eq] using hrest

theorem IsItem.passes {s : List Char} (h : IsItem s) : Passes 0 0 s := by
  have henclosed := passes_of_enclosed (s := s) 0 fun i hi hcomma => by
    obtain ⟨_, hget⟩ := List.getElem?_eq_some_iff.mp hcomma
    have hcut := List.take_append_drop i s
    rw [List.drop_eq_getElem_cons hi, hget] at hcut
    have hdepth := h.enclosed _ _ hcut.symm
    rw [depth] at hdepth
    omega
  have htotal := h.balanced.depth_eq
  rw [depth] at htotal
  rwa [show (0 : Int) + s.count '<' - s.count '>' = 0 by omega] at henclosed

/-- White space around a text makes no difference to its brackets and commas. -/
theorem IsItem.trim {s : List Char} (h : IsItem s) : IsItem (trim s) := by
  obtain ⟨lead, trail, hlead, htrail, hs⟩ := exists_trim s
  have hlead := depth_of_allBlank hlead
  have htrail := depth_of_allBlank htrail
  have hsplit : ∀ before after, Text.trim s = before ++ after →
      s = (lead ++ before) ++ (after ++ trail) := by
    intro before after htrim
    rw [hs, htrim]
    simp
  refine ⟨balanced_iff.mpr ⟨?_, fun before after htrim => ?_⟩, fun before after htrim => ?_⟩
  · have htotal := h.balanced.depth_eq
    rw [hs] at htotal
    simpa [hlead, htrail] using htotal
  · have hpart := h.balanced.depth_nonneg (hsplit before after htrim)
    simpa [hlead] using hpart
  · have hcomma := h.enclosed (lead ++ before) (after ++ trail) (hsplit before (',' :: after) htrim)
    simpa [hlead] using hcomma

/-! ### Cuts -/

/-- The items between the commas of a text that stand outside of brackets. -/
structure IsCut (s : List Char) (parts : List (List Char)) : Prop where
  ne_nil : parts ≠ []
  joined : [','].intercalate parts = s
  isItem : ∀ p ∈ parts, IsItem p

/-- A text in front of the first comma belongs to the first part. -/
theorem IsCut.append {s first : List Char} {rest : List (List Char)} {lead : List Char}
    (h : IsCut s (first :: rest)) (hfirst : IsItem (lead ++ first)) :
    IsCut (lead ++ s) ((lead ++ first) :: rest) where
  ne_nil := List.cons_ne_nil _ _
  joined := by
    rw [← h.joined]
    cases rest with
    | nil => simp
    | cons second rest => simp [List.intercalate_cons_cons]
  isItem := List.forall_mem_cons.mpr ⟨hfirst, (List.forall_mem_cons.mp h.isItem).2⟩

theorem IsCut.comma {s : List Char} {parts : List (List Char)} (h : IsCut s parts) :
    IsCut (',' :: s) ([] :: parts) where
  ne_nil := List.cons_ne_nil _ _
  joined := by
    obtain ⟨first, rest, rfl⟩ := List.exists_cons_of_ne_nil h.ne_nil
    rw [List.intercalate_cons_cons, h.joined]
    rfl
  isItem := List.forall_mem_cons.mpr ⟨isItem_nil, h.isItem⟩

theorem exists_isCut {s : List Char} (h : Balanced s) : ∃ parts, IsCut s parts := by
  induction h with
  | nil => exact ⟨[[]], List.cons_ne_nil _ _, rfl, List.forall_mem_singleton.mpr isItem_nil⟩
  | @plain c s hopen hclose _ ih =>
    obtain ⟨parts, hparts⟩ := ih
    by_cases hcomma : c = ','
    · subst hcomma
      exact ⟨_, hparts.comma⟩
    · obtain ⟨first, rest, rfl⟩ := List.exists_cons_of_ne_nil hparts.ne_nil
      have hfirst : IsItem ([c] ++ first) :=
        (hparts.isItem first List.mem_cons_self).plain hopen hclose hcomma
      exact ⟨_, hparts.append hfirst⟩
  | @group inner s hinner _ _ ih =>
    obtain ⟨parts, hparts⟩ := ih
    obtain ⟨first, rest, rfl⟩ := List.exists_cons_of_ne_nil hparts.ne_nil
    have hfirst := (hparts.isItem first List.mem_cons_self).group hinner
    have hlead : ∀ t, '<' :: (inner ++ '>' :: t) = ('<' :: (inner ++ ['>'])) ++ t := by simp
    rw [hlead] at hfirst ⊢
    exact ⟨_, hparts.append hfirst⟩

/-- The loop over the characters finds the parts. -/
theorem IsCut.pieces_eq {s : List Char} {parts : List (List Char)} (h : IsCut s parts) :
    pieces [','] 0 [] s = parts := by
  obtain ⟨first, rest, rfl⟩ := List.exists_cons_of_ne_nil h.ne_nil
  have hitems := List.forall_mem_cons.mp h.isItem
  rw [← h.joined, pieces_intercalate hitems.1.passes fun p hp => (hitems.2 p hp).passes]
  rfl

/-- A text is cut in one way only. -/
theorem IsCut.unique {s : List Char} {parts parts' : List (List Char)} (h : IsCut s parts)
    (h' : IsCut s parts') : parts = parts' :=
  h.pieces_eq.symm.trans h'.pieces_eq

/-! ### Clauses -/

/-- What stands behind the colon of a clause, or the whole of a clause that begins with none. -/
def IsListOf (clause list : List Char) : Prop :=
  (∃ gap, AllBlank gap ∧ clause = gap ++ ':' :: list) ∨
    list = clause ∧ ∀ gap rest, AllBlank gap → clause ≠ gap ++ ':' :: rest

theorem exists_isListOf (clause : List Char) : ∃ list, IsListOf clause list := by
  by_cases h : ∃ gap list, AllBlank gap ∧ clause = gap ++ ':' :: list
  · obtain ⟨gap, list, hclause⟩ := h
    exact ⟨list, .inl ⟨gap, hclause⟩⟩
  · exact ⟨clause, .inr ⟨rfl, fun gap rest hgap heq => h ⟨gap, rest, hgap, heq⟩⟩⟩

theorem IsListOf.balanced {clause list : List Char} (h : IsListOf clause list)
    (hclause : Balanced clause) : Balanced list := by
  rcases h with ⟨gap, hgap, rfl⟩ | ⟨rfl, -⟩
  · have hlead : depth (gap ++ [':']) = 0 := by simp [depth_of_allBlank hgap, depth_cons_of_ne]
    exact Balanced.of_append hlead (by simpa using hclause)
  · exact hclause

/-- The parts that are not blank, without the white space around them. -/
def filled (parts : List (List Char)) : List (List Char) :=
  (parts.filter fun p => !p.all isBlank).map trim

theorem filter_map_trim (parts : List (List Char)) :
    (parts.map trim).filter (fun p => !p.isEmpty) = filled parts := by
  rw [List.filter_map, filled]
  refine congrArg (List.map trim) (List.filter_congr fun p _ => ?_)
  have hblank : (trim p).isEmpty = p.all isBlank := by
    rw [Bool.eq_iff_iff, List.isEmpty_iff, List.all_eq_true]
    exact trim_eq_nil_iff
  rw [Function.comp_apply, hblank]

/-- White space around the parts of a text makes no difference to what is read. -/
theorem IsCut.splitTopLevel_intercalate {list : List Char} {parts texts : List (List Char)}
    (h : IsCut list parts) (htexts : texts.map trim = parts.map trim) :
    splitTopLevel [','] ([','].intercalate texts) = filled parts := by
  have hne : texts ≠ [] := by
    rintro rfl
    exact h.ne_nil (List.map_eq_nil_iff.mp htexts.symm)
  have hpasses : ∀ s ∈ texts, Passes 0 0 s := by
    intro s hs
    have hmem : trim s ∈ parts.map trim := htexts ▸ List.mem_map_of_mem hs
    obtain ⟨p, hp, hsame⟩ := List.mem_map.mp hmem
    exact passes_of_trim (hsame ▸ (h.isItem p hp).trim.passes)
  rw [splitTopLevel_intercalate_filter hne hpasses, htexts, filter_map_trim]

/-- What is read of a clause are the filled parts of its list. -/
theorem IsCut.splitInterfaceList_eq {clause list : List Char} {parts : List (List Char)}
    (h : IsCut list parts) (hlist : IsListOf clause list) :
    splitInterfaceList clause = filled parts := by
  rcases hlist with ⟨gap, hgap, rfl⟩ | ⟨rfl, hnone⟩
  · have htrim : trim (gap ++ ':' :: list) = ':' :: trimEnd list := by
      rw [trim, trimStart_append_of_allBlank hgap]
      exact trim_cons_of_not_isBlank (by decide) list
    have hlead : dropLead? [':'] (':' :: trimEnd list) = some (trimEnd list) :=
      dropLead?_append [':'] (trimEnd list)
    obtain ⟨texts, htexts, hmap⟩ := exists_trimEnd_intercalate h.ne_nil
    rw [h.joined] at htexts
    rw [splitInterfaceList, htrim, hlead, Option.getD_some, htexts,
      h.splitTopLevel_intercalate hmap]
  · have hlead : dropLead? [':'] (trim list) = none := by
      refine dropLead?_eq_none ?_
      rintro ⟨rest, hrest⟩
      obtain ⟨lead, trail, hblank, -, hs⟩ := exists_trim list
      exact hnone lead (rest ++ trail) hblank (by rw [← hrest] at hs; simpa using hs)
    obtain ⟨texts, htexts, hmap⟩ := exists_trim_intercalate h.ne_nil
    rw [h.joined] at htexts
    rw [splitInterfaceList, hlead, Option.getD_none, htexts, h.splitTopLevel_intercalate hmap]

theorem isItem_of_mem_filled {parts : List (List Char)} (h : ∀ p ∈ parts, IsItem p)
    {part : List Char} (hpart : part ∈ filled parts) :
    part ≠ [] ∧ IsTrimmed part ∧ IsItem part := by
  obtain ⟨p, hp, rfl⟩ := List.mem_map.mp hpart
  obtain ⟨hp, hfilled⟩ := List.mem_filter.mp hp
  refine ⟨fun hnil => ?_, isTrimmed_trim p, (h p hp).trim⟩
  rw [List.all_eq_true.mpr (trim_eq_nil_iff.mp hnil)] at hfilled
  cases hfilled

/-- The names between commas, with a blank in front of each. -/
theorem isCut_names {names : List (List Char)} (hne : names ≠ []) (h : ∀ n ∈ names, IsItem n) :
    IsCut (' ' :: ", ".toList.intercalate names) (names.map (' ' :: ·)) where
  ne_nil := by simpa using hne
  joined := by
    induction names with
    | nil => exact absurd rfl hne
    | cons first names ih =>
      cases names with
      | nil => simp
      | cons second names =>
        have hrest := ih (List.cons_ne_nil _ _) (List.forall_mem_cons.mp h).2
        rw [List.map_cons, List.map_cons, List.intercalate_cons_cons, ← List.map_cons, hrest,
          List.intercalate_cons_cons]
        simp
  isItem := by
    rw [List.forall_mem_map]
    exact fun n hn => (h n hn).plain (by decide) (by decide) (by decide)

theorem filled_names {names : List (List Char)} (h : ∀ n ∈ names, n ≠ [] ∧ IsTrimmed n) :
    filled (names.map (' ' :: ·)) = names := by
  have hblank : AllBlank [' '] := List.forall_mem_singleton.mpr (by decide)
  have htrim : ∀ n ∈ names, trim (' ' :: n) = n := by
    intro n hn
    rw [← (h n hn).2.trim_eq, trim, ← List.singleton_append, trimStart_append_of_allBlank hblank]
    exact trim_trim n
  have hmap : (names.map (' ' :: ·)).map Text.trim = names := by
    rw [List.map_map]
    exact (List.map_congr_left htrim).trans (List.map_id' names)
  rw [← filter_map_trim, hmap]
  exact List.filter_eq_self.mpr fun n hn => by simpa using (h n hn).1

/-- A clause is cut at its commas outside of brackets, and at no others. Names that are joined are
found again; and of any clause whose brackets pair up what is read are the items of its only cut, in
order, but for the blank ones. -/
theorem splitInterfaceList_topLevel :
    (∀ names : List (List Char), (∀ n ∈ names, n ≠ [] ∧ IsTrimmed n ∧ IsItem n) →
      splitInterfaceList (": ".toList ++ ", ".toList.intercalate names) = names) ∧
    ∀ clause : List Char, Balanced clause →
      (∀ part ∈ splitInterfaceList clause, part ≠ [] ∧ IsTrimmed part ∧ IsItem part) ∧
      ∃ list parts, IsListOf clause list ∧ IsCut list parts ∧
        (∀ parts', IsCut list parts' → parts' = parts) ∧
        splitInterfaceList clause = filled parts := by
  constructor
  · intro names h
    by_cases hne : names = []
    · subst hne
      rfl
    · have hcut := isCut_names hne fun n hn => (h n hn).2.2
      have hclause : IsListOf (": ".toList ++ ", ".toList.intercalate names)
          (' ' :: ", ".toList.intercalate names) := .inl ⟨[], nofun, rfl⟩
      rw [hcut.splitInterfaceList_eq hclause, filled_names fun n hn => ⟨(h n hn).1, (h n hn).2.1⟩]
  · intro clause hbalanced
    obtain ⟨list, hlist⟩ := exists_isListOf clause
    obtain ⟨parts, hparts⟩ := exists_isCut (hlist.balanced hbalanced)
    have hread := hparts.splitInterfaceList_eq hlist
    refine ⟨fun part hpart => isItem_of_mem_filled hparts.isItem (hread ▸ hpart), list, parts,
      hlist, hparts, fun parts' hparts' => hparts'.unique hparts, hread⟩

/-- Two names, of which one has arguments, and a clause with a blank between two commas. -/
theorem splitInterfaceList_topLevel_map :
    splitInterfaceList ": IFoo, IBar<IBaz, IQux>".toList =
        ["IFoo".toList, "IBar<IBaz, IQux>".toList] ∧
      Balanced ": IMap<K, V>, ,I ".toList ∧
      (∀ part ∈ splitInterfaceList ": IMap<K, V>, ,I ".toList,
        part ≠ [] ∧ IsTrimmed part ∧ IsItem part) ∧
      ∃ list parts, IsListOf ": IMap<K, V>, ,I ".toList list ∧ IsCut list parts ∧
        (∀ parts', IsCut list parts' → parts' = parts) ∧
        splitInterfaceList ": IMap<K, V>, ,I ".toList = filled parts := by
  have hnames : ∀ n ∈ ["IFoo".toList, "IBar<IBaz, IQux>".toList],
      n ≠ [] ∧ IsTrimmed n ∧ IsItem n := by
    simp only [← trim_eq_self_iff]
    decide +kernel
  have hclause : Balanced ": IMap<K, V>, ,I ".toList := by decide +kernel
  exact ⟨splitInterfaceList_topLevel.1 _ hnames, hclause, splitInterfaceList_topLevel.2 _ hclause⟩

end ScriptTypings.TypeText
