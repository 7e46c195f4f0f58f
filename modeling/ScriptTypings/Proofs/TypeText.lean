import ScriptTypings.Proofs.Text.Search
import ScriptTypings.TypeText

/-!
# Cutting what was put together

Type arguments are joined by commas and put in angle brackets. The commas between them are found
again because nothing inside an argument looks like one: reading an argument as part of a piece cuts
nothing and ends at the depth where it began. This is what `Passes` says about a text, and it is
closed under putting texts together.
-/

namespace ScriptTypings.TypeText

open Text

/-! ### Texts that are read without a cut -/

/-- Reading a text leads from one bracket depth to another, and all of it becomes part of the piece
that is being read. -/
def Passes (before after : Int) (s : List Char) : Prop :=
  ∀ piece rest, pieces [','] before piece (s ++ rest) =
    pieces [','] after (s.reverse ++ piece) rest

theorem passes_nil (depth : Int) : Passes depth depth [] := fun _ _ => rfl

theorem Passes.append {before between after : Int} {s t : List Char}
    (hs : Passes before between s) (ht : Passes between after t) :
    Passes before after (s ++ t) := by
  intro piece rest
  rw [List.append_assoc, hs, ht, List.reverse_append, List.append_assoc]

/-- A character that is no separator at its depth. -/
theorem passes_singleton (depth : Int) {c : Char} (h : c ≠ ',' ∨ depthAfter depth c ≠ 0) :
    Passes depth (depthAfter depth c) [c] := by
  intro piece rest
  have hcut : ¬ (decide ([c] = [',']) && decide (depthAfter depth c = 0)) = true := by
    rw [Bool.and_eq_true, decide_eq_true_eq, decide_eq_true_eq, List.singleton_inj, not_and_or]
    exact h
  rw [List.singleton_append, pieces, if_neg hcut]
  rfl

theorem passes_open (depth : Int) : Passes depth (depth + 1) ['<'] :=
  passes_singleton depth (.inl (by decide))

theorem passes_close (depth : Int) : Passes (depth + 1) depth ['>'] := by
  have h := passes_singleton (depth + 1) (c := '>') (.inl (by decide))
  rwa [show depthAfter (depth + 1) '>' = depth from Int.add_sub_cancel depth 1] at h

/-- A text without the characters that mean something inside of types. -/
def IsUnmarked (s : List Char) : Prop :=
  ∀ c ∈ s, c ≠ '<' ∧ c ≠ '>' ∧ c ≠ ','

instance (s : List Char) : Decidable (IsUnmarked s) :=
  List.decidableBAll (fun c : Char => c ≠ '<' ∧ c ≠ '>' ∧ c ≠ ',') s

theorem isUnmarked_of_allBlank {b : List Char} (h : AllBlank b) : IsUnmarked b := by
  intro c hc
  refine ⟨?_, ?_, ?_⟩ <;>
    (rintro rfl; exact absurd (h _ hc) (by decide))

theorem IsUnmarked.passes {s : List Char} (h : IsUnmarked s) (depth : Int) :
    Passes depth depth s := by
  induction s with
  | nil => exact passes_nil depth
  | cons c s ih =>
    obtain ⟨hopen, hclose, hcomma⟩ := h c List.mem_cons_self
    have hdepth : depthAfter depth c = depth := by rw [depthAfter, if_neg hopen, if_neg hclose]
    have hc := passes_singleton depth (.inl hcomma)
    rw [hdepth] at hc
    exact hc.append (ih fun d hd => h d (List.mem_cons_of_mem c hd))

/-- A comma inside of brackets separates nothing. -/
theorem passes_separator {depth : Int} (h : depth ≠ 0) : Passes depth depth ", ".toList := by
  have hcomma : Passes depth depth [','] := passes_singleton depth (c := ',') (.inr h)
  have hblank : Passes depth depth [' '] :=
    passes_singleton depth (c := ' ') (.inl (by decide))
  exact hcomma.append hblank

/-! ### Pieces between commas -/

/-- The depth behind a text is counted from its brackets, if no comma in it stands at depth zero. -/
theorem passes_of_enclosed {s : List Char} (depth : Int)
    (h : ∀ i < s.length, s[i]? = some ',' →
      depth + (s.take i).count '<' - (s.take i).count '>' ≠ 0) :
    Passes depth (depth + s.count '<' - s.count '>') s := by
  induction s generalizing depth with
  | nil => simpa using passes_nil depth
  | cons c s ih =>
    have hc : c ≠ ',' ∨ depthAfter depth c ≠ 0 := by
      by_cases hcomma : c = ','
      · subst hcomma
        have hfirst := h 0 (Nat.zero_lt_succ _) rfl
        exact .inr (by simpa [depthAfter] using hfirst)
      · exact .inl hcomma
    have hcount : ∀ t : List Char, depth + (c :: t).count '<' - (c :: t).count '>' =
        depthAfter depth c + t.count '<' - t.count '>' := by
      intro t
      rw [depthAfter, List.count_cons, List.count_cons]
      by_cases hopen : c = '<'
      · simp [hopen]
        omega
      · by_cases hclose : c = '>'
        · simp [hclose]
          omega
        · simp [hopen, hclose]
    rw [hcount]
    refine (passes_singleton depth hc).append (ih _ fun i hi hcomma => ?_)
    rw [← hcount, ← List.take_succ_cons]
    exact h (i + 1) (Nat.succ_lt_succ hi) (by rwa [List.getElem?_cons_succ])

/-- White space around a text cuts nothing. -/
theorem passes_of_trim {depth : Int} {s : List Char} (h : Passes depth depth (trim s)) :
    Passes depth depth s := by
  obtain ⟨lead, trail, hlead, htrail, hs⟩ := exists_trim s
  have hlead := (isUnmarked_of_allBlank hlead).passes depth
  have htrail := (isUnmarked_of_allBlank htrail).passes depth
  rw [hs]
  exact (hlead.append h).append htrail

theorem pieces_intercalate {first : List Char} (hfirst : Passes 0 0 first)
    {rest : List (List Char)} (hrest : ∀ s ∈ rest, Passes 0 0 s) (piece : List Char) :
    pieces [','] 0 piece ([','].intercalate (first :: rest)) = (piece.reverse ++ first) :: rest := by
  induction rest generalizing first piece with
  | nil =>
    have hlast := hfirst piece []
    rw [List.append_nil] at hlast
    rw [List.intercalate_singleton, hlast, pieces, List.reverse_append, List.reverse_reverse]
  | cons s rest ih =>
    rw [List.forall_mem_cons] at hrest
    have hcut : (decide ([','] = [',']) && decide (depthAfter 0 ',' = 0)) = true := rfl
    rw [List.intercalate_cons_cons, List.append_assoc, hfirst, List.singleton_append, pieces,
      if_pos hcut, List.reverse_append, List.reverse_reverse, show depthAfter 0 ',' = 0 from rfl,
      ih hrest.1 hrest.2]
    rfl

/-- Texts between commas are found again, without the white space around them and without blank
ones. -/
theorem splitTopLevel_intercalate_filter {texts : List (List Char)} (hne : texts ≠ [])
    (hpasses : ∀ s ∈ texts, Passes 0 0 s) :
    splitTopLevel [','] ([','].intercalate texts) =
      (texts.map trim).filter fun s => !s.isEmpty := by
  cases texts with
  | nil => exact absurd rfl hne
  | cons first rest =>
    rw [List.forall_mem_cons] at hpasses
    rw [splitTopLevel, pieces_intercalate hpasses.1 hpasses.2, List.reverse_nil, List.nil_append]

theorem splitTopLevel_intercalate {texts : List (List Char)} (hne : texts ≠ [])
    (hpasses : ∀ s ∈ texts, Passes 0 0 s) (hfilled : ∀ s ∈ texts, trim s ≠ []) :
    splitTopLevel [','] ([','].intercalate texts) = texts.map trim := by
  rw [splitTopLevel_intercalate_filter hne hpasses]
  apply List.filter_eq_self.mpr
  intro s hs
  obtain ⟨t, ht, rfl⟩ := List.mem_map.mp hs
  simpa using hfilled t ht

/-- White space at the end of some texts between commas is that of the last one. -/
theorem exists_trimEnd_intercalate {texts : List (List Char)} (hne : texts ≠ []) :
    ∃ texts', trimEnd ([','].intercalate texts) = [','].intercalate texts' ∧
      texts'.map trim = texts.map trim := by
  have hcomma : isBlank ',' = false := by decide
  induction texts with
  | nil => exact absurd rfl hne
  | cons s texts ih =>
    cases texts with
    | nil => exact ⟨[trimEnd s], by simp, by simp [trim_trimEnd]⟩
    | cons t texts =>
      obtain ⟨texts', htexts, hmap⟩ := ih (List.cons_ne_nil t texts)
      cases texts' with
      | nil => simp at hmap
      | cons t' texts' =>
        refine ⟨s :: t' :: texts', ?_, by rw [List.map_cons, hmap]; rfl⟩
        rw [List.intercalate_cons_cons, List.intercalate_cons_cons, ← htexts, List.append_assoc,
          List.append_assoc]
        exact trimEnd_append_cons hcomma s _

/-- White space around some texts between commas is that of the first and the last one. -/
theorem exists_trim_intercalate {texts : List (List Char)} (hne : texts ≠ []) :
    ∃ texts', trim ([','].intercalate texts) = [','].intercalate texts' ∧
      texts'.map trim = texts.map trim := by
  have hcomma : isBlank ',' = false := by decide
  obtain ⟨s, texts, rfl⟩ := List.exists_cons_of_ne_nil hne
  have hstart : trimStart ([','].intercalate (s :: texts)) =
      [','].intercalate (trimStart s :: texts) := by
    cases texts with
    | nil => simp
    | cons t texts =>
      rw [List.intercalate_cons_cons, List.intercalate_cons_cons, List.append_assoc,
        List.append_assoc]
      exact trimStart_append_cons hcomma s _
  obtain ⟨texts', htexts, hmap⟩ := exists_trimEnd_intercalate (List.cons_ne_nil (trimStart s) texts)
  exact ⟨texts', by rw [trim, hstart, htexts], by rw [hmap, List.map_cons, trim_trimStart]; rfl⟩

/-! ### Joined pieces -/

/-- A text that a list of types keeps as it is. -/
structure IsPiece (s : List Char) : Prop where
  ne_nil : s ≠ []
  trim_eq : trim s = s
  passes : Passes 0 0 s

/-- The texts behind the first, each with the separator before it. -/
def joinedRest (rest : List (List Char)) : List Char :=
  rest.flatMap fun s => ", ".toList ++ s

theorem passes_joinedRest {depth : Int} (h : depth ≠ 0) {rest : List (List Char)}
    (hrest : ∀ s ∈ rest, Passes depth depth s) : Passes depth depth (joinedRest rest) := by
  induction rest with
  | nil => exact passes_nil depth
  | cons s rest ih =>
    rw [List.forall_mem_cons] at hrest
    exact ((passes_separator h).append hrest.1).append (ih hrest.2)

theorem append_joinedRest (first : List Char) (rest : List (List Char)) :
    first ++ joinedRest rest = [','].intercalate (first :: rest.map (' ' :: ·)) := by
  induction rest generalizing first with
  | nil => simp [joinedRest]
  | cons s rest ih =>
    have hjoined : joinedRest (s :: rest) = ',' :: ((' ' :: s) ++ joinedRest rest) := rfl
    rw [hjoined, ih, List.map_cons, List.intercalate_cons_cons, List.append_assoc]
    rfl

/-- Joined pieces are found again. -/
theorem splitTopLevel_joined {first : List Char} (hfirst : IsPiece first)
    {rest : List (List Char)} (hrest : ∀ s ∈ rest, IsPiece s) :
    splitTopLevel [','] (first ++ joinedRest rest) = first :: rest := by
  have hpasses : ∀ s ∈ first :: rest.map (' ' :: ·), Passes 0 0 s := by
    have hblank : Passes 0 0 [' '] := passes_singleton 0 (.inl (by decide))
    rw [List.forall_mem_cons, List.forall_mem_map]
    exact ⟨hfirst.passes, fun s hs => hblank.append (hrest s hs).passes⟩
  have htrimmed : (first :: rest.map (' ' :: ·)).map trim = first :: rest := by
    rw [List.map_cons, List.map_map, hfirst.trim_eq]
    exact congrArg (first :: ·)
      ((List.map_congr_left fun s hs => (hrest s hs).trim_eq).trans (List.map_id' rest))
  have hfilled : ∀ s ∈ first :: rest.map (' ' :: ·), trim s ≠ [] := by
    intro s hs
    have hmem : trim s ∈ first :: rest := htrimmed ▸ List.mem_map_of_mem hs
    rcases List.mem_cons.mp hmem with hs | hs
    · exact hs ▸ hfirst.ne_nil
    · exact (hrest _ hs).ne_nil
  rw [append_joinedRest, splitTopLevel_intercalate (List.cons_ne_nil _ _) hpasses hfilled, htrimmed]

/-! ### Texts of types -/

/-- A text that may stand for a type wherever one is written: it is filled and trimmed, and it is
read without a cut at every depth of brackets. -/
structure IsTypeText (s : List Char) : Prop where
  ne_nil : s ≠ []
  isTrimmed : IsTrimmed s
  passes : ∀ depth, 0 ≤ depth → Passes depth depth s

theorem IsTypeText.isPiece {s : List Char} (h : IsTypeText s) : IsPiece s where
  ne_nil := h.ne_nil
  trim_eq := h.isTrimmed.trim_eq
  passes := h.passes 0 (Int.le_refl 0)

/-- A mark in front of a type, or behind it, belongs to the text of the type. -/
theorem isTypeText_append {s t : List Char} (hs : s ≠ []) (ht : t ≠ [])
    (hhead : ∀ c ∈ s.head?, isBlank c = false) (hlast : ∀ c ∈ t.getLast?, isBlank c = false)
    (hpasses : ∀ depth, 0 ≤ depth → Passes depth depth s)
    (hpasses' : ∀ depth, 0 ≤ depth → Passes depth depth t) : IsTypeText (s ++ t) where
  ne_nil := List.append_ne_nil_of_left_ne_nil hs t
  isTrimmed := isTrimmed_append hs ht hhead hlast
  passes depth hdepth := (hpasses depth hdepth).append (hpasses' depth hdepth)

/-- Type arguments belong to the text of the type that has them. -/
theorem IsTypeText.applied {base first : List Char} {rest : List (List Char)}
    (hbase : IsTypeText base) (hfirst : IsTypeText first) (hrest : ∀ s ∈ rest, IsTypeText s) :
    IsTypeText (base ++ '<' :: (first ++ joinedRest rest ++ ['>'])) := by
  refine isTypeText_append hbase.ne_nil (List.cons_ne_nil _ _) hbase.isTrimmed.head ?_
    hbase.passes fun depth hdepth => ?_
  · intro c hc
    rw [← List.cons_append, List.getLast?_concat] at hc
    obtain rfl := Option.some.inj hc
    decide
  · have hinside : 0 ≤ depth + 1 := by omega
    have harguments := passes_joinedRest (by omega) fun s hs => (hrest s hs).passes _ hinside
    exact (passes_open depth).append
      (((hfirst.passes _ hinside).append harguments).append (passes_close depth))

/-! ### Names and arguments -/

theorem splitGeneric_of_not_mem {s : List Char} (h : '<' ∉ s) : splitGeneric s = (trim s, []) := by
  rw [splitGeneric, splitAt?_eq_none h]

/-- Only a bracket at the end closes type arguments. -/
theorem splitGeneric_of_not_endsWith {s : List Char} (h : endsWith s ['>'] = false) :
    splitGeneric s = (trim s, []) := by
  rw [splitGeneric, h]
  cases splitAt? ['<'] s <;> rfl

/-- A name and its arguments are found again. -/
theorem splitGeneric_joined {base : List Char} (hbase : '<' ∉ base) {first : List Char}
    (hfirst : IsPiece first) {rest : List (List Char)} (hrest : ∀ s ∈ rest, IsPiece s) :
    splitGeneric (base ++ '<' :: (first ++ joinedRest rest ++ ['>'])) =
      (trim base, first :: rest) := by
  have hend : endsWith (base ++ '<' :: (first ++ joinedRest rest ++ ['>'])) ['>'] = true := by
    rw [← List.cons_append, ← List.append_assoc]
    exact endsWith_append _ ['>']
  rw [splitGeneric, splitAt?_append_cons hbase]
  dsimp only
  rw [if_pos hend, List.dropLast_concat, splitTopLevel_joined hfirst hrest]

end ScriptTypings.TypeText
