import Mathlib.Data.List.Infix
import Mathlib.Data.List.Chain
import ScriptTypings.Declarations.Emitter
import ScriptTypings.Proofs.Text.Trim

/-!
# Comments end where they end

A comment ends at the first end mark behind its beginning. An escaped text has no end mark, also not
at its seams with what is put around it, so that every comment that is written ends with its last
two characters. `Uncommented` says of some lines that they are others without whole comments.
-/

namespace ScriptTypings.Declarations

open Text

/-! ### End marks -/

/-- The mark at which a comment ends. -/
def endMark : List Char := ['*', '/']

/-- No comment ends within the text. -/
def HasNoEnd (s : List Char) : Prop :=
  ¬ endMark <:+: s

/-- A comment ends with the last two characters of the text, and none before. -/
def EndsComment (s : List Char) : Prop :=
  endMark <:+ s ∧ HasNoEnd s.dropLast

instance (s : List Char) : Decidable (HasNoEnd s) :=
  inferInstanceAs (Decidable (¬ endMark <:+: s))

instance (s : List Char) : Decidable (EndsComment s) :=
  inferInstanceAs (Decidable (endMark <:+ s ∧ HasNoEnd s.dropLast))

variable {s t : List Char}

theorem hasNoEnd_iff_isChain : HasNoEnd s ↔ s.IsChain fun a b => ¬ (a = '*' ∧ b = '/') := by
  constructor
  · intro h
    induction s with
    | nil => exact .nil
    | cons a s ih =>
      cases s with
      | nil => exact .singleton a
      | cons b s =>
        refine .cons_cons ?_ (ih fun hmark => h (List.infix_cons hmark))
        rintro ⟨rfl, rfl⟩
        exact h (List.IsPrefix.isInfix ⟨s, rfl⟩)
  · rintro h ⟨before, after, rfl⟩
    have hmark : (endMark ++ after).IsChain fun a b => ¬ (a = '*' ∧ b = '/') :=
      (List.append_assoc before endMark after ▸ h).right_of_append
    exact (List.isChain_cons_cons.mp hmark).1 ⟨rfl, rfl⟩

theorem hasNoEnd_of_not_mem (h : '*' ∉ s) : HasNoEnd s :=
  fun hmark => h (hmark.subset List.mem_cons_self)

/-- Two texts without end mark have none together, unless the seam is one. -/
theorem HasNoEnd.append (hs : HasNoEnd s) (ht : HasNoEnd t)
    (hseam : s.getLast? ≠ some '*' ∨ t.head? ≠ some '/') : HasNoEnd (s ++ t) := by
  rw [hasNoEnd_iff_isChain] at hs ht ⊢
  refine List.isChain_append.mpr ⟨hs, ht, ?_⟩
  rintro a ha b hb ⟨rfl, rfl⟩
  exact hseam.elim (· ha) (· hb)

theorem EndsComment.append (hs : HasNoEnd s) (ht : EndsComment t)
    (hseam : s.getLast? ≠ some '*' ∨ t.head? ≠ some '/') : EndsComment (s ++ t) := by
  obtain ⟨⟨front, rfl⟩, hfront⟩ := ht
  refine ⟨⟨s ++ front, List.append_assoc ..⟩, ?_⟩
  have hlast : (front ++ endMark).dropLast = front ++ ['*'] := by
    rw [endMark, List.dropLast_append_cons]
    rfl
  have hdrop : (s ++ (front ++ endMark)).dropLast = s ++ (front ++ endMark).dropLast :=
    List.dropLast_append_of_ne_nil (by simp [endMark])
  rw [hdrop]
  refine hs.append hfront (hseam.imp_right fun hhead => ?_)
  rw [hlast]
  cases front with
  | nil => exact fun h => by cases h
  | cons c front => exact hhead

/-! ### Escaped texts -/

theorem head?_escapeChars (s : List Char) : (escapeChars s).head? = s.head? := by
  unfold escapeChars
  split <;> rfl

theorem hasNoEnd_escapeChars (s : List Char) : HasNoEnd (escapeChars s) := by
  rw [hasNoEnd_iff_isChain]
  induction s using escapeChars.induct with
  | case1 rest ih =>
    rw [escapeChars]
    refine .cons_cons (by decide) (.cons_cons (by decide) (ih.cons fun b _ => ?_))
    exact fun h => absurd h.1 (by decide)
  | case2 c rest hmark ih =>
    rw [escapeChars.eq_2 c rest hmark]
    refine ih.cons fun b hb => ?_
    rintro ⟨rfl, rfl⟩
    rw [head?_escapeChars] at hb
    cases rest with
    | nil => cases hb
    | cons d rest =>
      obtain rfl := Option.some.inj hb
      exact hmark rest rfl rfl
  | case3 => exact .nil

theorem hasNoEnd_escape (text : String) : HasNoEnd (escape text).toList := by
  rw [escape, String.toList_ofList]
  exact hasNoEnd_escapeChars _

/-! ### Comment blocks -/

/-- A line behind some spaces. -/
def padded (n : Nat) (line : String) : String :=
  .ofList (List.replicate n ' ') ++ line

/-- Lines that are one whole comment, which ends, however far it is indented, with the last two
characters and nowhere before. -/
structure IsComment (block : List String) : Prop where
  shape : (∃ text, block = ["/** " ++ text ++ " */"]) ∨
    ∃ texts : List String, block = "/**" :: texts.map (" * " ++ ·) ++ [" */"]
  ends : ∀ n, EndsComment (join "\n" (block.map (padded n))).toList

theorem IsComment.ne_empty {block : List String} (h : IsComment block) {line : String}
    (hline : line ∈ block) : line ≠ "" := by
  rintro rfl
  obtain ⟨text, rfl⟩ | ⟨texts, rfl⟩ := h.shape
  · have hempty := List.mem_singleton.mp hline
    have hchars := congrArg String.toList hempty
    simp at hchars
  · rw [List.mem_append, List.mem_cons, List.mem_map, List.mem_singleton] at hline
    obtain (hempty | ⟨text, -, hempty⟩) | hempty := hline
    all_goals
      have hchars := congrArg String.toList hempty
      simp at hchars

theorem toList_padded (n : Nat) (line : String) :
    (padded n line).toList = List.replicate n ' ' ++ line.toList := by
  rw [padded, String.toList_append, String.toList_ofList]

theorem padded_zero (line : String) : padded 0 line = line :=
  String.empty_append

theorem indentLine_padded (n : Nat) {line : String} (h : line ≠ "") :
    indentLine (padded n line) = padded (4 + n) line := by
  have hfilled : padded n line ≠ "" := by
    intro hempty
    have hchars := congrArg String.toList hempty
    rw [toList_padded] at hchars
    exact h (String.toList_inj.mp (List.append_eq_nil_iff.mp hchars).2)
  rw [indentLine, if_neg hfilled, ← String.toList_inj, String.toList_append, toList_padded,
    toList_padded, List.replicate_add, List.append_assoc]
  rfl

theorem hasNoEnd_padded (n : Nat) {line : String} (h : HasNoEnd line.toList) :
    HasNoEnd (padded n line).toList := by
  rw [toList_padded]
  refine HasNoEnd.append (hasNoEnd_of_not_mem ?_) h (.inl ?_)
  · simp [List.mem_replicate]
  · cases n <;> simp [List.getLast?_replicate]

theorem endsComment_padded (n : Nat) {line : String} (h : EndsComment line.toList) :
    EndsComment (padded n line).toList := by
  rw [toList_padded]
  refine EndsComment.append (hasNoEnd_of_not_mem ?_) h (.inl ?_)
  · simp [List.mem_replicate]
  · cases n <;> simp [List.getLast?_replicate]

theorem endsComment_join {lines : List String} {last : String}
    (hlines : ∀ line ∈ lines, HasNoEnd line.toList) (hlast : EndsComment last.toList) :
    EndsComment (join "\n" (lines ++ [last])).toList := by
  induction lines with
  | nil => exact hlast
  | cons line lines ih =>
    obtain ⟨hline, hlines⟩ := List.forall_mem_cons.mp hlines
    have hjoin : join "\n" (line :: lines ++ [last]) =
        line ++ "\n" ++ join "\n" (lines ++ [last]) := by
      cases lines <;> rfl
    rw [hjoin, String.toList_append, String.toList_append]
    refine EndsComment.append (hline.append (hasNoEnd_of_not_mem (by decide)) ?_) (ih hlines) ?_
    · exact .inr (by decide)
    · exact .inl (by simp)

/-- A single line whose text ends no comment is one. -/
theorem isComment_line {text : String} (h : HasNoEnd text.toList) :
    IsComment ["/** " ++ text ++ " */"] := by
  refine ⟨.inl ⟨text, rfl⟩, fun n => endsComment_padded n ?_⟩
  rw [String.toList_append, String.toList_append]
  refine EndsComment.append (HasNoEnd.append (by decide) h (.inl (by simp))) (by decide) ?_
  exact .inr (by simp)

/-- Lines of texts that end no comment are one between its first and its last line. -/
theorem isComment_lines {texts : List String} (h : ∀ text ∈ texts, HasNoEnd text.toList) :
    IsComment ("/**" :: texts.map (" * " ++ ·) ++ [" */"]) := by
  refine ⟨.inr ⟨texts, rfl⟩, fun n => ?_⟩
  rw [List.map_append]
  refine endsComment_join ?_ (endsComment_padded n (by decide))
  refine List.forall_mem_map.mpr fun line hline => hasNoEnd_padded n ?_
  obtain rfl | ⟨text, htext, rfl⟩ := (List.mem_cons.mp hline).imp_right List.mem_map.mp
  · decide
  · rw [String.toList_append]
    exact HasNoEnd.append (by decide) (h text htext) (.inl (by simp))

/-! ### Written comments -/

theorem isPrefix_of_unmarked? {name front : List Char} (h : unmarked? name = some front) :
    front <+: name := by
  rw [unmarked?] at h
  split at h
  · rw [← Option.some.inj h]
    exact (isPrefix_trimEnd _).trans ((List.take_prefix _ _).trans (isPrefix_trimEnd _))
  · cases h

/-- A parameter is written as the beginning of its name, perhaps with a sign behind it. -/
theorem hasNoEnd_parameterName {name : String} (h : HasNoEnd name.toList) :
    HasNoEnd (parameterName name).toList := by
  have hplain : HasNoEnd (withoutMark name).toList := by
    rw [withoutMark]
    split
    · rename_i front hfront
      rw [String.toList_ofList]
      exact fun hmark => h (hmark.trans (isPrefix_of_unmarked? hfront).isInfix)
    · exact h
  rw [parameterName]
  split
  · rw [String.toList_append]
    exact hplain.append (by decide) (.inr (by decide))
  · exact hplain

theorem docComment_eq_nil_or (description : Json) :
    docComment description = [] ∨ IsComment (docComment description) := by
  rw [docComment]
  split
  · exact .inl rfl
  · exact .inr (isComment_line (hasNoEnd_escape _))

theorem hasNoEnd_parameterTag {slot : Slot} (h : HasNoEnd slot.name.asText.toList) {tag : String}
    (htag : parameterTag? slot = some tag) : HasNoEnd tag.toList := by
  rw [parameterTag?] at htag
  split at htag
  · cases htag
  · obtain rfl := Option.some.inj htag
    rw [String.toList_append, String.toList_append, String.toList_append]
    refine HasNoEnd.append (HasNoEnd.append ?_ (by decide) (.inr (by decide)))
      (hasNoEnd_escape _) (.inl ?_)
    · exact HasNoEnd.append (by decide) (hasNoEnd_parameterName h) (.inl (by decide))
    · rw [List.getLast?_append]
      exact fun hstar => absurd (Option.some.inj hstar) (by decide)

theorem hasNoEnd_returnTag {returned : Returned} {tag : String}
    (htag : returnTag? returned = some tag) : HasNoEnd tag.toList := by
  simp only [returnTag?] at htag
  split at htag
  · cases htag
  · obtain rfl := Option.some.inj htag
    rw [String.toList_append]
    exact HasNoEnd.append (by decide) (hasNoEnd_escape _) (.inl (by decide))

/-- The comment for a signature is one unless there is nothing to say. -/
theorem signatureComment_eq_nil_or {signature : Signature}
    (h : ∀ p ∈ signature.parameters, HasNoEnd p.name.asText.toList) :
    signatureComment signature = [] ∨ IsComment (signatureComment signature) := by
  unfold signatureComment
  extract_lets tags description
  split
  · exact docComment_eq_nil_or _
  · right
    have htags : ∀ tag ∈ tags, HasNoEnd tag.toList := by
      intro tag htag
      obtain hparameter | hreturned := List.mem_append.mp htag
      · obtain ⟨slot, hslot, htag⟩ := List.mem_filterMap.mp hparameter
        exact hasNoEnd_parameterTag (h slot hslot) htag
      · exact hasNoEnd_returnTag (Option.mem_toList.mp hreturned)
    by_cases hempty : signature.description.isEmpty
    · have hdescription : description = [] := if_pos hempty
      rw [hdescription]
      exact isComment_lines htags
    · have hdescription : description = [" * " ++ escape signature.description.asText] :=
        if_neg hempty
      rw [hdescription]
      exact isComment_lines (List.forall_mem_cons.mpr ⟨hasNoEnd_escape _, htags⟩)

/-! ### Lines without comments -/

/-- The second lines are the first ones without some whole comments, each at any indentation. -/
inductive Uncommented : List String → List String → Prop
  | nil : Uncommented [] []
  | keep (line : String) {lines rest : List String} (h : Uncommented lines rest) :
    Uncommented (line :: lines) (line :: rest)
  | drop {block : List String} (hblock : IsComment block) (n : Nat) {lines rest : List String}
    (h : Uncommented lines rest) : Uncommented (block.map (padded n) ++ lines) rest

namespace Uncommented

variable {lines rest lines' rest' : List String}

theorem refl (lines : List String) : Uncommented lines lines := by
  induction lines with
  | nil => exact nil
  | cons line lines ih => exact keep line ih

theorem append (h : Uncommented lines rest) (h' : Uncommented lines' rest') :
    Uncommented (lines ++ lines') (rest ++ rest') := by
  induction h with
  | nil => exact h'
  | keep line _ ih => exact keep line ih
  | drop hblock n _ ih =>
    rw [List.append_assoc]
    exact drop hblock n ih

/-- Comments that stand in front are left out. -/
theorem comment_append {block : List String} (hblock : block = [] ∨ IsComment block)
    (h : Uncommented lines rest) : Uncommented (block ++ lines) rest := by
  obtain rfl | hblock := hblock
  · exact h
  · have hpadded : block.map (padded 0) = block :=
      (List.map_congr_left fun line _ => padded_zero line).trans (List.map_id block)
    exact hpadded ▸ drop hblock 0 h

theorem indent (h : Uncommented lines rest) :
    Uncommented (Declarations.indent lines) (Declarations.indent rest) := by
  induction h with
  | nil => exact nil
  | keep line _ ih => exact keep _ ih
  | drop hblock n _ ih =>
    rename_i block lines rest _
    have hindent : (block.map (padded n)).map indentLine = block.map (padded (4 + n)) := by
      rw [List.map_map]
      exact List.map_congr_left fun line hline => indentLine_padded n (hblock.ne_empty hline)
    rw [Declarations.indent, List.map_append, hindent]
    exact drop hblock (4 + n) ih

theorem flatMap {α β : Type} {f : α → List String} {g : β → List String} {h : α → β}
    {l : List α} (hall : ∀ a ∈ l, Uncommented (f a) (g (h a))) :
    Uncommented (l.flatMap f) ((l.map h).flatMap g) := by
  induction l with
  | nil => exact nil
  | cons a l ih =>
    obtain ⟨ha, hl⟩ := List.forall_mem_cons.mp hall
    exact ha.append (ih hl)

end Uncommented

end ScriptTypings.Declarations
