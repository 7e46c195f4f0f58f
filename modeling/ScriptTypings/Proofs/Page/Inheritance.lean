import ScriptTypings.Page.Inheritance
import ScriptTypings.Proofs.Text.Collapse
import ScriptTypings.Proofs.Text.Word
import ScriptTypings.Proofs.TypeText

/-!
# Declared bases

A `Sample` is the declaration of a type: modifiers, a declarator and the name, then bases behind a
colon, constraints and a body, each of which may be missing. `bases_sample` tells what is read from
it. The bases are those of the clause, whatever follows them. The first colon is taken for theirs
even if it is that of a constraint, so a sample without bases has the bounds of its first
constraint for bases.
-/

namespace ScriptTypings.Inheritance

open Text TypeText

/-- The word that begins a constraint. -/
def constraintWord : List Char := "where".toList

theorem isWordText_constraintWord : IsWordText constraintWord :=
  isWordText_of_all (by decide) (by decide)

/-- A type as a clause names it. Its brackets pair up, and a comma in it is inside of brackets. -/
structure IsBase (base : List Char) : Prop where
  ne_nil : base ≠ []
  oneLine_eq : oneLine base = base
  balanced : base.count '<' = base.count '>'
  enclosed : ∀ i < base.length, base[i]? = some ',' →
    (base.take i).count '<' ≠ (base.take i).count '>'
  unmarked : ∀ c ∈ base, c ≠ ':' ∧ c ≠ '\x7b'
  not_constraint : ¬ HasWord constraintWord base

/-- Texts with commas between them. -/
def listed (pieces : List (List Char)) : List Char :=
  [','].intercalate pieces

/-- Types with arbitrary white space around each of them. -/
structure IsClause (pieces : List (List Char)) : Prop where
  ne_nil : pieces ≠ []
  isBase : ∀ p ∈ pieces, IsBase (trim p)

/-- A constraint, with the white space in front of it. -/
structure Constraint where
  gap : List Char
  parameter : List Char
  bounds : List (List Char)

namespace Constraint

def text (c : Constraint) : List Char :=
  c.gap ++ (constraintWord ++ (c.parameter ++ ':' :: listed c.bounds))

structure IsWellFormed (c : Constraint) : Prop where
  gap_ne_nil : c.gap ≠ []
  allBlank_gap : AllBlank c.gap
  parameter_ne_nil : c.parameter ≠ []
  isBlank_head : ∀ a ∈ c.parameter.head?, isBlank a = true
  parameter_unmarked : ∀ a ∈ c.parameter, a ≠ ':' ∧ a ≠ '\x7b'
  bounds_unmarked : ∀ b ∈ c.bounds, '\x7b' ∉ b

end Constraint

/-- The declaration of a type. The name has the white space around it, and the clause is the list of
what stands between the commas. -/
structure Sample where
  modifiers : List Char
  declarator : List Char
  name : List Char
  clause : Option (List (List Char))
  constraints : List Constraint
  body : List Char

/-- The text of a clause, which is nothing without one. -/
def clauseText : Option (List (List Char)) → List Char
  | none => []
  | some pieces => ':' :: listed pieces

namespace Sample

/-- What stands behind the name. -/
def tail (s : Sample) : List Char :=
  clauseText s.clause ++ s.constraints.flatMap Constraint.text

def text (s : Sample) : List Char :=
  s.modifiers ++ s.declarator ++ (s.name ++ (s.tail ++ s.body))

structure IsWellFormed (s : Sample) : Prop where
  modifiers_unmarked : ':' ∉ s.modifiers
  modifiers_last : ∀ c ∈ s.modifiers.getLast?, isWord c = false
  modifiers_plain : ∀ word ∈ declarators, ¬ HasWord word s.modifiers
  declarator_mem : s.declarator ∈ declarators
  name_ne_nil : s.name ≠ []
  isBlank_name : ∀ c ∈ s.name.head?, isBlank c = true
  name_unmarked : ∀ c ∈ s.name, c ≠ ':' ∧ c ≠ '\x7b'
  isClause : ∀ pieces ∈ s.clause, IsClause pieces
  constraints_wellFormed : ∀ c ∈ s.constraints, c.IsWellFormed
  body_head : ∀ c ∈ s.body.head?, c = '\x7b'

end Sample

/-- The bases in the pieces of a clause, without those that every type has. -/
def declared (pieces : List (List Char)) : List String :=
  (pieces.map fun p => String.ofList (trim p)).filter fun name => !rootBases.contains name

/-! ### Clauses -/

theorem listed_cons_cons (p q : List Char) (ps : List (List Char)) :
    listed (p :: q :: ps) = p ++ ',' :: listed (q :: ps) := by
  rw [listed, List.intercalate_cons_cons, List.append_assoc]
  rfl

theorem not_mem_listed {c : Char} (hc : c ≠ ',') {ps : List (List Char)} (h : ∀ p ∈ ps, c ∉ p) :
    c ∉ listed ps := by
  induction ps with
  | nil => exact List.not_mem_nil
  | cons p ps ih =>
    rw [List.forall_mem_cons] at h
    cases ps with
    | nil =>
      rw [listed, List.intercalate_singleton]
      exact h.1
    | cons q ps =>
      rw [listed_cons_cons, List.mem_append, List.mem_cons]
      exact fun hmem => hmem.elim h.1 fun hrest => hrest.elim hc (ih h.2)

theorem IsBase.passes {p : List Char} (h : IsBase (trim p)) : Passes 0 0 p := by
  have hbalanced := h.balanced
  have hpasses := passes_of_enclosed (s := trim p) 0 fun i hi hcomma => by
    have henclosed := h.enclosed i hi hcomma
    omega
  have hdepth : (0 : Int) + (trim p).count '<' - (trim p).count '>' = 0 := by omega
  rw [hdepth] at hpasses
  exact passes_of_trim hpasses

theorem IsBase.trim_collapse {p : List Char} (h : IsBase (trim p)) :
    trim (collapse false p) = trim p := by
  have hline : collapse false (trim (trim p)) = trim p := h.oneLine_eq
  rw [trim_trim] at hline
  rw [Text.trim_collapse, hline]

namespace IsClause

variable {ps : List (List Char)} (h : IsClause ps)

include h

theorem of_map_trim {qs : List (List Char)} (hqs : qs.map trim = ps.map trim) : IsClause qs where
  ne_nil := by
    rintro rfl
    exact h.ne_nil (List.map_eq_nil_iff.mp hqs.symm)
  isBase q hq := by
    have hmem : trim q ∈ ps.map trim := hqs ▸ List.mem_map_of_mem hq
    obtain ⟨p, hp, hpq⟩ := List.mem_map.mp hmem
    exact hpq ▸ h.isBase p hp

theorem unmarked {p : List Char} (hp : p ∈ ps) : ':' ∉ p ∧ '\x7b' ∉ p := by
  obtain ⟨hcolon, hbrace⟩ := forall_ne_and_ne_iff.mp (h.isBase p hp).unmarked
  exact ⟨fun hmem => hcolon (mem_trim_of_mem hmem (by decide)),
    fun hmem => hbrace (mem_trim_of_mem hmem (by decide))⟩

theorem listed_ne_nil : listed ps ≠ [] := by
  cases ps with
  | nil => exact absurd rfl h.ne_nil
  | cons p ps =>
    have hp : p ≠ [] := by
      rintro rfl
      exact (h.isBase [] List.mem_cons_self).ne_nil rfl
    cases ps with
    | nil => rwa [listed, List.intercalate_singleton]
    | cons q ps =>
      rw [listed_cons_cons]
      exact List.append_ne_nil_of_left_ne_nil hp _

theorem not_hasWord : ¬ HasWord constraintWord (listed ps) := by
  have hcomma : isWord ',' = false := by decide
  have hpiece : ∀ p ∈ ps, ¬ HasWord constraintWord p := fun p hp hword =>
    (h.isBase p hp).not_constraint (hword.of_trim isWordText_constraintWord)
  clear h
  induction ps with
  | nil => exact not_hasWord_nil isWordText_constraintWord
  | cons p ps ih =>
    rw [List.forall_mem_cons] at hpiece
    cases ps with
    | nil =>
      rw [listed, List.intercalate_singleton]
      exact hpiece.1
    | cons q ps =>
      rw [listed_cons_cons]
      intro hword
      rcases hword.of_append_cons isWordText_constraintWord hcomma with hfirst | hrest
      · exact hpiece.1 hfirst
      · exact ih hpiece.2 hrest

theorem trimEnd_listed : ∃ qs, trimEnd (listed ps) = listed qs ∧ qs.map trim = ps.map trim :=
  exists_trimEnd_intercalate h.ne_nil

/-- A clause on one line is a clause with the same types. -/
theorem oneLine_listed : ∃ qs, IsClause qs ∧ qs.map trim = ps.map trim ∧
    oneLine (':' :: listed ps) = ':' :: listed qs := by
  have hcolon : isBlank ':' = false := by decide
  have hcollapsed : (ps.map (collapse false)).map trim = ps.map trim := by
    rw [List.map_map]
    exact List.map_congr_left fun p hp => (h.isBase p hp).trim_collapse
  obtain ⟨qs, hqs, hmap⟩ := (h.of_map_trim hcollapsed).trimEnd_listed
  refine ⟨qs, h.of_map_trim (hmap.trans hcollapsed), hmap.trans hcollapsed, ?_⟩
  rw [oneLine, trim_cons_of_not_isBlank hcolon, collapse_cons_of_not_isBlank hcolon,
    ← trimEnd_collapse, listed, collapse_intercalate (by decide), ← listed, hqs]

theorem splitInterfaceList_listed : splitInterfaceList (':' :: listed ps) = ps.map trim := by
  obtain ⟨qs, hqs, hmap⟩ := h.trimEnd_listed
  have hclause := h.of_map_trim hmap
  rw [splitInterfaceList, trim_cons_of_not_isBlank (by decide), hqs]
  have hlead : dropLead? [':'] (':' :: listed qs) = some (listed qs) :=
    dropLead?_append [':'] (listed qs)
  rw [hlead, Option.getD_some, listed, splitTopLevel_intercalate hclause.ne_nil
    (fun q hq => (hclause.isBase q hq).passes) (fun q hq => (hclause.isBase q hq).ne_nil), hmap]

end IsClause

/-! ### Constraints -/

/-- What may stand behind a clause: nothing, or a constraint and anything more. -/
def IsTail (t : List Char) : Prop :=
  t = [] ∨ ∃ gap a more, t = gap ++ (constraintWord ++ a :: more) ∧ gap ≠ [] ∧ AllBlank gap ∧
    isBlank a = true ∧ trimEnd more ≠ []

theorem oneLine_append_constraint {s gap more : List Char} {a : Char} (hgap : AllBlank gap)
    (hne : gap ≠ []) (ha : isBlank a = true) (hmore : trimEnd more ≠ []) :
    ∃ r, oneLine (':' :: (s ++ (gap ++ (constraintWord ++ a :: more)))) =
      oneLine (':' :: s) ++ ' ' :: (constraintWord ++ [' ']) ++ r := by
  have hcolon : isBlank ':' = false := by decide
  have hword : ∀ c ∈ constraintWord, isBlank c = false := fun c hc =>
    isBlank_of_isWord (isWordText_constraintWord.isWord c hc)
  obtain ⟨trail, htrail, htext⟩ := exists_trimEnd more
  obtain ⟨front, c, hfront, hc⟩ := (trimEnd_cases more).resolve_left hmore
  have htrimmed : trim (':' :: (s ++ (gap ++ (constraintWord ++ a :: more)))) =
      ':' :: s ++ (gap ++ (constraintWord ++ a :: trimEnd more)) := by
    have hsplit : s ++ (gap ++ (constraintWord ++ a :: more)) =
        (s ++ (gap ++ (constraintWord ++ a :: front))) ++ c :: trail := by
      conv_lhs => rw [htext, hfront]
      simp
    rw [trim_cons_of_not_isBlank hcolon, hsplit, trimEnd_append_cons hc,
      trimEnd_of_allBlank htrail, hfront]
    simp
  have hfilled : trimEnd (':' :: s) ≠ [] := by
    rw [show ':' :: s = [] ++ ':' :: s from rfl, trimEnd_append_cons hcolon]
    exact List.cons_ne_nil _ _
  refine ⟨collapse true (trimEnd more), ?_⟩
  rw [oneLine, htrimmed, collapse_append_gap hfilled hgap hne,
    collapse_append_of_forall hword (by decide), collapse_cons_of_isBlank ha, oneLine,
    trim_cons_of_not_isBlank hcolon, ← List.nil_append (':' :: s), trimEnd_append_cons hcolon]
  simp

/-- Up to the first constraint, a clause on one line is the clause. -/
theorem splitInterfaceList_upTo {ps : List (List Char)} (h : IsClause ps) {t : List Char}
    (ht : IsTail t) :
    splitInterfaceList (upTo " where ".toList (oneLine (':' :: (listed ps ++ t)))) =
      ps.map trim := by
  have hmark : " where ".toList = ' ' :: (constraintWord ++ [' ']) := rfl
  obtain ⟨qs, hclause, hmap, hline⟩ := h.oneLine_listed
  have hplain : ¬ HasWord constraintWord (':' :: listed qs) := by
    intro hword
    rcases hword.of_append_cons (x := []) isWordText_constraintWord (by decide) with hnil | hrest
    · exact not_hasWord_nil isWordText_constraintWord hnil
    · exact hclause.not_hasWord hrest
  rw [← hmap, ← hclause.splitInterfaceList_listed]
  apply congrArg splitInterfaceList
  rcases ht with rfl | ⟨gap, a, more, rfl, hne, hgap, ha, hmore⟩
  · rw [List.append_nil, hline, upTo]
    cases hsplit : splitAt? " where ".toList (':' :: listed qs) with
    | none => rfl
    | some cut =>
      have hcut := eq_append_of_splitAt? hsplit
      refine absurd ⟨cut.1 ++ [' '], ' ' :: cut.2, ?_, fun c hc => ?_, fun c hc => ?_⟩ hplain
      · rw [hcut, hmark]
        simp
      · rw [List.getLast?_concat] at hc
        exact Option.some.inj hc ▸ by decide
      · exact Option.some.inj hc ▸ by decide
  · obtain ⟨r, hr⟩ := oneLine_append_constraint (s := listed ps) hgap hne ha hmore
    rw [hr, hline, upTo, hmark, splitAt?_spaced isWordText_constraintWord hplain]

/-! ### Declarations -/

/-- A declarator at the front of a text, with white space behind it. -/
theorem afterDeclarator?_append {word rest : List Char} (hword : word ∈ declarators)
    (hrest : beginsWithWord rest = false) : afterDeclarator? (word ++ rest) = some rest := by
  have hfound : (dropLead? word (word ++ rest)).filter (fun r => !beginsWithWord r) =
      some rest := by
    rw [dropLead?_append, Option.filter_some, if_pos (by rw [hrest]; rfl)]
  simp only [declarators, List.mem_cons, List.not_mem_nil, or_false] at hword
  rcases hword with rfl | rfl | rfl
  · rw [afterDeclarator?, declarators, List.findSome?_cons, hfound]
  · rw [afterDeclarator?, declarators, List.findSome?_cons, List.findSome?_cons, hfound]
    rfl
  · rw [afterDeclarator?, declarators, List.findSome?_cons, List.findSome?_cons,
      List.findSome?_cons, hfound]
    rfl

theorem isWordText_of_mem_declarators {word : List Char} (h : word ∈ declarators) :
    IsWordText word := by
  simp only [declarators, List.mem_cons, List.not_mem_nil, or_false] at h
  rcases h with rfl | rfl | rfl <;> exact isWordText_of_all (by decide) (by decide)

/-- No declarator begins where a text has none and does not end inside of a word. -/
theorem afterDeclarator?_eq_none {s x : List Char} (hs : s ≠ [])
    (hlast : ∀ c ∈ s.getLast?, isWord c = false)
    (hplain : ∀ word ∈ declarators, ∀ after, s = word ++ after → beginsWithWord after = true) :
    afterDeclarator? (s ++ x) = none := by
  rw [afterDeclarator?, List.findSome?_eq_none_iff]
  intro word hword
  cases hlead : dropLead? word (s ++ x) with
  | none => rfl
  | some r =>
    rcases List.append_eq_append_iff.mp (eq_append_of_dropLead? hlead) with
      ⟨d, rfl, -⟩ | ⟨d, rfl, rfl⟩
    · -- the declarator would go on behind `s`, of which the last character is no word character
      obtain ⟨front, c, rfl⟩ := (List.eq_nil_or_concat' s).resolve_left hs
      have hc := hlast c (by rw [List.getLast?_concat]; rfl)
      exact absurd (by simp) ((isWordText_of_mem_declarators hword).not_mem hc)
    · have hd := hplain word hword d rfl
      cases d with
      | nil => cases hd
      | cons c d =>
        have hbegins : beginsWithWord (c :: d ++ x) = true := hd
        rw [Option.filter_some, hbegins]
        rfl

/-- Reading on through the modifiers leads to the declarator behind them. -/
theorem declaration?_append (done : List Char) {rest word tail : List Char}
    (hword : word ∈ declarators) (htail : beginsWithWord tail = false)
    (hlast : ∀ c ∈ (done ++ rest).getLast?, isWord c = false)
    (hplain : ∀ word ∈ declarators, ¬ HasWord word (done ++ rest)) :
    declaration? (done.getLast?.any isWord) (rest ++ (word ++ tail)) = some tail := by
  induction rest generalizing done with
  | nil =>
    have hdone : done.getLast?.any isWord = false := by
      rw [List.append_nil] at hlast
      cases hc : done.getLast? with
      | none => rfl
      | some c => exact hlast c hc
    have hfound := afterDeclarator?_append hword htail
    rw [hdone, List.nil_append]
    cases htext : word ++ tail with
    | nil =>
      exact absurd (List.append_eq_nil_iff.mp htext).1 (isWordText_of_mem_declarators hword).ne_nil
    | cons c s =>
      rw [htext] at hfound
      rw [declaration?, if_neg Bool.false_ne_true, hfound]
  | cons c rest ih =>
    have hnone : (if done.getLast?.any isWord = true then none
        else afterDeclarator? (c :: rest ++ (word ++ tail))) = none := by
      by_cases hdone : done.getLast?.any isWord = true
      · rw [if_pos hdone]
      · rw [if_neg hdone]
        apply afterDeclarator?_eq_none (List.cons_ne_nil c rest)
        · intro d hd
          apply hlast
          rw [List.getLast?_append_of_ne_nil _ (List.cons_ne_nil c rest)]
          exact hd
        · intro other hother after hafter
          by_contra hbegins
          refine hplain other hother ⟨done, after, by rw [hafter, List.append_assoc], ?_, ?_⟩
          · intro d hd
            rw [Option.mem_def.mp hd] at hdone
            exact Bool.eq_false_iff.mpr hdone
          · intro d hd
            cases after with
            | nil => cases hd
            | cons e after => exact Option.some.inj hd ▸ Bool.eq_false_iff.mpr hbegins
    have hnext := ih (done ++ [c]) (by simpa using hlast) (by simpa using hplain)
    rw [List.getLast?_concat] at hnext
    rw [List.cons_append] at hnone ⊢
    rw [declaration?, hnone]
    exact hnext

/-! ### Scope marks -/

theorem dotScopes_cons_of_ne {c : Char} (hc : c ≠ ':') (t : List Char) :
    dotScopes (c :: t) = c :: dotScopes t := by
  rw [dotScopes]
  exact fun _ hcolon _ => hc hcolon

theorem dotScopes_colon_cons {c : Char} (hc : c ≠ ':') (t : List Char) :
    dotScopes (':' :: c :: t) = ':' :: dotScopes (c :: t) := by
  rw [dotScopes]
  exact fun _ _ hrest => hc (List.cons.inj hrest).1

theorem dotScopes_append_of_not_mem {s : List Char} (hs : ':' ∉ s) (t : List Char) :
    dotScopes (s ++ t) = s ++ dotScopes t := by
  induction s with
  | nil => rfl
  | cons c s ih =>
    rw [List.mem_cons, not_or] at hs
    rw [List.cons_append, dotScopes_cons_of_ne (Ne.symm hs.1), ih hs.2, List.cons_append]

theorem dotScopes_append_cons {c : Char} (hc : c ≠ ':') (s t : List Char) :
    dotScopes (s ++ c :: t) = dotScopes s ++ c :: dotScopes t := by
  fun_induction dotScopes s with
  | case1 rest ih => exact congrArg ('.' :: ·) ih
  | case2 d rest hmark ih =>
    by_cases hd : d = ':'
    · subst hd
      cases rest with
      | nil => rw [List.singleton_append, dotScopes_colon_cons hc, dotScopes_cons_of_ne hc]; rfl
      | cons e rest =>
        have he : e ≠ ':' := by
          rintro rfl
          exact hmark rest rfl rfl
        rw [List.cons_append, List.cons_append, dotScopes_colon_cons he, ← List.cons_append, ih,
          List.cons_append]
    · rw [List.cons_append, dotScopes_cons_of_ne hd, ih, List.cons_append]
  | case3 => exact dotScopes_cons_of_ne hc t

theorem not_mem_dotScopes {c : Char} (hc : c ≠ '.') {s : List Char} (hs : c ∉ s) :
    c ∉ dotScopes s := by
  fun_induction dotScopes s with
  | case1 rest ih => simp_all
  | case2 d rest hmark ih => simp_all
  | case3 => exact hs

/-- A clause stays as it is, as no colon stands next to its own. -/
theorem dotScopes_clause {ps : List (List Char)} (h : IsClause ps) (t : List Char) :
    dotScopes (':' :: (listed ps ++ t)) = ':' :: (listed ps ++ dotScopes t) := by
  have hcolon : ':' ∉ listed ps := not_mem_listed (by decide) fun p hp => (h.unmarked hp).1
  cases hlisted : listed ps with
  | nil => exact absurd hlisted h.listed_ne_nil
  | cons c s =>
    rw [hlisted] at hcolon
    have hc : c ≠ ':' := by
      rintro rfl
      exact hcolon List.mem_cons_self
    rw [List.cons_append, dotScopes_colon_cons hc, ← List.cons_append,
      dotScopes_append_of_not_mem hcolon]

/-! ### Samples -/

/-- The first colon in front of the body is that of the clause. -/
theorem clauseBases_append {before t body : List Char} {ps : List (List Char)}
    (hbefore : ':' ∉ before ∧ '\x7b' ∉ before) (h : IsClause ps) (ht : IsTail t)
    (hbrace : '\x7b' ∉ t) (hbody : ∀ c ∈ body.head?, c = '\x7b') :
    clauseBases (before ++ ':' :: (listed ps ++ t) ++ body) = declared ps := by
  have hlisted : '\x7b' ∉ listed ps := not_mem_listed (by decide) fun p hp => (h.unmarked hp).2
  have hwhole : '\x7b' ∉ before ++ ':' :: (listed ps ++ t) := by
    rw [List.mem_append, List.mem_cons, List.mem_append]
    rintro (hmem | hmem | hmem | hmem)
    · exact hbefore.2 hmem
    · exact absurd hmem (by decide)
    · exact hlisted hmem
    · exact hbrace hmem
  rw [clauseBases, upTo_append_of_head hwhole hbody, splitAt?_append_cons hbefore.1]
  dsimp only
  rw [splitInterfaceList_upTo h ht, List.map_map]
  rfl

theorem clauseBases_of_not_mem {s body : List Char} (h : ':' ∉ s ∧ '\x7b' ∉ s)
    (hbody : ∀ c ∈ body.head?, c = '\x7b') : clauseBases (s ++ body) = [] := by
  rw [clauseBases, upTo_append_of_head h.2 hbody, splitAt?_eq_none h.1]

namespace Constraint

variable {c : Constraint} (h : c.IsWellFormed)

include h

/-- The part of a constraint before its colon. -/
theorem IsWellFormed.front_unmarked :
    ':' ∉ c.gap ++ (constraintWord ++ c.parameter) ∧
      '\x7b' ∉ c.gap ++ (constraintWord ++ c.parameter) := by
  have hfront : ∀ a, isBlank a = false → isWord a = false → a ∉ c.parameter →
      a ∉ c.gap ++ (constraintWord ++ c.parameter) := by
    intro a hblank hword hparameter
    rw [List.mem_append, List.mem_append, not_or, not_or]
    exact ⟨fun hgap => Bool.false_ne_true (hblank.symm.trans (h.allBlank_gap a hgap)),
      isWordText_constraintWord.not_mem hword, hparameter⟩
  obtain ⟨hcolon, hbrace⟩ := forall_ne_and_ne_iff.mp h.parameter_unmarked
  exact ⟨hfront _ (by decide) (by decide) hcolon, hfront _ (by decide) (by decide) hbrace⟩

theorem IsWellFormed.not_mem_text : '\x7b' ∉ c.text := by
  have htext : c.text = c.gap ++ (constraintWord ++ c.parameter) ++ ':' :: listed c.bounds := by
    simp [text]
  rw [htext, List.mem_append, List.mem_cons]
  rintro (hmem | hmem | hmem)
  · exact h.front_unmarked.2 hmem
  · exact absurd hmem (by decide)
  · exact not_mem_listed (by decide) h.bounds_unmarked hmem

/-- A constraint and anything behind it may stand behind a clause. -/
theorem IsWellFormed.isTail (rest : List Char) : IsTail (dotScopes (c.text ++ rest)) := by
  obtain ⟨a, parameter, hparameter⟩ := List.exists_cons_of_ne_nil h.parameter_ne_nil
  have ha : isBlank a = true := h.isBlank_head a (by rw [hparameter]; rfl)
  have htext : c.text ++ rest =
      c.gap ++ (constraintWord ++ c.parameter) ++ ':' :: (listed c.bounds ++ rest) := by
    simp [text]
  refine .inr ⟨c.gap, a, parameter ++ dotScopes (':' :: (listed c.bounds ++ rest)), ?_,
    h.gap_ne_nil, h.allBlank_gap, ha, ?_⟩
  · rw [htext, dotScopes_append_of_not_mem h.front_unmarked.1, hparameter]
    simp
  · -- behind the parameter stands a colon, or the dot of a scope mark
    have hmark : ∃ b r, dotScopes (':' :: (listed c.bounds ++ rest)) = b :: r ∧
        isBlank b = false := by
      generalize listed c.bounds ++ rest = more
      cases more with
      | nil => exact ⟨':', [], rfl, by decide⟩
      | cons d more =>
        by_cases hd : d = ':'
        · exact ⟨'.', dotScopes more, by rw [hd, dotScopes], by decide⟩
        · exact ⟨':', _, dotScopes_colon_cons hd more, by decide⟩
    obtain ⟨b, r, hb, hblank⟩ := hmark
    rw [hb, trimEnd_append_cons hblank]
    exact List.append_ne_nil_of_right_ne_nil _ (List.cons_ne_nil _ _)

end Constraint

theorem isTail_constraints {constraints : List Constraint}
    (h : ∀ c ∈ constraints, c.IsWellFormed) :
    IsTail (dotScopes (constraints.flatMap Constraint.text)) ∧
      '\x7b' ∉ dotScopes (constraints.flatMap Constraint.text) := by
  refine ⟨?_, not_mem_dotScopes (by decide) fun hmem => ?_⟩
  · cases constraints with
    | nil => exact .inl rfl
    | cons c constraints =>
      rw [List.flatMap_cons]
      exact (h c List.mem_cons_self).isTail _
  · obtain ⟨c, hc, hmem⟩ := List.mem_flatMap.mp hmem
    exact (h c hc).not_mem_text hmem

namespace Sample

variable {s : Sample} (h : s.IsWellFormed)

include h

theorem dotScopes_body (t : List Char) :
    dotScopes (t ++ s.body) = dotScopes t ++ dotScopes s.body ∧
      ∀ c ∈ (dotScopes s.body).head?, c = '\x7b' := by
  cases hbody : s.body with
  | nil => exact ⟨by simp [dotScopes], nofun⟩
  | cons c body =>
    have hc : c = '\x7b' := h.body_head c (by rw [hbody]; rfl)
    have hne : c ≠ ':' := by
      rw [hc]
      decide
    rw [dotScopes_append_cons hne, dotScopes_cons_of_ne hne]
    exact ⟨rfl, fun d hd => Option.some.inj hd ▸ hc⟩

/-- What stands behind the declarator of a sample. -/
theorem declaration?_text : declaration? false (dotScopes s.text) =
    some (s.name ++ dotScopes (s.tail ++ s.body)) := by
  have hdeclarator : ':' ∉ s.declarator :=
    (isWordText_of_mem_declarators h.declarator_mem).not_mem (by decide)
  have hname : ':' ∉ s.name := (forall_ne_and_ne_iff.mp h.name_unmarked).1
  have hbegins : ∀ t, beginsWithWord (s.name ++ t) = false := by
    intro t
    cases hcons : s.name with
    | nil => exact absurd hcons h.name_ne_nil
    | cons c name => exact isWord_of_isBlank (h.isBlank_name c (by rw [hcons]; rfl))
  have hdots : dotScopes s.text = s.modifiers ++
      (s.declarator ++ (s.name ++ dotScopes (s.tail ++ s.body))) := by
    rw [text, List.append_assoc, dotScopes_append_of_not_mem h.modifiers_unmarked,
      dotScopes_append_of_not_mem hdeclarator, dotScopes_append_of_not_mem hname]
  rw [hdots]
  exact declaration?_append [] h.declarator_mem (hbegins _) h.modifiers_last
    h.modifiers_plain

variable {snippets : NameMap String} (hfind : NameMap.find? "C#" snippets = some (.ofList s.text))

include hfind

theorem bases_eq : bases snippets = clauseBases (s.name ++ dotScopes (s.tail ++ s.body)) := by
  have hsample : sampleDeclaration? snippets "C#" =
      some (s.name ++ dotScopes (s.tail ++ s.body)) := by
    rw [sampleDeclaration?, hfind]
    dsimp only
    rw [String.toList_ofList, declaration?_text h]
  rw [bases, languages, List.findSome?_cons, hsample]

/-- The bases of a sample are those of its clause, without the ones that every type has, whatever
constraints follow. A sample without a clause has none if it has no constraints. Otherwise the
colon of the first constraint is taken for that of a clause. -/
theorem bases_sample :
    (∀ ps, s.clause = some ps → bases snippets = declared ps) ∧
    (s.clause = none → s.constraints = [] → bases snippets = []) ∧
    ∀ c cs, s.clause = none → s.constraints = c :: cs → IsClause c.bounds →
      bases snippets = declared c.bounds := by
  have hbases := bases_eq h hfind
  have hname := forall_ne_and_ne_iff.mp h.name_unmarked
  obtain ⟨hbody, hhead⟩ := dotScopes_body h s.tail
  rw [hbody, ← List.append_assoc] at hbases
  refine ⟨fun ps hclause => ?_, fun hclause hconstraints => ?_,
    fun c cs hclause hconstraints hbounds => ?_⟩
  · obtain ⟨htail, hbrace⟩ := isTail_constraints h.constraints_wellFormed
    have hps := h.isClause ps hclause
    rw [hbases, tail, hclause, clauseText, List.cons_append, dotScopes_clause hps]
    exact clauseBases_append hname hps htail hbrace hhead
  · have htail : s.tail = [] := by rw [tail, hclause, hconstraints]; rfl
    rw [hbases, htail, dotScopes, List.append_nil]
    exact clauseBases_of_not_mem hname hhead
  · have hall := h.constraints_wellFormed
    rw [hconstraints, List.forall_mem_cons] at hall
    obtain ⟨htail, hbrace⟩ := isTail_constraints hall.2
    have hfront := hall.1.front_unmarked
    have htext : s.tail = c.gap ++ (constraintWord ++ c.parameter) ++
        ':' :: (listed c.bounds ++ cs.flatMap Constraint.text) := by
      rw [tail, hclause, hconstraints, List.flatMap_cons, Constraint.text]
      simp [clauseText]
    have hbefore : ':' ∉ s.name ++ (c.gap ++ (constraintWord ++ c.parameter)) ∧
        '\x7b' ∉ s.name ++ (c.gap ++ (constraintWord ++ c.parameter)) :=
      ⟨List.not_mem_append hname.1 hfront.1, List.not_mem_append hname.2 hfront.2⟩
    rw [hbases, htext, dotScopes_append_of_not_mem hfront.1, dotScopes_clause hbounds,
      ← List.append_assoc s.name]
    exact clauseBases_append hbefore hbounds htail hbrace hhead

end Sample

/-- A type parameter that must be of another type. -/
def boundItem : Constraint where
  gap := "\n  ".toList
  parameter := " T ".toList
  bounds := [" IItem ".toList]

/-- A generic type with a constraint, with or without a clause. -/
def boxSample (clause : Option (List (List Char))) : Sample where
  modifiers := "[Version(1)] public sealed ".toList
  declarator := "class".toList
  name := " Box<T>".toList
  clause := clause
  constraints := [boundItem]
  body := "\x7b int x; \x7d".toList

/-- A clause with a comma inside of brackets, a base of every type and a line break. -/
def boxClause : List (List Char) :=
  [" IMap<T, int>".toList, "Object ".toList, "\n\tIView<T>".toList]

theorem isClause_of_forall {ps : List (List Char)} (hne : ps ≠ [])
    (h : ∀ p ∈ ps, trim p ≠ [] ∧ oneLine (trim p) = trim p ∧
      (trim p).count '<' = (trim p).count '>' ∧
      (∀ i < (trim p).length, (trim p)[i]? = some ',' →
        ((trim p).take i).count '<' ≠ ((trim p).take i).count '>') ∧
      ':' ∉ trim p ∧ '\x7b' ∉ trim p ∧ ¬ constraintWord <:+: trim p) : IsClause ps where
  ne_nil := hne
  isBase p hp := by
    obtain ⟨hfilled, hline, hbalanced, henclosed, hcolon, hbrace, hplain⟩ := h p hp
    exact ⟨hfilled, hline, hbalanced, henclosed, forall_ne_and_ne_iff.mpr ⟨hcolon, hbrace⟩,
      fun hword => hplain hword.isInfix⟩

theorem isWellFormed_boundItem : boundItem.IsWellFormed where
  gap_ne_nil := by decide +kernel
  allBlank_gap := List.all_eq_true.mp (by decide +kernel)
  parameter_ne_nil := by decide +kernel
  isBlank_head c hc := by
    rw [show c = ' ' from (Option.some.inj hc).symm]
    decide
  parameter_unmarked := forall_ne_and_ne_iff.mpr (by decide +kernel)
  bounds_unmarked := by decide +kernel

theorem isWellFormed_boxSample : (boxSample none).IsWellFormed where
  modifiers_unmarked := by decide +kernel
  modifiers_last c hc := by
    rw [show c = ' ' from (Option.some.inj hc).symm]
    decide
  modifiers_plain word hword hmem := by
    have hnone : ∀ word ∈ declarators, ¬ word <:+: "[Version(1)] public sealed ".toList := by
      decide +kernel
    exact hnone word hword hmem.isInfix
  declarator_mem := by decide +kernel
  name_ne_nil := by decide +kernel
  isBlank_name c hc := by
    rw [show c = ' ' from (Option.some.inj hc).symm]
    decide
  name_unmarked := forall_ne_and_ne_iff.mpr (by decide +kernel)
  isClause := nofun
  constraints_wellFormed c hc := by
    rw [List.mem_singleton.mp hc]
    exact isWellFormed_boundItem
  body_head c hc := (Option.some.inj hc).symm

/-- With the clause its types are found, and without it the bound of the parameter is. -/
theorem bases_sample_box :
    (boxSample (some boxClause)).IsWellFormed ∧ (boxSample none).IsWellFormed ∧
    bases [("C#", .ofList (boxSample (some boxClause)).text)] = ["IMap<T, int>", "IView<T>"] ∧
    bases [("C#", .ofList (boxSample none).text)] = ["IItem"] := by
  have hclause : IsClause boxClause := isClause_of_forall (by decide +kernel) (by decide +kernel)
  have hbounds : IsClause boundItem.bounds :=
    isClause_of_forall (by decide +kernel) (by decide +kernel)
  have hwithout : (boxSample none).IsWellFormed := isWellFormed_boxSample
  have hwith : (boxSample (some boxClause)).IsWellFormed :=
    { hwithout with isClause := fun ps hps => Option.some.inj hps ▸ hclause }
  refine ⟨hwith, hwithout, ?_, ?_⟩
  · rw [(Sample.bases_sample hwith rfl).1 boxClause rfl]
    decide +kernel
  · rw [(Sample.bases_sample hwithout rfl).2.2 boundItem [] rfl rfl hbounds]
    decide +kernel

end ScriptTypings.Inheritance
