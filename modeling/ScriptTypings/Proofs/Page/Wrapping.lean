import Mathlib.Data.List.Forall2
import ScriptTypings.Proofs.NameMap
import ScriptTypings.Proofs.Page.Alternative
import ScriptTypings.Proofs.Text.Collapse

/-!
# White space in type containers

Two containers are alike if their texts, and the texts inside of their emphasised elements, differ
in the width of white space only. Cutting into alternatives, languages and names goes on alike in
both (`ofText_collapse`). But names, array marks and languages keep the white space inside of them,
and an array mark is compared with a text of one space. So containers that are alike are read alike
if no array mark and no language is wrapped (`parse_alike`), and what is read is the same if no name
is wrapped either.
-/

namespace ScriptTypings

open Text Markup

/-- A text with single spaces for its runs of white space. -/
def collapsed (s : String) : String :=
  .ofList (collapse false s.toList)

theorem collapsed_ofList (s : List Char) :
    collapsed (.ofList s) = .ofList (collapse false s) := by
  rw [collapsed, String.toList_ofList]

theorem collapsed_eq_iff {s t : String} :
    collapsed s = collapsed t ↔ AreAlike s.toList t.toList := by
  rw [collapsed, collapsed, AreAlike, String.ofList_inj]

namespace Alternative

/-- An alternative with single spaces inside of its name and its languages. -/
def collapsed (a : Alternative) : Alternative :=
  ⟨a.name.map ScriptTypings.collapsed, a.languages.map ScriptTypings.collapsed⟩

/-! ### Cutting after white space is collapsed -/

theorem splitOnChar_collapse {mark : Char} (hmark : isBlank mark = false) {s : List Char}
    (f : Bool) {part : List Char} {parts : List (List Char)}
    (h : splitOnChar mark s = part :: parts) :
    splitOnChar mark (collapse f s) = collapse f part :: parts.map (collapse false) := by
  have hspace : ' ' ≠ mark := by
    rintro rfl
    exact absurd hmark (by decide)
  induction s generalizing f part parts with
  | nil =>
    obtain ⟨rfl, rfl⟩ := List.cons.inj h
    rfl
  | cons c s ih =>
    cases hrest : splitOnChar mark s with
    | nil => exact absurd (splitOnChar_eq_splitOn mark s ▸ hrest) (List.splitOn_ne_nil _ _)
    | cons first others =>
      rw [splitOnChar, hrest] at h
      by_cases hcm : c = mark
      · subst hcm
        rw [if_pos rfl] at h
        obtain ⟨rfl, rfl⟩ := List.cons.inj h
        rw [collapse_cons_of_not_isBlank hmark, splitOnChar, if_pos rfl, ih false hrest]
        rfl
      · rw [if_neg hcm] at h
        obtain ⟨rfl, rfl⟩ := List.cons.inj h
        cases hc : isBlank c with
        | true =>
          rw [collapse_cons_of_isBlank hc, collapse_cons_of_isBlank hc]
          cases f with
          | true => exact ih true hrest
          | false =>
            rw [if_neg Bool.false_ne_true, List.singleton_append, List.singleton_append,
              splitOnChar, if_neg hspace, ih true hrest]
        | false =>
          rw [collapse_cons_of_not_isBlank hc, collapse_cons_of_not_isBlank hc, splitOnChar,
            if_neg hcm, ih false hrest]

theorem parts_collapse {mark : Char} (hmark : isBlank mark = false) (s : List Char) :
    parts mark (collapse false s) = (parts mark s).map (collapse false) := by
  have hcut : splitOnChar mark (collapse false s) =
      (splitOnChar mark s).map (collapse false) := by
    cases hs : splitOnChar mark s with
    | nil => exact absurd (splitOnChar_eq_splitOn mark s ▸ hs) (List.splitOn_ne_nil _ _)
    | cons part parts => exact splitOnChar_collapse hmark false hs
  have htrim : trim ∘ collapse false = collapse false ∘ trim :=
    funext fun s => trim_collapse false s
  have hfilled : (fun part : List Char => !part.isEmpty) ∘ collapse false =
      fun part => !part.isEmpty := by
    funext part
    rw [Function.comp_apply, isEmpty_collapse]
  rw [parts, parts, hcut, List.map_map, htrim, ← List.map_map, List.filter_map, hfilled]

theorem eq_append_of_brackets? {s before inside : List Char}
    (h : brackets? s = some (before, inside)) :
    s = before ++ '[' :: (inside ++ [']']) ∧ ∀ c ∈ inside, c ≠ '[' ∧ c ≠ ']' := by
  unfold brackets? at h
  split at h
  · rename_i rest hreverse
    dsimp only at h
    split at h
    · rename_i front hfront
      obtain ⟨rfl, rfl⟩ := Prod.mk.inj (Option.some.inj h)
      have hrest := List.takeWhile_append_dropWhile (p := fun c => c ≠ '[' && c ≠ ']') (l := rest)
      rw [hfront] at hrest
      refine ⟨?_, fun c hc => ?_⟩
      · rw [← List.reverse_reverse s, hreverse]
        conv_lhs => rw [← hrest]
        simp
      · have hall := List.all_eq_true.mp List.all_takeWhile c (List.mem_reverse.mp hc)
        simpa using hall
    · cases h
  · cases h

theorem brackets?_collapse (s : List Char) :
    brackets? (collapse false s) =
      (brackets? s).map fun cut => (collapse false cut.1, collapse false cut.2) := by
  have hopen : isBlank '[' = false := by decide
  have hclose : isBlank ']' = false := by decide
  have hplain : ∀ {inside : List Char}, (∀ c ∈ collapse false inside, c ≠ '[' ∧ c ≠ ']') ↔
      ∀ c ∈ inside, c ≠ '[' ∧ c ≠ ']' := by
    intro inside
    rw [forall_ne_and_ne_iff, forall_ne_and_ne_iff, mem_collapse_iff hopen, mem_collapse_iff hclose]
  cases hcut : brackets? s with
  | some cut =>
    obtain ⟨hs, hinside⟩ := eq_append_of_brackets? hcut
    rw [hs, collapse_append_cons hopen, collapse_concat hclose,
      brackets?_append _ (hplain.mpr hinside)]
    rfl
  | none =>
    cases hfound : brackets? (collapse false s) with
    | none => rfl
    | some cut =>
      -- the brackets that are found stand in `s` too
      obtain ⟨hs, hinside⟩ := eq_append_of_brackets? hfound
      obtain ⟨before, after, rfl, -, hafter⟩ := exists_of_collapse_eq_append_cons hopen hs
      obtain ⟨inside, last, rfl, hfront, hlast⟩ := exists_of_collapse_eq_append_cons hclose hafter
      rw [← hfront, hplain] at hinside
      rw [collapse_eq_nil_iff.mp hlast, brackets?_append before hinside] at hcut
      cases hcut

theorem ofPiece_collapse (piece : List Char) :
    ofPiece (collapse false piece) = (ofPiece piece).collapsed := by
  rw [ofPiece, ofPiece, brackets?_collapse]
  cases brackets? piece with
  | none => rw [Option.map_none, collapsed, Option.map_some, collapsed_ofList]; rfl
  | some cut =>
    have hslash : isBlank '/' = false := by decide
    simp only [Option.map_some, trim_collapse, isEmpty_collapse]
    by_cases hinside : (trim cut.2).isEmpty = true
    · rw [if_pos hinside, if_pos hinside, collapsed, Option.map_some, collapsed_ofList]
      rfl
    · have hlanguages : (parts '/' (collapse false cut.2)).map String.ofList =
          ((parts '/' cut.2).map String.ofList).map ScriptTypings.collapsed := by
        rw [parts_collapse hslash, List.map_map, List.map_map]
        exact List.map_congr_left fun s _ => (collapsed_ofList s).symm
      rw [if_neg hinside, if_neg hinside, collapsed, hlanguages]
      by_cases hname : (trim cut.1).isEmpty = true
      · rw [if_pos hname, if_pos hname]
        rfl
      · rw [if_neg hname, if_neg hname, Option.map_some, collapsed_ofList]

/-- The alternatives of a text are those of the text in which white space is collapsed, up to the
white space inside of them. -/
theorem ofText_collapse (s : List Char) :
    ofText (collapse false s) = (ofText s).map collapsed := by
  rw [ofText, ofText, parts_collapse (by decide), List.map_map, List.map_map]
  exact List.map_congr_left fun piece _ => ofPiece_collapse piece

/-! ### Alternatives of texts that are alike -/

/-- Neither an array mark nor a language of an alternative is wrapped. -/
def IsUnwrapped (a : Alternative) : Prop :=
  (∀ name ∈ a.name, ScriptTypings.collapsed name = .ofList TypeText.arrayOf →
    name = .ofList TypeText.arrayOf) ∧ ∀ language ∈ a.languages,
      ScriptTypings.collapsed language = language

instance (a : Alternative) : Decidable a.IsUnwrapped :=
  inferInstanceAs (Decidable (_ ∧ _))

/-- Alternatives that differ in white space inside of their names only. -/
structure Alike (a b : Alternative) : Prop where
  name : a.name.map ScriptTypings.collapsed = b.name.map ScriptTypings.collapsed
  isArray : a.name = some (.ofList TypeText.arrayOf) ↔ b.name = some (.ofList TypeText.arrayOf)
  languages : a.languages = b.languages

theorem isArray_of_collapsed {a b : Alternative} (hb : b.IsUnwrapped)
    (h : a.name.map ScriptTypings.collapsed = b.name.map ScriptTypings.collapsed)
    (ha : a.name = some (.ofList TypeText.arrayOf)) :
    b.name = some (.ofList TypeText.arrayOf) := by
  have hmark : ScriptTypings.collapsed (.ofList TypeText.arrayOf) = .ofList TypeText.arrayOf := by
    decide +kernel
  rw [ha, Option.map_some, hmark] at h
  obtain ⟨name, hname, hcollapsed⟩ := Option.map_eq_some_iff.mp h.symm
  rw [hname, hb.1 name hname hcollapsed]

theorem alike_of_collapsed {a b : Alternative} (ha : a.IsUnwrapped) (hb : b.IsUnwrapped)
    (h : a.collapsed = b.collapsed) : a.Alike b := by
  have hfixed : ∀ {languages : List String}, (∀ l ∈ languages, ScriptTypings.collapsed l = l) →
      languages.map ScriptTypings.collapsed = languages := fun hall =>
    (List.map_congr_left hall).trans (List.map_id' _)
  obtain ⟨hname, hlanguages⟩ := Alternative.mk.inj h
  refine ⟨hname, ⟨isArray_of_collapsed hb hname, isArray_of_collapsed ha hname.symm⟩, ?_⟩
  rwa [hfixed ha.2, hfixed hb.2] at hlanguages

/-- No alternative of a text has a wrapped array mark or a wrapped language. -/
def IsUnwrappedText (s : List Char) : Prop :=
  ∀ a ∈ ofText s, a.IsUnwrapped

instance (s : List Char) : Decidable (IsUnwrappedText s) :=
  List.decidableBAll IsUnwrapped (ofText s)

theorem forall₂_alike {as bs : List Alternative} (ha : ∀ a ∈ as, a.IsUnwrapped)
    (hb : ∀ b ∈ bs, b.IsUnwrapped) (h : as.map collapsed = bs.map collapsed) :
    List.Forall₂ Alike as bs := by
  induction as generalizing bs with
  | nil =>
    rw [List.map_nil, eq_comm, List.map_eq_nil_iff] at h
    rw [h]
    exact .nil
  | cons a as ih =>
    cases bs with
    | nil => cases h
    | cons b bs =>
      rw [List.forall_mem_cons] at ha hb
      obtain ⟨hfirst, hrest⟩ := List.cons.inj h
      exact .cons (alike_of_collapsed ha.1 hb.1 hfirst) (ih ha.2 hb.2 hrest)

theorem forall₂_ofText {s t : List Char} (h : AreAlike s t) (hs : IsUnwrappedText s)
    (ht : IsUnwrappedText t) : List.Forall₂ Alike (ofText s) (ofText t) := by
  refine forall₂_alike hs ht ?_
  rw [← ofText_collapse, ← ofText_collapse, h]

theorem ofText_trim (s : List Char) : ofText (trim s) = ofText s := by
  rw [ofText, ofText, parts_trim (by decide)]

end Alternative

namespace TypeSpelling

/-- A spelling with single spaces inside of its names. -/
def collapsed : TypeSpelling → TypeSpelling
  | everywhere name => everywhere (ScriptTypings.collapsed name)
  | byLanguage names => byLanguage (names.mapValues ScriptTypings.collapsed)

namespace State

/-- What has been read, with single spaces inside of names. -/
def collapsed (s : State) : State where
  names := s.names.mapValues ScriptTypings.collapsed
  proposed := s.proposed.map ScriptTypings.collapsed
  array := s.array

variable {s t : State} (h : s.collapsed = t.collapsed)

theorem result?_collapsed (s : State) :
    s.collapsed.result? = s.result?.map TypeSpelling.collapsed := by
  have hempty : s.collapsed.names.isEmpty = s.names.isEmpty := by
    simp [collapsed, NameMap.mapValues]
  rw [result?, result?, hempty]
  split
  · rw [collapsed, Option.map_map, Option.map_map]
    rfl
  · rfl

theorem commit_collapsed (s : State) (languages : List String) :
    (s.commit languages).collapsed = s.collapsed.commit languages := by
  have hnames : ∀ (name : String) (m : NameMap String),
      (languages.foldl (fun m language => NameMap.put language name m) m).mapValues
          ScriptTypings.collapsed =
        languages.foldl (fun m language => NameMap.put language (ScriptTypings.collapsed name) m)
          (m.mapValues ScriptTypings.collapsed) := by
    intro name
    induction languages with
    | nil => exact fun m => rfl
    | cons language languages ih =>
      intro m
      rw [List.foldl_cons, List.foldl_cons, ih, NameMap.put_mapValues]
  have hempty : ∀ name, ScriptTypings.collapsed name = "" ↔ name = "" := by
    intro name
    rw [ScriptTypings.collapsed, String.ofList_eq_empty_iff, collapse_eq_nil_iff,
      String.toList_eq_nil_iff]
  obtain ⟨names, proposed, array⟩ := s
  cases proposed with
  | none => rfl
  | some name =>
    by_cases hname : name = ""
    · simp [commit, collapsed, hname, hempty]
    · simp [commit, collapsed, hname, hempty, hnames]

include h

theorem propose_congr {name other : String}
    (hname : ScriptTypings.collapsed name = ScriptTypings.collapsed other) :
    (s.propose name).collapsed = (t.propose other).collapsed := by
  have hlead : ScriptTypings.collapsed (.ofList TypeText.arrayLead ++ name) =
      ScriptTypings.collapsed (.ofList TypeText.arrayLead ++ other) := by
    rw [collapsed_eq_iff, String.toList_append, String.toList_append]
    exact (collapsed_eq_iff.mp hname).append_left _
  obtain ⟨hnames, -, harray⟩ := State.mk.inj h
  rw [propose, propose, harray]
  split
  · simp only [collapsed, Option.map_some, hlead, hnames]
  · simp only [collapsed, Option.map_some, hname, hnames]

theorem readAlternative_congr {a b : Alternative} (hab : a.Alike b) :
    (s.readAlternative a).collapsed = (t.readAlternative b).collapsed := by
  have hname := hab.name
  rw [readAlternative, readAlternative]
  by_cases ha : a.name = some (.ofList TypeText.arrayOf)
  · rw [if_pos ha, if_pos (hab.isArray.mp ha)]
    obtain ⟨hnames, hproposed, -⟩ := State.mk.inj h
    simp only [collapsed, hnames, hproposed]
  · rw [if_neg ha, if_neg (mt hab.isArray.mpr ha)]
    cases hna : a.name with
    | none =>
      rw [hna, Option.map_none, eq_comm, Option.map_eq_none_iff] at hname
      rw [hname]
      simp only [commit_collapsed, h, hab.languages]
    | some name =>
      rw [hna, Option.map_some, eq_comm] at hname
      obtain ⟨other, hother, hcollapsed⟩ := Option.map_eq_some_iff.mp hname
      rw [hother]
      simp only [commit_collapsed, propose_congr h hcollapsed.symm, hab.languages]

theorem foldl_readAlternative_congr {as bs : List Alternative}
    (hall : List.Forall₂ Alternative.Alike as bs) :
    (as.foldl readAlternative s).collapsed = (bs.foldl readAlternative t).collapsed := by
  induction hall generalizing s t with
  | nil => exact h
  | cons hab _ ih => exact ih (readAlternative_congr h hab)

theorem readText_congr {text other : List Char} (htexts : AreAlike text other)
    (htext : Alternative.IsUnwrappedText text) (hother : Alternative.IsUnwrappedText other) :
    (s.readText text).collapsed = (t.readText other).collapsed :=
  foldl_readAlternative_congr h (Alternative.forall₂_ofText htexts htext hother)

end State

/-! ### Containers that are alike -/

/-- Nodes that differ in the white space of a text, or of the text inside of an emphasised element.
Nothing is read inside of other elements. -/
inductive NodesAlike : Node → Node → Prop
  | text {content other : String} {kind otherKind : TextKind}
      (h : AreAlike content.toList other.toList) :
      NodesAlike (.text content kind) (.text other otherKind)
  | comment (content other : String) : NodesAlike (.comment content) (.comment other)
  | element {tag : String} {attributes : List (String × String)} {children others : List Node}
      (h : emphasises tag = true →
        AreAlike (Node.element tag attributes children).innerText.toList
          (Node.element tag attributes others).innerText.toList) :
      NodesAlike (.element tag attributes children) (.element tag attributes others)

/-- The texts that are read, as they stand between the elements. -/
def textsBetween (nodes : List Node) : List (List Char) :=
  nodes.filterMap fun
    | .text content _ => some content.toList
    | _ => none

/-- The texts that are read of the nodes of a container, the first one behind the type mark. -/
def textsRead : Bool → List Node → List (List Char)
  | false, .text content _ :: nodes =>
    (dropLead? typeLead (trimStart content.toList)).toList ++ textsBetween nodes
  | _, nodes => textsBetween nodes

theorem readNodes_congr {nodes others : List Node} (h : List.Forall₂ NodesAlike nodes others)
    (hnodes : ∀ text ∈ textsBetween nodes, Alternative.IsUnwrappedText text)
    (hothers : ∀ text ∈ textsBetween others, Alternative.IsUnwrappedText text) {s t : State}
    (hst : s.collapsed = t.collapsed) :
    (readNodes s nodes).map State.collapsed = (readNodes t others).map State.collapsed := by
  induction h generalizing s t with
  | nil =>
    rw [readNodes, readNodes]
    exact congrArg Except.ok hst
  | cons hnode _ ih =>
    cases hnode with
    | comment content other => exact ih hnodes hothers hst
    | @text content other kind otherKind htext =>
      have hfirst : ∀ (c : String) (k : TextKind) (rest : List Node),
          textsBetween (.text c k :: rest) = c.toList :: textsBetween rest := fun _ _ _ => rfl
      rw [hfirst, List.forall_mem_cons] at hnodes hothers
      rw [readNodes, readNodes, htext.all_isBlank]
      by_cases hblank : other.toList.all isBlank = true
      · rw [if_pos hblank, if_pos hblank]
        exact ih hnodes.2 hothers.2 hst
      · rw [if_neg hblank, if_neg hblank]
        exact ih hnodes.2 hothers.2 (State.readText_congr hst htext hnodes.1 hothers.1)
    | @element tag attributes children others helement =>
      rw [readNodes, readNodes]
      by_cases hlink : tag = "a"
      · rw [if_pos hlink, if_pos hlink]
        exact ih hnodes hothers (State.propose_congr hst rfl)
      · rw [if_neg hlink, if_neg hlink]
        by_cases hemphasis : emphasises tag = true
        · rw [if_pos hemphasis, if_pos hemphasis]
          refine ih hnodes hothers (State.propose_congr hst ?_)
          rw [collapsed_eq_iff, trimmed, trimmed, String.toList_ofList, String.toList_ofList]
          exact (helement hemphasis).trim
        · rw [if_neg hemphasis, if_neg hemphasis]
          split
          · exact congrArg Except.ok hst
          · split
            · exact ih hnodes hothers hst
            · rfl

/-- What a container spells, with single spaces inside of names. -/
abbrev collapsedResult (result : Except PageError (Option TypeSpelling)) :
    Except PageError (Option TypeSpelling) :=
  result.map (Option.map collapsed)

theorem collapsedResult_bind {x y : Except PageError State}
    (h : x.map State.collapsed = y.map State.collapsed) :
    collapsedResult (do return (← x).result?) = collapsedResult (do return (← y).result?) := by
  cases x with
  | error e =>
    cases y with
    | error e' => exact congrArg Except.error (Except.error.inj h)
    | ok t => cases h
  | ok s =>
    cases y with
    | error e' => cases h
    | ok t =>
      have hst : s.collapsed = t.collapsed := Except.ok.inj h
      show Except.ok (s.result?.map collapsed) = Except.ok (t.result?.map collapsed)
      rw [← State.result?_collapsed, ← State.result?_collapsed, hst]

/-- A single alternative without languages is the whole type in both lists or in neither. -/
theorem whole_congr {x y : Except PageError (Option TypeSpelling)}
    (hgoOn : collapsedResult x = collapsedResult y) {as bs : List Alternative} :
    List.Forall₂ Alternative.Alike as bs → collapsedResult (match as with
      | [⟨name, []⟩] =>
        if name = some (.ofList TypeText.arrayOf) then x else .ok (name.map everywhere)
      | _ => x) =
    collapsedResult (match bs with
      | [⟨name, []⟩] =>
        if name = some (.ofList TypeText.arrayOf) then y else .ok (name.map everywhere)
      | _ => y) := by
  intro hall
  cases hall with
  | nil => exact hgoOn
  | @cons a b as bs hab hmore =>
    obtain ⟨name, languages⟩ := a
    obtain ⟨otherName, otherLanguages⟩ := b
    obtain ⟨hname, harray, hlanguages⟩ := hab
    dsimp only at hname harray hlanguages
    subst hlanguages
    cases hmore with
    | cons _ _ => cases languages <;> exact hgoOn
    | nil =>
      cases languages with
      | cons language languages => exact hgoOn
      | nil =>
        dsimp only
        by_cases hmark : name = some (.ofList TypeText.arrayOf)
        · rw [if_pos hmark, if_pos (harray.mp hmark)]
          exact hgoOn
        · have hwhole : ∀ n : Option String, (n.map everywhere).map collapsed =
              (n.map ScriptTypings.collapsed).map everywhere := fun n => by
            rw [Option.map_map, Option.map_map]
            rfl
          rw [if_neg hmark, if_neg (mt harray.mpr hmark)]
          exact congrArg Except.ok (by rw [hwhole, hwhole, hname])

theorem isBlank_typeLead : ∀ a ∈ typeLead, isBlank a = false := by
  have hall : typeLead.all (!isBlank ·) = true := by decide
  simpa only [List.all_eq_true, Bool.not_eq_true'] using hall

theorem parseMarked_congr {nodes others : List Node} (h : List.Forall₂ NodesAlike nodes others)
    (hnodes : ∀ text ∈ textsRead false nodes, Alternative.IsUnwrappedText text)
    (hothers : ∀ text ∈ textsRead false others, Alternative.IsUnwrappedText text) :
    collapsedResult (parseMarked nodes) = collapsedResult (parseMarked others) := by
  cases h with
  | nil => rfl
  | cons hnode htail =>
    cases hnode with
    | comment content other => rfl
    | element hinside => rfl
    | @text content other kind otherKind htext =>
      have hlead : (dropLead? typeLead (trimStart content.toList)).map (collapse false) =
          (dropLead? typeLead (trimStart other.toList)).map (collapse false) := by
        have hstart := htext.trimStart
        rw [← dropLead?_collapse isBlank_typeLead, ← dropLead?_collapse isBlank_typeLead, hstart]
      rw [textsRead] at hnodes hothers
      simp only [List.forall_mem_append] at hnodes hothers
      rw [parseMarked, parseMarked]
      cases hrest : dropLead? typeLead (trimStart content.toList) with
      | none =>
        rw [hrest, Option.map_none, eq_comm, Option.map_eq_none_iff] at hlead
        rw [hlead]
      | some rest =>
        rw [hrest, Option.map_some, eq_comm] at hlead
        obtain ⟨otherRest, hother, halike⟩ := Option.map_eq_some_iff.mp hlead
        rw [hrest] at hnodes
        rw [hother] at hothers
        have hrests : AreAlike (trim rest) (trim otherRest) := AreAlike.trim halike.symm
        have hfirst : Alternative.IsUnwrappedText (trim rest) := by
          rw [Alternative.IsUnwrappedText, Alternative.ofText_trim]
          exact hnodes.1 rest List.mem_cons_self
        have hotherFirst : Alternative.IsUnwrappedText (trim otherRest) := by
          rw [Alternative.IsUnwrappedText, Alternative.ofText_trim]
          exact hothers.1 otherRest List.mem_cons_self
        have hgoOn := collapsedResult_bind (readNodes_congr htail hnodes.2 hothers.2
          (State.readText_congr (s := {}) (t := {}) rfl hrests hfirst hotherFirst))
        rw [hother]
        exact whole_congr hgoOn (Alternative.forall₂_ofText hrests hfirst hotherFirst)

/-- Containers that are alike spell the same names up to the white space inside of them, and fail
in the same way, if no array mark and no language is wrapped in either. They spell the same if no
name that is read is wrapped. -/
theorem parse_alike {container other : Node}
    (h : List.Forall₂ NodesAlike container.children other.children) (unmarked : Bool)
    (hcontainer : ∀ text ∈ textsRead unmarked (container.children.filter fun n => !n.isComment),
      Alternative.IsUnwrappedText text)
    (hother : ∀ text ∈ textsRead unmarked (other.children.filter fun n => !n.isComment),
      Alternative.IsUnwrappedText text) :
    collapsedResult (parse container unmarked) = collapsedResult (parse other unmarked) ∧
    ((∀ spelling, parse container unmarked = .ok (some spelling) →
        spelling.collapsed = spelling) →
      (∀ spelling, parse other unmarked = .ok (some spelling) → spelling.collapsed = spelling) →
      parse container unmarked = parse other unmarked) := by
  have hnodes : List.Forall₂ NodesAlike (container.children.filter fun n => !n.isComment)
      (other.children.filter fun n => !n.isComment) := by
    refine List.rel_filter (fun _ _ hnode => ?_) h
    cases hnode <;> exact Iff.rfl
  have hresult : collapsedResult (parse container unmarked) =
      collapsedResult (parse other unmarked) := by
    cases unmarked with
    | false => exact parseMarked_congr hnodes hcontainer hother
    | true => exact collapsedResult_bind (readNodes_congr hnodes hcontainer hother rfl)
  have hfixed : ∀ {result : Except PageError (Option TypeSpelling)},
      (∀ spelling, result = .ok (some spelling) → spelling.collapsed = spelling) →
      collapsedResult result = result := by
    intro result hnames
    cases result with
    | error e => rfl
    | ok spelling? =>
      cases spelling? with
      | none => rfl
      | some spelling =>
        show Except.ok (some spelling.collapsed) = Except.ok (some spelling)
        rw [hnames spelling rfl]
  refine ⟨hresult, fun hsame hotherSame => ?_⟩
  rwa [hfixed hsame, hfixed hotherSame] at hresult

/-- A type for two kinds of languages, one of them an array with an emphasised name. -/
def wrappedContainer (gap : String) : Node :=
  .element "p" [] [.text ("Type:" ++ gap ++ "Number [JavaScript]" ++ gap ++ "| array of") .plain,
    .comment gap, .element "b" [] [.text ("IMap<K," ++ gap ++ "V>") .plain],
    .text (gap ++ "[.NET/C#]") .plain]

/-- White space around names and marks is not seen, and a line break inside of a name stays
there. -/
theorem parse_alike_wrappedContainer :
    parse (wrappedContainer " ") false =
      .ok (some (.byLanguage [("JavaScript", "Number"), (".NET", "array of IMap<K, V>"),
        ("C#", "array of IMap<K, V>")])) ∧
    collapsedResult (parse (wrappedContainer "\n  ") false) = parse (wrappedContainer " ") false ∧
    parse (wrappedContainer "\n  ") false ≠ parse (wrappedContainer " ") false := by
  have halike : List.Forall₂ NodesAlike (wrappedContainer "\n  ").children
      (wrappedContainer " ").children :=
    .cons (.text (by decide +kernel)) (.cons (.comment _ _)
      (.cons (.element fun _ => by decide +kernel) (.cons (.text (by decide +kernel)) .nil)))
  obtain ⟨hresult, -⟩ := TypeSpelling.parse_alike halike false (by decide +kernel)
    (by decide +kernel)
  have hok : ∀ {result : Except PageError (Option TypeSpelling)} {spelling : Option TypeSpelling},
      result.toOption = some spelling → result = .ok spelling := by
    intro result spelling h
    cases result with
    | error e => cases h
    | ok found => exact congrArg Except.ok (Option.some.inj h)
  have hline : parse (wrappedContainer " ") false =
      .ok (some (.byLanguage [("JavaScript", "Number"), (".NET", "array of IMap<K, V>"),
        ("C#", "array of IMap<K, V>")])) :=
    hok (by decide +kernel)
  refine ⟨hline, ?_, fun hsame => ?_⟩
  · rw [hresult, hline]
    exact hok (by decide +kernel)
  · have hdiffer : (parse (wrappedContainer "\n  ") false).toOption ≠
        (parse (wrappedContainer " ") false).toOption := by decide +kernel
    exact hdiffer (congrArg Except.toOption hsame)

end TypeSpelling

end ScriptTypings
