import Mathlib.Data.List.Forall2
import ScriptTypings.Proofs.NameMap
import ScriptTypings.Proofs.Page.Alternative

/-!
# Types as pages write them

A page writes a type as a list of alternatives between bars. Each alternative stands there as text,
or its name stands in an element and the rest around it. `write` gives the nodes of such a list,
with texts next to each other put together, and `parse_write` says that reading the nodes gives the
alternatives back, however each of them is written.
-/

namespace ScriptTypings

open Text Markup

/-! ### Alternatives -/

/-- A type, or an array of this type, with the languages that spell it so. -/
structure LanguageType where
  isArray : Bool
  name : String
  languages : List String

namespace LanguageType

/-- The name, with the array mark in front of it. -/
def fullName (t : LanguageType) : String :=
  if t.isArray then .ofList TypeText.arrayLead ++ t.name else t.name

/-- The name for each language: a language that is named again takes the later name. -/
def spellings (ts : List LanguageType) : NameMap String :=
  .ofPairs (ts.flatMap fun t => t.languages.map fun language => (language, t.fullName))

/-- The languages in brackets; no languages have none. -/
def tags (t : LanguageType) : List Char :=
  if t.languages.isEmpty then []
  else '[' :: (['/'].intercalate (t.languages.map String.toList) ++ [']'])

/-- The alternative as text. -/
def plainText (t : LanguageType) : List Char :=
  t.fullName.toList ++ if t.languages.isEmpty then [] else ' ' :: t.tags

/-- The text in front of an element that holds the name. -/
def mark (t : LanguageType) : List Char :=
  if t.isArray then TypeText.arrayOf else []

/-- A name of a language can stand between the marks around it. -/
structure IsTag (language : String) : Prop where
  filled : language ≠ ""
  trimmed : trim language.toList = language.toList
  noMark : ∀ c ∈ language.toList, c ≠ '[' ∧ c ≠ ']' ∧ c ≠ '/' ∧ c ≠ '|'

/-- The name can be told from the marks around it: the only brackets in it are an empty pair at its
end. -/
structure IsPlain (t : LanguageType) : Prop where
  filled : t.name ≠ ""
  trimmed : trim t.name.toList = t.name.toList
  notMark : t.name ≠ "array of"
  noBar : '|' ∉ t.name.toList
  brackets : ∃ stem, (∀ c ∈ stem, c ≠ '[' ∧ c ≠ ']') ∧
    (t.name.toList = stem ∨ t.name.toList = stem ++ ['[', ']'])
  languages : ∀ language ∈ t.languages, IsTag language

end LanguageType

/-! ### How alternatives are written -/

/-- An element holds a name: a link leads to it, or an emphasised text is it. -/
inductive Holds (name : String) : Node → Prop
  | link {node : Node} (htag : node.tag? = some "a")
    (htarget : Identifier.ofLink ((node.attribute? "href").getD "") = name) : Holds name node
  | emphasis {node : Node} {tag : String} (htag : node.tag? = some tag)
    (htext : TypeSpelling.emphasises tag = true) (hname : trimmed node.innerText = name) :
    Holds name node

/-- A text, perhaps with an element and another text behind it. -/
structure Wording where
  front : List Char
  behind? : Option (Node × List Char) := none

/-- The ways to write an alternative; white space around its texts does not count. -/
inductive Spells (t : LanguageType) : Wording → Prop
  | plain {text : List Char} (htext : trim text = t.plainText) : Spells t ⟨text, none⟩
  | marked {front back : List Char} {node : Node} (hfront : trim front = t.mark)
    (hnode : Holds t.name node) (hback : trim back = t.tags) :
    Spells t ⟨front, some (node, back)⟩

namespace Wording

/-- The text node that the texts between bars make; no text makes none. -/
def textNode (texts : List (List Char)) : List Node :=
  let text := ['|'].intercalate texts
  if text.isEmpty then [] else [.text (.ofList text) .plain]

/-- The texts in front of the first element, and the nodes from this element on. -/
def write : List Wording → List (List Char) × List Node
  | [] => ([], [])
  | ⟨front, none⟩ :: ws => (front :: (write ws).1, (write ws).2)
  | ⟨front, some (node, back)⟩ :: ws =>
    ([front], node :: (textNode (back :: (write ws).1) ++ (write ws).2))

/-- The nodes of a type with the type mark in front. -/
def nodes (ws : List Wording) : List Node :=
  .text (.ofList (TypeSpelling.typeLead ++ ['|'].intercalate (write ws).1)) .plain :: (write ws).2

end Wording

namespace LanguageType

variable {t : LanguageType}

theorem toList_fullName (t : LanguageType) :
    t.fullName.toList = (if t.isArray then TypeText.arrayLead else []) ++ t.name.toList := by
  rw [fullName]
  split
  · rw [String.toList_append, String.toList_ofList]
  · rfl

theorem IsPlain.name_ne_nil (h : t.IsPlain) : t.name.toList ≠ [] := by
  intro hnil
  exact h.filled (String.toList_eq_nil_iff.mp hnil)

theorem IsPlain.isTrimmed_fullName (h : t.IsPlain) : IsTrimmed t.fullName.toList := by
  have hname := trim_eq_self_iff.mp h.trimmed
  rw [toList_fullName]
  split
  · refine ⟨fun c hc => ?_, fun c hc => ?_⟩
    · have hfirst : c = 'a' := (Option.some.inj hc).symm
      rw [hfirst]
      decide
    · rw [List.getLast?_append_of_ne_nil _ h.name_ne_nil] at hc
      exact hname.last c hc
  · exact hname

theorem IsPlain.fullName_ne_arrayOf (h : t.IsPlain) :
    t.fullName ≠ .ofList TypeText.arrayOf := by
  intro hsame
  have hlist : t.fullName.toList = TypeText.arrayOf := by rw [hsame, String.toList_ofList]
  rw [toList_fullName] at hlist
  split at hlist
  · have hlength := congrArg List.length hlist
    rw [List.length_append, TypeText.length_arrayLead] at hlength
    have hshort : TypeText.arrayOf.length = 8 := rfl
    omega
  · exact h.notMark (String.toList_inj.mp hlist)

theorem IsPlain.fullName_ne_empty (h : t.IsPlain) : t.fullName ≠ "" := by
  intro hempty
  have hlist : t.fullName.toList = [] := by rw [hempty]; rfl
  rw [toList_fullName, List.append_eq_nil_iff] at hlist
  exact h.name_ne_nil hlist.2

theorem IsPlain.bar_not_mem_fullName (h : t.IsPlain) : '|' ∉ t.fullName.toList := by
  rw [toList_fullName, List.mem_append, not_or]
  refine ⟨?_, h.noBar⟩
  split
  · decide
  · exact List.not_mem_nil

/-- The languages between the brackets. -/
def inside (t : LanguageType) : List Char :=
  ['/'].intercalate (t.languages.map String.toList)

theorem IsPlain.of_mem_inside (h : t.IsPlain) {c : Char} (hc : c ∈ t.inside) :
    c ≠ '[' ∧ c ≠ ']' ∧ c ≠ '|' := by
  refine Alternative.of_mem_intercalate (P := fun c => c ≠ '[' ∧ c ≠ ']' ∧ c ≠ '|') (by decide)
    (fun text htext c hc => ?_) c hc
  obtain ⟨language, hlanguage, rfl⟩ := List.mem_map.mp htext
  have hmarks := (h.languages language hlanguage).noMark c hc
  exact ⟨hmarks.1, hmarks.2.1, hmarks.2.2.2⟩

theorem tags_eq (h : t.languages ≠ []) : t.tags = '[' :: (t.inside ++ [']']) := by
  rw [tags, if_neg (by simpa using h)]
  rfl

/-- The names of languages are the parts between the brackets. -/
theorem IsPlain.parts_inside (h : t.IsPlain) :
    (Alternative.parts '/' t.inside).map String.ofList = t.languages := by
  have hmark : ∀ text ∈ t.languages.map String.toList, '/' ∉ text := by
    intro text htext hmem
    obtain ⟨language, hlanguage, rfl⟩ := List.mem_map.mp htext
    exact ((h.languages language hlanguage).noMark _ hmem).2.2.1 rfl
  have htrim : (t.languages.map String.toList).map trim = t.languages.map String.toList := by
    rw [List.map_map]
    exact List.map_congr_left fun language hlanguage => (h.languages language hlanguage).trimmed
  have hfilled : (t.languages.map String.toList).filter (fun part => !part.isEmpty) =
      t.languages.map String.toList := by
    refine List.filter_eq_self.mpr fun text htext => ?_
    obtain ⟨language, hlanguage, rfl⟩ := List.mem_map.mp htext
    have hne : language.toList ≠ [] := fun hnil =>
      (h.languages language hlanguage).filled (String.toList_eq_nil_iff.mp hnil)
    simpa using hne
  rw [inside, Alternative.parts_intercalate hmark, htrim, hfilled, List.map_map]
  exact (List.map_congr_left fun language _ => String.ofList_toList).trans (List.map_id _)

theorem IsPlain.trim_inside_ne_nil (h : t.IsPlain) (hlanguages : t.languages ≠ []) :
    trim t.inside ≠ [] := by
  intro hnil
  have hparts := h.parts_inside
  have hempty : Alternative.parts '/' t.inside = [] := by
    rw [← Alternative.parts_trim (by decide), hnil]
    rfl
  rw [hempty] at hparts
  exact hlanguages hparts.symm

/-- A piece with languages at its end. -/
theorem IsPlain.ofPiece_tags (h : t.IsPlain) (hlanguages : t.languages ≠ [])
    (before : List Char) :
    Alternative.ofPiece (before ++ t.tags) =
      ⟨if (trim before).isEmpty then none else some (.ofList (trim before)), t.languages⟩ := by
  have hmarks : ∀ c ∈ t.inside, c ≠ '[' ∧ c ≠ ']' := fun c hc =>
    ⟨(h.of_mem_inside hc).1, (h.of_mem_inside hc).2.1⟩
  rw [tags_eq hlanguages, Alternative.ofPiece, Alternative.brackets?_append before hmarks]
  have hfilled : (trim t.inside).isEmpty = false := by
    simpa using h.trim_inside_ne_nil hlanguages
  simp only [hfilled, Bool.false_eq_true, if_false, h.parts_inside]

/-- A name alone is a piece without languages, even if it ends with brackets. -/
theorem IsPlain.ofPiece_fullName (h : t.IsPlain) :
    Alternative.ofPiece t.fullName.toList = ⟨some t.fullName, []⟩ := by
  obtain ⟨stem, hstem, hname⟩ := h.brackets
  have hlead : ∀ c ∈ (if t.isArray then TypeText.arrayLead else []) ++ stem,
      c ≠ '[' ∧ c ≠ ']' := by
    intro c hc
    have harray : ∀ c ∈ TypeText.arrayLead, c ≠ '[' ∧ c ≠ ']' := by
      show ∀ c ∈ "array of ".toList, c ≠ '[' ∧ c ≠ ']'
      simp
    rcases List.mem_append.mp hc with hc | hc
    · split at hc
      · exact harray c hc
      · exact absurd hc List.not_mem_nil
    · exact hstem c hc
  rcases hname with hname | hname
  · have hnone := Alternative.brackets?_of_noBracket hlead
    rw [← hname, ← toList_fullName] at hnone
    rw [Alternative.ofPiece, hnone, String.ofList_toList]
  · have hlist : t.fullName.toList =
        ((if t.isArray then TypeText.arrayLead else []) ++ stem) ++ '[' :: ([] ++ [']']) := by
      rw [toList_fullName, hname, List.append_assoc]
      rfl
    have hempty := Alternative.brackets?_append
      ((if t.isArray then TypeText.arrayLead else []) ++ stem) (List.forall_mem_nil _)
    rw [← hlist] at hempty
    rw [Alternative.ofPiece, hempty, String.ofList_toList]
    rfl

/-- The alternative as text is one piece. -/
theorem IsPlain.ofPiece_plainText (h : t.IsPlain) :
    Alternative.ofPiece t.plainText = ⟨some t.fullName, t.languages⟩ := by
  by_cases hlanguages : t.languages = []
  · rw [plainText, hlanguages, List.isEmpty_nil, if_pos rfl, List.append_nil, h.ofPiece_fullName]
  · have htext : t.plainText = (t.fullName.toList ++ [' ']) ++ t.tags := by
      rw [plainText, if_neg (by simpa using hlanguages), List.append_assoc]
      rfl
    have hblank : AllBlank [' '] := fun c hc => List.mem_singleton.mp hc ▸ by decide
    have htrim : trim (t.fullName.toList ++ [' ']) = t.fullName.toList := by
      rw [trim_append_of_allBlank hblank, h.isTrimmed_fullName.trim_eq]
    have hfilled : t.fullName.toList.isEmpty = false := by
      have hne : t.fullName.toList ≠ [] := fun hnil =>
        h.fullName_ne_empty (String.toList_eq_nil_iff.mp hnil)
      simpa using hne
    rw [htext, h.ofPiece_tags hlanguages, htrim, hfilled, String.ofList_toList]
    rfl

end LanguageType

/-! ### Reading what is written -/

namespace Spells

variable {t : LanguageType} {ts : List LanguageType} {w : Wording} {ws : List Wording}

open TypeSpelling Wording

/-- The texts in front of the first element spell alternatives or are marks. -/
theorem texts_write (h : List.Forall₂ Spells ts ws) :
    ∀ text ∈ (write ws).1, ∃ t ∈ ts, trim text = t.plainText ∨ trim text = t.mark := by
  induction h with
  | nil => exact nofun
  | @cons t w ts ws hw hws ih =>
    cases hw with
    | plain hfront =>
      intro text htext
      rcases List.mem_cons.mp htext with rfl | htext
      · exact ⟨t, List.mem_cons_self, .inl hfront⟩
      · obtain ⟨t', ht', htrim⟩ := ih text htext
        exact ⟨t', List.mem_cons_of_mem _ ht', htrim⟩
    | marked hfront hnode hback =>
      intro text htext
      obtain rfl := List.mem_singleton.mp htext
      exact ⟨t, List.mem_cons_self, .inr hfront⟩

/-- Only elements and texts are written. -/
theorem isComment_nodes (h : List.Forall₂ Spells ts ws) :
    ∀ node ∈ nodes ws, node.isComment = false := by
  have htext : ∀ texts, ∀ node ∈ textNode texts, node.isComment = false := by
    intro texts node hnode
    rw [textNode] at hnode
    split at hnode
    · exact absurd hnode List.not_mem_nil
    · rw [List.mem_singleton.mp hnode]
      rfl
  have hwrite : ∀ node ∈ (write ws).2, node.isComment = false := by
    induction h with
    | nil => exact nofun
    | cons hw hws ih =>
      cases hw with
      | plain hfront => exact ih
      | marked hfront hholds hback =>
        intro node hnode
        rcases List.mem_cons.mp hnode with rfl | hnode
        · cases hholds with
          | link htag _ => cases node <;> first | rfl | cases htag
          | emphasis htag _ _ => cases node <;> first | rfl | cases htag
        · rcases List.mem_append.mp hnode with hnode | hnode
          · exact htext _ node hnode
          · exact ih node hnode
  intro node hnode
  rcases List.mem_cons.mp hnode with rfl | hnode
  · rfl
  · exact hwrite node hnode

end Spells

namespace LanguageType

variable {t : LanguageType}

theorem IsPlain.bar_not_mem_tags (h : t.IsPlain) : '|' ∉ t.tags := by
  by_cases hlanguages : t.languages = []
  · rw [tags, hlanguages]
    exact List.not_mem_nil
  · rw [tags_eq hlanguages, List.mem_cons, List.mem_append, List.mem_singleton]
    rintro (hbar | hbar | hbar)
    · cases hbar
    · exact (h.of_mem_inside hbar).2.2 rfl
    · cases hbar

theorem IsPlain.bar_not_mem_plainText (h : t.IsPlain) : '|' ∉ t.plainText := by
  rw [plainText, List.mem_append, not_or]
  refine ⟨h.bar_not_mem_fullName, ?_⟩
  split
  · exact List.not_mem_nil
  · rw [List.mem_cons, not_or]
    exact ⟨by decide, h.bar_not_mem_tags⟩

theorem bar_not_mem_mark (t : LanguageType) : '|' ∉ t.mark := by
  rw [mark]
  split
  · decide
  · exact List.not_mem_nil

end LanguageType

namespace TypeSpelling

open Wording

variable {t : LanguageType} {ts : List LanguageType} {w : Wording} {ws : List Wording}

namespace State

/-- Reads a text between bars. -/
def readSegment (s : State) (text : List Char) : State :=
  if (trim text).isEmpty then s else s.readAlternative (.ofPiece (trim text))

/-- The state behind an alternative: its languages have taken its name. -/
def take (s : State) (t : LanguageType) : State :=
  { s with
    names := t.languages.foldl (fun m language => NameMap.put language t.fullName m) s.names
    proposed := some t.fullName }

theorem readText_intercalate {texts : List (List Char)} (h : ∀ text ∈ texts, '|' ∉ text)
    (s : State) : s.readText (['|'].intercalate texts) = texts.foldl readSegment s := by
  rw [readText, Alternative.ofText, Alternative.parts_intercalate h, List.foldl_map,
    List.foldl_filter, List.foldl_map]
  congr 1
  funext s text
  rw [readSegment]
  cases (trim text).isEmpty <;> rfl

theorem readText_trim (text : List Char) (s : State) :
    s.readText (trim text) = s.readText text := by
  rw [readText, readText, Alternative.ofText, Alternative.ofText,
    Alternative.parts_trim (by decide)]

theorem commit_of_proposed {s : State} {name : String} (h : s.proposed = some name)
    (hname : name ≠ "") (languages : List String) :
    s.commit languages = { s with
      names := languages.foldl (fun m language => NameMap.put language name m) s.names } := by
  rw [commit, h]
  exact if_neg hname

theorem readSegment_of_trim_eq_nil {text : List Char} (h : trim text = []) (s : State) :
    s.readSegment text = s := by
  rw [readSegment, h]
  rfl

/-- An alternative that stands there as text is taken. -/
theorem readSegment_plainText (ht : t.IsPlain) {text : List Char} (h : trim text = t.plainText)
    {s : State} (hs : s.array = false) : s.readSegment text = s.take t := by
  have hfilled : t.plainText.isEmpty = false := by
    have hne : t.fullName.toList ≠ [] := fun hnil =>
      ht.fullName_ne_empty (String.toList_eq_nil_iff.mp hnil)
    simp [LanguageType.plainText, hne]
  have hname : some t.fullName ≠ some (.ofList TypeText.arrayOf) := fun hsame =>
    ht.fullName_ne_arrayOf (Option.some.inj hsame)
  have hpropose : s.propose t.fullName = { s with proposed := some t.fullName } := by
    rw [propose, hs]
    rfl
  rw [readSegment, h, hfilled, ht.ofPiece_plainText]
  show s.readAlternative ⟨some t.fullName, t.languages⟩ = s.take t
  rw [readAlternative, if_neg hname]
  show (s.propose t.fullName).commit t.languages = s.take t
  rw [hpropose, commit_of_proposed rfl ht.fullName_ne_empty]
  rfl

/-- Behind the text in front of an element the name of the element becomes the full name. -/
theorem propose_readSegment_mark {text : List Char} (h : trim text = t.mark) {s : State}
    (hs : s.array = false) :
    (s.readSegment text).propose t.name = { s with proposed := some t.fullName } := by
  rw [readSegment, h, LanguageType.mark, LanguageType.fullName]
  cases harray : t.isArray with
  | false =>
    show s.propose t.name = { s with proposed := some t.name }
    rw [propose, hs]
    rfl
  | true =>
    have hpiece : Alternative.ofPiece TypeText.arrayOf =
        ⟨some (.ofList TypeText.arrayOf), []⟩ := by decide
    show (s.readAlternative (.ofPiece TypeText.arrayOf)).propose t.name =
      { s with proposed := some (.ofList TypeText.arrayLead ++ t.name) }
    rw [hpiece, readAlternative, if_pos rfl, propose]
    show ({ s with proposed := _, array := false } : State) = _
    rw [← hs]

/-- The languages behind an element take the full name. -/
theorem readSegment_tags (ht : t.IsPlain) {text : List Char} (h : trim text = t.tags) {s : State} :
    ({ s with proposed := some t.fullName } : State).readSegment text = s.take t := by
  by_cases hlanguages : t.languages = []
  · have hnil : trim text = [] := by rw [h, LanguageType.tags, hlanguages]; rfl
    rw [readSegment_of_trim_eq_nil hnil, take, hlanguages]
    rfl
  · have hfilled : t.tags.isEmpty = false := by rw [LanguageType.tags_eq hlanguages]; rfl
    have hpiece : Alternative.ofPiece t.tags = ⟨none, t.languages⟩ :=
      ht.ofPiece_tags hlanguages []
    rw [readSegment, h, hfilled, hpiece]
    show ({ s with proposed := some t.fullName } : State).commit t.languages = s.take t
    rw [commit_of_proposed rfl ht.fullName_ne_empty]
    rfl

/-- Taking alternatives in turn gives the name for each language. -/
theorem names_foldl_take (ts : List LanguageType) (s : State) :
    (ts.foldl take s).names = NameMap.update s.names
      (ts.flatMap fun t => t.languages.map fun language => (language, t.fullName)) := by
  induction ts generalizing s with
  | nil => rfl
  | cons t ts ih =>
    rw [List.foldl_cons, ih, List.flatMap_cons, NameMap.update, NameMap.update, List.foldl_append,
      List.foldl_map]
    rfl

end State

theorem readNodes_of_holds {node : Node} {name : String} (h : Holds name node) (s : State)
    (nodes : List Node) : readNodes s (node :: nodes) = readNodes (s.propose name) nodes := by
  cases h with
  | link htag htarget =>
    cases node with
    | element tag attributes children =>
      obtain rfl : tag = "a" := Option.some.inj htag
      rw [readNodes, if_pos rfl, htarget]
    | text => cases htag
    | comment => cases htag
  | emphasis htag htext hname =>
    cases node with
    | element tag attributes children =>
      obtain rfl := Option.some.inj htag
      have hne : tag ≠ "a" := by
        rintro rfl
        exact absurd htext (by decide)
      rw [readNodes, if_neg hne, if_pos htext, hname]
    | text => cases htag
    | comment => cases htag

/-- A text node is read like the texts between its bars, also if it is blank and skipped. -/
theorem readNodes_textNode {texts : List (List Char)} (h : ∀ text ∈ texts, '|' ∉ text) (s : State)
    (nodes : List Node) :
    readNodes s (textNode texts ++ nodes) = readNodes (texts.foldl State.readSegment s) nodes := by
  rw [← State.readText_intercalate h, textNode]
  split
  · rename_i hempty
    rw [List.isEmpty_iff.mp hempty]
    rfl
  · show readNodes s (.text (.ofList (['|'].intercalate texts)) .plain :: nodes) = _
    rw [readNodes, String.toList_ofList]
    split
    · rename_i hblank
      have hall : AllBlank (['|'].intercalate texts) := fun c hc =>
        List.all_eq_true.mp hblank c hc
      have hnil : trim (['|'].intercalate texts) = [] := by
        rw [trim, trimStart_of_allBlank hall]
        rfl
      rw [← State.readText_trim, hnil]
      rfl
    · rfl

/-- Texts between bars hold no bar themselves. -/
theorem bar_not_mem_write (h : List.Forall₂ Spells ts ws) (hplain : ∀ t ∈ ts, t.IsPlain) :
    ∀ text ∈ (write ws).1, '|' ∉ text := by
  intro text htext hbar
  obtain ⟨t, ht, htrim | htrim⟩ := Spells.texts_write h text htext
  · exact (hplain t ht).bar_not_mem_plainText (htrim ▸ mem_trim_of_mem hbar (by decide))
  · exact t.bar_not_mem_mark (htrim ▸ mem_trim_of_mem hbar (by decide))

/-- Reading a list of alternatives takes them in turn, whatever way each of them is written. -/
theorem readNodes_write (h : List.Forall₂ Spells ts ws) (hplain : ∀ t ∈ ts, t.IsPlain)
    {s : State} (hs : s.array = false) :
    readNodes ((write ws).1.foldl State.readSegment s) (write ws).2 =
      .ok (ts.foldl State.take s) := by
  -- what carries the induction: no array mark is left over between two alternatives
  induction h generalizing s with
  | nil => rfl
  | @cons t w ts ws hw hws ih =>
    have ht : t.IsPlain := hplain t List.mem_cons_self
    have hrest : ∀ t ∈ ts, t.IsPlain := fun t ht => hplain t (List.mem_cons_of_mem _ ht)
    have htake : (s.take t).array = false := hs
    cases hw with
    | @plain text htext =>
      show readNodes ((write ws).1.foldl State.readSegment (s.readSegment text)) (write ws).2 = _
      rw [State.readSegment_plainText ht htext hs]
      exact ih hrest htake
    | @marked front back node hfront hnode hback =>
      have hbars : ∀ text ∈ back :: (write ws).1, '|' ∉ text := by
        intro text htext
        rcases List.mem_cons.mp htext with rfl | htext
        · intro hbar
          exact ht.bar_not_mem_tags (hback ▸ mem_trim_of_mem hbar (by decide))
        · exact bar_not_mem_write hws hrest text htext
      show readNodes (s.readSegment front)
        (node :: (textNode (back :: (write ws).1) ++ (write ws).2)) = _
      rw [readNodes_of_holds hnode, State.propose_readSegment_mark hfront hs,
        readNodes_textNode hbars, List.foldl_cons, State.readSegment_tags ht hback]
      exact ih hrest htake

/-! ### The whole container -/

theorem mem_ofText_intercalate {texts : List (List Char)} (h : ∀ text ∈ texts, '|' ∉ text)
    {a : Alternative} (ha : a ∈ Alternative.ofText (['|'].intercalate texts)) :
    ∃ text ∈ texts, trim text ≠ [] ∧ a = .ofPiece (trim text) := by
  rw [Alternative.ofText, Alternative.parts_intercalate h] at ha
  obtain ⟨piece, hpiece, rfl⟩ := List.mem_map.mp ha
  obtain ⟨hpiece, hfilled⟩ := List.mem_filter.mp hpiece
  obtain ⟨text, htext, rfl⟩ := List.mem_map.mp hpiece
  exact ⟨text, htext, by simpa using hfilled, rfl⟩

/-- A text in front of an element that is not blank reads as the array mark. -/
theorem ofPiece_mark {text : List Char} (h : trim text = t.mark) (hfilled : trim text ≠ []) :
    Alternative.ofPiece (trim text) = ⟨some (.ofList TypeText.arrayOf), []⟩ := by
  rw [h, LanguageType.mark] at hfilled ⊢
  split at hfilled
  · rename_i harray
    rw [if_pos harray]
    decide
  · exact absurd rfl hfilled

/-- Where the first text is no type without languages, it is read with the nodes behind it. -/
theorem parseMarked_nodes (h : List.Forall₂ Spells ts ws) (hplain : ∀ t ∈ ts, t.IsPlain)
    (hfirst : ∀ a ∈ Alternative.ofText (['|'].intercalate (write ws).1), a.languages = [] →
      a.name = some (.ofList TypeText.arrayOf)) :
    parseMarked (nodes ws) = .ok (ts.foldl State.take {}).result? := by
  have hlead : dropLead? typeLead (trimStart (typeLead ++ ['|'].intercalate (write ws).1)) =
      some (['|'].intercalate (write ws).1) := rfl
  have hread : readNodes (({} : State).readText (trim (['|'].intercalate (write ws).1)))
      (write ws).2 = .ok (ts.foldl State.take {}) := by
    rw [State.readText_trim, State.readText_intercalate (bar_not_mem_write h hplain)]
    exact readNodes_write h hplain rfl
  have hfirst' : ∀ a ∈ Alternative.ofText (trim (['|'].intercalate (write ws).1)),
      a.languages = [] → a.name = some (.ofList TypeText.arrayOf) := by
    rw [Alternative.ofText, Alternative.parts_trim (by decide)]
    exact hfirst
  simp only [nodes, parseMarked, String.toList_ofList, hlead, hread]
  split
  · rename_i name hone
    have hmem : (⟨name, []⟩ : Alternative) ∈
        Alternative.ofText (trim (['|'].intercalate (write ws).1)) := by
      rw [hone]
      exact List.mem_singleton_self _
    rw [if_pos (hfirst' _ hmem rfl)]
    rfl
  · rfl

/-- A type that stands there as text and names no language is the whole type. -/
theorem parseMarked_plainText (ht : t.IsPlain) (hlanguages : t.languages = []) {text : List Char}
    (h : trim text = t.plainText) :
    parseMarked (nodes [⟨text, none⟩]) = .ok (some (.everywhere t.fullName)) := by
  have hlead : dropLead? typeLead (trimStart (typeLead ++ text)) = some text := rfl
  have hbar : ∀ s ∈ [text], '|' ∉ s := fun s hs hmem => by
    obtain rfl := List.mem_singleton.mp hs
    exact ht.bar_not_mem_plainText (h ▸ mem_trim_of_mem hmem (by decide))
  have hfilled : t.plainText.isEmpty = false := by
    have hne : t.fullName.toList ≠ [] := fun hnil =>
      ht.fullName_ne_empty (String.toList_eq_nil_iff.mp hnil)
    simp [LanguageType.plainText, hne]
  have hone : Alternative.ofText (trim text) = [⟨some t.fullName, []⟩] := by
    have hparts := Alternative.parts_intercalate hbar
    rw [List.intercalate_singleton, List.map_singleton, h] at hparts
    rw [Alternative.ofText, Alternative.parts_trim (by decide), hparts,
      List.filter_cons_of_pos (by simp [hfilled]), List.filter_nil, List.map_singleton,
      ht.ofPiece_plainText, hlanguages]
  have hname : some t.fullName ≠ some (.ofList TypeText.arrayOf) := fun hsame =>
    ht.fullName_ne_arrayOf (Option.some.inj hsame)
  simp only [nodes, write, List.intercalate_singleton, parseMarked, String.toList_ofList, hlead,
    hone, if_neg hname, Option.map_some]

theorem result?_foldl_take (hts : ts ≠ []) (hlanguages : ∀ t ∈ ts, t.languages ≠ []) :
    (ts.foldl State.take {}).result? = some (.byLanguage (LanguageType.spellings ts)) := by
  have hnames : (ts.foldl State.take {}).names = LanguageType.spellings ts :=
    State.names_foldl_take ts {}
  have hfilled : (LanguageType.spellings ts).isEmpty = false := by
    have hpairs : (ts.flatMap fun t => t.languages.map fun language => (language, t.fullName)) ≠
        [] := by
      intro hnil
      obtain ⟨t, ht⟩ := List.exists_mem_of_ne_nil ts hts
      exact hlanguages t ht (List.map_eq_nil_iff.mp (List.flatMap_eq_nil_iff.mp hnil t ht))
    refine Bool.eq_false_iff.mpr fun hempty => ?_
    exact NameMap.ofPairs_ne_nil hpairs (List.isEmpty_iff.mp hempty)
  rw [State.result?, hnames, hfilled]
  rfl

/-- Reading is the inverse of writing: each language of the list gets the name of the last
alternative that it stands behind, and a single alternative without languages is the whole type. -/
theorem parse_write (hts : ts ≠ []) (hplain : ∀ t ∈ ts, t.IsPlain)
    (h : List.Forall₂ Spells ts ws) (tag : String) (attributes : List (String × String)) :
    ((∀ t ∈ ts, t.languages ≠ []) →
      parse (.element tag attributes (nodes ws)) false =
        .ok (some (.byLanguage (LanguageType.spellings ts)))) ∧
    ∀ t, ts = [t] → t.languages = [] →
      parse (.element tag attributes (nodes ws)) false = .ok (some (.everywhere t.fullName)) := by
  have hparse : parse (.element tag attributes (nodes ws)) false = parseMarked (nodes ws) := by
    have hkeep : (nodes ws).filter (fun node => !node.isComment) = nodes ws :=
      List.filter_eq_self.mpr fun node hnode => by rw [Spells.isComment_nodes h node hnode]; rfl
    show parseMarked ((nodes ws).filter fun node => !node.isComment) = _
    rw [hkeep]
  rw [hparse]
  refine ⟨fun hlanguages => ?_, ?_⟩
  -- the first text ends the reading only if it is one name without languages; here its
  -- alternatives have languages, or are the array mark in front of an element
  · rw [parseMarked_nodes h hplain, result?_foldl_take hts hlanguages]
    intro a ha hnone
    obtain ⟨text, htext, hfilled, rfl⟩ := mem_ofText_intercalate (bar_not_mem_write h hplain) ha
    obtain ⟨t, ht, htrim | htrim⟩ := Spells.texts_write h text htext
    · rw [htrim, (hplain t ht).ofPiece_plainText] at hnone
      exact absurd hnone (hlanguages t ht)
    · rw [ofPiece_mark htrim hfilled]
  · rintro t rfl hlanguages
    have ht : t.IsPlain := hplain t List.mem_cons_self
    have hbars := bar_not_mem_write h hplain
    cases h with
    | cons hw hws =>
      cases hws
      cases hw with
      | plain htext => exact parseMarked_plainText ht hlanguages htext
      | marked hfront hnode hback =>
        rw [parseMarked_nodes (.cons (.marked hfront hnode hback) .nil) hplain, List.foldl_cons,
          List.foldl_nil, State.result?, State.take, hlanguages]
        · rfl
        · intro a ha _
          obtain ⟨text, htext, hfilled, rfl⟩ := mem_ofText_intercalate hbars ha
          obtain rfl := List.mem_singleton.mp htext
          rw [ofPiece_mark hfront hfilled]

/-- A name as text and an array of an emphasised name, with languages behind both; and an array of
an emphasised name without languages. -/
theorem parse_write_mixed :
    let number : LanguageType := ⟨false, "Number", ["JavaScript"]⟩
    let bytes : LanguageType := ⟨true, "Byte", ["C++", ".NET"]⟩
    let bold : Node := .element "b" [] [.text "Byte" .plain]
    parse (.element "p" [] [.text "Type: Number [JavaScript] | array of " .plain, bold,
        .text " [C++/.NET]" .plain]) false =
      .ok (some (.byLanguage (LanguageType.spellings [number, bytes]))) ∧
    parse (.element "p" [] [.text "Type: array of " .plain, bold]) false =
      .ok (some (.everywhere "array of Byte")) := by
  intro number bytes bold
  have hbold : Holds "Byte" bold := .emphasis rfl (by decide) (by decide)
  have htag : ∀ language ∈ ["JavaScript", "C++", ".NET"], LanguageType.IsTag language := by
    have hfilled : ∀ language ∈ ["JavaScript", "C++", ".NET"],
        language ≠ "" ∧ trim language.toList = language.toList := by decide
    have hmarks : ∀ language ∈ ["JavaScript", "C++", ".NET"],
        ∀ c ∈ language.toList, c ≠ '[' ∧ c ≠ ']' ∧ c ≠ '/' ∧ c ≠ '|' := by simp
    intro language hlanguage
    obtain ⟨hne, htrim⟩ := hfilled language hlanguage
    exact ⟨hne, htrim, hmarks language hlanguage⟩
  have hname : ∀ name ∈ ["Number", "Byte"], name ≠ "" ∧ trim name.toList = name.toList ∧
      name ≠ "array of" ∧ '|' ∉ name.toList := by decide
  have hbrackets : ∀ name ∈ ["Number", "Byte"], ∀ c ∈ name.toList, c ≠ '[' ∧ c ≠ ']' := by simp
  have hplain : ∀ isArray, ∀ name ∈ ["Number", "Byte"],
      ∀ languages ⊆ ["JavaScript", "C++", ".NET"],
      LanguageType.IsPlain ⟨isArray, name, languages⟩ := by
    intro isArray name hmem languages hlanguages
    obtain ⟨hfilled, htrimmed, hmark, hbar⟩ := hname name hmem
    exact ⟨hfilled, htrimmed, hmark, hbar, ⟨name.toList, hbrackets name hmem, .inl rfl⟩,
      fun language h => htag language (hlanguages h)⟩
  constructor
  · have hnumber : Spells number ⟨" Number [JavaScript] ".toList, none⟩ := .plain (by decide)
    have hbytes : Spells bytes ⟨" array of ".toList, some (bold, " [C++/.NET]".toList)⟩ :=
      .marked (by decide) hbold (by decide)
    have hboth : ∀ t ∈ [number, bytes], t.IsPlain := by
      simp only [List.forall_mem_cons]
      exact ⟨hplain _ _ (by decide) _ (by decide), hplain _ _ (by decide) _ (by decide), nofun⟩
    exact (parse_write (List.cons_ne_nil _ _) hboth (.cons hnumber (.cons hbytes .nil)) "p" []).1
      (by decide)
  · have hbare : Spells ⟨true, "Byte", []⟩ ⟨" array of ".toList, some (bold, [])⟩ :=
      .marked (by decide) hbold (by decide)
    have hone : ∀ t ∈ [(⟨true, "Byte", []⟩ : LanguageType)], t.IsPlain := by
      simp only [List.forall_mem_cons]
      exact ⟨hplain _ _ (by decide) _ (by decide), nofun⟩
    exact (parse_write (List.cons_ne_nil _ _) hone (.cons hbare .nil) "p" []).2 _ rfl rfl

end TypeSpelling

end ScriptTypings
