import Mathlib.Data.List.Nodup
import ScriptTypings.Proofs.Declarations.Listeners
import ScriptTypings.Proofs.Json.Scanning
import ScriptTypings.Proofs.Text.Search

/-!
# Lines that a class has twice

A line of a class declares one member, on one side of the class; this holds of quoted names too
(`Declares.unique`). So the lines of different members differ, and those of one member differ as no
overload is written twice. `nodup_classBody_iff` says what is left: a member under the name of the
constructor, and events that have both their name and their handler in common.
-/

namespace ScriptTypings.Declarations

open Text

/-! ### Declared members -/

/-- A line declares the member of a name, behind some words. -/
def Declares (lead name line : String) : Prop :=
  ∃ tail, line = lead ++ memberName name ++ tail ∧ Opens tail

theorem plain_or_quoted (name : String) :
    isPlainName name.toList = true ∧ memberName name = name ∨
      (memberName name).toList = '"' :: (name.toList.flatMap Json.escapeCharAscii ++ ['"']) := by
  rw [memberName]
  split
  · rename_i hplain
    exact .inl ⟨hplain, rfl⟩
  · exact .inr (by rw [Json.quoteAscii, String.toList_ofList])

/-- No plain name begins with a quote. -/
theorem ne_quote_of_isPlainName {name rest rest' : List Char} (h : isPlainName name = true) :
    name ++ rest ≠ '"' :: rest' := by
  cases name with
  | nil => cases h
  | cons c name =>
    rintro heq
    obtain ⟨rfl, -⟩ := List.cons.inj heq
    rw [isPlainName] at h
    have hquote : beginsIdentifier '"' = false := by decide
    rw [hquote, Bool.false_and] at h
    cases h

/-- What follows a key: the parameters of a function, a type, or the comma behind a value. -/
def EndsKey (tail : String) : Prop :=
  ∃ c rest, tail.toList = c :: rest ∧ c ∈ ['(', ':', ',']

theorem Opens.endsKey {tail : String} (h : Opens tail) : EndsKey tail := by
  obtain ⟨c, rest, htail, hc⟩ := h
  refine ⟨c, rest, htail, ?_⟩
  simp only [endsName, Bool.or_eq_true, decide_eq_true_eq] at hc
  rcases hc with rfl | rfl <;> decide

/-- The characters of plain names. -/
def standsInName (c : Char) : Bool :=
  beginsIdentifier c || continuesIdentifier c || c = '\n'

theorem standsInName_of_mem {name : List Char} (h : isPlainName name = true) :
    ∀ c ∈ name, standsInName c = true := by
  intro c hc
  rw [standsInName, Bool.or_eq_true, Bool.or_eq_true, decide_eq_true_eq, or_assoc]
  exact of_mem_isPlainName h hc

theorem EndsKey.head? {tail : String} (h : EndsKey tail) :
    ∀ c ∈ tail.toList.head?, standsInName c = false := by
  have hnone : ['(', ':', ','].any standsInName = false := by decide
  obtain ⟨c, rest, htail, hc⟩ := h
  rw [htail]
  exact fun d hd => Option.some.inj hd ▸ Bool.eq_false_iff.mpr (List.any_eq_false.mp hnone c hc)

/-- A key can be read off the line that it stands in, quoted or not. -/
theorem eq_of_memberName_append {name name' tail tail' : String} (htail : EndsKey tail)
    (htail' : EndsKey tail') (h : memberName name ++ tail = memberName name' ++ tail') :
    name = name' := by
  have hchars := congrArg String.toList h
  rw [String.toList_append, String.toList_append] at hchars
  rcases plain_or_quoted name with ⟨hplain, hname⟩ | hquoted
  · rcases plain_or_quoted name' with ⟨hplain', hname'⟩ | hquoted'
    · rw [hname, hname'] at hchars
      exact String.toList_injective (append_inj_of_head? hchars (standsInName_of_mem hplain)
        htail.head? (standsInName_of_mem hplain') htail'.head?).1
    · rw [hname, hquoted'] at hchars
      exact absurd hchars (ne_quote_of_isPlainName hplain)
  · rcases plain_or_quoted name' with ⟨hplain', hname'⟩ | hquoted'
    · rw [hname', hquoted] at hchars
      exact absurd hchars.symm (ne_quote_of_isPlainName hplain')
    · rw [hquoted, hquoted', List.cons_append, List.cons_append, List.append_assoc,
        List.append_assoc] at hchars
      have hread := congrArg (fun s => Json.readText s none []) (List.cons.inj hchars).2
      simp only [List.singleton_append, Json.readText_quoteAscii, List.reverse_nil,
        List.nil_append, Option.some.injEq, Prod.mk.injEq] at hread
      exact Json.CodePoint.ofString_injective hread.1

/-- No member's name begins with the word in front of those of the class's own object. -/
theorem memberName_append_ne_static (name : String) {tail rest : String} (htail : EndsKey tail) :
    memberName name ++ tail ≠ "static " ++ rest := by
  intro h
  have hchars := congrArg String.toList h
  rw [String.toList_append, String.toList_append] at hchars
  rcases plain_or_quoted name with ⟨hplain, hname⟩ | hquoted
  · have hword : isPlainName "static".toList = true := by decide
    have hblank : ∀ c ∈ (' ' :: rest.toList).head?, standsInName c = false :=
      fun c hc => Option.some.inj hc ▸ by decide
    have hsplit : "static ".toList ++ rest.toList = "static".toList ++ ' ' :: rest.toList := rfl
    rw [hname, hsplit] at hchars
    obtain ⟨-, hrest⟩ := append_inj_of_head? hchars (standsInName_of_mem hplain) htail.head?
      (standsInName_of_mem hword) hblank
    obtain ⟨c, more, hmore, hc⟩ := htail
    rw [hmore] at hrest
    exact absurd ((List.cons.inj hrest).1 ▸ hc) (by decide)
  · rw [hquoted] at hchars
    exact absurd (List.cons.inj hchars).1 (by decide)

/-- The key of a member stands at the front of a line, behind the words of its side. -/
structure HasKey (lead name line : String) : Prop where
  mem_memberLeads : lead ∈ memberLeads
  exists_eq : ∃ tail, line = lead ++ memberName name ++ tail ∧ EndsKey tail

/-- A line has one key, on one side. -/
theorem HasKey.unique {lead lead' name name' line : String} (h : HasKey lead name line)
    (h' : HasKey lead' name' line) : lead = lead' ∧ name = name' := by
  obtain ⟨hlead, tail, rfl, htail⟩ := h
  obtain ⟨hlead', tail', heq, htail'⟩ := h'
  rw [String.append_assoc, String.append_assoc] at heq
  rw [memberLeads, List.mem_cons, List.mem_singleton] at hlead hlead'
  rcases hlead with rfl | rfl
  · rcases hlead' with rfl | rfl
    · exact ⟨rfl, eq_of_memberName_append htail htail' (String.append_right_inj _ |>.mp heq)⟩
    · rw [String.empty_append] at heq
      exact absurd heq.symm (memberName_append_ne_static name' htail')
  · rw [String.empty_append] at heq
    rcases hlead' with rfl | rfl
    · exact absurd heq (memberName_append_ne_static name htail)
    · rw [String.empty_append] at heq
      exact ⟨rfl, eq_of_memberName_append htail htail' heq⟩

theorem Declares.hasKey {lead name line : String} (hlead : lead ∈ memberLeads)
    (h : Declares lead name line) : HasKey lead name line := by
  obtain ⟨tail, hline, htail⟩ := h
  exact ⟨hlead, tail, hline, htail.endsKey⟩

/-- A line declares one member, on one side. -/
theorem Declares.unique {lead lead' name name' line : String} (hlead : lead ∈ memberLeads)
    (hlead' : lead' ∈ memberLeads) (h : Declares lead name line)
    (h' : Declares lead' name' line) : lead = lead' ∧ name = name' :=
  (h.hasKey hlead).unique (h'.hasKey hlead')

/-! ### Lines outside of comments -/

theorem isCommentLine_iff (line : String) :
    IsCommentLine line ↔ ['/'] <+: line.toList ∨ [' ', '*'] <+: line.toList := by
  constructor
  · rintro ⟨rest, hline | hline⟩
    · exact .inl ⟨rest, hline.symm⟩
    · exact .inr ⟨rest, hline.symm⟩
  · rintro (⟨rest, hline⟩ | ⟨rest, hline⟩)
    · exact ⟨rest, .inl hline.symm⟩
    · exact ⟨rest, .inr hline.symm⟩

instance (line : String) : Decidable (IsCommentLine line) :=
  decidable_of_iff' _ (isCommentLine_iff line)

/-- The lines that belong to no comment. -/
def declaringLines (lines : List String) : List String :=
  lines.filter fun line => ¬IsCommentLine line

theorem declaringLines_append (lines lines' : List String) :
    declaringLines (lines ++ lines') = declaringLines lines ++ declaringLines lines' :=
  List.filter_append ..

theorem declaringLines_flatMap {α : Type} (xs : List α) (f : α → List String) :
    declaringLines (xs.flatMap f) = xs.flatMap fun x => declaringLines (f x) :=
  List.filter_flatMap ..

theorem declaringLines_of_isCommentLine {lines : List String}
    (h : ∀ line ∈ lines, IsCommentLine line) : declaringLines lines = [] := by
  refine List.filter_eq_nil_iff.mpr fun line hline => ?_
  rw [decide_eq_true_eq, not_not]
  exact h line hline

theorem Declares.not_isCommentLine {lead name line : String} (hlead : lead ∈ memberLeads)
    (h : Declares lead name line) : ¬IsCommentLine line := by
  obtain ⟨tail, rfl, htail⟩ := h
  rw [memberLeads, List.mem_cons, List.mem_singleton] at hlead
  rintro ⟨rest, hline⟩
  rw [String.append_assoc, String.toList_append, String.toList_append] at hline
  rcases hlead with rfl | rfl
  · rcases hline with hline | hline
    · exact absurd (List.cons.inj hline).1 (by decide)
    · exact absurd (List.cons.inj hline).1 (by decide)
  · have hstart : ∀ c ∈ ['/', ' '], ∀ rest,
        (memberName name).toList ++ tail.toList ≠ c :: rest := by
      intro c hc rest heq
      have hother : (['/', ' '].all fun c => c ≠ '"' && !beginsIdentifier c) = true := by decide
      have hneither := List.all_eq_true.mp hother c hc
      rw [Bool.and_eq_true, decide_eq_true_eq, Bool.not_eq_true'] at hneither
      rcases plain_or_quoted name with ⟨hplain, hname⟩ | hquoted
      · rw [hname] at heq
        cases hchars : name.toList with
        | nil =>
          rw [hchars] at hplain
          cases hplain
        | cons first name =>
          rw [hchars] at heq hplain
          obtain ⟨rfl, -⟩ := List.cons.inj heq
          rw [isPlainName, hneither.2, Bool.false_and] at hplain
          cases hplain
      · rw [hquoted] at heq
        exact hneither.1 (List.cons.inj heq).1.symm
    rcases hline with hline | hline
    · exact hstart '/' (by decide) _ hline
    · exact hstart ' ' (by decide) _ hline

/-- Every line declares a member of one of the given names, behind some words. -/
def DeclareOnly (lead : String) (names lines : List String) : Prop :=
  ∀ line ∈ lines, ∃ name ∈ names, Declares lead name line

namespace DeclareOnly

variable {lead lead' : String} {names names' lines lines' : List String}

theorem mono (h : DeclareOnly lead names lines) (hnames : names ⊆ names') :
    DeclareOnly lead names' lines := by
  intro line hline
  obtain ⟨name, hname, hdeclares⟩ := h line hline
  exact ⟨name, hnames hname, hdeclares⟩

theorem append (h : DeclareOnly lead names lines) (h' : DeclareOnly lead names' lines') :
    DeclareOnly lead (names ++ names') (lines ++ lines') := by
  intro line hline
  rcases List.mem_append.mp hline with hline | hline
  · exact h.mono (List.subset_append_left ..) line hline
  · exact h'.mono (List.subset_append_right ..) line hline

/-- Lines on different sides, or of different members, differ. -/
theorem disjoint (h : DeclareOnly lead names lines) (h' : DeclareOnly lead' names' lines')
    (hlead : lead ∈ memberLeads) (hlead' : lead' ∈ memberLeads)
    (hapart : lead = lead' → names.Disjoint names') : lines.Disjoint lines' := by
  intro line hline hline'
  obtain ⟨name, hname, hdeclares⟩ := h line hline
  obtain ⟨name', hname', hdeclares'⟩ := h' line hline'
  obtain ⟨hside, rfl⟩ := hdeclares.unique hlead hlead' hdeclares'
  exact hapart hside hname hname'

end DeclareOnly

/-! ### Lines of one member -/

variable (table : ArityTable) (lead : String)

theorem declareOnly_of_isMemberLine {lead name : String} {lines : List String}
    (h : ∀ line ∈ lines, IsMemberLine lead (memberName name) line) :
    DeclareOnly lead [name] (declaringLines lines) := by
  intro line hline
  rw [declaringLines, List.mem_filter, decide_eq_true_eq] at hline
  exact ⟨name, List.mem_singleton_self _, (h line hline.1).resolve_left hline.2⟩

theorem declareOnly_classMemberLines (name : String) (node : Surface) :
    DeclareOnly lead [name] (declaringLines (classMemberLines table lead name node)) :=
  declareOnly_of_isMemberLine fun _ => isMemberLine_classMemberLines

/-- No overload is written twice. -/
theorem nodup_signatureLines (name : String) (signatures : List Signature) :
    (declaringLines (signatureLines table lead name signatures)).Nodup := by
  by_cases hnone : signatures = []
  · subst hnone
    exact (List.nodup_singleton _).filter _
  · have hdeclaring : ∀ signature, declaringLines (commentedLine table lead name signature) =
        declaringLines [signatureLine table lead name signature] := by
      intro signature
      rw [commentedLine, declaringLines_append,
        declaringLines_of_isCommentLine fun _ => isCommentLine_signatureComment, List.nil_append]
    rw [signatureLines_eq_flatMap table lead name hnone, declaringLines_flatMap]
    simp only [hdeclaring]
    rw [← declaringLines_flatMap, ← List.map_eq_flatMap, map_firstsBy]
    exact (nodup_eraseDups _).filter _

theorem nodup_typedLine (name : String) (description type : Json) :
    (declaringLines (typedLine table lead name description type)).Nodup := by
  rw [typedLine, declaringLines_append,
    declaringLines_of_isCommentLine fun _ => isCommentLine_docComment, List.nil_append]
  exact (List.nodup_singleton _).filter _

theorem nodup_classMemberLines (name : String) (node : Surface) :
    (declaringLines (classMemberLines table lead name node)).Nodup := by
  rcases classMemberLines_cases table lead name node with
    ⟨signatures, heq⟩ | ⟨description, type, heq⟩ | ⟨type, heq⟩ <;> rw [heq]
  · exact nodup_signatureLines ..
  · exact nodup_typedLine ..
  · exact (List.nodup_singleton _).filter _

/-- Every member of a class has a line that declares it. -/
theorem exists_declares_classMemberLines (name : String) (node : Surface) :
    ∃ line ∈ classMemberLines table lead name node, Declares lead name line := by
  rcases classMemberLines_cases table lead name node with
    ⟨signatures, heq⟩ | ⟨description, type, heq⟩ | ⟨type, heq⟩ <;> rw [heq]
  · exact exists_mem_signatureLines ..
  · exact exists_mem_typedLine ..
  · exact ⟨_, List.mem_singleton_self _, ": " ++ type, rfl, opens_colon type⟩

/-- A function has a line outside of comments. -/
theorem declaringLines_signatureLines_ne_nil {lead : String} (hlead : lead ∈ memberLeads)
    (name : String) (signatures : List Signature) :
    declaringLines (signatureLines table lead (memberName name) signatures) ≠ [] := by
  obtain ⟨line, hline, hdeclares⟩ :
      ∃ line ∈ signatureLines table lead (memberName name) signatures, Declares lead name line :=
    exists_mem_signatureLines ..
  exact List.ne_nil_of_mem (List.mem_filter.mpr
    ⟨hline, decide_eq_true (hdeclares.not_isCommentLine hlead)⟩)

/-! ### Lines of members -/

theorem declareOnly_flatMap_classMemberLines (members : List (String × Surface)) :
    DeclareOnly lead (members.map Prod.fst)
      (declaringLines (members.flatMap fun m => classMemberLines table lead m.1 m.2)) := by
  intro line hline
  rw [declaringLines_flatMap] at hline
  obtain ⟨m, hm, hline⟩ := List.mem_flatMap.mp hline
  have hname : [m.1] ⊆ members.map Prod.fst :=
    List.cons_subset.mpr ⟨List.mem_map_of_mem hm, List.nil_subset _⟩
  exact (declareOnly_classMemberLines table lead m.1 m.2).mono hname line hline

theorem nodup_flatMap_classMemberLines {lead : String} (hlead : lead ∈ memberLeads)
    {members : List (String × Surface)} (hnames : (members.map Prod.fst).Nodup) :
    (declaringLines (members.flatMap fun m => classMemberLines table lead m.1 m.2)).Nodup := by
  rw [declaringLines_flatMap, List.nodup_flatMap]
  refine ⟨fun m _ => nodup_classMemberLines table lead m.1 m.2,
    (List.pairwise_map.mp hnames).imp fun {m m'} hne => ?_⟩
  exact (declareOnly_classMemberLines table lead m.1 m.2).disjoint
    (declareOnly_classMemberLines table lead m'.1 m'.2) hlead hlead
    fun _ => List.disjoint_singleton.mpr fun hmem => hne (List.mem_singleton.mp hmem).symm

/-! ### Lines for events -/

/-- What the listener functions of an event say of it: its name and its handler. -/
def listenerText (event : String × Json) : String :=
  "\x22" ++ eventName event.1 ++ "\x22" ++ ", listener: " ++ typeName table event.2.asText

/-- What the listener functions for all other events say. -/
def otherListenerText : String :=
  "string" ++ ", listener: " ++ "Windows.Foundation.EventHandler<any>"

/-- The line of a listener function with what it says of its event. -/
def overloadFor (lead function text : String) : String :=
  lead ++ function ++ "(type: " ++ text ++ "): void;"

/-- The pair of lines for what listener functions say of an event. -/
def overloadsFor (lead text : String) : List String :=
  listenerNames.map fun function => overloadFor lead function text

theorem listenerPairs_eq (events : List (String × Json)) :
    listenerPairs table lead events =
      (events.map (listenerText table) ++ [otherListenerText]).flatMap (overloadsFor lead) := by
  rw [listenerPairs, List.flatMap_append, List.flatMap_map, List.flatMap_singleton]
  simp only [listenerLine, overloadsFor, overloadFor, listenerText, otherListenerText,
    String.append_assoc]

theorem declares_overloadFor {function : String} (hfunction : function ∈ listenerNames)
    (text : String) : Declares lead function (overloadFor lead function text) := by
  have hplain : ∀ function ∈ listenerNames, memberName function = function := by decide
  refine ⟨"(" ++ ("type: " ++ (text ++ "): void;")), ?_, opens_parenthesis _⟩
  rw [hplain function hfunction]
  simp only [overloadFor, String.append_assoc]
  rfl

theorem overloadFor_injective {lead function function' text text' : String}
    (hlead : lead ∈ memberLeads) (hfunction : function ∈ listenerNames)
    (hfunction' : function' ∈ listenerNames)
    (h : overloadFor lead function text = overloadFor lead function' text') :
    function = function' ∧ text = text' := by
  have hdeclares := declares_overloadFor lead hfunction text
  rw [h] at hdeclares
  obtain ⟨-, rfl⟩ := hdeclares.unique hlead hlead (declares_overloadFor lead hfunction' text')
  rw [overloadFor, overloadFor, String.append_left_inj, String.append_right_inj] at h
  exact ⟨rfl, h⟩

theorem nodup_overloadsFor {lead : String} (hlead : lead ∈ memberLeads) (text : String) :
    (overloadsFor lead text).Nodup := by
  have hnames : listenerNames.Nodup := by decide
  refine hnames.map_on fun function hfunction function' hfunction' heq => ?_
  exact (overloadFor_injective hlead hfunction hfunction' heq).1

theorem disjoint_overloadsFor_iff {lead : String} (hlead : lead ∈ memberLeads)
    (text text' : String) :
    (overloadsFor lead text).Disjoint (overloadsFor lead text') ↔ text ≠ text' := by
  constructor
  · rintro h rfl
    exact h (List.mem_map_of_mem List.mem_cons_self) (List.mem_map_of_mem List.mem_cons_self)
  · intro hne line hline hline'
    obtain ⟨function, hfunction, rfl⟩ := List.mem_map.mp hline
    obtain ⟨function', hfunction', heq⟩ := List.mem_map.mp hline'
    exact hne (overloadFor_injective hlead hfunction' hfunction heq).2.symm

/-- Some line is written twice just if some text is given twice. -/
theorem nodup_flatMap_overloadsFor_iff {lead : String} (hlead : lead ∈ memberLeads)
    (texts : List String) : (texts.flatMap (overloadsFor lead)).Nodup ↔ texts.Nodup := by
  rw [List.nodup_flatMap, and_iff_right fun text _ => nodup_overloadsFor hlead text]
  exact List.Pairwise.iff fun text text' => disjoint_overloadsFor_iff hlead text text'

/-- No event is written as all others are. -/
theorem otherListenerText_not_mem (events : List (String × Json)) :
    otherListenerText ∉ events.map (listenerText table) := by
  intro hmem
  obtain ⟨event, -, heq⟩ := List.mem_map.mp hmem
  have hchars := congrArg String.toList heq
  simp only [listenerText, String.toList_append] at hchars
  exact absurd (List.cons.inj hchars).1 (by decide)

theorem nodup_listenerPairs_iff {lead : String} (hlead : lead ∈ memberLeads)
    (events : List (String × Json)) :
    (listenerPairs table lead events).Nodup ↔ (events.map (listenerText table)).Nodup := by
  rw [listenerPairs_eq, nodup_flatMap_overloadsFor_iff hlead, List.nodup_append_comm,
    List.singleton_append, List.nodup_cons, and_iff_right (otherListenerText_not_mem table events)]

theorem declareOnly_listenerPairs (events : List (String × Json)) :
    DeclareOnly lead listenerNames (listenerPairs table lead events) := by
  intro line hline
  rw [listenerPairs_eq] at hline
  obtain ⟨text, -, hline⟩ := List.mem_flatMap.mp hline
  obtain ⟨function, hfunction, rfl⟩ := List.mem_map.mp hline
  exact ⟨function, hfunction, declares_overloadFor lead hfunction text⟩

theorem declaringLines_listenerPairs {lead : String} (hlead : lead ∈ memberLeads)
    (events : List (String × Json)) :
    declaringLines (listenerPairs table lead events) = listenerPairs table lead events := by
  refine List.filter_eq_self.mpr fun line hline => decide_eq_true ?_
  obtain ⟨function, -, hdeclares⟩ := declareOnly_listenerPairs table lead events line hline
  exact hdeclares.not_isCommentLine hlead

/-! ### Lines of a class -/

/-- The lines on one side of a class: those of the members that are declared there, and the ones for
the events among all members. -/
def sideLines (declared all : List (String × Surface)) (dispatches : Bool) : List String :=
  (declared.flatMap fun m => classMemberLines table lead m.1 m.2) ++
    if dispatches then listenerLines table lead all else []

theorem declaringLines_listeners {lead : String} (hlead : lead ∈ memberLeads)
    (all : List (String × Surface)) (dispatches : Bool) :
    declaringLines (if dispatches then listenerLines table lead all else []) =
      if dispatches then listenerPairs table lead (all.filterMap handler?) else [] := by
  cases dispatches with
  | false => rfl
  | true =>
    rw [if_pos rfl, if_pos rfl, listenerLines_eq, declaringLines_listenerPairs table hlead]

theorem declareOnly_listeners (all : List (String × Surface)) (dispatches : Bool) :
    DeclareOnly lead (if dispatches then listenerNames else [])
      (if dispatches then listenerPairs table lead (all.filterMap handler?) else []) := by
  cases dispatches with
  | false => exact nofun
  | true =>
    rw [if_pos rfl, if_pos rfl]
    exact declareOnly_listenerPairs table lead _

theorem mem_listenerNames_of_mem_ite {dispatches : Bool} {name : String}
    (h : name ∈ if dispatches then listenerNames else []) : name ∈ listenerNames := by
  cases dispatches with
  | false => cases h
  | true => exact h

theorem declareOnly_sideLines {lead : String} (hlead : lead ∈ memberLeads)
    (declared all : List (String × Surface)) (dispatches : Bool) :
    DeclareOnly lead (declared.map Prod.fst ++ if dispatches then listenerNames else [])
      (declaringLines (sideLines table lead declared all dispatches)) := by
  rw [sideLines, declaringLines_append, declaringLines_listeners table hlead]
  exact (declareOnly_flatMap_classMemberLines table lead declared).append
    (declareOnly_listeners table lead all dispatches)

/-- On one side, only lines for events can be equal, if no listener function is declared beside
them. -/
theorem nodup_sideLines_iff {lead : String} (hlead : lead ∈ memberLeads)
    {declared : List (String × Surface)} (all : List (String × Surface)) {dispatches : Bool}
    (hnames : (declared.map Prod.fst).Nodup)
    (hkept : dispatches = true → ∀ m ∈ declared, m.1 ∉ listenerNames) :
    (declaringLines (sideLines table lead declared all dispatches)).Nodup ↔
      (dispatches = true → ((all.filterMap handler?).map (listenerText table)).Nodup) := by
  have hapart : (declared.map Prod.fst).Disjoint (if dispatches then listenerNames else []) := by
    cases dispatches with
    | false => exact List.disjoint_nil_right _
    | true =>
      intro name hname hlistener
      obtain ⟨m, hm, rfl⟩ := List.mem_map.mp hname
      exact hkept rfl m hm hlistener
  have hdisjoint := (declareOnly_flatMap_classMemberLines table lead declared).disjoint
    (declareOnly_listeners table lead all dispatches) hlead hlead fun _ => hapart
  rw [sideLines, declaringLines_append, declaringLines_listeners table hlead, List.nodup_append',
    and_iff_right (nodup_flatMap_classMemberLines table hlead hnames), and_iff_left hdisjoint]
  cases dispatches with
  | false => simp
  | true => rw [if_pos rfl, nodup_listenerPairs_iff table hlead, forall_prop_of_true rfl]

/-- The lines of the constructor, if there is one. -/
def constructorLines (header : ClassHeader) : List String :=
  (header.constructor.map (signatureLines table "" "constructor")).getD []

/-- The lines in place of a reflected index function, if the class is a vector. -/
def vectorLines (header : ClassHeader) : List String :=
  ((classElement? table header).map indexLines).getD []

/-- The instance members that have lines of their own. -/
def declaredInstances (header : ClassHeader) (prototype : List (String × Surface)) :
    List (String × Surface) :=
  prototype.filter fun m => !((classElement? table header).isSome && m.1 = "indexOf")

/-- The body of a class: its constructor, its own side, the lines of a vector, and the side of its
instances. -/
theorem classBody_eq (header : ClassHeader) (statics prototype : List (String × Surface)) :
    classBody table header statics prototype =
      constructorLines table header ++
        (sideLines table "static " (statics.filter fun m => !m.2.isNested) statics
            header.dispatchesStaticEvents ++
          (vectorLines table header ++
            sideLines table "" (declaredInstances table header prototype) prototype
              header.dispatchesEvents)) := by
  rw [constructorLines]
  cases hconstructor : header.constructor with
  | none =>
    simp only [classBody, hconstructor, sideLines, vectorLines, declaredInstances,
      List.append_assoc]
    rfl
  | some signatures =>
    simp only [classBody, hconstructor, sideLines, vectorLines, declaredInstances,
      List.append_assoc]
    rfl

theorem classBody_perm (header : ClassHeader) (statics prototype : List (String × Surface)) :
    (classBody table header statics prototype).Perm
      (sideLines table "static " (statics.filter fun m => !m.2.isNested) statics
          header.dispatchesStaticEvents ++
        (vectorLines table header ++
          (sideLines table "" (declaredInstances table header prototype) prototype
              header.dispatchesEvents ++
            constructorLines table header))) := by
  rw [classBody_eq]
  refine List.perm_append_comm.trans ?_
  simp only [List.append_assoc]
  exact .refl _

theorem declareOnly_vectorLines (header : ClassHeader) :
    DeclareOnly "" (if (classElement? table header).isSome then ["indexOf"] else [])
      (declaringLines (vectorLines table header)) := by
  have hplain : memberName "indexOf" = "indexOf" := by decide
  rw [vectorLines]
  cases classElement? table header with
  | none => exact nofun
  | some element =>
    refine declareOnly_of_isMemberLine fun line hline => .inr ?_
    rw [hplain]
    exact exists_opens_indexLines hline

theorem nodup_vectorLines (header : ClassHeader) :
    (declaringLines (vectorLines table header)).Nodup := by
  rw [vectorLines]
  cases classElement? table header with
  | none => exact List.nodup_nil
  | some element =>
    refine List.Nodup.filter _ (List.nodup_cons.mpr ⟨fun hmem => ?_, List.nodup_singleton _⟩)
    -- the first parameters have other names
    have hchars := congrArg (fun line => (line.toList.drop 8).head?) (List.mem_singleton.mp hmem)
    simp only [String.toList_append, List.append_assoc] at hchars
    have hfirst : some 'v' = some 's' := hchars
    exact absurd hfirst (by decide)

theorem memberName_constructor : memberName "constructor" = "constructor" := by
  decide

theorem declareOnly_constructorLines (header : ClassHeader) :
    DeclareOnly "" ["constructor"] (declaringLines (constructorLines table header)) := by
  rw [constructorLines]
  cases header.constructor with
  | none => exact nofun
  | some signatures =>
    refine declareOnly_of_isMemberLine fun line hline => ?_
    rw [memberName_constructor]
    exact isMemberLine_signatureLines hline

theorem nodup_constructorLines (header : ClassHeader) :
    (declaringLines (constructorLines table header)).Nodup := by
  rw [constructorLines]
  cases header.constructor with
  | none => exact List.nodup_nil
  | some signatures => exact nodup_signatureLines ..

/-- A line of the constructor has its name in front of the parameters. -/
theorem exists_eq_of_mem_constructorLines {header : ClassHeader} {line : String}
    (h : line ∈ declaringLines (constructorLines table header)) :
    ∃ rest, line = "constructor" ++ ("(" ++ rest) := by
  rw [constructorLines] at h
  obtain ⟨hline, hdeclares⟩ := List.mem_filter.mp h
  cases hconstructor : header.constructor with
  | none =>
    rw [hconstructor] at hline
    cases hline
  | some signatures =>
    rw [hconstructor] at hline
    exact (exists_eq_of_mem_signatureLines hline).resolve_left (of_decide_eq_true hdeclares)

/-- The line of a nested member under the name of the constructor is none of the constructor. -/
theorem disjoint_constructorLines_of_isNested (header : ClassHeader) {node : Surface}
    (h : node.isNested = true) : (declaringLines (constructorLines table header)).Disjoint
      (declaringLines (classMemberLines table "" "constructor" node)) := by
  have hline : classMemberLines table "" "constructor" node =
      [memberName "constructor" ++ ": any;"] := by
    cases node with
    | space _ _ _ _ => rfl
    | enumeration _ _ _ _ => rfl
    | cls _ _ _ => rfl
    | _ => cases h
  intro line hconstructor hmember
  rw [hline, memberName_constructor] at hmember
  obtain ⟨rest, rfl⟩ := exists_eq_of_mem_constructorLines table hconstructor
  have heq := List.mem_singleton.mp (List.mem_of_mem_filter hmember)
  have hchars := congrArg String.toList (String.append_right_inj _ |>.mp heq)
  rw [String.toList_append] at hchars
  exact absurd (List.cons.inj hchars).1 (by decide)

/-- The index functions of a vector take the place of a reflected one, and are no listener functions
or constructors. -/
theorem disjoint_vectorNames (header : ClassHeader) (prototype : List (String × Surface)) :
    List.Disjoint (if (classElement? table header).isSome then ["indexOf"] else [])
      (((declaredInstances table header prototype).map Prod.fst ++
        if header.dispatchesEvents then listenerNames else []) ++ ["constructor"]) := by
  rw [declaredInstances]
  cases (classElement? table header).isSome with
  | false => exact List.disjoint_nil_left _
  | true =>
    rw [if_pos rfl, List.singleton_disjoint, List.mem_append, List.mem_append]
    rintro ((hmember | hlistener) | hconstructor)
    · obtain ⟨m, hm, hname⟩ := List.mem_map.mp hmember
      have hkept := (List.mem_filter.mp hm).2
      simp [hname] at hkept
    · exact absurd (mem_listenerNames_of_mem_ite hlistener) (by decide)
    · exact absurd hconstructor (by decide)

/-- On the side of the instances, only a member under the name of the constructor can have a line of
the constructor. -/
theorem disjoint_constructorLines_iff (header : ClassHeader)
    (prototype : List (String × Surface)) (dispatches : Bool) :
    (declaringLines (sideLines table "" (declaredInstances table header prototype) prototype
        dispatches)).Disjoint (declaringLines (constructorLines table header)) ↔
      ∀ m ∈ prototype, m.1 = "constructor" →
        (declaringLines (constructorLines table header)).Disjoint
          (declaringLines (classMemberLines table "" m.1 m.2)) := by
  have hempty := empty_mem_memberLeads
  rw [sideLines, declaringLines_append, declaringLines_listeners table hempty,
    declaringLines_flatMap]
  constructor
  · intro h m hm hname line hline hmember
    have hdeclared : m ∈ declaredInstances table header prototype :=
      List.mem_filter.mpr ⟨hm, by simp [hname]⟩
    exact h (List.mem_append_left _ (List.mem_flatMap.mpr ⟨m, hdeclared, hmember⟩)) hline
  · intro h line hside hline
    obtain ⟨name, hname, hconstructor⟩ := declareOnly_constructorLines table header line hline
    rw [List.mem_singleton] at hname
    subst hname
    rcases List.mem_append.mp hside with hside | hside
    · obtain ⟨m, hm, hmember⟩ := List.mem_flatMap.mp hside
      obtain ⟨name, hname, hdeclares⟩ := declareOnly_classMemberLines table "" m.1 m.2 line hmember
      rw [List.mem_singleton] at hname
      subst hname
      exact h m (List.mem_of_mem_filter hm) (hdeclares.unique hempty hempty hconstructor).2 hline
        hmember
    · obtain ⟨name, hname, hdeclares⟩ :=
        declareOnly_listeners table "" prototype dispatches line hside
      obtain rfl := (hdeclares.unique hempty hempty hconstructor).2
      exact absurd (mem_listenerNames_of_mem_ite hname) (by decide)

/-- In a class without repeated names, the only lines outside of comments that are written twice are
those of the constructor, if an instance member under its name has some of them, and those for
events that have the same text. -/
theorem nodup_classBody_iff {header : ClassHeader} {statics prototype : List (String × Surface)}
    (hstatics : (statics.map Prod.fst).Nodup) (hprototype : (prototype.map Prod.fst).Nodup)
    (hstaticListeners : header.dispatchesStaticEvents = true → ∀ m ∈ statics, m.1 ∉ listenerNames)
    (hlisteners : header.dispatchesEvents = true → ∀ m ∈ prototype, m.1 ∉ listenerNames) :
    (declaringLines (classBody table header statics prototype)).Nodup ↔
      (∀ m ∈ prototype, m.1 = "constructor" →
        (declaringLines (constructorLines table header)).Disjoint
          (declaringLines (classMemberLines table "" m.1 m.2))) ∧
      (header.dispatchesStaticEvents = true →
        ((statics.filterMap handler?).map (listenerText table)).Nodup) ∧
      (header.dispatchesEvents = true →
        ((prototype.filterMap handler?).map (listenerText table)).Nodup) := by
  have hstatic := static_mem_memberLeads
  have hempty := empty_mem_memberLeads
  have hne : "static " ≠ "" := by decide
  have hownNames : ((statics.filter fun m => !m.2.isNested).map Prod.fst).Nodup :=
    hstatics.sublist (List.filter_sublist.map _)
  have hnames : ((declaredInstances table header prototype).map Prod.fst).Nodup :=
    hprototype.sublist (List.filter_sublist.map _)
  have hinstances := (declareOnly_sideLines table hempty (declaredInstances table header prototype)
    prototype header.dispatchesEvents).append (declareOnly_constructorLines table header)
  -- the two sides have no line in common, and the index functions none with what is beside them
  have hown := declareOnly_sideLines table hstatic (statics.filter fun m => !m.2.isNested) statics
    header.dispatchesStaticEvents
  have hsides := hown.disjoint ((declareOnly_vectorLines table header).append hinstances) hstatic
    hempty fun heq => absurd heq hne
  have hvector := (declareOnly_vectorLines table header).disjoint hinstances hempty hempty fun _ =>
    disjoint_vectorNames table header prototype
  have hlines : (declaringLines (classBody table header statics prototype)).Perm _ :=
    (classBody_perm table header statics prototype).filter _
  rw [← declaringLines, declaringLines_append, declaringLines_append, declaringLines_append]
    at hlines
  rw [hlines.nodup_iff, List.nodup_append', List.nodup_append', List.nodup_append',
    nodup_sideLines_iff table hstatic statics hownNames fun hflag m hm =>
      hstaticListeners hflag m (List.mem_of_mem_filter hm),
    nodup_sideLines_iff table hempty prototype hnames fun hflag m hm =>
      hlisteners hflag m (List.mem_of_mem_filter hm),
    disjoint_constructorLines_iff]
  constructor
  · rintro ⟨hstaticTexts, ⟨-, ⟨htexts, -, hconstructor⟩, -⟩, -⟩
    exact ⟨hconstructor, hstaticTexts, htexts⟩
  · rintro ⟨hconstructor, hstaticTexts, htexts⟩
    exact ⟨hstaticTexts, ⟨nodup_vectorLines table header,
      ⟨htexts, nodup_constructorLines table header, hconstructor⟩, hvector⟩, hsides⟩

end ScriptTypings.Declarations
