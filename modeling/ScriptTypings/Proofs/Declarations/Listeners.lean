import Mathlib.Data.List.Basic
import ScriptTypings.Proofs.Declarations.Overloads

/-!
# Listener functions in the body of a class

What a line declares stands in front of its first parenthesis or colon. By this the lines of
listener functions can be told from all other lines of a class, comments and quoted names included:
`filter_classBody_static` and `filter_classBody_prototype` say which of them a class has on either
side.
-/

namespace ScriptTypings.Declarations

open Text

/-- Whether a character ends the name that a line declares. -/
def endsName (c : Char) : Bool :=
  c = '(' || c = ':'

/-- What a line declares, with the words in front of the name. -/
def declaredName (line : String) : String :=
  .ofList (line.toList.takeWhile fun c => !endsName c)

/-- Whether a line declares a listener function behind the given words. -/
def isListenerLine (lead line : String) : Bool :=
  listenerNames.any fun function => declaredName line = lead ++ function

/-- The words in front of the members of a class, by side. -/
def memberLeads : List String := ["static ", ""]

/-- What follows a declared name: the parameters of a function, or a type. -/
def Opens (tail : String) : Prop :=
  ∃ c rest, tail.toList = c :: rest ∧ endsName c = true

theorem opens_parenthesis (text : String) : Opens ("(" ++ text) :=
  ⟨'(', text.toList, by simp, rfl⟩

theorem opens_colon (text : String) : Opens (": " ++ text) :=
  ⟨':', ' ' :: text.toList, by simp, rfl⟩

/-! ### Names in lines -/

theorem declaredName_append {name tail : String} (hname : ∀ c ∈ name.toList, endsName c = false)
    (htail : Opens tail) : declaredName (name ++ tail) = name := by
  obtain ⟨c, rest, htail, hc⟩ := htail
  have hall : ∀ c ∈ name.toList, (!endsName c) = true := fun c hmem => by rw [hname c hmem]; rfl
  have hstop : (c :: rest).takeWhile (fun c => !endsName c) = [] :=
    List.takeWhile_cons_of_neg (by simp [hc])
  rw [declaredName, String.toList_append, htail, List.takeWhile_append_of_pos hall, hstop,
    List.append_nil, String.ofList_toList]

/-- A character in front of the first parenthesis or colon belongs to what the line declares. -/
theorem mem_declaredName {line : String} {before rest : List Char} {c : Char}
    (hline : line.toList = before ++ c :: rest) (hbefore : ∀ d ∈ before, endsName d = false)
    (hc : endsName c = false) : c ∈ (declaredName line).toList := by
  have hall : ∀ d ∈ before, (!endsName d) = true := fun d hmem => by rw [hbefore d hmem]; rfl
  have hgo : (c :: rest).takeWhile (fun d => !endsName d) =
      c :: rest.takeWhile fun d => !endsName d := List.takeWhile_cons_of_pos (by simp [hc])
  rw [declaredName, String.toList_ofList, hline, List.takeWhile_append_of_pos hall, hgo]
  exact List.mem_append_right _ List.mem_cons_self

/-- No declared listener function has one of these characters. -/
theorem not_isListenerLine_of_mem {lead line : String} (hlead : lead ∈ memberLeads) {c : Char}
    (hc : c ∈ ['/', '*', '"']) (hmem : c ∈ (declaredName line).toList) :
    isListenerLine lead line = false := by
  have hnone : (memberLeads.all fun lead => ['/', '*', '"'].all fun c =>
      listenerNames.all fun function => !(lead ++ function).toList.contains c) = true := by
    decide
  rw [isListenerLine, List.any_eq_false]
  intro function hfunction
  rw [decide_eq_true_eq]
  intro heq
  have hlacks := List.all_eq_true.mp (List.all_eq_true.mp (List.all_eq_true.mp hnone lead hlead)
    c hc) function hfunction
  rw [← heq, Bool.not_eq_true', ← Bool.not_eq_true, List.contains_iff_mem] at hlacks
  exact hlacks hmem

/-- Lines that declare the same behind one of the words that stand in front of members have the same
words, if what is declared has no blank. -/
theorem lead_eq_of_append_eq {lead lead' name name' : String} (hlead : lead ∈ memberLeads)
    (hlead' : lead' ∈ memberLeads) (hname : ' ' ∉ name.toList) (hname' : ' ' ∉ name'.toList)
    (h : lead ++ name = lead' ++ name') : lead = lead' ∧ name = name' := by
  have hchars := congrArg String.toList h
  rw [String.toList_append, String.toList_append] at hchars
  have hblank : ' ' ∈ "static ".toList := by decide
  by_cases hsame : lead = lead'
  · subst hsame
    exact ⟨rfl, String.toList_injective (List.append_cancel_left hchars)⟩
  · exfalso
    -- one of the two is the empty word, and what follows it would begin with the other
    rw [memberLeads, List.mem_cons, List.mem_singleton] at hlead hlead'
    rcases hlead with rfl | rfl
    · obtain rfl := hlead'.resolve_left (Ne.symm hsame)
      have hmem : ' ' ∈ "".toList ++ name'.toList := hchars ▸ List.mem_append_left _ hblank
      exact hname' hmem
    · obtain rfl := hlead'.resolve_right (Ne.symm hsame)
      have hmem : ' ' ∈ "".toList ++ name.toList := hchars ▸ List.mem_append_left _ hblank
      exact hname hmem

/-! ### Lines of members -/

theorem of_mem_isPlainName {name : List Char} (h : isPlainName name = true) {c : Char}
    (hc : c ∈ name) : beginsIdentifier c = true ∨ continuesIdentifier c = true ∨ c = '\n' := by
  cases name with
  | nil => cases hc
  | cons first rest =>
    simp only [isPlainName, Bool.and_eq_true, Bool.or_eq_true, decide_eq_true_eq] at h
    obtain ⟨hfirst, hrest⟩ := h
    rcases List.mem_cons.mp hc with rfl | hc
    · exact .inl hfirst
    · rcases hrest with hall | ⟨hlast, hall⟩
      · exact .inr (.inl (List.all_eq_true.mp hall c hc))
      · have hsplit : rest = rest.dropLast ++ ['\n'] := 
          (List.dropLast_append_getLast? '\n' hlast).symm
        rw [hsplit] at hc
        rcases List.mem_append.mp hc with hc | hc
        · exact .inr (.inl (List.all_eq_true.mp hall c hc))
        · exact .inr (.inr (List.mem_singleton.mp hc))

theorem not_mem_of_isPlainName {name : List Char} (h : isPlainName name = true) {c : Char}
    (hc : c ∈ [' ', '(', ':']) : c ∉ name := by
  have hnone : ([' ', '(', ':'].all fun c =>
      !(beginsIdentifier c || continuesIdentifier c || c = '\n')) = true := by decide
  have hother := List.all_eq_true.mp hnone c hc
  simp only [Bool.not_eq_true', Bool.or_eq_false_iff, decide_eq_false_iff_not] at hother
  intro hmem
  rcases of_mem_isPlainName h hmem with hbegins | hcontinues | hend
  · exact Bool.false_ne_true (hother.1.1.symm.trans hbegins)
  · exact Bool.false_ne_true (hother.1.2.symm.trans hcontinues)
  · exact hother.2 hend

theorem not_endsName_lead {lead : String} (hlead : lead ∈ memberLeads) :
    ∀ c ∈ lead.toList, endsName c = false := by
  have hall : (memberLeads.all fun lead => lead.toList.all fun c => !endsName c) = true := by
    decide
  intro c hc
  have hother := List.all_eq_true.mp (List.all_eq_true.mp hall lead hlead) c hc
  rwa [Bool.not_eq_true'] at hother

/-- A line that declares a plain name declares a listener function only if it is one. -/
theorem isListenerLine_plain {lead lead' name tail : String} (hlead : lead ∈ memberLeads)
    (hlead' : lead' ∈ memberLeads) (hname : isPlainName name.toList = true)
    (htail : Opens tail) :
    isListenerLine lead (lead' ++ name ++ tail) =
      (decide (lead' = lead) && listenerNames.contains name) := by
  have hdeclared : declaredName (lead' ++ name ++ tail) = lead' ++ name := by
    refine declaredName_append (fun c hc => ?_) htail
    rw [String.toList_append] at hc
    rcases List.mem_append.mp hc with hc | hc
    · exact not_endsName_lead hlead' c hc
    · by_contra hends
      simp only [endsName, Bool.not_eq_false, Bool.or_eq_true, decide_eq_true_eq] at hends
      rcases hends with rfl | rfl
      · exact not_mem_of_isPlainName hname (by decide) hc
      · exact not_mem_of_isPlainName hname (by decide) hc
  have hblank : ∀ function ∈ listenerNames, ' ' ∉ function.toList := by decide
  rw [isListenerLine, hdeclared, Bool.eq_iff_iff, List.any_eq_true, Bool.and_eq_true,
    decide_eq_true_eq, List.contains_iff_mem]
  constructor
  · rintro ⟨function, hfunction, heq⟩
    obtain ⟨hsame, rfl⟩ := lead_eq_of_append_eq hlead' hlead
      (not_mem_of_isPlainName hname (by decide)) (hblank function hfunction)
      (of_decide_eq_true heq)
    exact ⟨hsame, hfunction⟩
  · rintro ⟨rfl, hmem⟩
    exact ⟨name, hmem, decide_eq_true rfl⟩

/-- A line that declares a member declares a listener function only if the member is one. -/
theorem isListenerLine_memberName {lead lead' tail : String} (hlead : lead ∈ memberLeads)
    (hlead' : lead' ∈ memberLeads) (name : String)
    (htail : Opens tail) :
    isListenerLine lead (lead' ++ memberName name ++ tail) =
      (decide (lead' = lead) && listenerNames.contains name) := by
  rw [memberName]
  split
  · rename_i hplain
    exact isListenerLine_plain hlead hlead' hplain htail
  · rename_i hplain
    have hother : listenerNames.contains name = false := by
      have hnames : ∀ function ∈ listenerNames, isPlainName function.toList = true := by
        decide
      rw [Bool.eq_false_iff, ne_eq, List.contains_iff_mem]
      exact fun hmem => hplain (hnames name hmem)
    rw [hother, Bool.and_false]
    have hquote : (lead' ++ Json.quoteAscii name ++ tail).toList = lead'.toList ++ '"' ::
        (name.toList.flatMap Json.escapeCharAscii ++ ['"'] ++ tail.toList) := by
      simp [Json.quoteAscii]
    exact not_isListenerLine_of_mem hlead (by decide)
      (mem_declaredName hquote (not_endsName_lead hlead') rfl)

/-- The lines of a comment. -/
def IsCommentLine (line : String) : Prop :=
  ∃ rest, line.toList = '/' :: rest ∨ line.toList = ' ' :: '*' :: rest

theorem IsCommentLine.not_isListenerLine {lead line : String} (hlead : lead ∈ memberLeads)
    (h : IsCommentLine line) : isListenerLine lead line = false := by
  obtain ⟨rest, hline | hline⟩ := h
  · have hstart : line.toList = [] ++ '/' :: rest := hline
    exact not_isListenerLine_of_mem hlead (by decide) (mem_declaredName hstart nofun rfl)
  · have hstart : line.toList = [' '] ++ '*' :: rest := hline
    have hblank : ∀ d ∈ [' '], endsName d = false := List.forall_mem_singleton.mpr rfl
    exact not_isListenerLine_of_mem hlead (by decide) (mem_declaredName hstart hblank rfl)

theorem isCommentLine_docComment {description : Json} {line : String}
    (h : line ∈ docComment description) : IsCommentLine line := by
  unfold docComment at h
  split at h
  · cases h
  · rw [List.mem_singleton.mp h]
    exact ⟨_, .inl (by simp only [String.toList_append]; rfl)⟩

theorem isCommentLine_signatureComment {signature : Signature} {line : String}
    (h : line ∈ signatureComment signature) : IsCommentLine line := by
  have hstar : ∀ text : String, IsCommentLine (" * " ++ text) := fun text =>
    ⟨_, .inr (by simp only [String.toList_append]; rfl)⟩
  unfold signatureComment at h
  dsimp only at h
  split at h
  · exact isCommentLine_docComment h
  · rw [List.mem_append, List.cons_append, List.mem_cons, List.mem_append, List.mem_map,
      List.mem_singleton] at h
    rcases h with (rfl | h | ⟨tag, -, rfl⟩) | rfl
    · exact ⟨_, .inl rfl⟩
    · split at h
      · cases h
      · rw [List.mem_singleton.mp h]
        exact hstar _
    · exact hstar _
    · exact ⟨_, .inr rfl⟩

/-- A line of the member of a name behind some words: one of a comment, or the declaration. -/
def IsMemberLine (lead name line : String) : Prop :=
  IsCommentLine line ∨ ∃ tail, line = lead ++ name ++ tail ∧ Opens tail

theorem exists_overloadLine_eq (table : ArityTable) (lead name : String)
    (signature : Signature) :
    ∃ rest, overloadLine table lead name signature = lead ++ name ++ ("(" ++ rest) := by
  unfold overloadLine
  dsimp only
  split
  · refine ⟨parametersText table signature.parameters ++ (")" ++ ";"), ?_⟩
    simp only [String.append_assoc]
  · refine ⟨parametersText table signature.parameters ++ (")" ++ (": " ++
      (resultText table name signature.returned ++ ";"))), ?_⟩
    simp only [String.append_assoc]

/-- A line of a function: one of a comment, or one with the function's name in front of its
parameters. -/
theorem exists_eq_of_mem_signatureLines {table : ArityTable} {lead name line : String}
    {signatures : List Signature} (h : line ∈ signatureLines table lead name signatures) :
    IsCommentLine line ∨ ∃ rest, line = lead ++ name ++ ("(" ++ rest) := by
  by_cases hnone : signatures = []
  · subst hnone
    rw [List.mem_singleton.mp h]
    exact .inr ⟨"...args: any[]): any;", rfl⟩
  · rw [signatureLines_eq_flatMap table lead name hnone] at h
    obtain ⟨signature, -, h⟩ := List.mem_flatMap.mp h
    rcases List.mem_append.mp h with h | h
    · exact .inl (isCommentLine_signatureComment h)
    · rw [List.mem_singleton.mp h]
      exact .inr (exists_overloadLine_eq ..)

/-- A function has a line with its name in front of parameters. -/
theorem exists_mem_signatureLines (table : ArityTable) (lead name : String)
    (signatures : List Signature) :
    ∃ line ∈ signatureLines table lead name signatures,
      ∃ tail, line = lead ++ name ++ tail ∧ Opens tail := by
  cases signatures with
  | nil => exact ⟨_, List.mem_singleton_self _, "(" ++ "...args: any[]): any;", rfl,
      opens_parenthesis _⟩
  | cons signature signatures =>
    obtain ⟨rest, heq⟩ := exists_overloadLine_eq table lead name (foldOutputs signature)
    exact ⟨_, List.mem_append_right _ List.mem_cons_self, _, heq, opens_parenthesis rest⟩

theorem isMemberLine_signatureLines {table : ArityTable} {lead name line : String}
    {signatures : List Signature} (h : line ∈ signatureLines table lead name signatures) :
    IsMemberLine lead name line := by
  rcases exists_eq_of_mem_signatureLines h with hcomment | ⟨rest, heq⟩
  · exact .inl hcomment
  · exact .inr ⟨"(" ++ rest, heq, opens_parenthesis rest⟩

theorem exists_mem_typedLine (table : ArityTable) (lead name : String) (description type : Json) :
    ∃ line ∈ typedLine table lead name description type,
      ∃ tail, line = lead ++ name ++ tail ∧ Opens tail := by
  refine ⟨_, List.mem_append_right _ (List.mem_singleton_self _),
    ": " ++ (typeName table type.asText ++ ";"), ?_, opens_colon _⟩
  simp only [String.append_assoc]

theorem isMemberLine_typedLine {table : ArityTable} {lead name line : String}
    {description type : Json} (h : line ∈ typedLine table lead name description type) :
    IsMemberLine lead name line := by
  rcases List.mem_append.mp h with h | h
  · exact .inl (isCommentLine_docComment h)
  · rw [List.mem_singleton.mp h]
    refine .inr ⟨": " ++ (typeName table type.asText ++ ";"), ?_, opens_colon _⟩
    simp only [String.append_assoc]

/-- A member of a class is a function, or it stands behind a comment or alone with its type. -/
theorem classMemberLines_cases (table : ArityTable) (lead name : String) (node : Surface) :
    (∃ signatures, classMemberLines table lead name node =
        signatureLines table lead (memberName name) signatures) ∨
      (∃ description type, classMemberLines table lead name node =
        typedLine table lead (memberName name) description type) ∨
      ∃ type, classMemberLines table lead name node =
        [lead ++ memberName name ++ (": " ++ type)] := by
  unfold classMemberLines
  dsimp only
  split
  · exact .inl ⟨_, rfl⟩
  · exact .inr (.inl ⟨_, _, rfl⟩)
  · exact .inr (.inl ⟨_, _, rfl⟩)
  · rename_i placeholder
    refine .inr (.inr ⟨placeholderType placeholder ++ ";", ?_⟩)
    simp only [String.append_assoc]
  · exact .inr (.inr ⟨"any;", rfl⟩)

theorem isMemberLine_classMemberLines {table : ArityTable} {lead name line : String}
    {node : Surface} (h : line ∈ classMemberLines table lead name node) :
    IsMemberLine lead (memberName name) line := by
  rcases classMemberLines_cases table lead name node with
    ⟨signatures, heq⟩ | ⟨description, type, heq⟩ | ⟨type, heq⟩
  · exact isMemberLine_signatureLines (heq ▸ h)
  · exact isMemberLine_typedLine (heq ▸ h)
  · rw [heq, List.mem_singleton] at h
    exact .inr ⟨": " ++ type, h, opens_colon type⟩

theorem exists_opens_indexLines {element line : String} (h : line ∈ indexLines element) :
    ∃ tail, line = "" ++ "indexOf" ++ tail ∧ Opens tail := by
  rw [indexLines, List.mem_cons, List.mem_singleton] at h
  rcases h with rfl | rfl
  · refine ⟨"(" ++ ("value: " ++ (element ++
      ", ...extra: any[]): \x7b index: number; returnValue: boolean; \x7d; /* hack */")), ?_,
      opens_parenthesis _⟩
    simp only [← String.append_assoc]
    rfl
  · refine ⟨"(" ++ ("searchElement: " ++ (element ++
      ", fromIndex?: number): number; /* hack */")), ?_, opens_parenthesis _⟩
    simp only [← String.append_assoc]
    rfl

/-! ### Lines of a class -/

variable {lead lead' : String} (hlead : lead ∈ memberLeads) (hlead' : lead' ∈ memberLeads)

include hlead hlead'

/-- The lines of a member declare no listener function, unless it is one on the same side. -/
theorem filter_classMemberLines (table : ArityTable) (name : String) (node : Surface) :
    (classMemberLines table lead' name node).filter (isListenerLine lead) =
      if lead' = lead ∧ name ∈ listenerNames then
        (classMemberLines table lead name node).filter (isListenerLine lead)
      else [] := by
  by_cases h : lead' = lead ∧ name ∈ listenerNames
  · rw [if_pos h, h.1]
  · rw [if_neg h, List.filter_eq_nil_iff]
    intro line hline
    rw [Bool.not_eq_true]
    rcases isMemberLine_classMemberLines hline with hcomment | ⟨tail, rfl, htail⟩
    · exact hcomment.not_isListenerLine hlead
    · rw [isListenerLine_memberName hlead hlead' name htail, Bool.and_eq_false_iff,
        decide_eq_false_iff_not, ← Bool.not_eq_true, List.contains_iff_mem]
      exact not_and_or.mp h

/-- The lines of the members on one side that declare listener functions of that side. -/
theorem filter_flatMap_classMemberLines (table : ArityTable) (members : List (String × Surface)) :
    (members.flatMap fun m => classMemberLines table lead' m.1 m.2).filter (isListenerLine lead) =
      if lead' = lead then
        (members.filter fun m => listenerNames.contains m.1).flatMap fun m =>
          (classMemberLines table lead m.1 m.2).filter (isListenerLine lead)
      else [] := by
  induction members with
  | nil => simp
  | cons m members ih =>
    rw [List.flatMap_cons, List.filter_append, ih, filter_classMemberLines hlead hlead',
      List.filter_cons]
    by_cases hsame : lead' = lead
    · by_cases hname : m.1 ∈ listenerNames
      · simp [hsame, hname]
      · simp [hsame, hname]
    · simp [hsame]

theorem isListenerLine_listenerLine {function : String} (hfunction : function ∈ listenerNames)
    (eventType handler : String) :
    isListenerLine lead (listenerLine lead' function eventType handler) = decide (lead' = lead) := by
  have hplain : ∀ function ∈ listenerNames, isPlainName function.toList = true := by decide
  have hline : listenerLine lead' function eventType handler =
      lead' ++ function ++ ("(type: " ++ (eventType ++ (", listener: " ++ (handler ++
        "): void;")))) := by
    simp only [listenerLine, String.append_assoc]
  have htail : Opens ("(type: " ++ (eventType ++ (", listener: " ++ (handler ++ "): void;")))) :=
    ⟨'(', _, by rw [String.toList_append]; rfl, rfl⟩
  rw [hline, isListenerLine_plain hlead hlead' (hplain function hfunction) htail,
    List.contains_iff_mem.mpr hfunction, Bool.and_true]

/-- All lines for the events on one side declare listener functions of that side. -/
theorem filter_listenerLines (table : ArityTable) (members : List (String × Surface)) :
    (listenerLines table lead' members).filter (isListenerLine lead) =
      if lead' = lead then listenerLines table lead members else [] := by
  have hall : ∀ line ∈ listenerLines table lead' members,
      isListenerLine lead line = decide (lead' = lead) := by
    intro line hline
    rcases List.mem_append.mp hline with hline | hline
    · obtain ⟨⟨name, node⟩, -, hline⟩ := List.mem_flatMap.mp hline
      cases node with
      | event handler description =>
        obtain ⟨function, hfunction, rfl⟩ := List.mem_map.mp hline
        exact isListenerLine_listenerLine hlead hlead' hfunction _ _
      | _ => cases hline
    · obtain ⟨function, hfunction, rfl⟩ := List.mem_map.mp hline
      exact isListenerLine_listenerLine hlead hlead' hfunction _ _
  by_cases hsame : lead' = lead
  · rw [if_pos hsame, List.filter_eq_self.mpr fun line hline => ?_, hsame]
    rw [hall line hline, decide_eq_true hsame]
  · rw [if_neg hsame, List.filter_eq_nil_iff]
    intro line hline
    rw [hall line hline, decide_eq_false hsame]
    exact Bool.false_ne_true

omit hlead'

theorem filter_signatureLines_constructor (table : ArityTable) (signatures : List Signature) :
    (signatureLines table "" "constructor" signatures).filter (isListenerLine lead) = [] := by
  refine List.filter_eq_nil_iff.mpr fun line hline => ?_
  rw [Bool.not_eq_true]
  rcases isMemberLine_signatureLines hline with hcomment | ⟨tail, rfl, htail⟩
  · exact hcomment.not_isListenerLine hlead
  · have hplain : isPlainName "constructor".toList = true := by decide
    have hother : listenerNames.contains "constructor" = false := by decide
    rw [isListenerLine_plain hlead (by decide) hplain htail, hother, Bool.and_false]

theorem filter_indexLines (element : String) :
    (indexLines element).filter (isListenerLine lead) = [] := by
  have hplain : isPlainName "indexOf".toList = true := by decide
  have hother : listenerNames.contains "indexOf" = false := by decide
  refine List.filter_eq_nil_iff.mpr fun line hline => ?_
  obtain ⟨tail, rfl, htail⟩ := exists_opens_indexLines hline
  rw [isListenerLine_plain hlead (by decide) hplain htail, hother, Bool.and_false]
  exact Bool.false_ne_true

/-- Of the lines in the body of a class those of the members and of the synthesised functions may
declare listener functions, on the side that they stand for. -/
theorem filter_classBody (table : ArityTable) (header : ClassHeader)
    (statics prototype : List (String × Surface)) :
    (classBody table header statics prototype).filter (isListenerLine lead) =
      (((statics.filter fun m => !m.2.isNested).flatMap fun m =>
        classMemberLines table "static " m.1 m.2).filter (isListenerLine lead)) ++
      (if header.dispatchesStaticEvents then
        (listenerLines table "static " statics).filter (isListenerLine lead) else []) ++
      (((prototype.filter fun m => !((classElement? table header).isSome && m.1 = "indexOf")).flatMap
        fun m => classMemberLines table "" m.1 m.2).filter (isListenerLine lead)) ++
      if header.dispatchesEvents then
        (listenerLines table "" prototype).filter (isListenerLine lead) else [] := by
  have hindex : (((classElement? table header).map indexLines).getD []).filter
      (isListenerLine lead) = [] := by
    cases classElement? table header with
    | none => rfl
    | some element => exact filter_indexLines hlead element
  have hwhen : ∀ (flag : Bool) (lines : List String),
      (if flag then lines else []).filter (isListenerLine lead) =
        if flag then lines.filter (isListenerLine lead) else [] := by
    intro flag lines
    cases flag <;> rfl
  cases hconstructor : header.constructor with
  | none =>
    simp only [classBody, hconstructor, List.filter_append, hindex, hwhen,
      List.nil_append, List.append_nil]
  | some signatures =>
    simp only [classBody, hconstructor, List.filter_append, hindex, hwhen,
      filter_signatureLines_constructor hlead, List.nil_append, List.append_nil]

omit hlead

theorem static_mem_memberLeads : "static " ∈ memberLeads :=
  List.mem_cons_self

theorem empty_mem_memberLeads : "" ∈ memberLeads :=
  List.mem_cons_of_mem _ List.mem_cons_self

/-- The lines of a class that declare listener functions of the class's own object: those of its
members, then the synthesised ones. -/
theorem filter_classBody_static (table : ArityTable) (header : ClassHeader)
    (statics prototype : List (String × Surface)) :
    (classBody table header statics prototype).filter (isListenerLine "static ") =
      ((statics.filter fun m => !m.2.isNested).filter fun m =>
          listenerNames.contains m.1).flatMap (fun m =>
        (classMemberLines table "static " m.1 m.2).filter (isListenerLine "static ")) ++
      if header.dispatchesStaticEvents then listenerLines table "static " statics else [] := by
  have hne : "" ≠ "static " := by decide
  have hstatic := static_mem_memberLeads
  have hempty := empty_mem_memberLeads
  rw [filter_classBody hstatic, filter_flatMap_classMemberLines hstatic hstatic,
    filter_flatMap_classMemberLines hstatic hempty, filter_listenerLines hstatic hstatic,
    filter_listenerLines hstatic hempty, if_pos rfl, if_pos rfl, if_neg hne, if_neg hne,
    List.append_nil, ite_self, List.append_nil]

/-- The lines of a class that declare listener functions of its instances. The index functions of a
vector do not interfere. -/
theorem filter_classBody_prototype (table : ArityTable) (header : ClassHeader)
    (statics prototype : List (String × Surface)) :
    (classBody table header statics prototype).filter (isListenerLine "") =
      (prototype.filter fun m => listenerNames.contains m.1).flatMap (fun m =>
        (classMemberLines table "" m.1 m.2).filter (isListenerLine "")) ++
      if header.dispatchesEvents then listenerLines table "" prototype else [] := by
  have hne : "static " ≠ "" := by decide
  have hstatic := static_mem_memberLeads
  have hempty := empty_mem_memberLeads
  have hother : listenerNames.contains "indexOf" = false := by decide
  have hkept : (prototype.filter fun m =>
      !((classElement? table header).isSome && m.1 = "indexOf")).filter
        (fun m => listenerNames.contains m.1) =
      prototype.filter fun m => listenerNames.contains m.1 := by
    rw [List.filter_filter]
    refine List.filter_congr fun m _ => ?_
    by_cases hm : m.1 = "indexOf"
    · rw [hm, hother, Bool.false_and]
    · simp [hm]
  rw [filter_classBody hempty, filter_flatMap_classMemberLines hempty hstatic,
    filter_flatMap_classMemberLines hempty hempty, filter_listenerLines hempty hstatic,
    filter_listenerLines hempty hempty, if_pos rfl, if_pos rfl, if_neg hne, if_neg hne, ite_self,
    List.nil_append, List.nil_append, hkept]

/-! ### Pairs of listener functions -/

/-- The handler of an event member, with the name of the member. -/
def handler? : String × Surface → Option (String × Json)
  | (name, .event handler _) => some (name, handler)
  | _ => none

/-- The lines that add and remove listeners of some events, each under its own name and with its
handler, and then those for events of any name. -/
def listenerPairs (table : ArityTable) (lead : String) (events : List (String × Json)) :
    List String :=
  (events.flatMap fun event =>
    listenerNames.map fun function =>
      listenerLine lead function ("\x22" ++ eventName event.1 ++ "\x22")
        (typeName table event.2.asText)) ++
    listenerNames.map fun function =>
      listenerLine lead function "string" "Windows.Foundation.EventHandler<any>"

theorem listenerLines_eq (table : ArityTable) (lead : String) (members : List (String × Surface)) :
    listenerLines table lead members = listenerPairs table lead (members.filterMap handler?) := by
  rw [listenerLines, listenerPairs]
  congr 1
  induction members with
  | nil => rfl
  | cons m members ih =>
    obtain ⟨name, node⟩ := m
    rw [List.flatMap_cons, List.filterMap_cons, ih]
    cases node <;> rfl

/-! ### Places of members -/

theorem isInfix_flatMap {α β : Type} {xs : List α} {x : α} (h : x ∈ xs) (f : α → List β) :
    f x <:+: xs.flatMap f := by
  obtain ⟨before, after, rfl⟩ := List.append_of_mem h
  exact ⟨before.flatMap f, after.flatMap f, by simp⟩

/-- The lines of a static member stand in the body of its class, unless it is nested. -/
theorem isInfix_classBody_static (table : ArityTable) (header : ClassHeader)
    {statics : List (String × Surface)} (prototype : List (String × Surface))
    {m : String × Surface} (hm : m ∈ statics) (hflat : m.2.isNested = false) :
    classMemberLines table "static " m.1 m.2 <:+: classBody table header statics prototype := by
  have hkept : m ∈ statics.filter fun m => !m.2.isNested :=
    List.mem_filter.mpr ⟨hm, by rw [hflat]; rfl⟩
  refine (isInfix_flatMap hkept fun m => classMemberLines table "static " m.1 m.2).trans ?_
  simp only [classBody, List.append_assoc]
  exact List.infix_append' _ _ _

/-- The lines of an instance member stand in the body of its class, unless those of a vector take
their place. -/
theorem isInfix_classBody_prototype (table : ArityTable) (header : ClassHeader)
    (statics : List (String × Surface)) {prototype : List (String × Surface)}
    {m : String × Surface} (hm : m ∈ prototype) (hother : m.1 ≠ "indexOf") :
    classMemberLines table "" m.1 m.2 <:+: classBody table header statics prototype := by
  have hkept : m ∈ prototype.filter fun m =>
      !((classElement? table header).isSome && m.1 = "indexOf") :=
    List.mem_filter.mpr ⟨hm, by simp [hother]⟩
  refine (isInfix_flatMap hkept fun m => classMemberLines table "" m.1 m.2).trans ?_
  rw [classBody]
  exact List.infix_append _ _ _

/-- A nested static member is declared in the namespace beside its class. -/
theorem isInfix_emitNested (table : ArityTable) {statics : List (String × Surface)}
    {m : String × Surface} (hm : m ∈ statics) (hnested : m.2.isNested = true) :
    emit table m.1 m.2 <:+: emitNested table statics := by
  induction statics with
  | nil => cases hm
  | cons first statics ih =>
    obtain ⟨name, node⟩ := first
    rw [emitNested]
    rcases List.mem_cons.mp hm with rfl | hm
    · rw [if_pos hnested]
      exact (List.prefix_append _ _).isInfix
    · exact (ih hm).trans (List.suffix_append _ _).isInfix

end ScriptTypings.Declarations
