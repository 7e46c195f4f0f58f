import ScriptTypings.Proofs.Declarations.Distinct
import ScriptTypings.Proofs.Json.Numbers
import ScriptTypings.Proofs.Text.Classes

/-!
# Keys of members

A member stands in the block of its declaration under its key: its name as it is, if that is an
identifier, and else a literal that is read as the name. The blocks of enumerations, structures,
interfaces and classes consist of the lines of one key after the other (`HasKeys`), and a line has
one key only. An identifier with a line feed behind it is not put between quotes, and such names are
the only ones that break their line (`memberName_denotes`).
-/

namespace ScriptTypings

/-! ### Literals in ASCII -/

namespace Json

open Text

/-- The characters of ASCII that have a visible form, and the space. -/
def IsPrintable (s : List Char) : Prop :=
  ∀ c ∈ s, 32 ≤ c.toNat ∧ c.toNat < 127

instance : DecidablePred IsPrintable :=
  fun s => List.decidableBAll (fun c : Char => 32 ≤ c.toNat ∧ c.toNat < 127) s

theorem IsPrintable.append {s t : List Char} (hs : IsPrintable s) (ht : IsPrintable t) :
    IsPrintable (s ++ t) :=
  List.forall_mem_append.mpr ⟨hs, ht⟩

theorem isPrintable_hex (width n : Nat) : IsPrintable (hex width n) := by
  have hdigit : ∀ n < 16, IsPrintable [hexDigit n] := by decide
  induction width generalizing n with
  | zero => exact nofun
  | succ width ih => exact (ih _).append (hdigit _ (Nat.mod_lt _ (by decide)))

theorem isPrintable_escapeUnit (unit : Nat) : IsPrintable (escapeUnit unit) :=
  IsPrintable.append (s := ['\\', 'u']) (by decide) (isPrintable_hex 4 unit)

theorem isPrintable_escapeUnits (c : Char) : IsPrintable (escapeUnits c) := by
  rw [escapeUnits]
  split
  · exact isPrintable_escapeUnit _
  · exact (isPrintable_escapeUnit _).append (isPrintable_escapeUnit _)

theorem isPrintable_escapeCharAscii (c : Char) : IsPrintable (escapeCharAscii c) := by
  rw [escapeCharAscii]
  split
  · rename_i hc
    exact of_toNat_lt (P := fun c => IsPrintable (escapeChar c)) (by decide) hc
  · exact isPrintable_escapeUnits c

theorem isPrintable_quoteAscii (s : String) : IsPrintable (quoteAscii s).toList := by
  have hbody : IsPrintable (s.toList.flatMap escapeCharAscii) := by
    intro c hc
    obtain ⟨d, -, hd⟩ := List.mem_flatMap.mp hc
    exact isPrintable_escapeCharAscii d c hd
  rw [quoteAscii, String.toList_ofList]
  exact IsPrintable.append (s := ['"']) (by decide) (hbody.append (by decide))

/-- A literal in ASCII is read as the text that it was written for. -/
theorem read_quoteAscii (s : String) : read (quoteAscii s) = .ok (text s).document := by
  have hquote : (quoteAscii s).toList =
      '"' :: (s.toList.flatMap escapeCharAscii ++ '"' :: []) := by
    rw [quoteAscii, String.toList_ofList]
  have hscalar : readScalar ('"' :: (s.toList.flatMap escapeCharAscii ++ '"' :: [])) =
      some ((text s).document, []) := by
    have hwords : words.findSome? (fun w => (dropLead? w.1.toList
        ('"' :: (s.toList.flatMap escapeCharAscii ++ '"' :: []))).map (w.2, ·)) = none := rfl
    rw [readScalar, hwords]
    simp [readText_quoteAscii, document, CodePoint.ofString]
  have hscan := scans_nil.scalar (by decide) (by decide) hscalar (Nat.zero_le _)
  rw [read, hquote, hscan.scan_eq]
  rfl

end Json

namespace Declarations

open Text

/-! ### Keys -/

/-- A letter of ASCII, a low line or a dollar sign, and then word characters and dollar signs. -/
def IsIdentifier (name : List Char) : Prop :=
  ∃ c rest, name = c :: rest ∧ beginsIdentifier c = true ∧ ∀ d ∈ rest, continuesIdentifier d = true

/-- An identifier with a line feed behind it. -/
def IsBroken (name : List Char) : Prop :=
  ∃ front, IsIdentifier front ∧ name = front ++ ['\n']

theorem isPlainName_iff {name : List Char} :
    isPlainName name = true ↔ IsIdentifier name ∨ IsBroken name := by
  cases name with
  | nil =>
    refine ⟨nofun, ?_⟩
    rintro (⟨c, rest, hname, -⟩ | ⟨front, -, hname⟩)
    · cases hname
    · simp at hname
  | cons c rest =>
    rw [isPlainName, Bool.and_eq_true, Bool.or_eq_true, Bool.and_eq_true, decide_eq_true_eq,
      List.all_eq_true, List.all_eq_true]
    constructor
    · rintro ⟨hbegins, hall | ⟨hlast, hall⟩⟩
      · exact .inl ⟨c, rest, rfl, hbegins, hall⟩
      · refine .inr ⟨c :: rest.dropLast, ⟨c, rest.dropLast, rfl, hbegins, hall⟩, ?_⟩
        rw [List.cons_append, List.dropLast_append_getLast? '\n' hlast]
    · rintro (⟨_, _, hname, hbegins, hall⟩ | ⟨_, ⟨d, front, rfl, hbegins, hall⟩, hname⟩)
      · obtain ⟨rfl, rfl⟩ := List.cons.inj hname
        exact ⟨hbegins, .inl hall⟩
      · rw [List.cons_append] at hname
        obtain ⟨rfl, rfl⟩ := List.cons.inj hname
        exact ⟨hbegins, .inr ⟨List.getLast?_concat, by rwa [List.dropLast_concat]⟩⟩

theorem memberName_of_isPlainName {name : String} (h : isPlainName name.toList = true) :
    memberName name = name := by
  rw [memberName, if_pos h]

/-- White space stands in no identifier. -/
theorem IsIdentifier.isBlank {name : List Char} (h : IsIdentifier name) :
    ∀ c ∈ name, isBlank c = false := by
  obtain ⟨first, rest, rfl, hbegins, hall⟩ := h
  have hcontinues : ∀ c ∈ first :: rest, continuesIdentifier c = true := by
    refine List.forall_mem_cons.mpr ⟨?_, hall⟩
    simp only [beginsIdentifier, Bool.or_eq_true, decide_eq_true_eq] at hbegins
    rcases hbegins with (hletter | rfl) | rfl
    · rw [continuesIdentifier, isWord_of_isAsciiLetter hletter, Bool.true_or]
    · decide
    · decide
  intro c hc
  have hcontinues := hcontinues c hc
  rw [continuesIdentifier, Bool.or_eq_true, decide_eq_true_eq] at hcontinues
  rcases hcontinues with hword | rfl
  · exact isBlank_of_isWord hword
  · decide

/-- A text in printable ASCII between quotes that is read as the name. -/
structure IsLiteral (key name : String) : Prop where
  quoted : ∃ body, key.toList = '"' :: (body ++ ['"'])
  printable : Json.IsPrintable key.toList
  read : Json.read key = .ok (Json.text name).document

/-- A name stands as it is if it is an identifier, or one with a line feed behind it, and else as a
literal. -/
theorem memberName_cases (name : String) :
    (memberName name = name ∧
      (IsIdentifier name.toList ∧ (∀ c ∈ name.toList, isBlank c = false) ∨
        IsBroken name.toList)) ∨
    (¬IsIdentifier name.toList ∧ ¬IsBroken name.toList ∧ IsLiteral (memberName name) name) := by
  by_cases hplain : isPlainName name.toList = true
  · refine .inl ⟨memberName_of_isPlainName hplain, ?_⟩
    exact (isPlainName_iff.mp hplain).imp_left fun hname => ⟨hname, hname.isBlank⟩
  · have hneither := isPlainName_iff.not.mp hplain
    rw [not_or] at hneither
    refine .inr ⟨hneither.1, hneither.2, ?_⟩
    rw [memberName, if_neg hplain]
    exact ⟨⟨_, by rw [Json.quoteAscii, String.toList_ofList]⟩, Json.isPrintable_quoteAscii name,
      Json.read_quoteAscii name⟩

theorem memberName_injective : Function.Injective memberName := by
  intro name name' h
  have hcolon : EndsKey ":" := ⟨':', [], rfl, by decide⟩
  exact eq_of_memberName_append hcolon hcolon (congrArg (· ++ ":") h)

/-! ### Line breaks -/

theorem not_endsLine_of_isPrintable {s : List Char} (h : Json.IsPrintable s) :
    ∀ c ∈ s, endsLine c = false := by
  intro c hc
  refine Bool.eq_false_iff.mpr fun hends => ?_
  have hcontrol : ¬(32 ≤ c.toNat ∧ c.toNat < 127) :=
    of_inRanges (P := fun c => ¬(32 ≤ c.toNat ∧ c.toNat < 127)) (by decide) hends
  exact hcontrol (h c hc)

/-- A key breaks its line exactly if it is an identifier with a line feed behind it. -/
theorem endsLine_memberName_iff {lead : String} (hlead : lead ∈ memberLeads) (name : String) :
    (∃ c ∈ (lead ++ memberName name).toList, endsLine c = true) ↔ IsBroken name.toList := by
  have hleads : ∀ lead ∈ memberLeads, lead.toList.any endsLine = false := by decide
  rw [String.toList_append]
  constructor
  · rintro ⟨c, hc, hends⟩
    rcases List.mem_append.mp hc with hc | hc
    · exact absurd hends (List.any_eq_false.mp (hleads lead hlead) c hc)
    · rcases memberName_cases name with ⟨hname, ⟨-, hblank⟩ | hbroken⟩ | ⟨-, -, hliteral⟩
      · rw [hname] at hc
        exact absurd (hblank c hc) (by rw [isBlank_of_endsLine hends]; decide)
      · exact hbroken
      · rw [not_endsLine_of_isPrintable hliteral.printable c hc] at hends
        cases hends
  · intro hbroken
    have hname := memberName_of_isPlainName (isPlainName_iff.mpr (.inr hbroken))
    obtain ⟨front, -, hfront⟩ := hbroken
    refine ⟨'\n', ?_, by decide⟩
    rw [hname, hfront]
    simp

/-! ### Lines of one key after the other -/

/-- The lines of a key: it stands in front of some of them, and the others are comments. -/
structure IsBlock (key : String × String) (lines : List String) : Prop where
  of_mem : ∀ line ∈ lines, IsCommentLine line ∨ HasKey key.1 key.2 line
  exists_mem : ∃ line ∈ lines, HasKey key.1 key.2 line

/-- Lines that are those of some keys, one after the other. -/
inductive HasKeys : List (String × String) → List String → Prop
  | nil : HasKeys [] []
  | cons {key : String × String} {keys : List (String × String)} {block lines : List String}
      (hblock : IsBlock key block) (h : HasKeys keys lines) : HasKeys (key :: keys) (block ++ lines)

theorem IsBlock.hasKeys {key : String × String} {lines : List String} (h : IsBlock key lines) :
    HasKeys [key] lines := by
  have hlast := HasKeys.cons h .nil
  rwa [List.append_nil] at hlast

theorem HasKeys.append {keys keys' : List (String × String)} {lines lines' : List String}
    (h : HasKeys keys lines) (h' : HasKeys keys' lines') :
    HasKeys (keys ++ keys') (lines ++ lines') := by
  induction h with
  | nil => exact h'
  | cons hblock _ ih =>
    rw [List.append_assoc]
    exact .cons hblock ih

theorem hasKeys_flatMap {α : Type} {keys : α → List (String × String)} {lines : α → List String}
    {xs : List α} (h : ∀ x ∈ xs, HasKeys (keys x) (lines x)) :
    HasKeys (xs.flatMap keys) (xs.flatMap lines) := by
  induction xs with
  | nil => exact .nil
  | cons x xs ih =>
    rw [List.forall_mem_cons] at h
    exact h.1.append (ih h.2)

/-- One block for each of some members. -/
theorem hasKeys_members {α : Type} {key : α → String × String} {lines : α → List String}
    (h : ∀ x, IsBlock (key x) (lines x)) (xs : List α) :
    HasKeys (xs.map key) (xs.flatMap lines) := by
  rw [List.map_eq_flatMap]
  exact hasKeys_flatMap fun x _ => (h x).hasKeys

theorem IsBlock.of_isMemberLine {lead name : String} (hlead : lead ∈ memberLeads)
    {lines : List String} (hlines : ∀ line ∈ lines, IsMemberLine lead (memberName name) line)
    (hdeclares : ∃ line ∈ lines, Declares lead name line) : IsBlock (lead, name) lines where
  of_mem line hline := (hlines line hline).imp_right fun h => Declares.hasKey hlead h
  exists_mem := by
    obtain ⟨line, hline, h⟩ := hdeclares
    exact ⟨line, hline, h.hasKey hlead⟩

variable (table : ArityTable)

theorem isBlock_typedLine {lead : String} (hlead : lead ∈ memberLeads) (name : String)
    (description type : Json) :
    IsBlock (lead, name) (typedLine table lead (memberName name) description type) :=
  .of_isMemberLine hlead (fun _ => isMemberLine_typedLine) (exists_mem_typedLine ..)

theorem isBlock_signatureLines {lead : String} (hlead : lead ∈ memberLeads) (name : String)
    (signatures : List Signature) :
    IsBlock (lead, name) (signatureLines table lead (memberName name) signatures) :=
  .of_isMemberLine hlead (fun _ => isMemberLine_signatureLines) (exists_mem_signatureLines ..)

theorem isBlock_classMemberLines {lead : String} (hlead : lead ∈ memberLeads) (name : String)
    (node : Surface) : IsBlock (lead, name) (classMemberLines table lead name node) :=
  .of_isMemberLine hlead (fun _ => isMemberLine_classMemberLines)
    (exists_declares_classMemberLines ..)

/-- The line of a value, behind its comment. -/
theorem hasKeys_enumerationBody (members : List (String × Surface)) :
    HasKeys (members.map fun m => ("", m.1)) (enumerationBody members) := by
  refine hasKeys_members (fun m => ?_) members
  have hkey : HasKey "" m.1 (memberName m.1 ++ ",") :=
    ⟨empty_mem_memberLeads, ",", by rw [String.empty_append], ',', [], rfl, by decide⟩
  split
  · refine ⟨fun line hline => ?_, _, List.mem_append_right _ (List.mem_singleton_self _), hkey⟩
    rcases List.mem_append.mp hline with hline | hline
    · exact .inl (isCommentLine_docComment hline)
    · exact .inr (List.mem_singleton.mp hline ▸ hkey)
  · exact ⟨List.forall_mem_singleton.mpr (.inr hkey), _, List.mem_singleton_self _, hkey⟩

/-! ### Bodies of classes -/

/-- The keys of the listener functions for the events among some members, and for all others. -/
def listenerKeys (lead : String) (members : List (String × Surface)) : List (String × String) :=
  (members.filterMap handler?).flatMap (fun _ => listenerNames.map (lead, ·)) ++
    listenerNames.map (lead, ·)

theorem hasKeys_overloadsFor {lead : String} (hlead : lead ∈ memberLeads) (text : String) :
    HasKeys (listenerNames.map (lead, ·)) (overloadsFor lead text) := by
  have hline : ∀ function ∈ listenerNames,
      IsBlock (lead, function) [overloadFor lead function text] := by
    intro function hfunction
    have hkey := (declares_overloadFor lead hfunction text).hasKey hlead
    exact ⟨List.forall_mem_singleton.mpr (.inr hkey), _, List.mem_singleton_self _, hkey⟩
  rw [overloadsFor, List.map_eq_flatMap, List.map_eq_flatMap]
  exact hasKeys_flatMap fun function hfunction => (hline function hfunction).hasKeys

theorem hasKeys_listenerLines {lead : String} (hlead : lead ∈ memberLeads)
    (members : List (String × Surface)) :
    HasKeys (listenerKeys lead members) (listenerLines table lead members) := by
  have hkeys : listenerKeys lead members =
      ((members.filterMap handler?).map (listenerText table) ++ [otherListenerText]).flatMap
        fun _ => listenerNames.map (lead, ·) := by
    rw [listenerKeys, List.flatMap_append, List.flatMap_map, List.flatMap_singleton]
  rw [hkeys, listenerLines_eq, listenerPairs_eq]
  exact hasKeys_flatMap fun text _ => hasKeys_overloadsFor hlead text

theorem isBlock_indexLines (element : String) : IsBlock ("", "indexOf") (indexLines element) := by
  have hplain : memberName "indexOf" = "indexOf" := by decide
  have hdeclares : ∀ line ∈ indexLines element, Declares "" "indexOf" line := by
    intro line hline
    obtain ⟨tail, htail⟩ := exists_opens_indexLines hline
    exact ⟨tail, by rw [hplain]; exact htail⟩
  refine .of_isMemberLine empty_mem_memberLeads (fun line hline => .inr (hdeclares line hline)) ?_
  exact ⟨_, List.mem_cons_self, hdeclares _ List.mem_cons_self⟩

/-- The keys on one side of a class: those of its members, and behind them the listener functions if
events are dispatched there. -/
def sideKeys (lead : String) (declared all : List (String × Surface)) (dispatches : Bool) :
    List (String × String) :=
  declared.map (fun m => (lead, m.1)) ++ if dispatches then listenerKeys lead all else []

theorem hasKeys_sideLines {lead : String} (hlead : lead ∈ memberLeads)
    (declared all : List (String × Surface)) (dispatches : Bool) :
    HasKeys (sideKeys lead declared all dispatches)
      (sideLines table lead declared all dispatches) := by
  have hmembers := hasKeys_members (fun m : String × Surface =>
    isBlock_classMemberLines table hlead m.1 m.2) declared
  refine hmembers.append ?_
  cases dispatches with
  | false => exact .nil
  | true => exact hasKeys_listenerLines table hlead all

/-- The keys in the body of a class, from top to bottom: the constructor, the class's own side, the
functions of a vector, and the side of its instances. -/
def classKeys (header : ClassHeader) (statics prototype : List (String × Surface)) :
    List (String × String) :=
  (header.constructor.map fun _ => ("", "constructor")).toList ++
    (sideKeys "static " (statics.filter fun m => !m.2.isNested) statics
        header.dispatchesStaticEvents ++
      (((classElement? table header).map fun _ => ("", "indexOf")).toList ++
        sideKeys "" (declaredInstances table header prototype) prototype header.dispatchesEvents))

theorem hasKeys_constructorLines (header : ClassHeader) :
    HasKeys (header.constructor.map fun _ => ("", "constructor")).toList
      (constructorLines table header) := by
  rw [constructorLines]
  cases header.constructor with
  | none => exact .nil
  | some signatures =>
    have hblock := isBlock_signatureLines table empty_mem_memberLeads "constructor" signatures
    rw [memberName_constructor] at hblock
    exact hblock.hasKeys

theorem hasKeys_vectorLines (header : ClassHeader) :
    HasKeys ((classElement? table header).map fun _ => ("", "indexOf")).toList
      (vectorLines table header) := by
  rw [vectorLines]
  cases classElement? table header with
  | none => exact .nil
  | some element => exact (isBlock_indexLines element).hasKeys

theorem hasKeys_classBody (header : ClassHeader) (statics prototype : List (String × Surface)) :
    HasKeys (classKeys table header statics prototype)
      (classBody table header statics prototype) := by
  rw [classBody_eq, classKeys]
  have hconstructor := hasKeys_constructorLines table header
  have hvector := hasKeys_vectorLines table header
  have hown := hasKeys_sideLines table static_mem_memberLeads
    (statics.filter fun m => !m.2.isNested) statics header.dispatchesStaticEvents
  have hinstances := hasKeys_sideLines table empty_mem_memberLeads
    (declaredInstances table header prototype) prototype header.dispatchesEvents
  exact hconstructor.append (hown.append (hvector.append hinstances))

/-! ### Bodies of declarations -/

/-- The keys in the body of a declaration, from top to bottom, each with the words in front. -/
def bodyKeys : Surface → List (String × String)
  | .enumeration _ _ _ members => members.map fun m => ("", m.1)
  | .record _ _ _ members => members.map fun m => ("", m.name.asText)
  | .interface d => d.properties.map (fun p => ("", p.1)) ++ d.methods.map fun m => ("", m.1)
  | .cls header statics prototype => classKeys table header statics prototype
  | _ => []

/-- The lines between the braces of an enumeration, a structure, an interface or a class. -/
def bodyLines : Surface → List String
  | .enumeration _ _ _ members => enumerationBody members
  | .record _ _ _ members =>
    members.flatMap fun m =>
      typedLine table "" (memberName m.name.asText) m.description m.typeName
  | .interface d =>
    (d.properties.flatMap fun p =>
        typedLine table "" (memberName p.1) p.2.description p.2.typeName) ++
      d.methods.flatMap fun m => signatureLines table "" (memberName m.1) m.2
  | .cls header statics prototype => classBody table header statics prototype
  | _ => []

theorem isInfix_block (description : Json) (opening : String) (body : List String) :
    indent body <:+: block description opening body :=
  ⟨docComment description ++ [opening ++ " \x7b"], ["\x7d"], by simp [block]⟩

/-- The body of a declaration is written with it. -/
theorem isInfix_emit_bodyLines (name : String) (node : Surface) :
    indent (bodyLines table node) <:+: emit table name node := by
  cases node with
  | enumeration own fullname description members => exact isInfix_block ..
  | record own fullname description members => exact isInfix_block ..
  | interface d => exact isInfix_block ..
  | cls header statics prototype =>
    rw [emit]
    exact (isInfix_block ..).trans (List.prefix_append _ _).isInfix
  | _ => exact List.nil_infix

theorem hasKeys_bodyLines (node : Surface) :
    HasKeys (bodyKeys table node) (bodyLines table node) := by
  have hempty := empty_mem_memberLeads
  cases node with
  | enumeration own fullname description members => exact hasKeys_enumerationBody members
  | record own fullname description members =>
    exact hasKeys_members (fun m : Slot => isBlock_typedLine table hempty _ _ _) members
  | interface d =>
    exact (hasKeys_members (fun p : String × PropertyMember =>
      isBlock_typedLine table hempty _ _ _) d.properties).append
      (hasKeys_members (fun m : String × List Signature =>
        isBlock_signatureLines table hempty _ _) d.methods)
  | cls header statics prototype => exact hasKeys_classBody table header statics prototype
  | _ => exact .nil

/-- Keys denote their members. A name stands as it is exactly if it is an identifier or one with a
line feed behind it, and else as a literal in ASCII that is read as the name; so different names
have different keys. The body of an enumeration, a structure, an interface or a class consists of
the lines of its keys, and no line has two of them. Only the line feed behind an identifier breaks
a line. -/
theorem memberName_denotes :
    (∀ name : String,
      (memberName name = name ∧
        (IsIdentifier name.toList ∧ (∀ c ∈ name.toList, isBlank c = false) ∨
          IsBroken name.toList)) ∨
      (¬IsIdentifier name.toList ∧ ¬IsBroken name.toList ∧ IsLiteral (memberName name) name)) ∧
    Function.Injective memberName ∧
    (∀ name node, indent (bodyLines table node) <:+: emit table name node ∧
      HasKeys (bodyKeys table node) (bodyLines table node)) ∧
    (∀ lead name lead' name' line, HasKey lead name line → HasKey lead' name' line →
      lead = lead' ∧ name = name') ∧
    ∀ lead ∈ memberLeads, ∀ name,
      (∃ c ∈ (lead ++ memberName name).toList, endsLine c = true) ↔ IsBroken name.toList :=
  ⟨memberName_cases, memberName_injective,
    fun name node => ⟨isInfix_emit_bodyLines table name node, hasKeys_bodyLines table node⟩,
    fun _ _ _ _ _ h h' => h.unique h', fun _ hlead name => endsLine_memberName_iff hlead name⟩

/-- A key between quotes behind the word of its side, and a name that breaks its line. -/
theorem memberName_denotes_sizeOf :
    (HasKey "static " "size of" "static \x22size of\x22: number;" ∧
      ¬HasKey "" "static" "static \x22size of\x22: number;") ∧
    "static " ∈ memberLeads ∧ IsBroken "size\n".toList ∧
      ∃ c ∈ ("static " ++ memberName "size\n").toList, endsLine c = true := by
  obtain ⟨-, -, -, hunique, hbreaks⟩ := memberName_denotes (.ofPairs [])
  have hquoted : memberName "size of" = "\x22size of\x22" := by decide +kernel
  have hkey : HasKey "static " "size of" "static \x22size of\x22: number;" :=
    ⟨static_mem_memberLeads, ": number;", by rw [hquoted]; rfl, (opens_colon "number;").endsKey⟩
  have hbroken : IsBroken "size\n".toList :=
    ⟨"size".toList, ⟨'s', "ize".toList, rfl, by decide, List.all_eq_true.mp (by decide)⟩, rfl⟩
  refine ⟨⟨hkey, fun hother => ?_⟩, static_mem_memberLeads, hbroken,
    (hbreaks "static " static_mem_memberLeads "size\n").mpr hbroken⟩
  exact absurd (hunique _ _ _ _ _ hother hkey).1 (by decide)

end Declarations

end ScriptTypings
