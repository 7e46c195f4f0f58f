import ScriptTypings.Proofs.Declarations.TypeName
import ScriptTypings.Proofs.Merge.Memory
import ScriptTypings.Proofs.Merge.ShortNames

/-!
# Names that are remembered

Three readers look for the names of a type text: one remembers them, one replaces short names and
one writes the type of a script. The last two take an array mark from the front of a text as often
as there is one. The first takes it away once, so behind a mark that has been dropped any further
marks are read as the beginning of the name (`recorded`). The names are the same exactly if no array
holds arrays (`recorded_eq_names_iff`), and `remember_print` tells what each reader finds.
-/

namespace ScriptTypings

open Text TypeText

namespace TypeExpr

mutual

/-- The names in an expression, each base before its arguments. -/
def names : TypeExpr → List String
  | named base arguments => base :: namesOf arguments
  | array element => element.names

def namesOf : List TypeExpr → List String
  | [] => []
  | argument :: arguments => argument.names ++ namesOf arguments

end

mutual

/-- The names that are found where one array mark at the front of a text is dropped. -/
def recorded : TypeExpr → List String
  | named base arguments => base :: recordedOf arguments
  | array element => element.recordedBehind ""

/-- The names that are found where no array mark is dropped; what stands in front is read as a part
of the first name. -/
def recordedBehind (front : String) : TypeExpr → List String
  | named base arguments => (front ++ base) :: recordedOf arguments
  | array element => element.recordedBehind (front ++ .ofList arrayLead)

def recordedOf : List TypeExpr → List String
  | [] => []
  | argument :: arguments => argument.recorded ++ recordedOf arguments

end

def isArray : TypeExpr → Bool
  | array _ => true
  | named _ _ => false

mutual

/-- No array in an expression has arrays for its elements. -/
def IsFlat : TypeExpr → Prop
  | named _ arguments => AreFlat arguments
  | array element => element.isArray = false ∧ element.IsFlat

def AreFlat : List TypeExpr → Prop
  | [] => True
  | argument :: arguments => argument.IsFlat ∧ AreFlat arguments

end

/-! ### Names that are found in a text -/

/-- The names in a text from which no array mark is dropped. -/
def foundIn (s : List Char) : List String :=
  String.ofList (splitGeneric s).1 :: (splitGeneric s).2.flatMap mentionedChars

theorem mentionedChars_eq_foundIn {s t : List Char} (hs : s ≠ [])
    (ht : (dropLead? arrayLead s).getD s = t) : mentionedChars s = foundIn t := by
  subst ht
  rw [mentionedChars, if_neg (by simpa using hs)]
  simp only [foundIn, List.flatMap_subtype, List.unattach_attach]

/-- What may stand in front of a name and be read as a part of it. -/
structure IsFront (front : List Char) : Prop where
  head : ∀ c ∈ front.head?, isBlank c = false
  not_mem_open : '<' ∉ front

theorem isFront_nil : IsFront [] :=
  ⟨nofun, List.not_mem_nil⟩

theorem IsFront.mark {front : List Char} (h : IsFront front) : IsFront (front ++ arrayLead) where
  head := by
    cases front with
    | nil =>
      intro c hc
      rw [show c = 'a' from (Option.some.inj hc).symm]
      decide
    | cons c front => exact h.head
  not_mem_open := by
    rw [List.mem_append, not_or]
    exact ⟨h.not_mem_open, by decide⟩

theorem IsFront.name {front : List Char} (h : IsFront front) {name : String} (hname : IsName name) :
    '<' ∉ front ++ name.toList ∧ trim (front ++ name.toList) = front ++ name.toList := by
  refine ⟨?_, ?_⟩
  · rw [List.mem_append, not_or]
    exact ⟨h.not_mem_open, hname.not_mem_open⟩
  · by_cases hnil : front = []
    · rw [hnil, List.nil_append, hname.isTrimmed.trim_eq]
    · exact (isTrimmed_append hnil hname.ne_nil h.head hname.isTrimmed.last).trim_eq

mutual

/-- The names found in the text of an expression. -/
theorem mentionedChars_print :
    ∀ {type : TypeExpr}, type.AllNames IsName → mentionedChars type.printChars = type.recorded
  | .named base arguments, h => by
    have hlead : ¬ arrayLead <+: (named base arguments).printChars := by
      cases arguments with
      | nil => exact h.1.not_array
      | cons argument arguments =>
        rw [printChars_named_cons]
        exact fun hlead => h.1.not_array (isPrefix_of_isPrefix_append_cons (by decide) hlead)
    have hwhole : (dropLead? arrayLead (named base arguments).printChars).getD
        (named base arguments).printChars = [] ++ (named base arguments).printChars := by
      rw [dropLead?_eq_none hlead]
      rfl
    have hname : String.ofList [] ++ base = base := by simp
    rw [mentionedChars_eq_foundIn (isTypeText_print h).ne_nil hwhole, foundIn_print isFront_nil h,
      recordedBehind, recorded, hname]
  | .array element, h => by
    have helement : element.AllNames IsName := h
    have hinside : (dropLead? arrayLead (array element).printChars).getD
        (array element).printChars = [] ++ element.printChars := by
      rw [printChars_array, dropLead?_append]
      rfl
    rw [mentionedChars_eq_foundIn (isTypeText_print h).ne_nil hinside,
      foundIn_print isFront_nil helement, recorded]

theorem foundIn_print {front : List Char} (hfront : IsFront front) :
    ∀ {type : TypeExpr}, type.AllNames IsName →
      foundIn (front ++ type.printChars) = type.recordedBehind (.ofList front)
  | .named base [], h => by
    obtain ⟨hopen, htrim⟩ := hfront.name h.1
    have htext : (named base []).printChars = base.toList := rfl
    rw [htext, foundIn, splitGeneric_of_not_mem hopen, htrim, recordedBehind, recordedOf,
      String.ofList_append, String.ofList_toList, List.flatMap_nil]
  | .named base (argument :: arguments), h => by
    obtain ⟨hname, hargument, harguments⟩ := id h
    obtain ⟨hopen, htrim⟩ := hfront.name hname
    have hpieces : ∀ s ∈ arguments.map printChars, IsPiece s := fun s hs =>
      (isTypeText_printAll harguments s hs).isPiece
    have hall : ((argument :: arguments).map printChars).flatMap mentionedChars =
        recordedOf (argument :: arguments) := flatMap_mentionedChars_print h.2
    rw [printChars_named_cons, ← List.append_assoc, foundIn,
      splitGeneric_joined hopen (isPiece_print hargument) hpieces, htrim, recordedBehind,
      String.ofList_append, String.ofList_toList]
    exact congrArg _ hall
  | .array element, h => by
    have helement : element.AllNames IsName := h
    rw [printChars_array, ← List.append_assoc, foundIn_print hfront.mark helement, recordedBehind,
      String.ofList_append]

theorem flatMap_mentionedChars_print :
    ∀ {types : List TypeExpr}, AllNamesOf IsName types →
      (types.map printChars).flatMap mentionedChars = recordedOf types
  | [], _ => rfl
  | type :: types, h => by
    rw [List.map_cons, List.flatMap_cons, mentionedChars_print h.1,
      flatMap_mentionedChars_print h.2, recordedOf]

end

theorem mentioned_print {type : TypeExpr} (h : type.AllNames IsName) :
    mentioned type.print = type.recorded :=
  mentionedChars_print h

/-! ### Recorded names and names -/

mutual

theorem length_recorded : ∀ type : TypeExpr, type.recorded.length = type.names.length
  | .named base arguments => by
    rw [recorded, names, List.length_cons, List.length_cons, length_recordedOf]
  | .array element => by rw [recorded, names, length_recordedBehind]

theorem length_recordedBehind (front : String) :
    ∀ type : TypeExpr, (type.recordedBehind front).length = type.names.length
  | .named base arguments => by
    rw [recordedBehind, names, List.length_cons, List.length_cons, length_recordedOf]
  | .array element => by rw [recordedBehind, names, length_recordedBehind]

theorem length_recordedOf :
    ∀ types : List TypeExpr, (recordedOf types).length = (namesOf types).length
  | [] => rfl
  | type :: types => by
    rw [recordedOf, namesOf, List.length_append, List.length_append, length_recorded,
      length_recordedOf]

end

mutual

/-- The names are found exactly if no array holds arrays. -/
theorem recorded_eq_names_iff : ∀ type : TypeExpr, type.recorded = type.names ↔ type.IsFlat
  | .named base arguments => by
    rw [recorded, names, IsFlat, ← recordedOf_eq_namesOf_iff]
    exact ⟨fun h => (List.cons.inj h).2, fun h => by rw [h]⟩
  | .array element => by
    rw [recorded, names, IsFlat, recordedBehind_eq_names_iff]
    simp

theorem recordedBehind_eq_names_iff (front : String) : ∀ type : TypeExpr,
    type.recordedBehind front = type.names ↔
      front = "" ∧ type.isArray = false ∧ type.IsFlat
  | .named base arguments => by
    rw [recordedBehind, names, IsFlat, ← recordedOf_eq_namesOf_iff, isArray, List.cons.injEq,
      String.append_eq_right_iff]
    simp
  | .array element => by
    have hmark : front ++ String.ofList arrayLead ≠ "" := by
      intro h
      have hlength := congrArg (fun s : String => s.toList.length) h
      simp [length_arrayLead] at hlength
    rw [recordedBehind, names, recordedBehind_eq_names_iff, isArray]
    simp [hmark]

theorem recordedOf_eq_namesOf_iff :
    ∀ types : List TypeExpr, recordedOf types = namesOf types ↔ AreFlat types
  | [] => ⟨fun _ => trivial, fun _ => rfl⟩
  | type :: types => by
    rw [recordedOf, namesOf, AreFlat, ← recorded_eq_names_iff, ← recordedOf_eq_namesOf_iff]
    exact ⟨fun h => List.append_inj h (length_recorded type), fun ⟨h, hs⟩ => by rw [h, hs]⟩

end

/-! ### Names of renamed and completed expressions -/

mutual

theorem names_rename (f : String → String) :
    ∀ type : TypeExpr, (type.rename f).names = type.names.map f
  | .named base arguments => by rw [rename, names, names, namesOf_renameAll, List.map_cons]
  | .array element => by rw [rename, names, names, names_rename]

theorem namesOf_renameAll (f : String → String) :
    ∀ types : List TypeExpr, namesOf (renameAll f types) = (namesOf types).map f
  | [] => rfl
  | type :: types => by
    rw [renameAll, namesOf, namesOf, names_rename, namesOf_renameAll, List.map_append]

end

theorem namesOf_append (types others : List TypeExpr) :
    namesOf (types ++ others) = namesOf types ++ namesOf others := by
  induction types with
  | nil => rfl
  | cons type types ih => rw [List.cons_append, namesOf, namesOf, ih, List.append_assoc]

end TypeExpr

namespace Declarations

open TypeExpr

theorem eq_any_of_mem_namesOf_added (count : String → Int) (base : String) (given : Nat) :
    ∀ name ∈ namesOf (added count base given), name = "any" := by
  have hreplicate : ∀ n, ∀ name ∈ namesOf (List.replicate n (.named "any" [])), name = "any" := by
    intro n
    induction n with
    | zero => exact fun _ hname => absurd hname List.not_mem_nil
    | succ n ih => simpa [List.replicate_succ, namesOf, TypeExpr.names] using ih
  rw [added]
  split
  · exact fun _ hname => absurd hname List.not_mem_nil
  · exact hreplicate _

mutual

/-- A name that is only in the completed expression is that of an added argument. -/
theorem names_completed (count : String → Int) : ∀ type : TypeExpr,
    type.names.Sublist (completed count type).names ∧
      ∀ name ∈ (completed count type).names, name ∈ type.names ∨ name = "any"
  | .named base arguments => by
    obtain ⟨hsublist, hmem⟩ := namesOf_completedAll count arguments
    rw [completed, TypeExpr.names, TypeExpr.names, namesOf_append]
    refine ⟨(hsublist.trans (List.sublist_append_left _ _)).cons_cons base, fun name hname => ?_⟩
    simp only [List.mem_cons, List.mem_append] at hname ⊢
    have hadded := eq_any_of_mem_namesOf_added count base arguments.length name
    have hargument := hmem name
    tauto
  | .array element => names_completed count element

theorem namesOf_completedAll (count : String → Int) : ∀ types : List TypeExpr,
    (namesOf types).Sublist (namesOf (completedAll count types)) ∧
      ∀ name ∈ namesOf (completedAll count types), name ∈ namesOf types ∨ name = "any"
  | [] => ⟨List.Sublist.refl [], nofun⟩
  | type :: types => by
    obtain ⟨hfirst, hmemFirst⟩ := names_completed count type
    obtain ⟨hrest, hmemRest⟩ := namesOf_completedAll count types
    rw [completedAll, namesOf, namesOf]
    refine ⟨hfirst.append hrest, fun name hname => ?_⟩
    rw [List.mem_append] at hname ⊢
    have hinFirst := hmemFirst name
    have hinRest := hmemRest name
    tauto

end

end Declarations

namespace Memory

open TypeExpr Declarations

/-- Remembering the text of a type expression adds the recorded names that the memory does not have
in any casing, each once and in the order in which they come first. These are the names of the
expression exactly if no array in it holds arrays, while short names are replaced, and script types
written, for the names at every depth. -/
theorem remember_print {memory : Memory} (hmemory : memory.Distinct) {type : TypeExpr}
    (htype : type.AllNames IsName) :
    let after := memory.remember type.print
    after.names.map lowered = ((memory.names ++ type.recorded).map lowered).eraseDups ∧
    (after.names.map lowered).Nodup ∧ memory.names <+: after.names ∧
    (type.recorded = type.names ↔ type.IsFlat) ∧
    (∀ table : ShortNames, table.IsTextual →
      table.qualify type.print = .text (type.rename table.replaced).print ∧
      (type.rename table.replaced).names = type.names.map table.replaced) ∧
    ∀ table : ArityTable, type.AllNodes (IsFillable table) →
      let whole := completed table.count type
      typeName table type.print = scriptText whole ∧ type.names.Sublist whole.names ∧
      ∀ name ∈ whole.names, name ∈ type.names ∨ name = "any" := by
  intro after
  have hafter : after = memory.addAll type.recorded := by rw [← mentioned_print htype]; rfl
  rw [hafter]
  refine ⟨hmemory.lowered_names_addAll _, (hmemory.addAll _).nodup_lowered,
    names_prefix_addAll memory _, recorded_eq_names_iff type, fun table htable => ?_,
    fun table hfillable => ?_⟩
  · exact ⟨htable.qualify_text htype, names_rename _ type⟩
  · obtain ⟨hsublist, hmem⟩ := names_completed table.count type
    refine ⟨?_, hsublist, hmem⟩
    rw [typeName, readTrimmed_print htype]
    exact writeType_eq hfillable

/-- A type of a page in which an array holds arrays. -/
def gridType : TypeExpr :=
  .named "IMap" [.named "String" [], .array (.named "Uri" [.array (.array (.named "Point" []))])]

/-- A name is remembered already in another casing, and one is remembered with a mark before it. -/
theorem remember_print_gridType :
    let memory := ({} : Memory).addAll ["URI", "Size"]
    memory.Distinct ∧ gridType.AllNames IsName ∧
    (memory.remember gridType.print).names.map lowered =
      ["uri", "size", "imap", "string", "array of point"] ∧
    gridType.names = ["IMap", "String", "Uri", "Point"] ∧ ¬ gridType.IsFlat := by
  intro memory
  have hmemory : memory.Distinct := distinct_empty.addAll _
  have htype : gridType.AllNames IsName := by
    refine ⟨?_, ⟨?_, trivial⟩, ⟨?_, ⟨?_, trivial⟩, trivial⟩, trivial⟩ <;> decide +kernel
  obtain ⟨hnames, -, -, hflat, -⟩ := Memory.remember_print hmemory htype
  refine ⟨hmemory, htype, ?_, rfl, fun h => ?_⟩
  · rw [hnames]
    decide +kernel
  · exact absurd (hflat.mpr h) (by decide +kernel)

end Memory

end ScriptTypings
