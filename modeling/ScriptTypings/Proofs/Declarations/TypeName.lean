import ScriptTypings.Proofs.Declarations.Completion
import ScriptTypings.Proofs.NameMap
import ScriptTypings.Proofs.TypeExpr

/-!
# Types as they are written

What is written for the text of a type expression is the text of the expression with the arguments
that are missing added (`typeName_print`): no argument is lost or moved, and no name is left with
fewer arguments than it requires. How many a name requires is what the pairs say for the name, or
else for its last segment, unless there is a capital sigma in it: that is put in lower case before
the segment is cut off, and differently at the end of a word.
-/

namespace ScriptTypings

open Text TypeExpr

/-- The last segment may be put in lower case before or after it is cut off, if no letter in it
looks at its surroundings. -/
theorem Identifier.lastSegment_lowered {name : String}
    (h : 'Σ' ∉ (lastSegment name).toList) :
    lastSegment (lowered name) = lowered (lastSegment name) := by
  have hlower : ∀ {s}, '.' ∉ s → '.' ∉ lower s :=
    fun hs hmem => hs (mem_of_mem_lowerFrom (by decide) hmem)
  simp only [lastSegment, lowered, String.toList_ofList] at h ⊢
  by_cases hdot : '.' ∈ name.toList
  · obtain ⟨before, last, hname, hlast⟩ := exists_eq_append_cons_of_mem hdot
    rw [hname, afterLast_append_cons hlast] at h ⊢
    obtain ⟨front, hfront⟩ := exists_lowerFrom_append [] before ('.' :: last)
    have hmark := lowerFrom_append_of_not_mem (s := ['.']) (by decide) (before.reverse ++ []) last
    have hcut : lower (before ++ '.' :: last) = front ++ '.' :: lower last := by
      rw [lower, hfront, show '.' :: last = ['.'] ++ last from rfl, hmark,
        lowerFrom_of_not_mem h, lower, lowerFrom_of_not_mem h]
      rfl
    rw [hcut, afterLast_append_cons (hlower hlast)]
  · rw [afterLast_eq_self hdot, afterLast_eq_self (hlower hdot)]

namespace Declarations

variable {table : ArityTable} {count : String → Int} {base : String} {given : Nat}

/-! ### How many arguments a name requires -/

/-- The number of the last pair with a name, in any casing. -/
def pairCount? (pairs : List (String × Int)) (name : String) : Option Int :=
  (pairs.reverse.find? fun p => lowered p.1 = lowered name).map Prod.snd

/-- The number that the pairs give for a name, or else for its last segment. -/
def required (pairs : List (String × Int)) (name : String) : Int :=
  ((pairCount? pairs name).or (pairCount? pairs (Identifier.lastSegment name))).getD 0

theorem find?_counts_ofPairs (pairs : List (String × Int)) (name : String) :
    NameMap.find? (lowered name) (ArityTable.ofPairs pairs).counts = pairCount? pairs name := by
  have hpairs : (ArityTable.ofPairs pairs).counts =
      NameMap.update [] (pairs.map fun p => (lowered p.1, p.2)) := rfl
  rw [hpairs, NameMap.find?_update, NameMap.find?_nil, Option.or_none, ← List.map_reverse,
    List.find?_map, Option.map_map]
  rfl

theorem count_ofPairs (pairs : List (String × Int)) {name : String}
    (h : (pairCount? pairs name).isSome ∨ 'Σ' ∉ (Identifier.lastSegment name).toList) :
    (ArityTable.ofPairs pairs).count name = required pairs name := by
  rw [ArityTable.count, required, find?_counts_ofPairs]
  cases hcount : pairCount? pairs name with
  | some count => rfl
  | none =>
    rw [hcount] at h
    rw [Identifier.lastSegment_lowered (h.resolve_left Bool.false_ne_true), find?_counts_ofPairs]
    rfl

/-- A name of a primitive type without arguments, which requires none. -/
def IsBarePrimitive (base : String) (given : Nat) : Prop :=
  given = 0 ∧ NameMap.has (lowered base) primitiveTypes = true

instance (base : String) (given : Nat) : Decidable (IsBarePrimitive base given) :=
  inferInstanceAs (Decidable (given = 0 ∧ NameMap.has (lowered base) primitiveTypes = true))

/-- A name does not lack more arguments than are filled in. -/
def IsFillable (table : ArityTable) (base : String) (given : Nat) : Prop :=
  IsBarePrimitive base given ∨ table.count base ≤ given + ArityTable.mostFilled

theorem excessOf?_eq_none_iff :
    excessOf? table base given = none ↔ IsFillable table base given := by
  have hlacking : table.lacking base given ≤ ArityTable.mostFilled ↔
      table.count base ≤ given + ArityTable.mostFilled := by
    rw [ArityTable.lacking]
    omega
  simp only [excessOf?, IsFillable, ← hlacking, IsBarePrimitive]
  split
  · rename_i hprimitive
    simpa using Or.inl hprimitive
  · rename_i hprimitive
    split <;> simp_all

mutual

theorem excess?_eq_none_iff :
    ∀ {type : TypeExpr}, excess? table type = none ↔ type.AllNodes (IsFillable table)
  | .named base arguments => by
    rw [excess?, AllNodes, ← excessAmong?_eq_none_iff, ← excessOf?_eq_none_iff]
    cases excessAmong? table arguments <;> simp
  | .array element => by
    rw [excess?, AllNodes]
    exact excess?_eq_none_iff

theorem excessAmong?_eq_none_iff :
    ∀ {types : List TypeExpr}, excessAmong? table types = none ↔
      AllNodesOf (IsFillable table) types
  | [] => ⟨fun _ => trivial, fun _ => rfl⟩
  | type :: types => by
    rw [excessAmong?, AllNodesOf, ← excess?_eq_none_iff, ← excessAmong?_eq_none_iff]
    cases excess? table type <;> simp

end

/-! ### The expression that is written -/

/-- The arguments that are added to those of a name. -/
def added (count : String → Int) (base : String) (given : Nat) : List TypeExpr :=
  if IsBarePrimitive base given then []
  else List.replicate (count base - given).toNat (.named "any" [])

mutual

/-- The expression with the arguments that are missing added. -/
def completed (count : String → Int) : TypeExpr → TypeExpr
  | .named base arguments =>
    .named base (completedAll count arguments ++ added count base arguments.length)
  | .array element => .array (completed count element)

def completedAll (count : String → Int) : List TypeExpr → List TypeExpr
  | [] => []
  | argument :: arguments => completed count argument :: completedAll count arguments

end

/-- Arguments are added behind those that are there, and nothing else changes. -/
inductive Extends : TypeExpr → TypeExpr → Prop
  | named {base : String} {arguments extended more : List TypeExpr}
    (harguments : List.Forall₂ Extends arguments extended) :
    Extends (.named base arguments) (.named base (extended ++ more))
  | array {element extended : TypeExpr} (helement : Extends element extended) :
    Extends (.array element) (.array extended)

theorem length_completedAll (types : List TypeExpr) :
    (completedAll count types).length = types.length := by
  induction types with
  | nil => rfl
  | cons type types ih => rw [completedAll, List.length_cons, List.length_cons, ih]

mutual

theorem extends_completed : ∀ type : TypeExpr, Extends type (completed count type)
  | .named _ arguments => .named (extends_completedAll arguments)
  | .array element => .array (extends_completed element)

theorem extends_completedAll :
    ∀ types : List TypeExpr, List.Forall₂ Extends types (completedAll count types)
  | [] => .nil
  | type :: types => .cons (extends_completed type) (extends_completedAll types)

end

/-- A name has the arguments that it requires. -/
def IsFilled (count : String → Int) (base : String) (given : Nat) : Prop :=
  IsBarePrimitive base given ∨ count base ≤ given

theorem isFilled_added : IsFilled count base (given + (added count base given).length) := by
  rw [added]
  split
  · rename_i hprimitive
    exact .inl hprimitive
  · rw [List.length_replicate]
    exact .inr (by omega)

theorem eq_any_of_mem_added {type : TypeExpr} (h : type ∈ added count base given) :
    type = .named "any" [] := by
  rw [added] at h
  split at h
  · cases h
  · exact List.eq_of_mem_replicate h

theorem allNodesOf_added (count : String → Int) (base : String) (given : Nat) :
    AllNodesOf (IsFilled count) (added count base given) := by
  have hany : (TypeExpr.named "any" []).AllNodes (IsFilled count) :=
    ⟨.inl ⟨rfl, by decide +kernel⟩, trivial⟩
  refine allNodesOf_iff.mpr fun type htype => ?_
  rwa [eq_any_of_mem_added htype]

mutual

theorem isFilled_completed :
    ∀ type : TypeExpr, (completed count type).AllNodes (IsFilled count)
  | .named base arguments => by
    have hargs := allNodesOf_iff.mp (isFilled_completedAll arguments)
    have hadded := allNodesOf_iff.mp (allNodesOf_added count base arguments.length)
    refine ⟨?_, allNodesOf_iff.mpr fun type htype => ?_⟩
    · rw [List.length_append, length_completedAll]
      exact isFilled_added
    · exact (List.mem_append.mp htype).elim (hargs type) (hadded type)
  | .array element => isFilled_completed element

theorem isFilled_completedAll :
    ∀ types : List TypeExpr, AllNodesOf (IsFilled count) (completedAll count types)
  | [] => trivial
  | type :: types => ⟨isFilled_completed type, isFilled_completedAll types⟩

end

/-! ### The text that is written -/

mutual

/-- An expression as scripts have it: a primitive type by its own name there, and an array by
brackets. -/
def scriptText : TypeExpr → String
  | .named base [] => (NameMap.find? (lowered base) primitiveTypes).getD base
  | .named base (argument :: arguments) =>
    base ++ "<" ++ scriptText argument ++ scriptRest arguments ++ ">"
  | .array element => scriptText element ++ "[]"

/-- The arguments behind the first, each with the separator before it. -/
def scriptRest : List TypeExpr → String
  | [] => ""
  | argument :: arguments => ", " ++ scriptText argument ++ scriptRest arguments

end

theorem join_scriptText (type : TypeExpr) (types : List TypeExpr) :
    join ", " ((type :: types).map scriptText) = scriptText type ++ scriptRest types := by
  induction types generalizing type with
  | nil => exact (String.append_empty).symm
  | cons next types ih =>
    have hjoin : join ", " ((type :: next :: types).map scriptText) =
        scriptText type ++ ", " ++ join ", " ((next :: types).map scriptText) := rfl
    rw [hjoin, ih, scriptRest, String.append_assoc, String.append_assoc]

theorem scriptText_named {arguments : List TypeExpr}
    (h : ¬ IsBarePrimitive base arguments.length) :
    scriptText (.named base arguments) = applied base (arguments.map scriptText) := by
  cases arguments with
  | nil =>
    have hnone : NameMap.find? (lowered base) primitiveTypes = none := by
      rw [NameMap.find?_eq_none_iff, ← NameMap.has_iff]
      exact fun hprimitive => h ⟨rfl, hprimitive⟩
    rw [scriptText, hnone]
    rfl
  | cons argument arguments =>
    rw [scriptText, applied, if_neg (by simp), join_scriptText]
    simp only [String.append_assoc]

theorem scriptText_any : scriptText (.named "any" []) = "any" := by
  decide +kernel

theorem map_scriptText_added (h : ¬ IsBarePrimitive base given)
    (hlacking : table.lacking base given ≤ ArityTable.mostFilled) :
    (added table.count base given).map scriptText = table.filled base given := by
  have hadded : added table.count base given =
      List.replicate (table.count base - given).toNat (.named "any" []) := if_neg h
  rw [hadded, List.map_replicate, scriptText_any, ArityTable.filled]
  exact (if_pos hlacking).symm

theorem named_eq_applied {arguments : List String}
    (h : ¬ IsBarePrimitive base arguments.length) :
    named table base arguments =
      applied base (arguments ++ table.filled base arguments.length) := by
  unfold named
  split
  · rename_i hfind
    have hname := List.mem_map_of_mem (f := Prod.fst) (NameMap.mem_of_find?_eq_some hfind)
    exact absurd ⟨rfl, NameMap.has_iff.mpr hname⟩ h
  · rfl

/-- What is written for a name and its written arguments. -/
theorem named_eq_scriptText {arguments : List TypeExpr}
    (h : IsFillable table base arguments.length) :
    named table base ((completedAll table.count arguments).map scriptText) =
      scriptText (completed table.count (.named base arguments)) := by
  by_cases hprimitive : IsBarePrimitive base arguments.length
  · obtain ⟨hnil, hhas⟩ := id hprimitive
    obtain rfl := List.length_eq_zero_iff.mp hnil
    have hadded : added table.count base 0 = [] := if_pos hprimitive
    have hfound : NameMap.find? (lowered base) primitiveTypes ≠ none := fun hnone =>
      NameMap.find?_eq_none_iff.mp hnone (NameMap.has_iff.mp hhas)
    obtain ⟨primitive, hfind⟩ := Option.ne_none_iff_exists'.mp hfound
    simp [named, completed, completedAll, scriptText, hadded, hfind]
  · have hlength : ((completedAll table.count arguments).map scriptText).length =
        arguments.length := by
      rw [List.length_map, length_completedAll]
    have hlacking : table.lacking base arguments.length ≤ ArityTable.mostFilled := by
      have hcount := h.resolve_left hprimitive
      rw [ArityTable.lacking]
      omega
    have hbase : ¬ IsBarePrimitive base (completedAll table.count arguments ++
        added table.count base arguments.length).length := by
      rintro ⟨hnil, hhas⟩
      rw [List.length_append, length_completedAll] at hnil
      exact hprimitive ⟨by omega, hhas⟩
    rw [named_eq_applied (hlength.symm ▸ hprimitive), hlength, completed, scriptText_named hbase,
      List.map_append, map_scriptText_added hprimitive hlacking]

mutual

theorem writeType_eq :
    ∀ {type : TypeExpr}, type.AllNodes (IsFillable table) →
      writeType table type = scriptText (completed table.count type)
  | .named base arguments, h => by
    rw [writeType, writeTypes_eq h.2, named_eq_scriptText h.1]
  | .array element, h => by
    rw [AllNodes] at h
    rw [writeType, completed, scriptText, writeType_eq h]

theorem writeTypes_eq :
    ∀ {types : List TypeExpr}, AllNodesOf (IsFillable table) types →
      writeTypes table types = (completedAll table.count types).map scriptText
  | [], _ => rfl
  | type :: types, h => by
    rw [writeTypes, completedAll, List.map_cons, writeType_eq h.1, writeTypes_eq h.2]

end

theorem writeTypes_eq_map (table : ArityTable) (types : List TypeExpr) :
    writeTypes table types = types.map (writeType table) := by
  induction types with
  | nil => rfl
  | cons type types ih => rw [writeTypes, ih, List.map_cons]

/-- Writing the text of an expression stops where too many arguments are missing. -/
theorem misfit?_typeTrace_print {type : TypeExpr} (htype : type.AllNames IsName) :
    Trace.misfit? (typeTrace table type.print : WritingTrace) = none ↔
      type.AllNodes (IsFillable table) := by
  rw [← excess?_eq_none_iff]
  show Trace.misfit? (typeTrace table (.text type.print)) = none ↔ _
  rw [typeTrace, readTrimmed_print htype]
  cases excess? table type <;> simp [Trace.misfit?]

/-- The text of an expression is written with the missing arguments. -/
theorem typeName_print_eq {type : TypeExpr} (htype : type.AllNames IsName)
    (hfillable : type.AllNodes (IsFillable table)) :
    typeName table type.print = scriptText (completed table.count type) := by
  rw [typeName, readTrimmed_print htype, writeType_eq hfillable]

/-- A type expression is written, unless it lacks more arguments somewhere than are filled in. Its
text is that of the expression with the missing arguments added behind the given ones, so that each
name has what it requires. That is what the pairs say, if they have the whole name or no letter of
its last segment looks at its surroundings. -/
theorem typeName_print (pairs : List (String × Int)) {type : TypeExpr}
    (htype : type.AllNames IsName) :
    let table := ArityTable.ofPairs pairs
    let trace : WritingTrace := typeTrace table type.print
    let whole := completed table.count type
    (trace.misfit? = none ↔ type.AllNodes (IsFillable table)) ∧
    (trace.misfit? = none → typeName table type.print = scriptText whole) ∧
    Extends type whole ∧ whole.AllNodes (IsFilled table.count) ∧
    ∀ name, (pairCount? pairs name).isSome ∨ 'Σ' ∉ (Identifier.lastSegment name).toList →
      table.count name = required pairs name := by
  intro table trace whole
  have hstops : trace.misfit? = none ↔ type.AllNodes (IsFillable table) :=
    misfit?_typeTrace_print htype
  exact ⟨hstops, fun hnone => typeName_print_eq htype (hstops.mp hnone), extends_completed type,
    isFilled_completed type, fun name hname => count_ofPairs pairs hname⟩

/-- A type of a page that lacks arguments below an array and behind a given one. -/
def lackingType : TypeExpr :=
  .array (.named "N.IMap" [.named "String" [.named "Object" []], .named "IView" []])

def viewPairs : List (String × Int) :=
  [("IMap", 3), ("iview", 1), ("String", 1)]

/-- Missing arguments are filled in at every depth. -/
theorem typeName_print_lackingType :
    lackingType.AllNames IsName ∧
    typeName (.ofPairs viewPairs) lackingType.print =
      "N.IMap<String<any>, IView<any>, any>[]" := by
  have htype : lackingType.AllNames IsName := by
    refine ⟨?_, ⟨?_, ⟨?_, trivial⟩, trivial⟩, ⟨?_, trivial⟩, trivial⟩ <;> decide +kernel
  have hfills : (ArityTable.ofPairs viewPairs).FillsAll := by decide +kernel
  obtain ⟨hstops, hwritten, -⟩ := typeName_print viewPairs htype
  refine ⟨htype, ?_⟩
  rw [hwritten (hstops.mpr (excess?_eq_none_iff.mp (hfills.excess?_eq_none lackingType)))]
  decide +kernel

-- Behind a letter and a dot, a capital sigma has the lower-case form of the end of a word.
example : typeName (.ofPairs [("Σ", 1)]) "A.Σ" = "A.Σ" ∧ required [("Σ", 1)] "A.Σ" = 1 := by
  decide +kernel

end Declarations

end ScriptTypings
