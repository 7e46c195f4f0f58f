import ScriptTypings.Proofs.Declarations.TypeName

/-!
# Promise types

The promise for a result is chosen by the text of its written type, which is cut into a base and its
arguments again. A written type is taken apart where it was put together: its arguments are found at
every depth of brackets, those that were filled in included (`splitGeneric_scriptText`), and the
brackets of an array at the end belong to no name. So the promise is that of the expression
(`promiseType_print`).
-/

namespace ScriptTypings.Declarations

open Text TypeText TypeExpr

variable {count : String → Int}

/-! ### Written types are type texts -/

/-- The name that is written for one with some arguments: a primitive type has its own. -/
def writtenName (base : String) : List TypeExpr → String
  | [] => (NameMap.find? (lowered base) primitiveTypes).getD base
  | _ :: _ => base

theorem isName_writtenName {base : String} (h : IsName base) (arguments : List TypeExpr) :
    IsName (writtenName base arguments) := by
  have hall : ∀ e ∈ primitiveTypes, IsName e.2 := by decide +kernel
  cases arguments with
  | nil =>
    rw [writtenName]
    cases hfind : NameMap.find? (lowered base) primitiveTypes with
    | none => exact h
    | some primitive => exact hall _ (NameMap.mem_of_find?_eq_some hfind)
  | cons argument arguments => exact h

/-- The characters of a written type. -/
def scriptChars (type : TypeExpr) : List Char :=
  (scriptText type).toList

theorem toList_scriptRest (arguments : List TypeExpr) :
    (scriptRest arguments).toList = joinedRest (arguments.map scriptChars) := by
  induction arguments with
  | nil => rfl
  | cons argument arguments ih =>
    rw [scriptRest, String.toList_append, String.toList_append, ih]
    rfl

theorem scriptChars_named_cons (base : String) (argument : TypeExpr) (arguments : List TypeExpr) :
    scriptChars (.named base (argument :: arguments)) = base.toList ++
      '<' :: (scriptChars argument ++ joinedRest (arguments.map scriptChars) ++ ['>']) := by
  rw [scriptChars, scriptText]
  simp only [String.toList_append, toList_scriptRest, List.append_assoc]
  rfl

/-- The brackets of an array stand at its end. -/
theorem scriptChars_array (element : TypeExpr) :
    scriptChars (.array element) = scriptChars element ++ ['['] ++ [']'] := by
  rw [scriptChars, scriptText, String.toList_append, List.append_assoc]
  rfl

mutual

theorem isTypeText_scriptText :
    ∀ {type : TypeExpr}, type.AllNames IsName → IsTypeText (scriptChars type)
  | .named base [], h => (isName_writtenName h.1 []).isTypeText
  | .named base (argument :: arguments), h => by
    obtain ⟨hbase, hargument, harguments⟩ := h
    rw [scriptChars_named_cons]
    exact hbase.isTypeText.applied (isTypeText_scriptText hargument)
      (isTypeText_scriptAll harguments)
  | .array element, h => by
    have helement := isTypeText_scriptText (show element.AllNames IsName from h)
    have hbrackets : IsUnmarked (['['] ++ [']']) := by decide +kernel
    rw [scriptChars_array, List.append_assoc]
    refine isTypeText_append helement.ne_nil (by decide) helement.isTrimmed.head (fun c hc => ?_)
      helement.passes fun depth _ => hbrackets.passes depth
    obtain rfl := Option.some.inj hc
    decide

theorem isTypeText_scriptAll :
    ∀ {types : List TypeExpr}, AllNamesOf IsName types →
      ∀ s ∈ types.map scriptChars, IsTypeText s
  | [], _ => nofun
  | type :: types, h => by
    rw [List.map_cons, List.forall_mem_cons]
    exact ⟨isTypeText_scriptText h.1, isTypeText_scriptAll h.2⟩

end

/-! ### Taking a written type apart -/

/-- A written name and its arguments are found again. -/
theorem splitGeneric_scriptText {base : String} {arguments : List TypeExpr}
    (h : (TypeExpr.named base arguments).AllNames IsName) :
    splitGeneric (scriptText (.named base arguments)).toList =
      ((writtenName base arguments).toList, arguments.map scriptChars) := by
  have hname := isName_writtenName h.1 arguments
  cases arguments with
  | nil =>
    have htext : scriptText (.named base []) = writtenName base [] := rfl
    rw [htext, splitGeneric_of_not_mem hname.not_mem_open, hname.isTrimmed.trim_eq]
    rfl
  | cons argument arguments =>
    obtain ⟨hbase, hargument, harguments⟩ := h
    have hfirst := (isTypeText_scriptText hargument).isPiece
    have hrest : ∀ s ∈ arguments.map scriptChars, IsPiece s := fun s hs =>
      (isTypeText_scriptAll harguments s hs).isPiece
    rw [← scriptChars, scriptChars_named_cons, splitGeneric_joined hbase.not_mem_open hfirst hrest,
      hbase.isTrimmed.trim_eq]
    rfl

/-- The text of an array is all base, whatever its elements are. -/
theorem splitGeneric_scriptText_array {element : TypeExpr}
    (h : (TypeExpr.array element).AllNames IsName) :
    splitGeneric (scriptText (.array element)).toList =
      ((scriptText (.array element)).toList, []) := by
  have hend : endsWith (scriptChars (.array element)) ['>'] = false := by
    rw [scriptChars_array]
    exact endsWith_concat_of_ne (by decide) _ []
  have htrim : trim (scriptChars (.array element)) = scriptChars (.array element) :=
    (isTypeText_scriptText h).isTrimmed.trim_eq
  rw [← scriptChars, splitGeneric_of_not_endsWith hend, htrim]

/-- The last segment of an array's text ends with its bracket. -/
theorem exists_lastSegment_array (element : TypeExpr) :
    ∃ front, (Identifier.lastSegment (scriptText (.array element))).toList = front ++ [']'] := by
  rw [Identifier.lastSegment, String.toList_ofList, ← scriptChars, scriptChars_array]
  exact ⟨_, afterLast_concat_of_ne (by decide) _⟩

/-! ### The promise for a written type -/

/-- The promise for a result of a written type. An asynchronous result has a promise of its own with
the arguments of the type, and another operation has the promise of an operation. All other types
have the plain one, arrays included. -/
def promiseText : TypeExpr → String
  | .named base arguments =>
    let short := Identifier.lastSegment (writtenName base arguments)
    let written := scriptText (.named base arguments)
    if short ∈ asyncResults then
      applied ("Windows.Foundation.IPromiseWith" ++ short) (arguments.map scriptText)
    else if "Operation".toList <:+ short.toList then
      "Windows.Foundation.IPromiseWithOperation<any, " ++ written ++ ">"
    else "Windows.Foundation.IPromise<" ++ written ++ ">"
  | .array element => "Windows.Foundation.IPromise<" ++ scriptText (.array element) ++ ">"

theorem promiseOf_scriptText :
    ∀ {type : TypeExpr}, type.AllNames IsName → promiseOf (scriptText type) = promiseText type
  | .named base arguments, h => by
    have hmap : (arguments.map scriptChars).map String.ofList = arguments.map scriptText := by
      rw [List.map_map]
      exact List.map_congr_left fun _ _ => String.ofList_toList
    rw [promiseOf, splitGeneric_scriptText h]
    dsimp only
    rw [String.ofList_toList, hmap]
    unfold promiseText
    exact if_congr List.contains_iff_mem rfl (if_congr List.isSuffixOf_iff_suffix rfl rfl)
  | .array element, h => by
    obtain ⟨front, hfront⟩ := exists_lastSegment_array element
    have hasync : ¬ asyncResults.contains
        (Identifier.lastSegment (scriptText (.array element))) = true := by
      have hends : ∀ word ∈ asyncResults, word.toList.getLast? ≠ some ']' := by decide +kernel
      intro hmem
      exact hends _ (List.contains_iff_mem.mp hmem) (by rw [hfront, List.getLast?_concat])
    have hoperation : ¬ endsWith (Identifier.lastSegment (scriptText (.array element))).toList
        "Operation".toList = true := by
      rw [hfront]
      exact Bool.eq_false_iff.mp (endsWith_concat_of_ne (by decide) front "Operatio".toList)
    rw [promiseOf, splitGeneric_scriptText_array h]
    dsimp only
    rw [String.ofList_toList, if_neg hasync, if_neg hoperation]
    rfl

/-! ### The promise for a type text -/

variable {p : String → Prop}

mutual

theorem allNames_completed (hany : p "any") :
    ∀ {type : TypeExpr}, type.AllNames p → (completed count type).AllNames p
  | .named base arguments, h => by
    refine ⟨h.1, allNodesOf_iff.mpr fun type htype => ?_⟩
    rcases List.mem_append.mp htype with htype | htype
    · exact allNodesOf_iff.mp (allNamesOf_completedAll hany h.2) type htype
    · rw [eq_any_of_mem_added htype]
      exact ⟨hany, trivial⟩
  | .array element, h => @allNames_completed hany element h

theorem allNamesOf_completedAll (hany : p "any") :
    ∀ {types : List TypeExpr}, AllNamesOf p types → AllNamesOf p (completedAll count types)
  | [], _ => trivial
  | _ :: _, h => ⟨allNames_completed hany h.1, allNamesOf_completedAll hany h.2⟩

end

/-- What is written for the arguments of a name: the given ones, and those it lacks behind them. -/
def writtenArguments (table : ArityTable) (base : String) (given : List TypeExpr) : List String :=
  given.map (fun argument => typeName table argument.print) ++
    if IsBarePrimitive base given.length then []
    else List.replicate (table.lacking base given.length) "any"

theorem map_scriptText_completed {table : ArityTable} {base : String} {given : List TypeExpr}
    (hnames : (TypeExpr.named base given).AllNames IsName)
    (hfillable : (TypeExpr.named base given).AllNodes (IsFillable table)) :
    (completedAll table.count given ++ added table.count base given.length).map scriptText =
      writtenArguments table base given := by
  have hgiven : ∀ argument ∈ given,
      writeType table argument = typeName table argument.print := fun argument hmem => by
    rw [typeName, readTrimmed_print (allNodesOf_iff.mp hnames.2 argument hmem)]
  rw [List.map_append, ← writeTypes_eq hfillable.2, writeTypes_eq_map,
    List.map_congr_left hgiven, writtenArguments, added]
  split
  · rfl
  · rw [List.map_replicate, scriptText_any, ArityTable.lacking]

/-- The promise for the text of a type expression is chosen by what is written for the expression,
unless that lacks more arguments somewhere than are filled in. Its arguments are exactly those that
are written: the given ones in order, and then the ones that were missing. -/
theorem promiseType_print (table : ArityTable) {type : TypeExpr} (htype : type.AllNames IsName) :
    let trace : WritingTrace := typeTrace table type.print
    let whole := completed table.count type
    (trace.misfit? = none ↔ type.AllNodes (IsFillable table)) ∧
    (trace.misfit? = none →
      typeName table type.print = scriptText whole ∧
      promiseType table type.print = promiseText whole ∧
      ∀ base given, type = .named base given → ∃ arguments,
        whole = .named base arguments ∧
        arguments.map scriptText = writtenArguments table base given) := by
  intro trace whole
  have hstops : trace.misfit? = none ↔ type.AllNodes (IsFillable table) :=
    misfit?_typeTrace_print htype
  refine ⟨hstops, fun hnone => ?_⟩
  have hfillable := hstops.mp hnone
  have hwritten : typeName table type.print = scriptText whole := typeName_print_eq htype hfillable
  have hany : IsName "any" := by decide +kernel
  have hwhole : whole.AllNames IsName := allNames_completed hany htype
  refine ⟨hwritten, ?_, ?_⟩
  · rw [promiseType, hwritten, promiseOf_scriptText hwhole]
  · rintro base given rfl
    exact ⟨_, rfl, map_scriptText_completed htype hfillable⟩

/-- An asynchronous result that lacks its last argument, behind an array. -/
def lackingResult : TypeExpr :=
  .named "N.IAsyncOperationWithProgress" [.array (.named "IMap" [.named "String" []])]

def progressPairs : List (String × Int) :=
  [("IAsyncOperationWithProgress", 2), ("IMap", 2)]

/-- The arguments are found again behind the brackets of others. -/
theorem promiseType_print_lackingResult :
    lackingResult.AllNames IsName ∧
    promiseType (.ofPairs progressPairs) lackingResult.print =
      "Windows.Foundation.IPromiseWithIAsyncOperationWithProgress<IMap<string, any>[], any>" := by
  have htype : lackingResult.AllNames IsName := by
    refine ⟨?_, ⟨?_, ⟨?_, trivial⟩, trivial⟩, trivial⟩ <;> decide +kernel
  have hfills : (ArityTable.ofPairs progressPairs).FillsAll := by decide +kernel
  obtain ⟨hstops, hpromise⟩ := promiseType_print (.ofPairs progressPairs) htype
  have hfillable := excess?_eq_none_iff.mp (hfills.excess?_eq_none lackingResult)
  refine ⟨htype, ?_⟩
  rw [(hpromise (hstops.mpr hfillable)).2.1]
  decide +kernel

-- An array of actions is no action.
example : promiseType {} "array of IAsyncAction" =
    "Windows.Foundation.IPromise<IAsyncAction[]>" := by
  decide +kernel

end ScriptTypings.Declarations
