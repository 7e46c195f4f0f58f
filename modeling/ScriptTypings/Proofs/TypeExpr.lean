import ScriptTypings.Proofs.Text.Ascii
import ScriptTypings.Proofs.TypeText
import ScriptTypings.TypeExpr

/-!
# Reading what is printed

A type expression is read back from its text (`readChars_print`) if its names are filled and
trimmed, contain no bracket and no comma, and do not begin like an array. The arguments are found
because the text of an expression is a piece of a list at every depth of brackets (`isPiece_print`).
-/

namespace ScriptTypings.TypeExpr

open Text TypeText

/-- A name of which type expressions are made. -/
structure IsName (name : String) : Prop where
  ne_nil : name.toList ≠ []
  isTrimmed : IsTrimmed name.toList
  unmarked : IsUnmarked name.toList
  not_array : ¬ arrayLead <+: name.toList

theorem isName_iff {name : String} : IsName name ↔ name.toList ≠ [] ∧
    trim name.toList = name.toList ∧ IsUnmarked name.toList ∧
      arrayLead.isPrefixOf name.toList = false := by
  rw [← Bool.not_eq_true, List.isPrefixOf_iff_prefix, trim_eq_self_iff]
  exact ⟨fun h => ⟨h.1, h.2, h.3, h.4⟩, fun h => ⟨h.1, h.2.1, h.2.2.1, h.2.2.2⟩⟩

instance (name : String) : Decidable (IsName name) :=
  decidable_of_iff _ isName_iff.symm

theorem IsName.not_mem_open {name : String} (h : IsName name) : '<' ∉ name.toList :=
  fun hmem => (h.unmarked '<' hmem).1 rfl

mutual

/-- Every name in an expression has a property, together with the number of its arguments. -/
def AllNodes (p : String → Nat → Prop) : TypeExpr → Prop
  | named base arguments => p base arguments.length ∧ AllNodesOf p arguments
  | array element => element.AllNodes p

def AllNodesOf (p : String → Nat → Prop) : List TypeExpr → Prop
  | [] => True
  | argument :: arguments => argument.AllNodes p ∧ AllNodesOf p arguments

end

/-- Every name in an expression has a property. -/
abbrev AllNames (p : String → Prop) (type : TypeExpr) : Prop :=
  type.AllNodes fun name _ => p name

abbrev AllNamesOf (p : String → Prop) (types : List TypeExpr) : Prop :=
  AllNodesOf (fun name _ => p name) types

theorem allNodesOf_iff {p : String → Nat → Prop} {types : List TypeExpr} :
    AllNodesOf p types ↔ ∀ type ∈ types, type.AllNodes p := by
  induction types with
  | nil => simp [AllNodesOf]
  | cons first types ih => rw [AllNodesOf, List.forall_mem_cons, ih]

mutual

theorem AllNodes.mono {p q : String → Nat → Prop}
    (hpq : ∀ name given, p name given → q name given) :
    ∀ {type : TypeExpr}, type.AllNodes p → type.AllNodes q
  | .named _ _, h => ⟨hpq _ _ h.1, h.2.mono hpq⟩
  | .array element, h => @AllNodes.mono p q hpq element h

theorem AllNodesOf.mono {p q : String → Nat → Prop}
    (hpq : ∀ name given, p name given → q name given) :
    ∀ {types : List TypeExpr}, AllNodesOf p types → AllNodesOf q types
  | [], _ => trivial
  | _ :: _, h => ⟨h.1.mono hpq, h.2.mono hpq⟩

end

/-! ### Texts of expressions -/

/-- The characters of an expression. -/
def printChars (type : TypeExpr) : List Char :=
  type.print.toList

theorem toList_printRest (arguments : List TypeExpr) :
    (printRest arguments).toList = joinedRest (arguments.map printChars) := by
  induction arguments with
  | nil => rfl
  | cons argument arguments ih =>
    rw [printRest, String.toList_append, String.toList_append, ih]
    rfl

theorem printChars_named_cons (base : String) (argument : TypeExpr) (arguments : List TypeExpr) :
    (named base (argument :: arguments)).printChars = base.toList ++
      '<' :: (argument.printChars ++ joinedRest (arguments.map printChars) ++ ['>']) := by
  rw [printChars, print]
  simp only [String.toList_append, toList_printRest, List.append_assoc]
  rfl

theorem printChars_array (element : TypeExpr) :
    (array element).printChars = arrayLead ++ element.printChars := by
  rw [printChars, print, String.toList_append, String.toList_ofList]
  rfl

theorem IsName.isTypeText {name : String} (h : IsName name) : IsTypeText name.toList where
  ne_nil := h.ne_nil
  isTrimmed := h.isTrimmed
  passes depth _ := h.unmarked.passes depth

theorem isTypeText_array {s : List Char} (h : IsTypeText s) : IsTypeText (arrayLead ++ s) := by
  have hunmarked : IsUnmarked arrayLead := by decide +kernel
  refine isTypeText_append (by decide) h.ne_nil (fun c hc => ?_) h.isTrimmed.last
    (fun depth _ => hunmarked.passes depth) h.passes
  obtain rfl := Option.some.inj hc
  decide

mutual

theorem isTypeText_print :
    ∀ {type : TypeExpr}, type.AllNames IsName → IsTypeText type.printChars
  | .named base [], h => h.1.isTypeText
  | .named base (argument :: arguments), h => by
    obtain ⟨hbase, hargument, harguments⟩ := h
    rw [printChars_named_cons]
    exact hbase.isTypeText.applied (isTypeText_print hargument) (isTypeText_printAll harguments)
  | .array element, h => by
    have helement : element.AllNames IsName := h
    rw [printChars_array]
    exact isTypeText_array (isTypeText_print helement)

theorem isTypeText_printAll :
    ∀ {types : List TypeExpr}, AllNamesOf IsName types →
      ∀ s ∈ types.map printChars, IsTypeText s
  | [], _ => nofun
  | type :: types, h => by
    rw [List.map_cons, List.forall_mem_cons]
    exact ⟨isTypeText_print h.1, isTypeText_printAll h.2⟩

end

/-- An expression is a piece of a list of types. -/
theorem isPiece_print {type : TypeExpr} (h : type.AllNames IsName) : IsPiece type.printChars :=
  (isTypeText_print h).isPiece

/-! ### Reading back -/

theorem prepared_print (trims : Bool) {type : TypeExpr} (h : type.AllNames IsName) :
    prepared trims type.printChars = type.printChars := by
  cases trims with
  | false => rfl
  | true => exact (isPiece_print h).trim_eq

theorem readChars_array {trims : Bool} {s t element : List Char} (hs : prepared trims s = t)
    (hlead : dropLead? arrayLead t = some element) :
    readChars trims s = array (readChars trims element) := by
  subst hs
  rw [readChars]
  split
  · rename_i hfound
    rw [hlead] at hfound
    rw [Option.some.inj hfound]
  · rename_i hfound
    rw [hlead] at hfound
    cases hfound

theorem readChars_named {trims : Bool} {s t base : List Char} {arguments : List (List Char)}
    (hs : prepared trims s = t) (hlead : dropLead? arrayLead t = none)
    (hparts : splitGeneric t = (base, arguments)) :
    readChars trims s = named (.ofList base) (arguments.map (readChars trims)) := by
  subst hs
  rw [readChars]
  split
  · rename_i hfound
    rw [hlead] at hfound
    cases hfound
  · simp [hparts]

mutual

/-- A printed expression is read back, with white space dropped first or not. -/
theorem readChars_print (trims : Bool) :
    ∀ {type : TypeExpr}, type.AllNames IsName → readChars trims type.printChars = type
  | .named base [], h => by
    have hname := h.1
    have hlead : dropLead? arrayLead (named base []).printChars = none :=
      dropLead?_eq_none hname.not_array
    have hparts : splitGeneric (named base []).printChars = (base.toList, []) := by
      rw [printChars, print, splitGeneric_of_not_mem hname.not_mem_open, hname.isTrimmed.trim_eq]
    rw [readChars_named (prepared_print trims h) hlead hparts, String.ofList_toList]
    rfl
  | .named base (argument :: arguments), h => by
    obtain ⟨hname, hargument, harguments⟩ := id h
    have hlead : dropLead? arrayLead (named base (argument :: arguments)).printChars = none := by
      rw [printChars_named_cons]
      -- the mark of an array has no bracket in it, so it would have to be found in the name
      exact dropLead?_eq_none fun hlead =>
        hname.not_array (isPrefix_of_isPrefix_append_cons (by decide) hlead)
    have hpieces : ∀ s ∈ arguments.map printChars, IsPiece s := fun s hs =>
      (isTypeText_printAll harguments s hs).isPiece
    have hparts : splitGeneric (named base (argument :: arguments)).printChars =
        (base.toList, argument.printChars :: arguments.map printChars) := by
      rw [printChars_named_cons, splitGeneric_joined hname.not_mem_open (isPiece_print hargument)
        hpieces, hname.isTrimmed.trim_eq]
    rw [readChars_named (prepared_print trims h) hlead hparts, String.ofList_toList, List.map_cons,
      readChars_print trims hargument, readAll_print trims harguments]
  | .array element, h => by
    have hlead : dropLead? arrayLead (array element).printChars = some element.printChars := by
      rw [printChars_array, dropLead?_append]
    have helement : element.AllNames IsName := h
    rw [readChars_array (prepared_print trims h) hlead, readChars_print trims helement]

theorem readAll_print (trims : Bool) :
    ∀ {types : List TypeExpr}, AllNamesOf IsName types →
      (types.map printChars).map (readChars trims) = types
  | [], _ => rfl
  | type :: types, h => by
    rw [List.map_cons, List.map_cons, readChars_print trims h.1, readAll_print trims h.2]

end

theorem read_print {type : TypeExpr} (h : type.AllNames IsName) : read type.print = type :=
  readChars_print false h

theorem readTrimmed_print {type : TypeExpr} (h : type.AllNames IsName) :
    readTrimmed type.print = type :=
  readChars_print true h

/-! ### Renaming -/

variable {p : String → Prop}

mutual

theorem allNames_rename {q : String → Prop} {f : String → String}
    (hf : ∀ name, p name → q (f name)) :
    ∀ {type : TypeExpr}, type.AllNames p → (type.rename f).AllNames q
  | .named _ _, h => ⟨hf _ h.1, allNamesOf_renameAll hf h.2⟩
  | .array element, h => @allNames_rename _ f hf element h

theorem allNamesOf_renameAll {q : String → Prop} {f : String → String}
    (hf : ∀ name, p name → q (f name)) :
    ∀ {types : List TypeExpr}, AllNamesOf p types → AllNamesOf q (renameAll f types)
  | [], _ => trivial
  | _ :: _, h => ⟨allNames_rename hf h.1, allNamesOf_renameAll hf h.2⟩

end

mutual

/-- Names that are left as they are leave the expression as it is. -/
theorem rename_eq_self {f : String → String} (hf : ∀ name, p name → f name = name) :
    ∀ {type : TypeExpr}, type.AllNames p → type.rename f = type
  | .named base arguments, h => by rw [rename, hf base h.1, renameAll_eq_self hf h.2]
  | .array element, h => by rw [rename, rename_eq_self hf (show element.AllNames p from h)]

theorem renameAll_eq_self {f : String → String} (hf : ∀ name, p name → f name = name) :
    ∀ {types : List TypeExpr}, AllNamesOf p types → renameAll f types = types
  | [], _ => rfl
  | type :: types, h => by rw [renameAll, rename_eq_self hf h.1, renameAll_eq_self hf h.2]

end

end ScriptTypings.TypeExpr
