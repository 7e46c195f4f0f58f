import ScriptTypings.TypeText

/-!
# Type expressions

A type expression is a name with type arguments, or an array of a type expression. `read` accepts
every text, `print` writes an expression back. `rename` exchanges the names, and `mentioned` lists
the names that a type text mentions.
-/

namespace ScriptTypings

open Text TypeText

inductive TypeExpr
  | named (base : String) (arguments : List TypeExpr)
  | array (element : TypeExpr)

namespace TypeExpr

/-- The text with or without the white space around it. -/
def prepared (trims : Bool) (s : List Char) : List Char :=
  if trims then trim s else s

theorem length_prepared_le (trims : Bool) (s : List Char) :
    (prepared trims s).length ≤ s.length := by
  cases trims with
  | false => exact Nat.le_refl _
  | true => exact length_trim_le s

/-- Reads a type text. With `trims`, white space around each part is dropped first. -/
def readChars (trims : Bool) (s : List Char) : TypeExpr :=
  match _h : dropLead? arrayLead (prepared trims s) with
  | some element => array (readChars trims element)
  | none =>
    let g := splitGeneric (prepared trims s)
    named (.ofList g.1) (g.2.attach.map fun ⟨a, _⟩ => readChars trims a)
termination_by s.length
decreasing_by
  · have := length_of_dropLead? _h
    have := length_prepared_le trims s
    have := length_arrayLead
    omega
  · rename_i ha
    exact Nat.lt_of_lt_of_le (length_lt_of_mem_arguments ha) (length_prepared_le trims s)

/-- Reads a type text in which array marks stand without white space before them. -/
def read (s : String) : TypeExpr :=
  readChars false s.toList

/-- Reads a type text, white space around each part dropped. -/
def readTrimmed (s : String) : TypeExpr :=
  readChars true s.toList

mutual

def print : TypeExpr → String
  | named base [] => base
  | named base (argument :: arguments) =>
    base ++ "<" ++ argument.print ++ printRest arguments ++ ">"
  | array element => .ofList arrayLead ++ element.print

/-- The arguments behind the first, each with the separator before it. -/
def printRest : List TypeExpr → String
  | [] => ""
  | argument :: arguments => ", " ++ argument.print ++ printRest arguments

end

mutual

/-- The expression with every name exchanged. -/
def rename (f : String → String) : TypeExpr → TypeExpr
  | named base arguments => named (f base) (renameAll f arguments)
  | array element => array (element.rename f)

def renameAll (f : String → String) : List TypeExpr → List TypeExpr
  | [] => []
  | argument :: arguments => argument.rename f :: renameAll f arguments

end

theorem length_withoutLead_le (s : List Char) :
    ((dropLead? arrayLead s).getD s).length ≤ s.length := by
  cases h : dropLead? arrayLead s with
  | none => simp
  | some rest =>
    have := length_of_dropLead? h
    simp only [Option.getD_some]
    omega

/-- The names in a type text, each base before its arguments. An array mark at the front is
dropped once. -/
def mentionedChars (s : List Char) : List String :=
  if s.isEmpty then []
  else
    let g := splitGeneric ((dropLead? arrayLead s).getD s)
    String.ofList g.1 :: g.2.attach.flatMap fun ⟨a, _⟩ => mentionedChars a
termination_by s.length
decreasing_by
  rename_i h
  exact Nat.lt_of_lt_of_le (length_lt_of_mem_arguments h) (length_withoutLead_le s)

def mentioned (s : String) : List String :=
  mentionedChars s.toList

end TypeExpr

end ScriptTypings
