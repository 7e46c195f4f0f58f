import ScriptTypings.Json.Writer
import ScriptTypings.Session.Basic

/-!
# Supplementary tables

A supplementary table is a JSON object in a file of its own. Loading a table puts its file into
canonical form: members in ascending order, four spaces of indentation.
-/

namespace ScriptTypings.Supplies

/-- The failure for a table that cannot be read. -/
def tableFailure (path : Path) : FileError → Failure
  | .notFound => .input (.tableMissing path.text)
  | error => .file error

/-- The members of the table that a text holds, in ascending order. -/
def tableOfText (path : Path) (text : String) : Except Failure (List (String × Json)) :=
  match Json.read text with
  | .error e => .error (.ofReadError (.tableMalformed path.text) e)
  | .ok (.object members) =>
    if (Json.Document.object members).isEncodable then
      .ok (NameMap.sorted (NameMap.ofPairs (Json.Document.memberValues members)))
    else .error .unencodable
  | .ok _ => .error (.input (.tableShape path.text))

/-- The canonical text of a table. -/
def tableText (table : List (String × Json)) : String :=
  (Json.object table).write ⟨some 4⟩ ++ "\n"

/-- Puts the file of a table into canonical form. -/
def rewriteTable (path : Path) (text : String) : Action Unit := do
  Action.log .info .supplies ("Sorting " ++ path.text)
  Action.writeText path text

/-- Loads a table; its file is written again if its text is not canonical. A table that cannot be
written is found out only when its file has been emptied for it. -/
def loadTable (path : Path) : Action (List (String × Json)) := do
  let text ← Action.readText path (tableFailure path)
  match tableOfText path text with
  | .ok table =>
    if tableText table ≠ text then rewriteTable path (tableText table)
    return table
  | .error failure =>
    if failure = .unencodable then rewriteTable path ""
    throw failure

/-- The number of type arguments that a member states. -/
def arityOf (member : String × Json) : Except InputError (String × Int) :=
  match member.2 with
  | .whole n => if 0 ≤ n then .ok (member.1, n) else .error (.arity member.1 member.2.display)
  | _ => .error (.arity member.1 member.2.display)

/-- Loads a table of numbers of type arguments. -/
def loadArity (path : Path) : Action (List (String × Int)) := do
  let table ← loadTable path
  match table.mapM arityOf with
  | .ok counts => return counts
  | .error e => throw (.input e)

/-- The failure for a header that cannot be read. -/
def headerFailure (path : Path) : FileError → Failure
  | .notFound => .input (.headerMissing path.text)
  | error => .file error

/-- Loads the declarations that are written before the generated ones. -/
def loadHeader (path : Path) : Action String :=
  Action.readText path (headerFailure path)

end ScriptTypings.Supplies
