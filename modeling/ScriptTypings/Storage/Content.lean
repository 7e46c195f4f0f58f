import ScriptTypings.Storage.Folder
import ScriptTypings.Text.Blank

/-!
# Text files

Files hold text in UTF-8. A text is read with line feeds for line ends of every kind, and written as
it is.
-/

namespace ScriptTypings

/-- The text that some bytes hold, line ends normalized; none if they are not UTF-8. -/
def textOfBytes? (content : ByteArray) : Option String :=
  (String.fromUTF8? content).map fun s => .ofList (Text.normalizeNewlines s.toList)

namespace Storage

def readText (s : Storage) (path : Path) : Except FileError String :=
  match s.read path with
  | .error e => .error e
  | .ok content =>
    match textOfBytes? content with
    | some text => .ok text
    | none => .error .notText

def writeText (s : Storage) (path : Path) (text : String) : Except FileError Storage :=
  s.write path text.toUTF8

end Storage

end ScriptTypings
