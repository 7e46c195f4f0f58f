import ScriptTypings.Storage.Path

/-!
# A folder as a value

A `Storage` holds the files and folders below a working directory. Reading, writing and making
folders fail for the reasons that a file system gives.
-/

namespace ScriptTypings

inductive Item
  | file (content : ByteArray)
  | folder

def Item.isFolder : Item → Bool
  | .folder => true
  | .file _ => false

/-- Why a file cannot be used. -/
inductive FileError
  | notFound
  | isFolder
  | notFolder
  | alreadyThere
  | nameTooLong
  | nullInName
  | notText
  deriving DecidableEq, Repr

namespace FileError

/-- The number and text of an error that the file system reports. -/
def account? : FileError → Option (Nat × String)
  | notFound => some (2, "No such file or directory")
  | alreadyThere => some (17, "File exists")
  | notFolder => some (20, "Not a directory")
  | isFolder => some (21, "Is a directory")
  | nameTooLong => some (36, "File name too long")
  | nullInName => none
  | notText => none

/-- The message that goes with an error, if it has one. -/
def message? : FileError → Option String
  | nullInName => some "embedded null byte"
  | _ => none

end FileError

/-- Items by their place: the names of the folders around them and their own name. -/
structure Storage where
  items : List (List String × Item) := []

namespace Storage

/-- One step back from a place. The root is its own parent, and the steps that lead out of the
working directory are kept. -/
def stepBack (at_ : List String) : List String :=
  match at_.getLast? with
  | none => [".."]
  | some ".." => at_ ++ [".."]
  | some "/" => at_
  | some _ => at_.dropLast

/-- The step from a place along a name of a path; two dots lead back. -/
def step (at_ : List String) (part : String) : List String :=
  if part = ".." then stepBack at_ else at_ ++ [part]

/-- Where a path begins: at the root, or in the working directory. -/
def origin (path : Path) : List String :=
  if path.slashes = 0 then [] else ["/"]

/-- The path that leads to a place. -/
def pathTo : List String → Path
  | "/" :: parts => { slashes := 1, parts }
  | parts => { parts }

/-- Whether a place is the working directory, the root, or outside of both: folders that are always
there. -/
def isGiven (at_ : List String) : Bool :=
  at_ = ["/"] || at_.all (· = "..")

def item? (s : Storage) (at_ : List String) : Option Item :=
  if isGiven at_ then some .folder
  else (s.items.find? fun entry => entry.1 = at_).map Prod.snd

def put (s : Storage) (at_ : List String) (item : Item) : Storage :=
  if s.items.any fun entry => entry.1 = at_ then
    ⟨s.items.map fun entry => if entry.1 = at_ then (at_, item) else entry⟩
  else ⟨s.items ++ [(at_, item)]⟩

/-- The most bytes that a name may have. -/
def longestName : Nat := 255

/-- The most bytes that the text of a path may have. -/
def longestPath : Nat := 4095

/-- The place that names lead to from a place. Every name but the last one must lead to a folder. -/
def locateFrom (s : Storage) (at_ : List String) : List String → Except FileError (List String)
  | [] => .ok at_
  | part :: parts =>
    if longestName < part.utf8ByteSize then .error .nameTooLong
    else if parts.isEmpty then .ok (step at_ part)
    else
      match s.item? (step at_ part) with
      | some .folder => locateFrom s (step at_ part) parts
      | some (.file _) => .error .notFolder
      | none => .error .notFound

/-- The place that a path leads to. -/
def locate (s : Storage) (path : Path) : Except FileError (List String) :=
  if path.hasNull then .error .nullInName
  else if longestPath < path.text.utf8ByteSize then .error .nameTooLong
  else locateFrom s (origin path) path.parts

/-- What stands where a path leads to. -/
def itemAt (s : Storage) (path : Path) : Except FileError Item :=
  match s.locate path with
  | .error e => .error e
  | .ok at_ =>
    match s.item? at_ with
    | some item => .ok item
    | none => .error .notFound

/-- Whether a path leads to an item that satisfies a test. What is in the way means that it does
not, but too long a name is an error. -/
def leadsTo (test : Item → Bool) (s : Storage) (path : Path) : Except FileError Bool :=
  match s.itemAt path with
  | .ok item => .ok (test item)
  | .error .nameTooLong => .error .nameTooLong
  | .error _ => .ok false

/-- Whether a path leads to a file or a folder. -/
def has (s : Storage) (path : Path) : Except FileError Bool :=
  s.leadsTo (fun _ => true) path

/-- Whether a path leads to a folder. -/
def hasFolder (s : Storage) (path : Path) : Except FileError Bool :=
  s.leadsTo Item.isFolder path

def read (s : Storage) (path : Path) : Except FileError ByteArray :=
  match s.itemAt path with
  | .ok (.file content) => .ok content
  | .ok .folder => .error .isFolder
  | .error e => .error e

/-- Makes one new folder. -/
def makeNew (s : Storage) (path : Path) : Except FileError Storage :=
  match s.locate path with
  | .error e => .error e
  | .ok at_ => if (s.item? at_).isSome then .error .alreadyThere else .ok (s.put at_ .folder)

/-- Makes one folder; one that is there already will do. The answer is the storage behind it, and
what went wrong. -/
def makeOne (s : Storage) (path : Path) : Storage × Option FileError :=
  match s.makeNew path with
  | .ok made => (made, none)
  | .error e =>
    match s.hasFolder path with
    | .ok true => (s, none)
    | .ok false => (s, some e)
    | .error e => (s, some e)

/-- Makes a folder, and those around it where they are missing. Folders that were made stay even if
one inside them cannot be made. -/
def makeFolder (s : Storage) (path : Path) : Storage × Option FileError :=
  match s.makeOne path with
  | (s, some .notFound) =>
    if path.parts = [] then (s, some .notFound)
    else
      match makeFolder s path.parent with
      | (s, none) => s.makeOne path
      | failed => failed
  | made => made
termination_by path.parts.length
decreasing_by
  rename_i h
  rw [Path.parent, List.length_dropLast]
  exact Nat.sub_lt (List.length_pos_iff.mpr h) Nat.one_pos

/-- Writes a file into an existing folder. -/
def write (s : Storage) (path : Path) (content : ByteArray) : Except FileError Storage :=
  match s.locate path with
  | .error e => .error e
  | .ok at_ =>
    match s.item? at_ with
    | some .folder => .error .isFolder
    | _ => .ok (s.put at_ (.file content))

/-- The files below a folder by their places relative to it, in the order of their names. -/
def filesBelow (s : Storage) (path : Path) : List (List String × ByteArray) :=
  match s.locate path with
  | .error _ => []
  | .ok at_ =>
    let found := s.items.filterMap fun
      | (p, .file content) =>
        if at_.isPrefixOf p && at_.length < p.length then some (p.drop at_.length, content)
        else none
      | _ => none
    found.mergeSort fun a b => Path.precedes a.1 b.1

end Storage

end ScriptTypings
