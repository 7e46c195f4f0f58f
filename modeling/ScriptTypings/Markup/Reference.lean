import ScriptTypings.Markup.NameTable
import ScriptTypings.Text.Classes
import ScriptTypings.Text.Percent
import ScriptTypings.Text.Search

/-!
# Character references

`decodeReferences` replaces `&name;`, `&#123;` and `&#x7B;` by the characters they stand for. The
longest name counts, and some names need no semicolon. An ampersand that begins no reference stays
as it is.
-/

namespace ScriptTypings.Markup

open Text

/-- The value of decimal digits. -/
def decimalValue (digits : List Char) : Nat :=
  digits.foldl (fun n c => n * 10 + (c.toNat - 48)) 0

/-- The value of hexadecimal digits. -/
def hexadecimalValue (digits : List Char) : Nat :=
  digits.foldl (fun n c => n * 16 + (hexValue? c).getD 0) 0

/-- One entry of a line of the table: a name and its characters. -/
def readNamed (entry : List Char) : String × List Char :=
  let codes := splitOnChar '+' (afterLast '=' entry)
  (.ofList (upTo ['='] entry), codes.map fun digits => Char.ofNat (hexadecimalValue digits))

/-- The characters of each name. -/
def namedCharacters : List (String × List Char) :=
  namedCharacterLines.flatMap fun line => (splitOnChar ' ' line.toList).map readNamed

/-- The names that need no semicolon. -/
def bareNames : List String :=
  bareNameLines.flatMap fun line => (splitOnChar ' ' line.toList).map String.ofList

def named? (name : List Char) : Option (List Char) :=
  (namedCharacters.find? fun entry => entry.1 = .ofList name).map Prod.snd

/-- No name is longer. -/
def longestName : Nat := 31

/-- The characters that stood at 128 to 159 in the code page pages were once written in. -/
def codePage : List Nat :=
  [0x20AC, 0x81, 0x201A, 0x192, 0x201E, 0x2026, 0x2020, 0x2021, 0x2C6, 0x2030, 0x160, 0x2039,
   0x152, 0x8D, 0x17D, 0x8F, 0x90, 0x2018, 0x2019, 0x201C, 0x201D, 0x2022, 0x2013, 0x2014, 0x2DC,
   0x2122, 0x161, 0x203A, 0x153, 0x9D, 0x17E, 0x178]

/-- The character for a number. Zero and numbers of no character give the replacement character,
and 128 to 159 are numbers of the code page. -/
def numbered (n : Nat) : Char :=
  if n = 0 || (0xD800 ≤ n && n ≤ 0xDFFF) || 0x10FFFF < n then '\uFFFD'
  else if 128 ≤ n then Char.ofNat (codePage.getD (n - 128) n)
  else Char.ofNat n

/-- How many characters a semicolon takes at the front of a text: one or none. -/
def semicolon : List Char → Nat
  | ';' :: _ => 1
  | _ => 0

/-- The reference by number whose digits follow a mark of the given length. -/
def numberReference? (mark : Nat) (value : List Char → Nat) (digits rest : List Char) :
    Option (List Char × Nat) :=
  if digits.isEmpty then none
  else some ([numbered (value digits)], mark + digits.length + semicolon rest)

/-- The reference by a name of the given length. Inside an attribute a name without semicolon is
none if a letter, a digit or an equals sign follows. -/
def nameReference? (inAttribute : Bool) (s : List Char) (length : Nat) :
    Option (List Char × Nat) :=
  let name := s.take length
  match s.drop length with
  | ';' :: _ => (named? name).map fun characters => (characters, length + 1)
  | rest =>
    let runsOn :=
      match rest with
      | c :: _ => isAsciiLetter c || isAsciiDigit c || c = '='
      | [] => false
    if bareNames.contains (.ofList name) && !(inAttribute && runsOn) then
      (named? name).map fun characters => (characters, length)
    else none

/-- The characters that a reference stands for, and its length behind the ampersand; none if the
ampersand begins no reference. -/
def reference? (inAttribute : Bool) (s : List Char) : Option (List Char × Nat) :=
  match s with
  | '#' :: x :: rest =>
    if x = 'x' || x = 'X' then
      let digits := rest.takeWhile fun c => (hexValue? c).isSome
      numberReference? 2 hexadecimalValue digits (rest.drop digits.length)
    else
      let digits := (x :: rest).takeWhile isAsciiDigit
      numberReference? 1 decimalValue digits ((x :: rest).drop digits.length)
  | s =>
    let run := s.takeWhile fun c => isAsciiLetter c || isAsciiDigit c
    let lengths := ((List.range (min run.length longestName)).map (· + 1)).reverse
    -- the longest name that is there decides, even where it then stays as it is
    (lengths.find? fun length => (nameReference? false s length).isSome).bind fun length =>
      nameReference? inAttribute s length

def decodeReferences (inAttribute : Bool) : List Char → List Char
  | [] => []
  | c :: rest =>
    if c = '&' then
      match reference? inAttribute rest with
      | some (characters, size) => characters ++ decodeReferences inAttribute (rest.drop size)
      | none => c :: decodeReferences inAttribute rest
    else c :: decodeReferences inAttribute rest
termination_by s => s.length
decreasing_by
  · exact Nat.lt_succ_of_le (by rw [List.length_drop]; exact Nat.sub_le _ _)
  · exact Nat.lt_succ_self _
  · exact Nat.lt_succ_self _

end ScriptTypings.Markup
