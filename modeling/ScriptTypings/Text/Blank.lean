/-!
# White space, trimming and line ends

`isBlank` is the white space of Unicode together with the information separators. `trim` removes it
at both ends, `oneLine` also turns every inner run of it into a single space. `normalizeNewlines`
and `splitLines` deal with the characters that end a line.
-/

namespace ScriptTypings.Text

/-- Whether a code point lies in one of the ranges, both ends included. -/
def inRanges (ranges : List (Nat × Nat)) (n : Nat) : Bool :=
  ranges.any fun r => r.1 ≤ n && n ≤ r.2

/-- White space: tabs, line ends, separators and spaces of every width. -/
def blankRanges : List (Nat × Nat) :=
  [(9, 13), (28, 32), (133, 133), (160, 160), (5760, 5760), (8192, 8202), (8232, 8233),
   (8239, 8239), (8287, 8287), (12288, 12288)]

def isBlank (c : Char) : Bool :=
  inRanges blankRanges c.toNat

/-- The white space that page markup treats as layout. -/
def isLayoutBlank (c : Char) : Bool :=
  c = ' ' || c = '\t' || c = '\n' || c = '\x0c' || c = '\r'

def trimStart (s : List Char) : List Char :=
  s.dropWhile isBlank

def trimEnd (s : List Char) : List Char :=
  (s.reverse.dropWhile isBlank).reverse

def trim (s : List Char) : List Char :=
  trimEnd (trimStart s)

/-- Replaces every run of white space by one space; the flag tells that the character before was
blank already. -/
def collapse : Bool → List Char → List Char
  | _, [] => []
  | afterBlank, c :: rest =>
    if isBlank c then
      if afterBlank then collapse true rest else ' ' :: collapse true rest
    else c :: collapse false rest

/-- The text on one line: trimmed, and single spaces inside. -/
def oneLine (s : List Char) : List Char :=
  collapse false (trim s)

/-- Writes every line end, of one character or two, as a line feed. -/
def normalizeNewlines : List Char → List Char
  | '\r' :: '\n' :: rest => '\n' :: normalizeNewlines rest
  | '\r' :: rest => '\n' :: normalizeNewlines rest
  | c :: rest => c :: normalizeNewlines rest
  | [] => []

/-- Characters that end a line of a text file. -/
def endsLine (c : Char) : Bool :=
  inRanges [(10, 13), (28, 30), (133, 133), (8232, 8233)] c.toNat

/-- The lines of a text without their ends; a carriage return and the line feed behind it end one
line together. The second argument is the line read so far, backwards. -/
def splitLinesFrom : List Char → List Char → List (List Char)
  | [], [] => []
  | [], line => [line.reverse]
  | '\r' :: '\n' :: rest, line => line.reverse :: splitLinesFrom rest []
  | c :: rest, line =>
    if endsLine c then line.reverse :: splitLinesFrom rest []
    else splitLinesFrom rest (c :: line)

def splitLines (s : List Char) : List (List Char) :=
  splitLinesFrom s []

/-- `trim` on strings. -/
def trimmed (s : String) : String :=
  .ofList (trim s.toList)

/-- `oneLine` on strings. -/
def inlined (s : String) : String :=
  .ofList (oneLine s.toList)

theorem length_trimStart_le (s : List Char) : (trimStart s).length ≤ s.length :=
  (List.dropWhile_sublist _).length_le

theorem length_trimEnd_le (s : List Char) : (trimEnd s).length ≤ s.length := by
  simpa [trimEnd] using (List.dropWhile_sublist (l := s.reverse) isBlank).length_le

theorem length_trim_le (s : List Char) : (trim s).length ≤ s.length :=
  Nat.le_trans (length_trimEnd_le _) (length_trimStart_le _)

end ScriptTypings.Text
