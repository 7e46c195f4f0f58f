import ScriptTypings.Json.Document
import ScriptTypings.Text.Classes
import ScriptTypings.Text.Percent
import ScriptTypings.Text.Search

/-!
# JSON tokens

`Token.scan` cuts a text into brackets, marks and scalar values. A scalar is read as far as it
goes: digits behind a leading zero, or a point without digits, are left to the next token. Of the
escapes in a text two surrogates make one character, and a surrogate without its other half stays as
it is. Text that is no token ends the tokens with `Token.malformed`.
-/

namespace ScriptTypings.Json

open Text Number

inductive Token
  | openList
  | closeList
  | openObject
  | closeObject
  | colon
  | comma
  | scalar (value : Document)
  | malformed

/-- Blanks between tokens. -/
def isGap (c : Char) : Bool :=
  c = ' ' || c = '\t' || c = '\n' || c = '\r'

/-- The character that a backslash and a letter stand for. -/
def escaped? : Char → Option Char
  | '"' => some '"'
  | '\\' => some '\\'
  | '/' => some '/'
  | 'b' => some '\x08'
  | 'f' => some '\x0c'
  | 'n' => some '\n'
  | 'r' => some '\r'
  | 't' => some '\t'
  | _ => none

def hexUnit? (a b c d : Char) : Option Nat := do
  let a ← hexValue? a
  let b ← hexValue? b
  let c ← hexValue? c
  let d ← hexValue? d
  return ((a * 16 + b) * 16 + c) * 16 + d

def isHighSurrogate (unit : Nat) : Bool :=
  0xD800 ≤ unit && unit ≤ 0xDBFF

def isLowSurrogate (unit : Nat) : Bool :=
  0xDC00 ≤ unit && unit ≤ 0xDFFF

/-- Adds a high surrogate that found no partner to text that is held backwards. -/
def flush (high : Option Nat) (done : List CodePoint) : List CodePoint :=
  match high with
  | some h => .lone h :: done
  | none => done

/-- Adds a code unit to text that is held backwards; two surrogates make one character. -/
def addUnit (high : Option Nat) (unit : Nat) (done : List CodePoint) :
    Option Nat × List CodePoint :=
  if isHighSurrogate unit then (some unit, flush high done)
  else if isLowSurrogate unit then
    match high with
    | some h =>
      (none, .char (Char.ofNat (0x10000 + (h - 0xD800) * 0x400 + (unit - 0xDC00))) :: done)
    | none => (none, .lone unit :: done)
  else (none, .char (Char.ofNat unit) :: flush high done)

/-- The text up to the closing quote, and what follows the quote. -/
def readText : List Char → Option Nat → List CodePoint → Option (List CodePoint × List Char)
  | [], _, _ => none
  | '"' :: rest, high, done => some ((flush high done).reverse, rest)
  | '\\' :: 'u' :: a :: b :: c :: d :: rest, high, done =>
    match hexUnit? a b c d with
    | some unit =>
      let next := addUnit high unit done
      readText rest next.1 next.2
    | none => none
  | '\\' :: e :: rest, high, done =>
    match escaped? e with
    | some c => readText rest none (.char c :: flush high done)
    | none => none
  | c :: rest, high, done =>
    if c = '\\' || c.toNat < 32 then none else readText rest none (.char c :: flush high done)

def digitsValue (digits : List Char) : Nat :=
  digits.foldl (fun n c => n * 10 + (c.toNat - 48)) 0

/-- The digits of a whole part: a zero alone, or digits that do not begin with zero. -/
def wholeDigits : List Char → List Char
  | [] => []
  | c :: rest =>
    if c = '0' then ['0']
    else if isAsciiDigit c then c :: rest.takeWhile isAsciiDigit
    else []

/-- The digits behind a point, if at least one follows it. -/
def fractionDigits : List Char → List Char
  | '.' :: rest => rest.takeWhile isAsciiDigit
  | _ => []

/-- The exponent, and how many characters it takes; none if no digit follows. -/
def exponent? : List Char → Option (Int × Nat)
  | c :: rest =>
    if c = 'e' || c = 'E' then
      let (negative, signed, rest) :=
        match rest with
        | '-' :: rest => (true, 1, rest)
        | '+' :: rest => (false, 1, rest)
        | rest => (false, 0, rest)
      let digits := rest.takeWhile isAsciiDigit
      if digits.isEmpty then none
      else
        let size : Int := digitsValue digits
        some (if negative then -size else size, 1 + signed + digits.length)
    else none
  | [] => none

/-- Reads a number without its sign, and counts its characters. -/
def readNumber (negative : Bool) (s : List Char) : Option (Document × Nat) :=
  let front := wholeDigits s
  if front.isEmpty then none
  else
    let fraction := fractionDigits (s.drop front.length)
    let point := if fraction.isEmpty then 0 else fraction.length + 1
    let tail := s.drop (front.length + point)
    let digits := digitsValue (front ++ fraction)
    match exponent? tail with
    | some (power, size) =>
      some
        (.real (.ofDecimal negative digits (power - fraction.length)),
          front.length + point + size)
    | none =>
      if fraction.isEmpty then
        some (.whole (if negative then -(digits : Int) else digits), front.length)
      else
        some (.real (.ofDecimal negative digits (-(fraction.length : Int))), front.length + point)

/-- The words that stand for values. -/
def words : List (String × Document) :=
  [("null", .null), ("true", .bool true), ("false", .bool false), ("NaN", .real .notANumber),
   ("Infinity", .real (.infinite false)), ("-Infinity", .real (.infinite true))]

/-- A scalar at the start of the text, and what follows it. -/
def readScalar (s : List Char) : Option (Document × List Char) :=
  match words.findSome? fun w => (dropLead? w.1.toList s).map (w.2, ·) with
  | some found => some found
  | none =>
    match s with
    | '"' :: rest => (readText rest none []).map fun (t, rest) => (.text t, rest)
    | '-' :: rest => (readNumber true rest).map fun (n, size) => (n, rest.drop size)
    | s => (readNumber false s).map fun (n, size) => (n, s.drop size)

def punctuation? : Char → Option Token
  | '[' => some .openList
  | ']' => some .closeList
  | '\x7b' => some .openObject
  | '\x7d' => some .closeObject
  | ':' => some .colon
  | ',' => some .comma
  | _ => none

/-- The tokens of a text; the fuel bounds their number. -/
def scanFrom : Nat → List Char → List Token
  | _, [] => []
  | 0, _ :: _ => [.malformed]
  | fuel + 1, c :: rest =>
    if isGap c then scanFrom fuel rest
    else
      match punctuation? c with
      | some token => token :: scanFrom fuel rest
      | none =>
        match readScalar (c :: rest) with
        | some (value, rest) => .scalar value :: scanFrom fuel rest
        | none => [.malformed]

/-- The tokens of a text; each takes at least one character of it. -/
def Token.scan (s : List Char) : List Token :=
  scanFrom s.length s

end ScriptTypings.Json
