import ScriptTypings.Json.Token

/-!
# Reading JSON

A document is built from tokens with a stack of the containers that are still open, innermost first.
A name that an object repeats keeps its first position and takes its last value. Of two faults the
one that stands first in the text is told.
-/

namespace ScriptTypings.Json

/-- Why a text holds no document that can be read. -/
inductive ReadError
  | malformed
  | tooManyDigits (count : Nat)
  deriving DecidableEq, Repr

/-- The most digits that a whole number may have. -/
def mostDigits : Nat := 4300

namespace ReadError

/-- The message that goes with an error, if it has one. -/
def message? : ReadError → Option String
  | malformed => none
  | tooManyDigits count =>
    some ("Exceeds the limit (" ++ toString mostDigits ++
      " digits) for integer string conversion: value has " ++ toString count ++
      " digits; use sys.set_int_max_str_digits() to increase the limit")

end ReadError

/-- A scalar where a value is awaited. -/
def accept : Document → Except ReadError Document
  | .whole n =>
    let count := Number.digitCount n.natAbs
    if count ≤ mostDigits then .ok (.whole n) else .error (.tooManyDigits count)
  | value => .ok value

/-- A container that is still open. -/
inductive Frame
  | list (items : List Document)
  | object (members : List (List CodePoint × Document)) (name : List CodePoint)

/-- What the next token may be. -/
inductive Awaiting
  | value
  | firstItem
  | firstName (members : List (List CodePoint × Document))
  | name (members : List (List CodePoint × Document))
  | colon (members : List (List CodePoint × Document)) (name : List CodePoint)
  | separator (value : Document)

/-- Puts a finished value into the container that awaits it. The items of a list are held
backwards. -/
def Frame.add (value : Document) : Frame → Document
  | list items => .list (value :: items).reverse
  | object members name => .object (NameMap.put name value members)

/-- One step of the reader. -/
def step : List Frame → Awaiting → Token → Except ReadError (List Frame × Awaiting)
  | stack, .value, .scalar v => (accept v).map fun v => (stack, .separator v)
  | stack, .value, .openList => .ok (.list [] :: stack, .firstItem)
  | stack, .value, .openObject => .ok (stack, .firstName [])
  | stack, .firstItem, .scalar v => (accept v).map fun v => (stack, .separator v)
  | stack, .firstItem, .openList => .ok (.list [] :: stack, .firstItem)
  | stack, .firstItem, .openObject => .ok (stack, .firstName [])
  | .list _ :: stack, .firstItem, .closeList => .ok (stack, .separator (.list []))
  | stack, .firstName members, .scalar (.text name) => .ok (stack, .colon members name)
  | stack, .firstName members, .closeObject => .ok (stack, .separator (.object members))
  | stack, .name members, .scalar (.text name) => .ok (stack, .colon members name)
  | stack, .colon members name, .colon => .ok (.object members name :: stack, .value)
  | .list items :: stack, .separator v, .comma => .ok (.list (v :: items) :: stack, .value)
  | .object members name :: stack, .separator v, .comma =>
    .ok (stack, .name (NameMap.put name v members))
  | .list items :: stack, .separator v, .closeList =>
    .ok (stack, .separator (Frame.add v (.list items)))
  | .object members name :: stack, .separator v, .closeObject =>
    .ok (stack, .separator (Frame.add v (.object members name)))
  | _, _, _ => .error .malformed

def run : List Frame → Awaiting → List Token → Except ReadError Document
  | [], .separator v, [] => .ok v
  | _, _, [] => .error .malformed
  | stack, awaiting, token :: tokens =>
    match step stack awaiting token with
    | .ok (stack, awaiting) => run stack awaiting tokens
    | .error e => .error e

/-- The document that a text spells. -/
def read (s : String) : Except ReadError Document :=
  run [] .value (Token.scan s.toList)

/-- Whether lone surrogates are read of a text. -/
def readsLone (s : String) : Bool :=
  match read s with
  | .ok document => !document.isEncodable
  | .error _ => false

end ScriptTypings.Json
