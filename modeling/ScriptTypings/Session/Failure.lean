import ScriptTypings.Entry.Encoding
import ScriptTypings.Json.Reader
import ScriptTypings.Page.Error
import ScriptTypings.Reflected
import ScriptTypings.Storage.Folder
import ScriptTypings.Trace

/-!
# Failures of a run

Input that is missing or malformed, pages that abort the build of a corpus, and reflected trees of
an unexpected shape are reported with a message. Other failures end the program without one.
-/

namespace ScriptTypings

/-- What stands in a message for the account that a decoder gives of malformed JSON. -/
def jsonAccount : String := "<json error>"

/-- What stands in a message for the account that a decoder gives of bytes that are not UTF-8. -/
def utf8Account : String := "<utf-8 error>"

inductive InputError
  | documentsMissing (path : String)
  | cacheUnreadable (path : String) (error : FileError)
  | cacheMalformed (path : String)
  | reflectionMissing (path : String)
  | reflectionMalformed (path : String)
  | tableMissing (path : String)
  | tableMalformed (path : String)
  | tableShape (path : String)
  | headerMissing (path : String)
  | arity (name shown : String)
  deriving DecidableEq, Repr

namespace FileError

/-- The account of an error at a path. -/
def accountAt (path : String) (error : FileError) : String :=
  match error.account? with
  | some (number, text) =>
    "[Errno " ++ toString number ++ "] " ++ text ++ ": " ++ Text.quote path
  | none => utf8Account

end FileError

namespace InputError

def message : InputError → String
  | documentsMissing path => "Documentation directory not found: " ++ path
  | cacheUnreadable path error =>
    "Cannot read corpus cache " ++ path ++ ": " ++ error.accountAt path
  | cacheMalformed path => "Cannot read corpus cache " ++ path ++ ": " ++ jsonAccount
  | reflectionMissing path => "Iteration file not found: " ++ path
  | reflectionMalformed path =>
    "Iteration file is not valid JSON: " ++ path ++ ": " ++ jsonAccount
  | tableMissing path => "Supplementary file not found: " ++ path
  | tableMalformed path =>
    "Supplementary file is not valid JSON: " ++ path ++ ": " ++ jsonAccount
  | tableShape path => "Supplementary file must hold a JSON object: " ++ path
  | headerMissing path => "Header file not found: " ++ path
  | arity name shown =>
    "Generic arity for " ++ name ++ " must be a non-negative integer: " ++ shown

end InputError

/-- Why a page aborts the build of a corpus. -/
inductive BuildCause
  | page (error : PageError)
  | notText
  deriving DecidableEq, Repr

namespace BuildCause

def account : BuildCause → String
  | page error => error.message
  | notText => utf8Account

end BuildCause

/-- Why a run fails. A value that is no text may be used as one, an interface may have an empty key,
and a path or a folder that is needed may not have been given. A text with a lone surrogate cannot
be written. -/
inductive Failure
  | input (error : InputError)
  | build (path : String) (cause : BuildCause)
  | reflection (error : ReflectionError)
  | decoding (error : DecodingError)
  | unread (error : Json.ReadError)
  | file (error : FileError)
  | misfit (cause : Misfit)
  | unnamedInterface
  | noPath
  | noFolder
  | unencodable
  deriving DecidableEq, Repr

namespace Failure

/-- The failure for a text that holds no JSON value. -/
def ofReadError (malformed : InputError) : Json.ReadError → Failure
  | .malformed => input malformed
  | error => unread error

/-- The message of a failure that the program reports. -/
def report? : Failure → Option String
  | input error => some error.message
  | build path cause => some ("An error is thrown from " ++ path ++ ": " ++ cause.account)
  | reflection error => some error.message
  | _ => none

end Failure

/-- What the text of a file holds, by a reading of the value that it spells. -/
def decodeText {ε α : Type} (malformed : InputError) (decode : Json → Except ε α)
    (refused : ε → Failure) (text : String) : Except Failure α :=
  match Json.read text with
  | .error e => .error (.ofReadError malformed e)
  | .ok document =>
    match decode document.value with
    | .error e => .error (refused e)
    | .ok a => .ok a

end ScriptTypings
