import AccessContext.Text.Binary64
import AccessContext.Text.Quoted

/-!
# Why a document is refused

A document is read from the left, and reading stops at the first fault. The text may break the
grammar, it may end too early, or it may be well formed and hold a value that does not fit.
-/

namespace AccessContext.Json

/-- What stands where a value is wanted. -/
inductive Found
  | integer (n : Int)
  | fraction (negative : Bool) (magnitude : Binary64)
  | text (cs : List Char)
  | boolean (b : Bool)
  | null
  | map
  | sequence
deriving DecidableEq

namespace Found

/-- The kind of the value, with the value itself where it is short. -/
def description : Found → String
  | integer n => "integer `" ++ String.ofList (Decimal.ofInt n) ++ "`"
  | fraction negative v =>
    "floating point `" ++ (if negative then "-" else "") ++ String.ofList v.text ++ "`"
  | text cs => "string " ++ Text.quoted cs
  | boolean b => "boolean `" ++ (if b then "true" else "false") ++ "`"
  | null => "null"
  | map => "map"
  | sequence => "sequence"

end Found

/-- A well-formed value that does not fit. -/
inductive Mismatch
  | wrongType (found : Found) (expected : String)
  | wrongValue (n : Int) (expected : String)
  | wrongLength (count : Nat) (expected : String)
  | missingField (name : String)
  | duplicateField (name : String)
  | refused (reason : String)
deriving DecidableEq

def Mismatch.message : Mismatch → String
  | wrongType found expected =>
    "invalid type: " ++ found.description ++ ", expected " ++ expected
  | wrongValue n expected =>
    "invalid value: " ++ (Found.integer n).description ++ ", expected " ++ expected
  | wrongLength count expected =>
    "invalid length " ++ toString count ++ ", expected " ++ expected
  | missingField name => "missing field `" ++ name ++ "`"
  | duplicateField name => "duplicate field `" ++ name ++ "`"
  | refused reason => reason

/-- The first fault of a document. -/
inductive Fault
  | malformed
  | truncated
  | mismatch (cause : Mismatch)
deriving DecidableEq

def Fault.message : Fault → String
  | malformed => "malformed document"
  | truncated => "document ends too early"
  | mismatch cause => cause.message

end AccessContext.Json
