import StepFlow.Binary64.Written
import StepFlow.Json.Printer
import StepFlow.Text.Quoted
import StepFlow.Time.Reader

/-!
# Decoding faults

Why a document is not a value of the type that a reader wants, and how each fault is put
into words.
-/

namespace StepFlow

/-- What a reader met in place of what it wanted. -/
inductive Found where
  | null
  | bool (value : Bool)
  | number (value : Number)
  | string (value : String)
  | sequence
  | map
deriving DecidableEq

/-- The wording for what was met. -/
def Found.text : Found → String
  | null => "null"
  | bool true => "boolean `true`"
  | bool false => "boolean `false`"
  | number (.integer n _) => "integer `" ++ String.ofList (Json.integerChars n) ++ "`"
  | number (.real x _) => "floating point `" ++ String.ofList (x.text .data) ++ "`"
  | string s => "string " ++ Text.quote s
  | sequence => "sequence"
  | map => "map"

/-- A fault found while a document is decoded. -/
inductive DecodeError where
  /-- The text is not JSON at the place that was read. -/
  | malformed
  | wrongKind (found : Found) (expected : String)
  | wrongValue (found : Found) (expected : String)
  | wrongLength (length : Nat) (expected : String)
  | missingField (name : String)
  | duplicateField (name : String)
  | unknownVariant (name : String) (known : List String)
  | badInstant (cause : InstantError)
  | badConfig (node : String) (cause : DecodeError)
deriving DecidableEq

namespace DecodeError

/-- Names in backquotes with commas between them. -/
def nameList : List String → String
  | [] => ""
  | [name] => "`" ++ name ++ "`"
  | name :: rest => "`" ++ name ++ "`, " ++ nameList rest

/-- The wording of a fault. -/
def message : DecodeError → String
  | malformed => "<syntax>"
  | wrongKind found expected => "invalid type: " ++ found.text ++ ", expected " ++ expected
  | wrongValue found expected => "invalid value: " ++ found.text ++ ", expected " ++ expected
  | wrongLength length expected =>
    "invalid length " ++ toString length ++ ", expected " ++ expected
  | missingField name => "missing field `" ++ name ++ "`"
  | duplicateField name => "duplicate field `" ++ name ++ "`"
  | unknownVariant name known =>
    "unknown variant `" ++ name ++ "`, expected one of " ++ nameList known
  | badInstant cause => cause.message
  | badConfig node cause => "invalid config for node " ++ node ++ ": " ++ cause.message

end DecodeError

end StepFlow
