import StepFlow.Binary64.Written
import StepFlow.Text.Quoted

/-!
# Tokens of a rule

A rule is a sequence of tokens with blanks between them. This module has the tokens, the
paths that name variables, and the wording for a token that stands in the wrong place.
-/

namespace StepFlow.Rule

/-- The six comparisons. -/
inductive Comparison where
  | equal
  | unequal
  | greater
  | less
  | atLeast
  | atMost
deriving DecidableEq, Repr

/-- The sign of a comparison. -/
def Comparison.sign : Comparison → String
  | equal => "=="
  | unequal => "!="
  | greater => ">"
  | less => "<"
  | atLeast => ">="
  | atMost => "<="

/-- The name of a comparison in messages. -/
def Comparison.title : Comparison → String
  | equal => "Eq"
  | unequal => "Ne"
  | greater => "Gt"
  | less => "Lt"
  | atLeast => "Ge"
  | atMost => "Le"

/-- The name of a variable: a key of the context, then keys of the objects inside it. -/
abbrev Path := List String

/-- A path as it is written, with dots between its segments. -/
def Path.text (path : Path) : String := ".".intercalate path

/-- A token of a rule. -/
inductive Token where
  | path (segments : Path)
  | text (value : String)
  | number (value : Binary64)
  | bool (value : Bool)
  | null
  | comparison (op : Comparison)
  | and
  | or
  | not
  | openParen
  | closeParen
deriving DecidableEq

/-- The wording for a token in messages. -/
def Token.shown : Token → String
  | path segments => "Ident(" ++ Text.quote (Path.text segments) ++ ")"
  | text value => "Str(" ++ Text.quote value ++ ")"
  | number value => "Num(" ++ String.ofList (value.text .message) ++ ")"
  | bool true => "Bool(true)"
  | bool false => "Bool(false)"
  | null => "Null"
  | comparison op => "Cmp(" ++ op.title ++ ")"
  | and => "And"
  | or => "Or"
  | not => "Not"
  | openParen => "LParen"
  | closeParen => "RParen"

end StepFlow.Rule
