import StepFlow.Rule.Token

/-!
# Faults of a rule

What can be wrong with a rule, as it is written or as it meets a context. A variable that
the context lacks is a fault of its own kind; every other fault makes the rule invalid.
-/

namespace StepFlow.Rule

/-- The kinds of values that a rule can meet. -/
inductive Kind where
  | number
  | string
  | boolean
  | null
  | array
  | object
deriving DecidableEq, Repr

/-- The name of a kind. -/
def Kind.title : Kind → String
  | number => "number"
  | string => "string"
  | boolean => "boolean"
  | null => "null"
  | array => "array"
  | object => "object"

/-- Why a rule is invalid. -/
inductive Fault where
  | unterminatedString
  | badNumber (text : String)
  | malformedPath (text : String)
  | unexpectedCharacter (c : Char)
  | empty
  | chainedComparison
  | missingParenthesis
  | valueExpected (found : Token)
  | unexpectedEnd
  | unexpectedToken (found : Token)
  | resultNotBoolean (kind : Kind)
  | operandNotBoolean (operator : String) (kind : Kind)
  | cannotOrder (left right : Kind)
deriving DecidableEq

/-- The wording of a fault. -/
def Fault.message : Fault → String
  | unterminatedString => "unterminated string literal"
  | badNumber text => "invalid number " ++ text
  | malformedPath text => "malformed path " ++ text
  | unexpectedCharacter c => "unexpected character '" ++ String.singleton c ++ "'"
  | empty => "empty expression"
  | chainedComparison => "chained comparisons are not supported"
  | missingParenthesis => "missing closing parenthesis"
  | valueExpected found => "expected a value, found " ++ found.shown
  | unexpectedEnd => "unexpected end of expression"
  | unexpectedToken found => "unexpected token " ++ found.shown
  | resultNotBoolean kind =>
    "expression does not reduce to a boolean (got " ++ kind.title ++ ")"
  | operandNotBoolean operator kind =>
    "operand of " ++ operator ++ " must be a boolean, got " ++ kind.title
  | cannotOrder left right => "cannot order " ++ left.title ++ " and " ++ right.title

end Rule

/-- Why a rule has no truth value. -/
inductive RuleError where
  | invalid (fault : Rule.Fault)
  | unknownVariable (path : Rule.Path)
deriving DecidableEq

/-- The wording of an error. -/
def RuleError.message : RuleError → String
  | invalid fault => "invalid expression: " ++ fault.message
  | unknownVariable path => "unknown variable: " ++ path.text

end StepFlow
