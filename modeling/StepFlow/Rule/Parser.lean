import StepFlow.Rule.Expr
import StepFlow.Rule.Lexer

/-!
# Parsing rules

Recursive descent over the tokens of a rule. From the loosest to the tightest, the operators
are `||`, `&&`, one comparison, and `!`; the first two group to the left, and a comparison
cannot be an operand of another without parentheses. Every parser gives the tree that it
found and the tokens behind it.
-/

namespace StepFlow.Rule

/-- What a parser finds at the front of the tokens. -/
abbrev Parsed := Except Fault (Expr × List Token)

/-- A value of one token, where the token is one. -/
def Token.value? : Token → Option Expr
  | .number x => some (.literal (.number x))
  | .text s => some (.literal (.text s))
  | .bool b => some (.literal (.bool b))
  | .null => some (.literal .null)
  | .path p => some (.path p)
  | _ => none

mutual

/-- A chain of operands with `||` between them. -/
def parseOr : Nat → List Token → Parsed
  | 0, _ => .error .unexpectedEnd
  | fuel + 1, ts =>
    match parseAnd fuel ts with
    | .error fault => .error fault
    | .ok (left, ts) => parseOrTail fuel left ts

/-- The rest of a chain after the tree of its first part. -/
def parseOrTail : Nat → Expr → List Token → Parsed
  | 0, _, _ => .error .unexpectedEnd
  | fuel + 1, left, .or :: ts =>
    match parseAnd fuel ts with
    | .error fault => .error fault
    | .ok (right, ts) => parseOrTail fuel (.or left right) ts
  | _ + 1, left, ts => .ok (left, ts)

/-- A chain of operands with `&&` between them. -/
def parseAnd : Nat → List Token → Parsed
  | 0, _ => .error .unexpectedEnd
  | fuel + 1, ts =>
    match parseComparison fuel ts with
    | .error fault => .error fault
    | .ok (left, ts) => parseAndTail fuel left ts

/-- The rest of a chain after the tree of its first part. -/
def parseAndTail : Nat → Expr → List Token → Parsed
  | 0, _, _ => .error .unexpectedEnd
  | fuel + 1, left, .and :: ts =>
    match parseComparison fuel ts with
    | .error fault => .error fault
    | .ok (right, ts) => parseAndTail fuel (.and left right) ts
  | _ + 1, left, ts => .ok (left, ts)

/-- One operand, or two with a comparison between them. -/
def parseComparison : Nat → List Token → Parsed
  | 0, _ => .error .unexpectedEnd
  | fuel + 1, ts =>
    match parseUnary fuel ts with
    | .error fault => .error fault
    | .ok (left, .comparison op :: ts) =>
      match parseUnary fuel ts with
      | .error fault => .error fault
      | .ok (_, .comparison _ :: _) => .error .chainedComparison
      | .ok (right, ts) => .ok (.compare op left right, ts)
    | .ok (left, ts) => .ok (left, ts)

/-- A value with any number of `!` before it. -/
def parseUnary : Nat → List Token → Parsed
  | 0, _ => .error .unexpectedEnd
  | fuel + 1, .not :: ts =>
    match parseUnary fuel ts with
    | .error fault => .error fault
    | .ok (operand, ts) => .ok (.not operand, ts)
  | fuel + 1, ts => parsePrimary fuel ts

/-- A constant, a path, or an expression between parentheses. -/
def parsePrimary : Nat → List Token → Parsed
  | 0, _ => .error .unexpectedEnd
  | _ + 1, [] => .error .unexpectedEnd
  | fuel + 1, .openParen :: ts =>
    match parseOr fuel ts with
    | .error fault => .error fault
    | .ok (inner, .closeParen :: ts) => .ok (inner, ts)
    | .ok _ => .error .missingParenthesis
  | _ + 1, t :: ts =>
    match t.value? with
    | some e => .ok (e, ts)
    | none => .error (.valueExpected t)

end

/-- A number of nested calls that is enough for a number of tokens. -/
def parseFuel (ts : List Token) : Nat := 6 * ts.length + 6

/-- The tree of a whole list of tokens. -/
def parseTokens (ts : List Token) : Except Fault Expr :=
  if ts.isEmpty then .error .empty
  else
    match parseOr (parseFuel ts) ts with
    | .error fault => .error fault
    | .ok (e, []) => .ok e
    | .ok (_, t :: _) => .error (.unexpectedToken t)

/-- The tree of a rule. -/
def parse (rule : String) : Except RuleError Expr :=
  match tokens rule.toList with
  | .error fault => .error (.invalid fault)
  | .ok ts => (parseTokens ts).mapError .invalid

end StepFlow.Rule
