import StepFlow.Context
import StepFlow.Rule.Parser

/-!
# Evaluating rules

The value of a rule in a context. Numbers are compared as floating-point numbers and texts
by code points; arrays and objects can only be tested for equality, part by part. `&&` and
`||` look at their right operand only if the left one leaves the answer open.
-/

namespace StepFlow.Rule

/-- A value that a rule meets. -/
inductive Operand where
  | number (value : Binary64)
  | text (value : String)
  | bool (value : Bool)
  | null
  | array (items : List Json)
  | object (members : List (String × Json))
deriving DecidableEq

namespace Operand

/-- A JSON value as an operand. -/
def ofJson : Json → Operand
  | .null => null
  | .bool b => bool b
  | .number n => number n.toBinary64
  | .string s => text s
  | .array items => array items
  | .object members => object members

/-- A constant of a rule as an operand. -/
def ofLiteral : Literal → Operand
  | .number x => number x
  | .text s => text s
  | .bool b => bool b
  | .null => null

/-- The kind of an operand. -/
def kind : Operand → Kind
  | number _ => .number
  | text _ => .string
  | bool _ => .boolean
  | null => .null
  | array _ => .array
  | object _ => .object

/-- Equality of operands; operands of different kinds differ. -/
def equals : Operand → Operand → Bool
  | number x, number y => x.equals y
  | text s, text t => s == t
  | bool a, bool b => a == b
  | null, null => true
  | array xs, array ys => Json.equals (.array xs) (.array ys)
  | object xs, object ys => Json.equals (.object xs) (.object ys)
  | _, _ => false

/-- The order of two operands, if they are two numbers or two texts. -/
def order? : Operand → Operand → Option Ordering
  | number x, number y => some (if x.less y then .lt else if y.less x then .gt else .eq)
  | text s, text t => some (if s < t then .lt else if t < s then .gt else .eq)
  | _, _ => none

/-- The truth value of an operand of a logical operator. -/
def toBool (operator : String) : Operand → Except RuleError Bool
  | bool b => .ok b
  | x => .error (.invalid (.operandNotBoolean operator x.kind))

end Operand

/-- Whether an order satisfies a comparison. -/
def Comparison.holds : Comparison → Ordering → Bool
  | equal, o => o == .eq
  | unequal, o => o != .eq
  | greater, o => o == .gt
  | less, o => o == .lt
  | atLeast, o => o != .lt
  | atMost, o => o != .gt

/-- The outcome of a comparison. A case for two numbers without an order is left out, because no
operand is a NaN. -/
def compare (op : Comparison) (left right : Operand) : Except RuleError Bool :=
  match op with
  | .equal => .ok (left.equals right)
  | .unequal => .ok (!left.equals right)
  | op =>
    match left.order? right with
    | some o => .ok (op.holds o)
    | none => .error (.invalid (.cannotOrder left.kind right.kind))

/-- The value that a path leads to. -/
def resolve? (c : Context) : Path → Option Json
  | [] => none
  | head :: rest =>
    rest.foldl (fun value? segment => value?.bind (Json.field? segment)) (c.get? head)

/-- The value of an expression in a context. -/
def Expr.eval (c : Context) : Expr → Except RuleError Operand
  | literal value => .ok (.ofLiteral value)
  | path p =>
    match resolve? c p with
    | some value => .ok (.ofJson value)
    | none => .error (.unknownVariable p)
  | not e => do
    let b ← (← e.eval c).toBool "!"
    .ok (.bool !b)
  | and l r => do
    let b ← (← l.eval c).toBool "&&"
    if b then
      let b ← (← r.eval c).toBool "&&"
      .ok (.bool b)
    else .ok (.bool false)
  | or l r => do
    let b ← (← l.eval c).toBool "||"
    if b then .ok (.bool true)
    else
      let b ← (← r.eval c).toBool "||"
      .ok (.bool b)
  | compare op l r => do
    let left ← l.eval c
    let right ← r.eval c
    let b ← Rule.compare op left right
    .ok (.bool b)

/-- The truth value of a rule in a context. -/
def evaluate (rule : String) (c : Context) : Except RuleError Bool := do
  let e ← parse rule
  match ← e.eval c with
  | .bool b => .ok b
  | x => .error (.invalid (.resultNotBoolean x.kind))

end StepFlow.Rule
