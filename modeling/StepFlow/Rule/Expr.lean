import StepFlow.Rule.Token

/-!
# Expressions

The syntax tree of a rule. Parentheses group operands and leave no node of their own.
-/

namespace StepFlow.Rule

/-- A constant of a rule. -/
inductive Literal where
  | number (value : Binary64)
  | text (value : String)
  | bool (value : Bool)
  | null
deriving DecidableEq

/-- A rule as a tree. -/
inductive Expr where
  | literal (value : Literal)
  | path (path : Path)
  | not (operand : Expr)
  | and (left right : Expr)
  | or (left right : Expr)
  | compare (op : Comparison) (left right : Expr)
deriving DecidableEq

/-- The paths that occur in an expression. -/
def Expr.paths : Expr → List Path
  | literal _ => []
  | path p => [p]
  | not e => e.paths
  | and l r => l.paths ++ r.paths
  | or l r => l.paths ++ r.paths
  | compare _ l r => l.paths ++ r.paths

end StepFlow.Rule
