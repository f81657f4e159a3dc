import StepFlow.Proofs.Rule.Composition
import StepFlow.Rule.Eval

/-!
# Chains of logical operators

However the operands of a chain of `&&`, or of `||`, are grouped, the chain has the outcome of one
scan of its operands from left to right, up to the first one that settles it (`eval_tree_eq_scan`).
Errors are no exception: an operand without a truth value gives the same error under every grouping,
also where the error passes through the operators above it.

The outcomes of operands form a monoid under `Connective.combine`, with the value that leaves a chain
open as neutral element.  An operator combines the outcomes of its operands and a scan combines
those of a list, so both come to the same by associativity.
-/

namespace StepFlow.Rule

/-- The operators of chains. -/
inductive Connective where
  | and
  | or
deriving DecidableEq, Repr

namespace Connective

/-- A connective as one of the operators with two operands. -/
def operator : Connective → Operator
  | and => .and
  | or => .or

/-- The truth value of an operand that leaves the outcome to the operands behind it. -/
def neutral : Connective → Bool
  | and => true
  | or => false

/-- What an operand makes of a chain that is open so far: its own truth value or error, or the error
that names the operator and the kind of what is no truth value. -/
def verdict (op : Connective) : Except RuleError Operand → Except RuleError Bool
  | .ok (.bool b) => .ok b
  | .ok x => .error (.invalid (.operandNotBoolean op.operator.sign x.kind))
  | .error e => .error e

/-- The outcome of two parts of a chain.  The second one counts if the first one is neutral. -/
def combine (op : Connective) (left right : Except RuleError Bool) : Except RuleError Bool :=
  if left = .ok op.neutral then right else left

end Connective

/-- One scan of operands from left to right, up to the first one that is not neutral. -/
def scan (op : Connective) (c : Context) : List Expr → Except RuleError Bool
  | [] => .ok op.neutral
  | e :: es =>
    if e.eval c = .ok (.bool op.neutral) then scan op c es else op.verdict (e.eval c)

/-- A way of grouping operands. -/
inductive Grouping where
  | operand (e : Expr)
  | group (left right : Grouping)
deriving DecidableEq

namespace Grouping

/-- The operands from left to right. -/
def operands : Grouping → List Expr
  | operand e => [e]
  | group left right => left.operands ++ right.operands

/-- The expression with a connective at every node. -/
def tree (op : Connective) : Grouping → Expr
  | operand e => e
  | group left right => op.operator.join (left.tree op) (right.tree op)

end Grouping

variable {op : Connective} {c : Context} {e : Expr}

/-! ## The monoid of outcomes -/

namespace Connective

variable (op) (x y z : Except RuleError Bool)

theorem combine_neutral_left : op.combine (.ok op.neutral) x = x := if_pos rfl

theorem combine_neutral_right : op.combine x (.ok op.neutral) = x := by
  unfold combine
  split
  · rename_i h
    exact h.symm
  · rfl

theorem combine_assoc :
    op.combine (op.combine x y) z = op.combine x (op.combine y z) := by
  by_cases h : x = .ok op.neutral <;> simp [combine, h]

theorem combine_eq_bind :
    op.combine x y = x >>= fun b => if b = op.neutral then y else .ok b := by
  cases x with
  | error e => rfl
  | ok b => by_cases h : b = op.neutral <;> simp [combine, h, bind, Except.bind]

theorem verdict_eq_bind (x : Except RuleError Operand) :
    op.verdict x = x >>= Operand.toBool op.operator.sign := by
  rcases x with e | (_ | _ | _ | _ | _ | _) <;> rfl

/-- An operand is neutral exactly if its verdict is. -/
theorem verdict_eq_neutral_iff {x : Except RuleError Operand} :
    op.verdict x = .ok op.neutral ↔ x = .ok (.bool op.neutral) := by
  rcases x with e | (_ | _ | b | _ | _ | _) <;> simp [verdict]

theorem verdict_map_bool : op.verdict (x.map .bool) = x := by
  cases x <;> rfl

end Connective

/-! ## Operators and scans -/

/-- A connective combines the verdicts of its operands. -/
theorem eval_join (op : Connective) (l r : Expr) :
    (op.operator.join l r).eval c =
      (op.combine (op.verdict (l.eval c)) (op.verdict (r.eval c))).map .bool := by
  rw [op.verdict_eq_bind, op.verdict_eq_bind, op.combine_eq_bind]
  -- By associativity an operand and its check are one computation, whatever it gives.
  cases op with
  | and =>
    rw [Connective.operator, Operator.join, Operator.sign, Expr.eval]
    simp only [← bind_assoc]
    generalize l.eval c >>= Operand.toBool "&&" = x, r.eval c >>= Operand.toBool "&&" = y
    rcases x with _ | _ | _ <;> cases y <;> rfl
  | or =>
    rw [Connective.operator, Operator.join, Operator.sign, Expr.eval]
    simp only [← bind_assoc]
    generalize l.eval c >>= Operand.toBool "||" = x, r.eval c >>= Operand.toBool "||" = y
    rcases x with _ | _ | _ <;> cases y <;> rfl

theorem scan_cons (e : Expr) (es : List Expr) :
    scan op c (e :: es) = op.combine (op.verdict (e.eval c)) (scan op c es) := by
  simp only [scan, Connective.combine, op.verdict_eq_neutral_iff]

theorem scan_singleton (e : Expr) : scan op c [e] = op.verdict (e.eval c) := by
  rw [scan_cons, scan, op.combine_neutral_right]

theorem scan_append (es es' : List Expr) :
    scan op c (es ++ es') = op.combine (scan op c es) (scan op c es') := by
  induction es with
  | nil => exact (op.combine_neutral_left _).symm
  | cons e es ih => rw [List.cons_append, scan_cons, scan_cons, ih, op.combine_assoc]

/-- A scan passes over neutral operands. -/
theorem scan_append_of_neutral {es : List Expr} (h : ∀ e ∈ es, e.eval c = .ok (.bool op.neutral))
    (es' : List Expr) : scan op c (es ++ es') = scan op c es' := by
  induction es with
  | nil => rfl
  | cons e es ih =>
    obtain ⟨hneutral, hrest⟩ := List.forall_mem_cons.1 h
    rw [List.cons_append, scan, if_pos hneutral, ih hrest]

/-- A scan ends with an operand that is not neutral. -/
theorem scan_cons_of_ne (h : e.eval c ≠ .ok (.bool op.neutral)) (es : List Expr) :
    scan op c (e :: es) = op.verdict (e.eval c) := if_neg h

/-! ## Groupings -/

/-- The verdict of a chain is that of the scan of its operands. -/
theorem verdict_eval_tree (g : Grouping) :
    op.verdict ((g.tree op).eval c) = scan op c g.operands := by
  induction g with
  | operand e => exact (scan_singleton e).symm
  | group left right ihl ihr =>
    rw [Grouping.tree, Grouping.operands, eval_join, op.verdict_map_bool, ihl, ihr, scan_append]

theorem Grouping.length_pos (g : Grouping) : 0 < g.operands.length := by
  induction g with
  | operand e => exact Nat.one_pos
  | group left right ihl _ =>
    rw [operands, List.length_append]
    exact Nat.add_pos_left ihl _

theorem Grouping.two_le_length (left right : Grouping) :
    2 ≤ (left.group right).operands.length := by
  rw [operands, List.length_append]
  exact Nat.add_le_add left.length_pos right.length_pos

/-- A single operand can be grouped in one way only. -/
theorem Grouping.eq_operand {g : Grouping} (h : g.operands = [e]) : g = .operand e := by
  cases g with
  | operand f => rw [List.singleton_inj.1 h]
  | group left right =>
    have hlength := two_le_length left right
    rw [h, List.length_singleton] at hlength
    omega

/-- A chain of two operands or more has the outcome of the scan. -/
theorem eval_tree_of_two_le {g : Grouping} (h : 2 ≤ g.operands.length) :
    (g.tree op).eval c = (scan op c g.operands).map .bool := by
  cases g with
  | operand e => simp [Grouping.operands] at h
  | group left right =>
    rw [Grouping.tree, Grouping.operands, eval_join, verdict_eval_tree, verdict_eval_tree,
      scan_append]

/-- Two groupings of the same operands have the same value. -/
theorem eval_tree_congr {g h : Grouping} (hoperands : g.operands = h.operands) :
    (g.tree op).eval c = (h.tree op).eval c := by
  by_cases hlength : 2 ≤ g.operands.length
  · rw [eval_tree_of_two_le hlength, eval_tree_of_two_le (hoperands ▸ hlength), hoperands]
  · cases g with
    | operand e => rw [Grouping.eq_operand hoperands.symm]
    | group left right => exact absurd (Grouping.two_le_length left right) hlength

/-- Two rules that group the operands of a chain in different ways have the same outcome in every
context. -/
theorem evaluate_regrouped {r s : String} {g h : Grouping} (hr : parse r = .ok (g.tree op))
    (hs : parse s = .ok (h.tree op)) (hoperands : g.operands = h.operands) (c : Context) :
    evaluate r c = evaluate s c := by
  rw [evaluate, evaluate, hr, hs]
  simp only [bind, Except.bind, eval_tree_congr hoperands]

/-- A chain of two operands or more, however they are grouped, has the outcome of one scan of them.
It is neutral if all of them are; otherwise the first one that is not settles it, by its truth value,
its error, or the error that it has no truth value, whatever the operands behind it are. -/
theorem eval_tree_eq_scan (op : Connective) (c : Context) (g : Grouping)
    (hlength : 2 ≤ g.operands.length) :
    (g.tree op).eval c = (scan op c g.operands).map .bool ∧
    ((∀ e ∈ g.operands, e.eval c = .ok (.bool op.neutral)) →
      (g.tree op).eval c = .ok (.bool op.neutral)) ∧
    ∀ before e after, g.operands = before ++ e :: after →
      (∀ e' ∈ before, e'.eval c = .ok (.bool op.neutral)) → e.eval c ≠ .ok (.bool op.neutral) →
      (g.tree op).eval c = (op.verdict (e.eval c)).map .bool := by
  have hscan : (g.tree op).eval c = (scan op c g.operands).map .bool :=
    eval_tree_of_two_le hlength
  refine ⟨hscan, fun hneutral => ?_, fun before e after hoperands hbefore hne => ?_⟩
  · rw [hscan, ← List.append_nil g.operands, scan_append_of_neutral hneutral]
    rfl
  · rw [hscan, hoperands, scan_append_of_neutral hbefore, scan_cons_of_ne hne]

/-- A number behind a true operand of `&&` gives the same error in both groupings of three, and the
unknown name behind it is not consulted. -/
theorem eval_tree_eq_scan_three :
    let c : Context := .ofMembers [("a", .bool true), ("n", Json.ofInt 1)]
    let a : Grouping := .operand (.path ["a"])
    let n : Grouping := .operand (.path ["n"])
    let x : Grouping := .operand (.path ["x"])
    ((a.group (n.group x)).tree .and).eval c =
        .error (.invalid (.operandNotBoolean "&&" .number)) ∧
      (((a.group n).group x).tree .and).eval c =
        .error (.invalid (.operandNotBoolean "&&" .number)) := by
  intro c a n x
  have hbefore : ∀ e ∈ [Expr.path ["a"]], e.eval c = .ok (.bool true) := by decide +kernel
  have hne : (Expr.path ["n"]).eval c ≠ .ok (.bool true) := by decide +kernel
  have hright := (eval_tree_eq_scan .and c (a.group (n.group x)) (by decide)).2.2 _ _ [.path ["x"]]
    rfl hbefore hne
  have hleft := (eval_tree_eq_scan .and c ((a.group n).group x) (by decide)).2.2 _ _ [.path ["x"]]
    rfl hbefore hne
  exact ⟨hright.trans (by decide +kernel), hleft.trans (by decide +kernel)⟩

end StepFlow.Rule
