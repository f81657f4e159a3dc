import StepFlow.Proofs.Context
import StepFlow.Proofs.Rule.Comparison

/-!
# What a rule sees of a context

A rule depends on a context only through the paths that are written in it, and there only up to
equality of data (`Expr.eval_alike`).  Entries that are added to a context can only help where a rule
met a name that was not there: any other outcome persists (`Expr.eval_persists`), also where a path
ended in the midst of an entry.  `evaluate_sees_paths` says both of the texts of rules.

Both facts compare two evaluations step by step, so each has a relation between outcomes that the
steps of an evaluation keep: `Alike` and `Persists`.
-/

namespace StepFlow

/-- A context has all entries of another one. -/
def Context.Extends (larger smaller : Context) : Prop :=
  ∀ name value, smaller.get? name = some value → larger.get? name = some value

/-- A context that is filled up keeps its entries. -/
theorem Context.extends_fill (base extra : Context) : (base.fill extra).Extends base := by
  intro name value h
  rw [get?_fill, h, Option.some_or]

namespace Rule

open Operand

variable {β : Type} {c c' : Context} {p : Path} {e : Expr} {x x' y y' : Operand}

/-! ## Equal data -/

/-- A path leads to equal data in two contexts, such as the same value, or to nothing in both. -/
def SameAt (c c' : Context) (p : Path) : Prop :=
  Option.Rel (fun v w => v.equals w = true) (resolve? c p) (resolve? c' p)

/-- Two outcomes are equal operands or the same error. -/
inductive Alike : Except RuleError Operand → Except RuleError Operand → Prop where
  | ok {x y : Operand} (h : x.equals y = true) : Alike (.ok x) (.ok y)
  | error (e : RuleError) : Alike (.error e) (.error e)

theorem Alike.of_eq {a b : Except RuleError Operand} (h : a = b) : Alike a b := by
  subst h
  cases a with
  | error e => exact .error e
  | ok x => exact .ok x.equals_refl

/-- What is computed in the same way from outcomes that are alike is the same. -/
theorem Alike.bind_eq {a b : Except RuleError Operand} (h : Alike a b)
    {f g : Operand → Except RuleError β} (hfg : ∀ x y, x.equals y = true → f x = g y) :
    (a >>= f) = (b >>= g) := by
  cases h with
  | ok h => exact hfg _ _ h
  | error e => rfl

theorem toBool_congr (operator : String) (h : x.equals y = true) :
    x.toBool operator = y.toBool operator := by
  have hkind := kind_eq_of_equals h
  cases x <;> cases y <;> cases hkind
  case bool => exact congrArg Except.ok (beq_iff_eq.1 h)
  all_goals rfl

theorem Alike.bind_toBool {a b : Except RuleError Operand} (h : Alike a b) (operator : String) :
    (a >>= toBool operator) = (b >>= toBool operator) :=
  h.bind_eq fun _ _ => toBool_congr operator

theorem order?_congr (hx : x.equals x' = true) (hy : y.equals y' = true) :
    x.order? y = x'.order? y' := by
  have hkx := kind_eq_of_equals hx
  have hky := kind_eq_of_equals hy
  cases x <;> cases x' <;> cases hkx
  case number =>
    cases y <;> cases y' <;> cases hky
    case number =>
      simp only [equals, Binary64.equals_iff] at hx hy
      rw [order?_number, order?_number, hx, hy]
    all_goals rfl
  case text =>
    cases y <;> cases y' <;> cases hky
    case text =>
      simp only [equals, beq_iff_eq] at hx hy
      rw [hx, hy]
    all_goals rfl
  all_goals rfl

/-- Comparisons do not tell equal operands apart. -/
theorem compare_congr (op : Comparison) (hx : x.equals x' = true) (hy : y.equals y' = true) :
    compare op x y = compare op x' y' := by
  have hequals : x.equals y = x'.equals y' := Bool.eq_iff_iff.2
    ⟨fun h => equals_of_equals hx (equals_trans h hy),
      fun h => equals_trans hx (equals_trans h (equals_symm hy))⟩
  cases op <;> simp only [compare, hequals, order?_congr hx hy, kind_eq_of_equals hx,
    kind_eq_of_equals hy]

/-- Contexts with equal data at the paths of an expression give it the same value or error. -/
theorem Expr.eval_alike (h : ∀ p ∈ e.paths, SameAt c c' p) : Alike (e.eval c) (e.eval c') := by
  induction e with
  | literal value => exact .of_eq rfl
  | path p =>
    have hsame := h p (List.mem_singleton_self p)
    unfold SameAt at hsame
    rw [eval, eval]
    generalize resolve? c p = v, resolve? c' p = v' at hsame
    cases hsame with
    | some hvalue => exact .ok (equals_ofJson hvalue)
    | none => exact .error _
  | not e ih =>
    refine .of_eq ?_
    simp only [eval, ← bind_assoc, (ih h).bind_toBool "!"]
  | and l r ihl ihr =>
    have hl := (ihl fun p hp => h p (List.mem_append_left _ hp)).bind_toBool "&&"
    have hr := (ihr fun p hp => h p (List.mem_append_right _ hp)).bind_toBool "&&"
    refine .of_eq ?_
    simp only [eval, ← bind_assoc, hl, hr]
  | or l r ihl ihr =>
    have hl := (ihl fun p hp => h p (List.mem_append_left _ hp)).bind_toBool "||"
    have hr := (ihr fun p hp => h p (List.mem_append_right _ hp)).bind_toBool "||"
    refine .of_eq ?_
    simp only [eval, ← bind_assoc, hl, hr]
  | compare op l r ihl ihr =>
    have hl := ihl fun p hp => h p (List.mem_append_left _ hp)
    have hr := ihr fun p hp => h p (List.mem_append_right _ hp)
    refine .of_eq (hl.bind_eq fun x x' hx => hr.bind_eq fun y y' hy => ?_)
    rw [compare_congr op hx hy]

/-! ## Added data -/

/-- The name at the beginning of a path is not in the context. -/
def Unbound (c : Context) (p : Path) : Prop :=
  ∃ head rest, p = head :: rest ∧ c.get? head = none

/-- A new outcome is the old one, unless that was the error of one of the paths, with a first name
that is not in the context. -/
def Persists (c : Context) (ps : List Path) (new old : Except RuleError β) : Prop :=
  new = old ∨ ∃ p ∈ ps, Unbound c p ∧ old = .error (.unknownVariable p)

namespace Persists

variable {α : Type} {ps qs : List Path}

theorem mono {new old : Except RuleError α} (h : Persists c ps new old) (hsub : ps ⊆ qs) :
    Persists c qs new old :=
  h.imp_right fun ⟨p, hp, hrest⟩ => ⟨p, hsub hp, hrest⟩

/-- A computation persists if its first part does, and its second part does on whatever the first
one gives. -/
theorem bind {new old : Except RuleError α} {f g : α → Except RuleError β}
    (h : Persists c ps new old) (hfg : ∀ a, Persists c ps (f a) (g a)) :
    Persists c ps (new >>= f) (old >>= g) := by
  rcases h with rfl | ⟨p, hp, hunbound, rfl⟩
  · cases new with
    | error e => exact .inl rfl
    | ok a => exact hfg a
  · exact .inr ⟨p, hp, hunbound, rfl⟩

end Persists

/-- A path whose first name is bound leads to the same place in a larger context. -/
theorem resolve?_of_extends (h : c'.Extends c) (hp : ¬Unbound c p) :
    resolve? c' p = resolve? c p := by
  cases p with
  | nil => rfl
  | cons head rest =>
    cases hvalue : c.get? head with
    | none => exact absurd ⟨head, rest, rfl, hvalue⟩ hp
    | some value => rw [resolve?, resolve?, hvalue, h head value hvalue]

/-- A path whose first name is unbound leads nowhere. -/
theorem resolve?_eq_none (h : Unbound c p) : resolve? c p = none := by
  obtain ⟨head, rest, rfl, hnone⟩ := h
  rw [resolve?, hnone]
  induction rest with
  | nil => rfl
  | cons segment rest ih => exact ih

/-- In a larger context an expression has the outcome that it had, unless this was the error of one
of its paths. -/
theorem Expr.eval_persists (h : c'.Extends c) :
    Persists c e.paths (e.eval c') (e.eval c) := by
  induction e with
  | literal value => exact .inl rfl
  | path p =>
    rw [eval, eval]
    -- Below a bound name the entry is the same, so a path that ends there does so in both.
    by_cases hp : Unbound c p
    · exact .inr ⟨p, List.mem_singleton_self p, hp, by rw [resolve?_eq_none hp]⟩
    · exact .inl (by rw [resolve?_of_extends h hp])
  | not e ih => exact ih.bind fun _ => .inl rfl
  | and l r ihl ihr =>
    have hl := ihl.mono (List.subset_append_left l.paths r.paths)
    have hr := ihr.mono (List.subset_append_right l.paths r.paths)
    refine hl.bind fun x => Persists.bind (.inl rfl) fun b => ?_
    cases b with
    | false => exact .inl rfl
    | true => exact hr.bind fun _ => .inl rfl
  | or l r ihl ihr =>
    have hl := ihl.mono (List.subset_append_left l.paths r.paths)
    have hr := ihr.mono (List.subset_append_right l.paths r.paths)
    refine hl.bind fun x => Persists.bind (.inl rfl) fun b => ?_
    cases b with
    | false => exact hr.bind fun _ => .inl rfl
    | true => exact .inl rfl
  | compare op l r ihl ihr =>
    have hl := ihl.mono (List.subset_append_left l.paths r.paths)
    have hr := ihr.mono (List.subset_append_right l.paths r.paths)
    exact hl.bind fun x => hr.bind fun y => .inl rfl

/-! ## Rules -/

variable {rule : String}

theorem evaluate_of_parse (h : parse rule = .ok e) (c : Context) :
    evaluate rule c = e.eval c >>= fun
      | .bool b => .ok b
      | x => .error (.invalid (.resultNotBoolean x.kind)) := by
  simp only [evaluate, h]
  rfl

theorem evaluate_of_parse_eq_error {fault : RuleError} (h : parse rule = .error fault)
    (c : Context) : evaluate rule c = .error fault := by
  simp only [evaluate, h]
  rfl

/-- Contexts with equal data at the paths of a rule give it the same outcome. -/
theorem evaluate_congr (hparse : parse rule = .ok e) (h : ∀ p ∈ e.paths, SameAt c c' p) :
    evaluate rule c = evaluate rule c' := by
  rw [evaluate_of_parse hparse, evaluate_of_parse hparse]
  refine (Expr.eval_alike h).bind_eq fun x y hxy => ?outcome
  have hkind := kind_eq_of_equals hxy
  cases x <;> cases y <;> cases hkind
  case outcome.bool => exact congrArg Except.ok (beq_iff_eq.1 hxy)
  all_goals rfl

/-- A rule persists as its expression does. -/
theorem evaluate_persists (hparse : parse rule = .ok e) (h : c'.Extends c) :
    Persists c e.paths (evaluate rule c') (evaluate rule c) := by
  rw [evaluate_of_parse hparse, evaluate_of_parse hparse]
  exact (Expr.eval_persists h).bind fun _ => .inl rfl

/-- A rule sees only the paths that occur in it.  Contexts with equal data there, or with none, give
it the same truth value or the same error; and in a larger context its outcome is the one it had,
unless this was the error of a path in it that begins with an unbound name.  So more data changes
neither a truth value nor the fault of an invalid rule. -/
theorem evaluate_sees_paths (rule : String) (c c' : Context) :
    ((∀ e, parse rule = .ok e → ∀ p ∈ e.paths, SameAt c c' p) →
      evaluate rule c = evaluate rule c') ∧
    (c'.Extends c →
      (evaluate rule c' = evaluate rule c ∨ ∃ e p, parse rule = .ok e ∧ p ∈ e.paths ∧
        Unbound c p ∧ evaluate rule c = .error (.unknownVariable p)) ∧
      (∀ b, evaluate rule c = .ok b → evaluate rule c' = .ok b) ∧
      ∀ fault, evaluate rule c = .error (.invalid fault) →
        evaluate rule c' = .error (.invalid fault)) := by
  cases hparse : parse rule with
  | error fault => simp [evaluate_of_parse_eq_error hparse]
  | ok e =>
    refine ⟨fun h => evaluate_congr hparse (h e rfl), fun h => ?_⟩
    rcases evaluate_persists hparse h with heq | ⟨p, hp, hunbound, herror⟩
    · simp [heq]
    · refine ⟨.inr ⟨e, p, rfl, hp, hunbound, herror⟩, fun b hb => ?_, fun fault hfault => ?_⟩
      · cases herror.symm.trans hb
      · cases herror.symm.trans hfault

/-- A rule does not see the entry `c`; and with `a` alone it has a truth value, which the entry `b`,
that is not even a truth value, leaves as it is. -/
theorem evaluate_sees_paths_disjunction :
    evaluate "a > 1 || b" (.ofMembers [("a", Json.ofInt 1), ("c", .bool true)]) =
        evaluate "a > 1 || b" (.ofMembers [("a", Json.ofInt 1)]) ∧
      evaluate "a > 0 || b" ((Context.single "a" (Json.ofInt 1)).fill (.single "b" .null)) =
        .ok true := by
  have hparse : parse "a > 1 || b" = .ok (.or (.compare .greater (.path ["a"])
      (.literal (.number (.ofDecimal false 1 0)))) (.path ["b"])) := by decide +kernel
  refine ⟨(evaluate_sees_paths _ _ _).1 fun e he p hp => ?_,
    ((evaluate_sees_paths _ _ _).2 (Context.extends_fill _ _)).2.1 true (by decide +kernel)⟩
  cases hparse.symm.trans he
  have hpaths : p = ["a"] ∨ p = ["b"] := by simpa [Expr.paths] using hp
  rcases hpaths with rfl | rfl
  · exact .some (by decide +kernel)
  · exact .none

end Rule

end StepFlow
