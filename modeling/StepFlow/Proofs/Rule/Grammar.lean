import Mathlib.Tactic.Common
import StepFlow.Rule.Parser

/-!
# The grammar of rules

`Derives` is the grammar of rules, written down without the parser: a relation between a level of
binding strength, a list of tokens and the syntax tree that the tokens stand for.  The parser
accepts exactly what the grammar derives, and with the same tree.

Soundness (`sound`) goes by the fuel of the parser and says for each level which front part of the
tokens was consumed.  Completeness (`Derives.completes`) goes by the derivation: whatever follows
the derived tokens, as long as it cannot continue the level, the parser stops exactly there.  A
chain is derived from its right end but parsed from its left, so for chains completeness leads to
the loop that looks for further operands rather than to a result.

`parse_eq_ok_iff_derives` puts the two together and adds that a derived tree is the only one.
-/

namespace StepFlow.Rule

/-! ## The grammar -/

/-- How tightly an expression binds, from the loosest to the tightest. -/
inductive Level where
  | disjunction
  | conjunction
  | comparison
  | negation
  | operand
deriving DecidableEq, Repr

/-- The tokens of an expression at a level and the tree that they stand for.  Chains of `||` and
of `&&` group to the left, a comparison has one sign at most, and parentheses leave no node. -/
inductive Derives : Level → List Token → Expr → Prop
  | conjunction {ts : List Token} {e : Expr} :
      Derives .conjunction ts e → Derives .disjunction ts e
  | or {ts us : List Token} {l r : Expr} :
      Derives .disjunction ts l → Derives .conjunction us r →
      Derives .disjunction (ts ++ .or :: us) (.or l r)
  | comparison {ts : List Token} {e : Expr} :
      Derives .comparison ts e → Derives .conjunction ts e
  | and {ts us : List Token} {l r : Expr} :
      Derives .conjunction ts l → Derives .comparison us r →
      Derives .conjunction (ts ++ .and :: us) (.and l r)
  | negation {ts : List Token} {e : Expr} : Derives .negation ts e → Derives .comparison ts e
  | compare (op : Comparison) {ts us : List Token} {l r : Expr} :
      Derives .negation ts l → Derives .negation us r →
      Derives .comparison (ts ++ .comparison op :: us) (.compare op l r)
  | operand {ts : List Token} {e : Expr} : Derives .operand ts e → Derives .negation ts e
  | not {ts : List Token} {e : Expr} :
      Derives .negation ts e → Derives .negation (.not :: ts) (.not e)
  | number (x : Binary64) : Derives .operand [.number x] (.literal (.number x))
  | text (s : String) : Derives .operand [.text s] (.literal (.text s))
  | bool (b : Bool) : Derives .operand [.bool b] (.literal (.bool b))
  | null : Derives .operand [.null] (.literal .null)
  | path (p : Path) : Derives .operand [.path p] (.path p)
  | parentheses {ts : List Token} {e : Expr} :
      Derives .disjunction ts e → Derives .operand (.openParen :: (ts ++ [.closeParen])) e

variable {fuel : Nat} {ts us pre rest : List Token} {e left l r : Expr} {level : Level}

/-- A token with a value is an operand of its own. -/
theorem derives_of_value? {t : Token} (h : t.value? = some e) : Derives .operand [t] e := by
  cases t with
  | number x => cases h; exact .number x
  | text s => cases h; exact .text s
  | bool b => cases h; exact .bool b
  | null => cases h; exact .null
  | path p => cases h; exact .path p
  | _ => cases h

/-- Nothing is derived from no tokens. -/
theorem Derives.ne_nil (h : Derives level ts e) : ts ≠ [] := by
  induction h with
  | conjunction _ ih | comparison _ ih | negation _ ih | operand _ ih => exact ih
  | _ => simp

/-! ## Calls that succeed -/

theorem exists_of_parseOr (h : parseOr (fuel + 1) ts = .ok (e, rest)) :
    ∃ left after, parseAnd fuel ts = .ok (left, after) ∧
      parseOrTail fuel left after = .ok (e, rest) := by
  rw [parseOr] at h
  split at h
  · cases h
  · rename_i left after hleft
    exact ⟨left, after, hleft, h⟩

theorem exists_of_parseAnd (h : parseAnd (fuel + 1) ts = .ok (e, rest)) :
    ∃ left after, parseComparison fuel ts = .ok (left, after) ∧
      parseAndTail fuel left after = .ok (e, rest) := by
  rw [parseAnd] at h
  split at h
  · cases h
  · rename_i left after hleft
    exact ⟨left, after, hleft, h⟩

/-- The loop for operands of `||` takes one more of them or stops. -/
theorem cases_of_parseOrTail (h : parseOrTail (fuel + 1) left ts = .ok (e, rest)) :
    (∃ us right after, ts = .or :: us ∧ parseAnd fuel us = .ok (right, after) ∧
      parseOrTail fuel (.or left right) after = .ok (e, rest)) ∨ left = e ∧ ts = rest := by
  rw [parseOrTail.eq_def] at h
  split at h
  · rename_i heq; cases heq
  · rename_i us heq
    cases heq
    split at h
    · cases h
    · rename_i right after hright
      exact .inl ⟨us, right, after, rfl, hright, h⟩
  · cases h
    exact .inr ⟨rfl, rfl⟩

/-- The loop for operands of `&&` takes one more of them or stops. -/
theorem cases_of_parseAndTail (h : parseAndTail (fuel + 1) left ts = .ok (e, rest)) :
    (∃ us right after, ts = .and :: us ∧ parseComparison fuel us = .ok (right, after) ∧
      parseAndTail fuel (.and left right) after = .ok (e, rest)) ∨ left = e ∧ ts = rest := by
  rw [parseAndTail.eq_def] at h
  split at h
  · rename_i heq; cases heq
  · rename_i us heq
    cases heq
    split at h
    · cases h
    · rename_i right after hright
      exact .inl ⟨us, right, after, rfl, hright, h⟩
  · cases h
    exact .inr ⟨rfl, rfl⟩

/-- A comparison has a second operand or is its first one alone. -/
theorem cases_of_parseComparison (h : parseComparison (fuel + 1) ts = .ok (e, rest)) :
    (∃ l op us r, parseUnary fuel ts = .ok (l, .comparison op :: us) ∧
      parseUnary fuel us = .ok (r, rest) ∧ .compare op l r = e) ∨
      parseUnary fuel ts = .ok (e, rest) := by
  rw [parseComparison] at h
  split at h
  · cases h
  · rename_i l op us hleft
    split at h
    · cases h
    · cases h
    · rename_i r after _ hright
      cases h
      exact .inl ⟨l, op, us, r, hleft, hright, rfl⟩
  · rename_i l after _ hleft
    cases h
    exact .inr hleft

/-- A value is negated or left to the parser of operands. -/
theorem cases_of_parseUnary (h : parseUnary (fuel + 1) ts = .ok (e, rest)) :
    (∃ us x, ts = .not :: us ∧ parseUnary fuel us = .ok (x, rest) ∧ .not x = e) ∨
      parsePrimary fuel ts = .ok (e, rest) := by
  rw [parseUnary.eq_def] at h
  split at h
  · rename_i heq; cases heq
  · rename_i us heq
    cases heq
    split at h
    · cases h
    · rename_i x after hx
      cases h
      exact .inl ⟨us, x, rfl, hx, rfl⟩
  · rename_i heq _
    cases heq
    exact .inr h

/-- An operand stands in parentheses or is a token with a value. -/
theorem cases_of_parsePrimary (h : parsePrimary (fuel + 1) ts = .ok (e, rest)) :
    (∃ us, ts = .openParen :: us ∧ parseOr fuel us = .ok (e, .closeParen :: rest)) ∨
      ∃ t, ts = t :: rest ∧ t.value? = some e := by
  rw [parsePrimary.eq_def] at h
  split at h
  · cases h
  · cases h
  · rename_i us heq
    cases heq
    split at h
    · cases h
    · rename_i inner after hinner
      cases h
      exact .inl ⟨us, rfl, hinner⟩
    · cases h
  · split at h
    · rename_i value hvalue
      cases h
      exact .inr ⟨_, rfl, hvalue⟩
    · cases h

/-! ## Soundness -/

/-- What the parsers find with some fuel is derived from the tokens that they consume. -/
structure Sound (fuel : Nat) : Prop where
  disjunction : ∀ {ts e rest}, parseOr fuel ts = .ok (e, rest) →
    ∃ pre, Derives .disjunction pre e ∧ ts = pre ++ rest
  /-- A tail extends whatever has been derived for the tree in front of it. -/
  disjunctionTail : ∀ {left ts e rest pre}, parseOrTail fuel left ts = .ok (e, rest) →
    Derives .disjunction pre left →
    ∃ more, Derives .disjunction (pre ++ more) e ∧ ts = more ++ rest
  conjunction : ∀ {ts e rest}, parseAnd fuel ts = .ok (e, rest) →
    ∃ pre, Derives .conjunction pre e ∧ ts = pre ++ rest
  conjunctionTail : ∀ {left ts e rest pre}, parseAndTail fuel left ts = .ok (e, rest) →
    Derives .conjunction pre left →
    ∃ more, Derives .conjunction (pre ++ more) e ∧ ts = more ++ rest
  comparison : ∀ {ts e rest}, parseComparison fuel ts = .ok (e, rest) →
    ∃ pre, Derives .comparison pre e ∧ ts = pre ++ rest
  negation : ∀ {ts e rest}, parseUnary fuel ts = .ok (e, rest) →
    ∃ pre, Derives .negation pre e ∧ ts = pre ++ rest
  operand : ∀ {ts e rest}, parsePrimary fuel ts = .ok (e, rest) →
    ∃ pre, Derives .operand pre e ∧ ts = pre ++ rest

/-- Without fuel nothing is found. -/
theorem sound_zero : Sound 0 where
  disjunction h := by simp [parseOr] at h
  disjunctionTail h := by simp [parseOrTail] at h
  conjunction h := by simp [parseAnd] at h
  conjunctionTail h := by simp [parseAndTail] at h
  comparison h := by simp [parseComparison] at h
  negation h := by simp [parseUnary] at h
  operand h := by simp [parsePrimary] at h

/-- One more call keeps the parsers sound. -/
theorem Sound.succ (ih : Sound fuel) : Sound (fuel + 1) where
  disjunction {ts e rest} h := by
    obtain ⟨left, after, hleft, htail⟩ := exists_of_parseOr h
    obtain ⟨pre, hpre, rfl⟩ := ih.conjunction hleft
    obtain ⟨more, hmore, rfl⟩ := ih.disjunctionTail htail (.conjunction hpre)
    exact ⟨pre ++ more, hmore, (List.append_assoc ..).symm⟩
  disjunctionTail {left ts e rest pre} h hpre := by
    rcases cases_of_parseOrTail h with ⟨us, right, after, rfl, hright, htail⟩ | ⟨rfl, rfl⟩
    · obtain ⟨mid, hmid, rfl⟩ := ih.conjunction hright
      obtain ⟨more, hmore, rfl⟩ := ih.disjunctionTail htail (.or hpre hmid)
      exact ⟨.or :: (mid ++ more), by simpa using hmore, by simp⟩
    · exact ⟨[], by simpa using hpre, rfl⟩
  conjunction {ts e rest} h := by
    obtain ⟨left, after, hleft, htail⟩ := exists_of_parseAnd h
    obtain ⟨pre, hpre, rfl⟩ := ih.comparison hleft
    obtain ⟨more, hmore, rfl⟩ := ih.conjunctionTail htail (.comparison hpre)
    exact ⟨pre ++ more, hmore, (List.append_assoc ..).symm⟩
  conjunctionTail {left ts e rest pre} h hpre := by
    rcases cases_of_parseAndTail h with ⟨us, right, after, rfl, hright, htail⟩ | ⟨rfl, rfl⟩
    · obtain ⟨mid, hmid, rfl⟩ := ih.comparison hright
      obtain ⟨more, hmore, rfl⟩ := ih.conjunctionTail htail (.and hpre hmid)
      exact ⟨.and :: (mid ++ more), by simpa using hmore, by simp⟩
    · exact ⟨[], by simpa using hpre, rfl⟩
  comparison {ts e rest} h := by
    rcases cases_of_parseComparison h with ⟨l, op, us, r, hleft, hright, rfl⟩ | hunary
    · obtain ⟨pre, hpre, rfl⟩ := ih.negation hleft
      obtain ⟨mid, hmid, rfl⟩ := ih.negation hright
      exact ⟨pre ++ .comparison op :: mid, .compare op hpre hmid, by simp⟩
    · obtain ⟨pre, hpre, rfl⟩ := ih.negation hunary
      exact ⟨pre, .negation hpre, rfl⟩
  negation {ts e rest} h := by
    rcases cases_of_parseUnary h with ⟨us, x, rfl, hunary, rfl⟩ | hprimary
    · obtain ⟨pre, hpre, rfl⟩ := ih.negation hunary
      exact ⟨.not :: pre, .not hpre, rfl⟩
    · obtain ⟨pre, hpre, rfl⟩ := ih.operand hprimary
      exact ⟨pre, .operand hpre, rfl⟩
  operand {ts e rest} h := by
    rcases cases_of_parsePrimary h with ⟨us, rfl, hinner⟩ | ⟨t, rfl, hvalue⟩
    · obtain ⟨pre, hpre, rfl⟩ := ih.disjunction hinner
      exact ⟨.openParen :: (pre ++ [.closeParen]), .parentheses hpre, by simp⟩
    · exact ⟨[t], derives_of_value? hvalue, rfl⟩

/-- What the parsers find is derived from the tokens that they consume. -/
theorem sound (fuel : Nat) : Sound fuel := by
  induction fuel with
  | zero => exact sound_zero
  | succ fuel ih => exact ih.succ

/-! ## Completeness -/

/-- The tokens do not begin with a comparison sign. -/
def NoComparison (ts : List Token) : Prop := ∀ op, ts.head? ≠ some (.comparison op)

/-- What the parser of a level makes of derived tokens, with enough fuel for their number and
before tokens that cannot continue the level.  For chains it is led to the loop that looks for
more operands. -/
def Completes (level : Level) (pre : List Token) (e : Expr) : Prop :=
  match level with
  | .disjunction => ∀ (rest : List Token) (fuel : Nat), NoComparison rest →
      rest.head? ≠ some .and → 6 * pre.length ≤ fuel + 1 →
      ∃ left, fuel ≤ left + pre.length ∧ parseOr fuel (pre ++ rest) = parseOrTail left e rest
  | .conjunction => ∀ (rest : List Token) (fuel : Nat), NoComparison rest →
      6 * pre.length ≤ fuel + 2 →
      ∃ left, fuel ≤ left + pre.length ∧ parseAnd fuel (pre ++ rest) = parseAndTail left e rest
  | .comparison => ∀ (rest : List Token) (fuel : Nat), NoComparison rest →
      6 * pre.length ≤ fuel + 3 → parseComparison fuel (pre ++ rest) = .ok (e, rest)
  | .negation => ∀ (rest : List Token) (fuel : Nat), 6 * pre.length ≤ fuel + 4 →
      parseUnary fuel (pre ++ rest) = .ok (e, rest)
  | .operand => ∀ (rest : List Token) (fuel : Nat), 6 * pre.length ≤ fuel + 5 →
      parsePrimary fuel (pre ++ rest) = .ok (e, rest)

/-- The loop for operands of `||` stops before any other token. -/
theorem parseOrTail_of_stop (h : rest.head? ≠ some .or) :
    parseOrTail (fuel + 1) e rest = .ok (e, rest) := by
  rw [parseOrTail.eq_def]
  split
  · rename_i heq; cases heq
  · simp at h
  · rfl

/-- The loop for operands of `&&` stops before any other token. -/
theorem parseAndTail_of_stop (h : rest.head? ≠ some .and) :
    parseAndTail (fuel + 1) e rest = .ok (e, rest) := by
  rw [parseAndTail.eq_def]
  split
  · rename_i heq; cases heq
  · simp at h
  · rfl

/-- Tokens without a `!` in front are left to the parser of operands. -/
theorem parseUnary_of_operand (h : ts.head? ≠ some .not) :
    parseUnary (fuel + 1) ts = parsePrimary fuel ts := by
  rw [parseUnary.eq_def]
  split
  · rename_i heq; cases heq
  · simp at h
  · rename_i heq _; cases heq; rfl

/-- An operand before tokens that do not begin with a comparison sign is left alone. -/
theorem parseComparison_of_stop (hoperand : parseUnary fuel ts = .ok (e, rest))
    (h : NoComparison rest) : parseComparison (fuel + 1) ts = .ok (e, rest) := by
  rw [parseComparison, hoperand]
  cases rest with
  | nil => rfl
  | cons t rest =>
    cases t with
    | comparison op => exact absurd rfl (h op)
    | _ => rfl

/-- Two operands with one sign between them are compared, if no further sign follows. -/
theorem parseComparison_of_sign {op : Comparison}
    (hleft : parseUnary fuel ts = .ok (l, .comparison op :: us))
    (hright : parseUnary fuel us = .ok (r, rest)) (h : NoComparison rest) :
    parseComparison (fuel + 1) ts = .ok (.compare op l r, rest) := by
  rw [parseComparison, hleft]
  simp only [hright]
  cases rest with
  | nil => rfl
  | cons t rest =>
    cases t with
    | comparison op => exact absurd rfl (h op)
    | _ => rfl

/-- A derived disjunction is parsed up to tokens that cannot continue it. -/
theorem Completes.disjunction (h : Completes .disjunction pre e) (hcomparison : NoComparison rest)
    (hand : rest.head? ≠ some .and) (hor : rest.head? ≠ some .or)
    (hpre : 0 < pre.length) (hfuel : 6 * pre.length ≤ fuel + 1) :
    parseOr fuel (pre ++ rest) = .ok (e, rest) := by
  obtain ⟨left, hleft, hparse⟩ := h rest fuel hcomparison hand hfuel
  obtain ⟨left, rfl⟩ : ∃ n, left = n + 1 := ⟨left - 1, by omega⟩
  rw [hparse, parseOrTail_of_stop hor]

/-- A derived conjunction is parsed up to tokens that cannot continue it. -/
theorem Completes.conjunction (h : Completes .conjunction pre e) (hcomparison : NoComparison rest)
    (hand : rest.head? ≠ some .and) (hpre : 0 < pre.length) (hfuel : 6 * pre.length ≤ fuel + 2) :
    parseAnd fuel (pre ++ rest) = .ok (e, rest) := by
  obtain ⟨left, hleft, hparse⟩ := h rest fuel hcomparison hfuel
  obtain ⟨left, rfl⟩ : ∃ n, left = n + 1 := ⟨left - 1, by omega⟩
  rw [hparse, parseAndTail_of_stop hand]

/-- Every derivation is found by the parser of its level. -/
theorem Derives.completes (h : Derives level pre e) : Completes level pre e := by
  induction h with
  | @conjunction ts e h ih =>
    intro rest fuel hcomparison hand hfuel
    have hpos := List.length_pos_iff.2 h.ne_nil
    obtain ⟨fuel, rfl⟩ : ∃ n, fuel = n + 1 := ⟨fuel - 1, by omega⟩
    refine ⟨fuel, by omega, ?_⟩
    rw [parseOr, ih.conjunction hcomparison hand hpos (by omega)]
  | @or ts us l r hl hr ihl ihr =>
    intro rest fuel hcomparison hand hfuel
    have hlpos := List.length_pos_iff.2 hl.ne_nil
    have hrpos := List.length_pos_iff.2 hr.ne_nil
    simp only [List.length_append, List.length_cons] at hfuel ⊢
    -- The part in front leads to the loop, which then takes the last operand.
    obtain ⟨left, hleft, hparse⟩ := ihl (.or :: (us ++ rest)) fuel
      (by simp [NoComparison]) (by simp) (by omega)
    obtain ⟨left, rfl⟩ : ∃ n, left = n + 1 := ⟨left - 1, by omega⟩
    refine ⟨left, by omega, ?_⟩
    rw [List.append_assoc, List.cons_append, hparse, parseOrTail,
      ihr.conjunction hcomparison hand hrpos (by omega)]
  | @comparison ts e h ih =>
    intro rest fuel hcomparison hfuel
    have hpos := List.length_pos_iff.2 h.ne_nil
    obtain ⟨fuel, rfl⟩ : ∃ n, fuel = n + 1 := ⟨fuel - 1, by omega⟩
    refine ⟨fuel, by omega, ?_⟩
    rw [parseAnd, ih rest fuel hcomparison (by omega)]
  | @and ts us l r hl hr ihl ihr =>
    intro rest fuel hcomparison hfuel
    have hlpos := List.length_pos_iff.2 hl.ne_nil
    have hrpos := List.length_pos_iff.2 hr.ne_nil
    simp only [List.length_append, List.length_cons] at hfuel ⊢
    obtain ⟨left, hleft, hparse⟩ := ihl (.and :: (us ++ rest)) fuel
      (by simp [NoComparison]) (by omega)
    obtain ⟨left, rfl⟩ : ∃ n, left = n + 1 := ⟨left - 1, by omega⟩
    refine ⟨left, by omega, ?_⟩
    rw [List.append_assoc, List.cons_append, hparse, parseAndTail,
      ihr rest left hcomparison (by omega)]
  | @negation ts e h ih =>
    intro rest fuel hcomparison hfuel
    have hpos := List.length_pos_iff.2 h.ne_nil
    obtain ⟨fuel, rfl⟩ : ∃ n, fuel = n + 1 := ⟨fuel - 1, by omega⟩
    exact parseComparison_of_stop (ih rest fuel (by omega)) hcomparison
  | @compare op ts us l r hl hr ihl ihr =>
    intro rest fuel hcomparison hfuel
    have hlpos := List.length_pos_iff.2 hl.ne_nil
    have hrpos := List.length_pos_iff.2 hr.ne_nil
    simp only [List.length_append, List.length_cons] at hfuel
    obtain ⟨fuel, rfl⟩ : ∃ n, fuel = n + 1 := ⟨fuel - 1, by omega⟩
    rw [List.append_assoc, List.cons_append]
    exact parseComparison_of_sign (ihl _ fuel (by omega)) (ihr rest fuel (by omega)) hcomparison
  | @operand ts e h ih =>
    intro rest fuel hfuel
    have hpos := List.length_pos_iff.2 h.ne_nil
    obtain ⟨fuel, rfl⟩ : ∃ n, fuel = n + 1 := ⟨fuel - 1, by omega⟩
    have hnot : (ts ++ rest).head? ≠ some .not := by
      cases h <;> simp
    rw [parseUnary_of_operand hnot, ih rest fuel (by omega)]
  | @not ts e h ih =>
    intro rest fuel hfuel
    simp only [List.length_cons] at hfuel
    obtain ⟨fuel, rfl⟩ : ∃ n, fuel = n + 1 := ⟨fuel - 1, by omega⟩
    rw [List.cons_append, parseUnary, ih rest fuel (by omega)]
  | number | text | bool | null | path =>
    intro rest fuel hfuel
    simp only [List.length_singleton] at hfuel
    obtain ⟨fuel, rfl⟩ : ∃ n, fuel = n + 1 := ⟨fuel - 1, by omega⟩
    rfl
  | @parentheses ts e h ih =>
    intro rest fuel hfuel
    have hpos := List.length_pos_iff.2 h.ne_nil
    simp only [List.length_cons, List.length_append, List.length_nil] at hfuel
    obtain ⟨fuel, rfl⟩ : ∃ n, fuel = n + 1 := ⟨fuel - 1, by omega⟩
    have hinner : parseOr fuel (ts ++ .closeParen :: rest) = .ok (e, .closeParen :: rest) :=
      ih.disjunction (by simp [NoComparison]) (by simp) (by simp) hpos (by omega)
    simp [parsePrimary, hinner]

/-! ## The parser and the grammar -/

/-- The parser finds a tree for a whole list of tokens exactly if the tree is derived from it. -/
theorem parseTokens_eq_ok_iff : parseTokens ts = .ok e ↔ Derives .disjunction ts e := by
  constructor
  · intro h
    unfold parseTokens at h
    split at h
    · cases h
    · split at h
      · cases h
      · rename_i hparse
        cases h
        obtain ⟨pre, hpre, rfl⟩ := (sound _).disjunction hparse
        simpa using hpre
      · cases h
  · intro h
    have hpos := List.length_pos_iff.2 h.ne_nil
    have hcompletes : Completes .disjunction ts e := h.completes
    have hparse : parseOr (parseFuel ts) (ts ++ []) = .ok (e, []) :=
      hcompletes.disjunction (by simp [NoComparison]) (by simp) (by simp) hpos
        (by unfold parseFuel; omega)
    rw [List.append_nil] at hparse
    unfold parseTokens
    rw [if_neg (by simpa using h.ne_nil), hparse]

/-- The parser of rules accepts exactly the grammar: a rule with given tokens has a tree exactly
if the tree is derived from the whole list of tokens, at most one tree is, and a rule from whose
tokens no tree is derived is an invalid expression. -/
theorem parse_eq_ok_iff_derives {rule : String} (htokens : tokens rule.toList = .ok ts) :
    (∀ e, parse rule = .ok e ↔ Derives .disjunction ts e) ∧
    (∀ e e', Derives .disjunction ts e → Derives .disjunction ts e' → e = e') ∧
    ((∀ e, ¬Derives .disjunction ts e) → ∃ fault, parse rule = .error (.invalid fault)) := by
  have hparse : parse rule = (parseTokens ts).mapError .invalid := by simp [parse, htokens]
  refine ⟨fun e => ?_, fun e e' he he' => ?_, fun hnone => ?_⟩
  · rw [hparse, ← parseTokens_eq_ok_iff]
    cases parseTokens ts <;> simp [Except.mapError]
  · have heq := (parseTokens_eq_ok_iff.2 he).symm.trans (parseTokens_eq_ok_iff.2 he')
    exact Except.ok.inj heq
  · cases hresult : parseTokens ts with
    | error fault => exact ⟨fault, by rw [hparse, hresult]; rfl⟩
    | ok e => exact absurd (parseTokens_eq_ok_iff.1 hresult) (hnone e)

/-- A negation binds tighter than the comparison behind it, which binds tighter than `||`. -/
theorem parse_eq_ok_iff_derives_negated_side :
    tokens "!a == b || (c)".toList =
        .ok [.not, .path ["a"], .comparison .equal, .path ["b"], .or, .openParen, .path ["c"],
          .closeParen] ∧
      parse "!a == b || (c)" =
        .ok (.or (.compare .equal (.not (.path ["a"])) (.path ["b"])) (.path ["c"])) := by
  have htokens : tokens "!a == b || (c)".toList =
      .ok [.not, .path ["a"], .comparison .equal, .path ["b"], .or, .openParen, .path ["c"],
        .closeParen] := by decide +kernel
  have operand : ∀ p, Derives .negation [.path p] (.path p) := fun p => .operand (.path p)
  refine ⟨htokens, ((parse_eq_ok_iff_derives htokens).1 _).2 ?_⟩
  have hleft := Derives.compare .equal (.not (operand ["a"])) (operand ["b"])
  have hright := Derives.parentheses (.conjunction (.comparison (.negation (operand ["c"]))))
  exact .or (.conjunction (.comparison hleft)) (.comparison (.negation (.operand hright)))

end StepFlow.Rule
