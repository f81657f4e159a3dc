import StepFlow.Proofs.Rule.Grammar
import StepFlow.Proofs.Rule.Lexer

/-!
# Rules made of rules

A rule between parentheses is an operand of others, whatever stands in it: `rules_compose` says that
the parentheses leave its tree as it is, and that `!` in front of it and a binary operator between
two of them have the expected trees, with blanks at will around parentheses and operators.

The parser sees the tokens of the whole text, so this rests on tokens ending where the texts of the
parts do.  A closing parenthesis ends every token, and so does a blank, which is why texts with a
blank between them have the tokens of both.
-/

namespace StepFlow.Rule

/-! ## Operators -/

/-- The operators with two operands. -/
inductive Operator where
  | and
  | or
  | comparison (op : Comparison)
deriving DecidableEq, Repr

namespace Operator

/-- How an operator is written. -/
def sign : Operator → String
  | and => "&&"
  | or => "||"
  | comparison op => op.sign

/-- The token of an operator. -/
def token : Operator → Token
  | and => .and
  | or => .or
  | comparison op => .comparison op

/-- The tree of two operands with an operator between them. -/
def join : Operator → Expr → Expr → Expr
  | and => .and
  | or => .or
  | comparison op => .compare op

/-- An operator is a sign, also before a text at whose beginning tokens end. -/
theorem lexeme_sign (op : Operator) {rest : List Char} (h : Ends rest) :
    Lexeme (op.sign.toList ++ rest) op.token rest := by
  have hstop : rest.head? ≠ some '=' := fun hfirst => (h '=' hfirst).1 rfl
  rcases op with _ | _ | (_ | _ | _ | _ | _ | _)
  · exact .fullSign (by decide)
  · exact .fullSign (by decide)
  · exact .growingSign (by decide) hstop
  · exact .growingSign (by decide) hstop
  · exact .growingSign (by decide) hstop
  · exact .growingSign (by decide) hstop
  · exact .fullSign (by decide)
  · exact .fullSign (by decide)

end Operator

/-- Parentheses and `!` are signs as well. -/
theorem lexeme_openParen (rest : List Char) : Lexeme ('(' :: rest) .openParen rest :=
  lexToken_eq_ok_iff.1 rfl

theorem lexeme_closeParen (rest : List Char) : Lexeme (')' :: rest) .closeParen rest :=
  lexToken_eq_ok_iff.1 rfl

theorem lexeme_not {rest : List Char} (h : Ends rest) : Lexeme ('!' :: rest) .not rest := by
  have hsign : (['!'], Token.not) ∈ growingSigns := by decide
  exact .growingSign hsign fun hfirst => (h '=' hfirst).1 rfl

variable {r s t : String} {a b : Expr} {ts us : List Token}

/-! ## Trees -/

/-- The tokens of a rule between parentheses. -/
def enclosed (ts : List Token) : List Token := .openParen :: (ts ++ [.closeParen])

/-- Operands in parentheses can be joined by any operator. -/
theorem derives_join (op : Operator) (hl : Derives .disjunction ts a)
    (hr : Derives .disjunction us b) :
    Derives .disjunction (enclosed ts ++ op.token :: enclosed us) (op.join a b) := by
  have hleft := Derives.operand hl.parentheses
  have hright := Derives.operand hr.parentheses
  cases op with
  | and => exact .conjunction (.and (.comparison (.negation hleft)) (.negation hright))
  | or => exact .or (.conjunction (.comparison (.negation hleft))) (.comparison (.negation hright))
  | comparison op => exact .conjunction (.comparison (.compare op hleft hright))

/-- A rule has a tree exactly if it spells tokens from which the tree is derived. -/
theorem parse_eq_ok_iff : parse r = .ok a ↔ ∃ ts, Spells r.toList ts ∧ Derives .disjunction ts a := by
  unfold parse
  cases htokens : tokens r.toList with
  | error fault =>
    refine iff_of_false nofun fun ⟨ts, hspells, _⟩ => ?_
    rw [tokens_eq_ok_iff.2 hspells] at htokens
    cases htokens
  | ok ts =>
    simp only [mapError_eq_ok_iff, parseTokens_eq_ok_iff, ← tokens_eq_ok_iff, htokens,
      Except.ok.injEq, exists_eq_left']

/-! ## Texts -/

/-- A text of blanks. -/
def Blank (w : String) : Prop := ∀ c ∈ w.toList, Text.isBlank c = true

instance : DecidablePred Blank := fun w => List.decidableBAll _ w.toList

/-- A text is another one between parentheses, with blanks at will around them. -/
def Encloses (t r : String) : Prop :=
  ∃ before left right after, Blank before ∧ Blank left ∧ Blank right ∧ Blank after ∧
    t = before ++ "(" ++ left ++ r ++ right ++ ")" ++ after

/-- A text between parentheses has its tokens between those of the parentheses, whatever follows. -/
theorem Encloses.spells (h : Encloses t r) (hr : Spells r.toList ts) {rest : List Char}
    (hrest : Spells rest us) : Spells (t.toList ++ rest) (enclosed ts ++ us) := by
  obtain ⟨before, left, right, after, hbefore, hleft, hright, hafter, rfl⟩ := h
  have hbehind := (Spells.lexeme (lexeme_closeParen _) (hrest.blanks hafter)).blanks hright
  have hends : Ends (right.toList ++ ')' :: (after.toList ++ rest)) :=
    (ends_cons (by decide)).blanks hright
  have hinner := (hr.append hends hbehind).blanks hleft
  have hspells := (Spells.lexeme (lexeme_openParen _) hinner).blanks hbefore
  simpa [enclosed] using hspells

theorem Encloses.spells_enclosed (h : Encloses t r) (hr : Spells r.toList ts) :
    Spells t.toList (enclosed ts) := by
  simpa using h.spells hr .nil

/-- Tokens end where a text between parentheses begins. -/
theorem Encloses.ends (h : Encloses t r) : Ends t.toList := by
  obtain ⟨before, left, right, after, hbefore, -, -, -, rfl⟩ := h
  simp only [String.toList_append, List.append_assoc]
  exact Ends.blanks (ends_cons (by decide)) hbefore

/-- A rule between parentheses has the tree of the rule, `!` in front of it negates it, and an
operator between two of them joins their trees, with blanks at will around parentheses and
operators.  Texts with blanks between them have the tokens of both. -/
theorem rules_compose :
    (∀ r a t, parse r = .ok a → Encloses t r →
      parse t = .ok a ∧ ∀ w, Blank w → parse (w ++ "!" ++ t) = .ok (.not a)) ∧
    (∀ (op : Operator) r s a b t u, parse r = .ok a → parse s = .ok b → Encloses t r →
      Encloses u s → parse (t ++ op.sign ++ u) = .ok (op.join a b)) ∧
    ∀ r s x y w, tokens r.toList = .ok x → tokens s.toList = .ok y → Blank w → w ≠ "" →
      tokens (r ++ w ++ s).toList = .ok (x ++ y) := by
  refine ⟨fun r a t hr ht => ?_, fun op r s a b t u hr hs ht hu => ?_,
    fun r s x y w hx hy hw hne => ?_⟩
  · obtain ⟨ts, hspells, hderives⟩ := parse_eq_ok_iff.1 hr
    have hoperand := Derives.operand hderives.parentheses
    have hwhole := ht.spells_enclosed hspells
    refine ⟨parse_eq_ok_iff.2 ⟨_, hwhole, .conjunction (.comparison (.negation hoperand))⟩,
      fun w hw => parse_eq_ok_iff.2 ⟨.not :: enclosed ts, ?_,
        .conjunction (.comparison (.negation (.not hoperand)))⟩⟩
    simpa using (Spells.lexeme (lexeme_not ht.ends) hwhole).blanks hw
  · obtain ⟨ts, hts, hl⟩ := parse_eq_ok_iff.1 hr
    obtain ⟨us, hus, hr⟩ := parse_eq_ok_iff.1 hs
    have hright := Spells.lexeme (op.lexeme_sign hu.ends) (hu.spells_enclosed hus)
    refine parse_eq_ok_iff.2 ⟨_, ?_, derives_join op hl hr⟩
    simpa using ht.spells hts hright
  · rw [tokens_eq_ok_iff] at hx hy ⊢
    obtain ⟨c, rest, hblanks⟩ := List.exists_cons_of_ne_nil (mt String.toList_eq_nil_iff.1 hne)
    have hends : Ends (w.toList ++ s.toList) := by
      rw [hblanks]
      exact ends_cons (separates_of_isBlank (hw c (by simp [hblanks])))
    simpa using hx.append hends (hy.blanks hw)

/-- A disjunction and a negation between parentheses, compared and negated as wholes; and a `!` with
a blank behind it, which does not grow to the sign `!==`. -/
theorem rules_compose_whole :
    parse "( a == 'x' || b)>= (!c )" =
        .ok (.compare .atLeast (.or (.compare .equal (.path ["a"]) (.literal (.text "x")))
          (.path ["b"])) (.not (.path ["c"]))) ∧
      parse "! (!c )" = .ok (.not (.not (.path ["c"]))) ∧
      tokens ("!" ++ " " ++ "==").toList = .ok [.not, .comparison .equal] := by
  obtain ⟨hgroup, hjoin, htokens⟩ := rules_compose
  have hleft : parse "a == 'x' || b" = .ok (.or (.compare .equal (.path ["a"])
      (.literal (.text "x"))) (.path ["b"])) := by decide +kernel
  have hright : parse "!c" = .ok (.not (.path ["c"])) := by decide +kernel
  have hempty : Blank "" := by decide
  have hblank : Blank " " := by decide
  have ht : Encloses "( a == 'x' || b)" "a == 'x' || b" :=
    ⟨"", " ", "", "", hempty, hblank, hempty, hempty, rfl⟩
  have hu : Encloses " (!c )" "!c" := ⟨" ", "", " ", "", hblank, hempty, hblank, hempty, rfl⟩
  have hjoined := hjoin (.comparison .atLeast) _ _ _ _ _ _ hleft hright ht hu
  have hnegated := (hgroup _ _ _ hright hu).2 "" hempty
  have hsplit := htokens "!" "==" [.not] [.comparison .equal] " " (by decide +kernel)
    (by decide +kernel) hblank (by decide)
  exact ⟨hjoined, hnegated, hsplit⟩

end StepFlow.Rule
