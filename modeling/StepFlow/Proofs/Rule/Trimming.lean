import StepFlow.Proofs.Handler
import StepFlow.Proofs.Rule.Composition

/-!
# Blanks around rules

A handler trims its rule before it evaluates it.  This changes nothing: a rule has the same tree
without the blanks around it, or the same fault (`parse_trim`).  So a decision comes to the truth
value of its rule as it is written, or fails as that does (`trimmed_rules_decide_alike`).

Blanks in front are passed over one by one.  Behind a text they can only be met by a token that goes
up to the end, and they are part of no token: a complete one ends there (`Lexeme.append`), and one
that is cut off stays so, with the same text in its fault (`lexToken_append_of_error`).
-/

namespace StepFlow

/-! ## Trimmed texts -/

namespace Text

/-- Trimming takes blanks away at both ends and nothing else. -/
theorem exists_blanks_trim (s : String) :
    ∃ front back, s.toList = front ++ (trim s).toList ++ back ∧
      (∀ c ∈ front, isBlank c = true) ∧ ∀ c ∈ back, isBlank c = true := by
  refine ⟨s.toList.takeWhile isBlank, ((trimFront s.toList).reverse.takeWhile isBlank).reverse,
    ?_, fun c hc => List.mem_takeWhile_imp hc, ?_⟩
  · have hback : trimBack (trimFront s.toList) ++
        ((trimFront s.toList).reverse.takeWhile isBlank).reverse = trimFront s.toList := by
      rw [trimBack, ← List.reverse_append, List.takeWhile_append_dropWhile, List.reverse_reverse]
    rw [trim, String.toList_ofList, List.append_assoc, hback, trimFront,
      List.takeWhile_append_dropWhile]
  · intro c hc
    exact List.mem_takeWhile_imp (List.mem_reverse.1 hc)

/-- A text is trimmed to nothing exactly if it consists of blanks. -/
theorem trim_eq_empty_iff {s : String} : trim s = "" ↔ ∀ c ∈ s.toList, isBlank c = true := by
  constructor
  · intro h
    obtain ⟨front, back, hsplit, hfront, hback⟩ := exists_blanks_trim s
    rw [hsplit, h]
    simpa [or_imp, forall_and] using ⟨hfront, hback⟩
  · intro h
    have hfront : trimFront s.toList = [] := List.dropWhile_eq_nil_iff.2 h
    rw [trim, hfront]
    rfl

end Text

namespace Rule

open Text

variable {c : Char} {rest w : List Char} {fault : Fault}

/-! ## Tokens that are cut off -/

/-- A sign that has to be doubled is a fault where it stands alone. -/
theorem lexToken_of_lone (hc : c ∈ ['&', '|', '=']) (hlone : rest.head? ≠ some c) :
    lexToken c rest = .error (.unexpectedCharacter c) := by
  simp only [List.mem_cons, List.not_mem_nil, or_false] at hc
  have hword : isWordStart c = false := by rcases hc with rfl | rfl | rfl <;> decide
  rcases hc with rfl | rfl | rfl
  all_goals
    cases rest with
    | nil => rfl
    | cons a more =>
      have ha : a ≠ _ := fun h => hlone (congrArg some h)
      simp [lexToken, ha, hword]

/-- Every other sign is a token. -/
theorem lone_or_exists_lexToken (hc : ¬NoSign c) (rest : List Char) :
    (c ∈ ['&', '|', '='] ∧ rest.head? ≠ some c) ∨
      ∃ t after, lexToken c rest = .ok (t, after) := by
  unfold lexToken
  split
  case h_14 =>
    refine .inl ?_
    simp only [NoSign, List.mem_cons, List.not_mem_nil, or_false, not_not] at hc
    rcases hc with rfl | rfl | rfl | rfl | rfl | rfl | rfl | rfl
    all_goals simp_all [List.head?_eq_some_iff]
  all_goals exact .inr ⟨_, _, rfl⟩

/-- Where no token can be read, none can be read with blanks behind the text either, and the fault
is the same. -/
theorem lexToken_append_of_error (h : lexToken c rest = .error fault)
    (hw : ∀ c ∈ w, isBlank c = true) : lexToken c (rest ++ w) = .error fault := by
  have hword : ∀ x ∈ w, isWordPart x = false := fun x hx => (separates_of_isBlank (hw x hx)).2
  have hnumber : ∀ x ∈ w, isNumberPart x = false := fun x hx =>
    (separates_of_isBlank (hw x hx)).isNumberPart_eq_false
  have hdigit : ∀ x ∈ w, x.isDigit = false := fun x hx =>
    (Bool.or_eq_false_iff.1 (hnumber x hx)).1
  have hne (hc : isBlank c = false) : ∀ x ∈ w, x ≠ c := by
    rintro x hx rfl
    simp [hw x hx] at hc
  by_cases hc : NoSign c
  · rw [lexToken_of_noSign hc] at h ⊢
    -- All that is read of the text behind its first character are runs, and no blank is in one.
    rw [lexNumber, takeWhile_append_of_fails hnumber, ← lexNumber, head?_any_append_of_fails hdigit,
      takeWhile_append_of_fails hword]
    split_ifs at h ⊢ with hquote hfirst hstart
    · have hblank : isBlank c = false := by rcases hquote with rfl | rfl <;> decide
      split at h
      · rename_i hopen
        have hall : (rest ++ w).dropWhile (· ≠ c) = [] := by
          rw [List.dropWhile_eq_nil_iff] at hopen ⊢
          intro x hx
          rcases List.mem_append.1 hx with hx | hx
          · exact hopen x hx
          · simpa using hne hblank x hx
        rw [hall]
        exact h
      · cases h
    · exact map_eq_error_iff.2 (map_eq_error_iff.1 h)
    · exact map_eq_error_iff.2 (map_eq_error_iff.1 h)
    · exact h
  · rcases lone_or_exists_lexToken hc rest with ⟨hsign, hlone⟩ | ⟨t, after, htoken⟩
    · rw [lexToken_of_lone hsign hlone] at h
      cases h
      refine lexToken_of_lone hsign fun hhead => ?_
      cases rest with
      | cons a more => exact hlone hhead
      | nil =>
        simp only [List.mem_cons, List.not_mem_nil, or_false] at hsign
        have hblank : isBlank c = false := by rcases hsign with rfl | rfl | rfl <;> decide
        exact hne hblank c (List.mem_of_mem_head? hhead) rfl
    · rw [htoken] at h
      cases h

/-- Blanks behind a text are no part of the token at its front. -/
theorem lexToken_append_blanks (c : Char) (rest : List Char) (hw : ∀ c ∈ w, isBlank c = true) :
    lexToken c (rest ++ w) = (lexToken c rest).map fun found => (found.1, found.2 ++ w) := by
  cases h : lexToken c rest with
  | error fault => exact lexToken_append_of_error h hw
  | ok found =>
    have hends : Ends w := by simpa using Ends.blanks (s := []) nofun hw
    exact lexToken_of_lexeme ((lexeme_of_lexToken h).append hends)

/-! ## Texts with blanks around them -/

/-- A text that begins with no blank has the token at its front, and then those of what follows. -/
theorem tokens_cons (rest : List Char) (hblank : isBlank c = false) :
    tokens (c :: rest) =
      lexToken c rest >>= fun found => (tokens found.2).map (found.1 :: ·) := by
  cases hlex : lexToken c rest with
  | ok found => exact tokens_of_lexToken hblank hlex
  | error fault =>
    rw [tokens, if_neg (by simp [hblank])]
    split
    · rename_i hfault
      rw [hlex] at hfault
      cases hfault
      rfl
    · rename_i htoken
      rw [hlex] at htoken
      cases htoken

/-- Blanks in front of a text are passed over. -/
theorem tokens_blanks_append (cs : List Char) (hw : ∀ c ∈ w, isBlank c = true) :
    tokens (w ++ cs) = tokens cs := by
  induction w with
  | nil => rfl
  | cons c w ih =>
    rw [List.cons_append, tokens_of_blank (hw c List.mem_cons_self)]
    exact ih fun c hc => hw c (List.mem_cons_of_mem _ hc)

/-- A text has the same tokens with blanks behind it, or the same fault. -/
theorem tokens_append_blanks (cs : List Char) (hw : ∀ c ∈ w, isBlank c = true) :
    tokens (cs ++ w) = tokens cs := by
  induction cs using tokens.induct with
  | case1 =>
    have hend := tokens_blanks_append [] hw
    rw [List.append_nil] at hend
    exact hend
  | case2 c rest hblank ih =>
    rw [List.cons_append, tokens_of_blank hblank, tokens_of_blank hblank, ih]
  | case3 c rest hblank fault hlex =>
    have hblank : isBlank c = false := by simpa using hblank
    rw [List.cons_append, tokens_cons _ hblank, tokens_cons _ hblank, lexToken_append_blanks _ _ hw,
      hlex]
    rfl
  | case4 c rest hblank t after hlex _ _ _ ih | case5 c rest hblank t after hlex _ _ _ ih =>
    have hblank : isBlank c = false := by simpa using hblank
    rw [List.cons_append, tokens_cons _ hblank, tokens_cons _ hblank, lexToken_append_blanks _ _ hw,
      hlex]
    exact congrArg (Except.map (t :: ·)) ih

/-- A rule has the same tree without the blanks around it, or the same fault. -/
theorem parse_trim (r : String) : parse (trim r) = parse r := by
  obtain ⟨front, back, hsplit, hfront, hback⟩ := exists_blanks_trim r
  have htokens : tokens (trim r).toList = tokens r.toList := by
    rw [hsplit, tokens_append_blanks _ hback, tokens_blanks_append _ hfront]
  rw [parse, parse, htokens]

/-- A rule has the same truth value without the blanks around it, or the same error. -/
theorem evaluate_trim (r : String) (context : Context) :
    evaluate (trim r) context = evaluate r context := by
  rw [evaluate, evaluate, parse_trim]

end Rule

/-! ## Decisions -/

namespace Handler

open Rule

/-- The outcome of a decision: its truth value, written under a name of its own and as the last
decision, and handed on. -/
def decided (key : String) (b : Bool) : Outcome :=
  ⟨.ofMembers [(key, .bool b), (lastDecisionKey, .bool b)], false, some b⟩

/-- The nodes that decide, with the name under which they write the decision and their rule. -/
inductive DecidesBy : Role → String → String → Prop
  | decision (rule : String) : DecidesBy (.decision rule) "decision" rule
  | ruleEngine (rule : String) : DecidesBy (.ruleEngine rule) "ruleResult" rule

/-- A decision needs more than blanks for a rule, and comes to what the rule does as it is
written. -/
theorem decide_eq (key rule : String) (context : Context) :
    decide key rule context =
      if Blank rule then .error (.missing "rule")
      else ((evaluate rule context).map (decided key)).mapError .rule := by
  unfold decide requireSetting
  by_cases hblank : Blank rule
  · have htrim : Text.trim rule = "" := Text.trim_eq_empty_iff.2 hblank
    rw [if_pos hblank, htrim]
    rfl
  · have htrim : Text.trim rule ≠ "" := fun htrim => hblank (Text.trim_eq_empty_iff.1 htrim)
    have hkept : (Text.trim rule).isEmpty = false := by simpa using htrim
    rw [if_neg hblank, ← evaluate_trim]
    simp only [hkept, Bool.false_eq_true, if_false]
    change (evaluate (Text.trim rule) context).mapError StepFault.rule >>= _ = _
    cases evaluate (Text.trim rule) context with
    | error fault => rfl
    | ok b => rfl

/-- Trimming a rule changes nothing.  A text has the same tree, or the same fault, as without the
blanks around it; so the node of a rule that does not consist of blanks has the truth value of the
rule as it is written for its decision, and fails with the error of that if there is none. -/
theorem trimmed_rules_decide_alike :
    (∀ r, parse (Text.trim r) = parse r) ∧
    ∀ readings (n : Node) context initialData key rule, DecidesBy n.role key rule → ¬Blank rule →
      perform readings n context initialData =
        ((evaluate rule context).map (decided key)).mapError .rule := by
  refine ⟨parse_trim, ?_⟩
  intro readings n context initialData key rule hrole hblank
  have hperform : perform readings n context initialData = decide key rule context := by
    unfold perform
    generalize n.role = role at hrole
    cases hrole with
    | decision rule => rfl
    | ruleEngine rule => rfl
  rw [hperform, decide_eq, if_neg hblank]

/-- A number that ends in its point, before two kinds of blanks; and a text without its second
quote, which goes on through the blanks behind it and is still the same fault without them. -/
theorem trimmed_rules_decide_alike_cut_off :
    perform .still ⟨"n", none, .decision "\u2003 (count >= 3.) \n"⟩
        (.single "count" (Json.ofInt 3)) .empty = .ok (decided "decision" true) ∧
      perform .still ⟨"n", none, .ruleEngine "\u00a0count > 3 || name == 'a \u3000 "⟩
        (.single "count" (Json.ofInt 4)) .empty = .error (.rule (.invalid .unterminatedString)) ∧
      parse (Text.trim "\u2003 a & ") = .error (.invalid (.unexpectedCharacter '&')) := by
  obtain ⟨hparse, hperform⟩ := trimmed_rules_decide_alike
  have hnumber := hperform .still ⟨"n", none, .decision "\u2003 (count >= 3.) \n"⟩
    (.single "count" (Json.ofInt 3)) .empty _ _ (.decision _) (by decide)
  have htext := hperform .still ⟨"n", none, .ruleEngine "\u00a0count > 3 || name == 'a \u3000 "⟩
    (.single "count" (Json.ofInt 4)) .empty _ _ (.ruleEngine _) (by decide)
  refine ⟨hnumber.trans (by decide +kernel), htext.trans (by decide +kernel),
    (hparse _).trans (by decide +kernel)⟩

end Handler

end StepFlow
