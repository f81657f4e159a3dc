import StepFlow.Proofs.Except
import StepFlow.Proofs.Text.Characters
import StepFlow.Rule.Lexer

/-!
# The tokens of a text, declared

`Lexeme` says which characters at the front of a text make up a token, without saying how they are
found: a sign that is not the beginning of a longer one, a quoted text up to its second quote, a
number or a word as long as they can be.  `Spells` puts lexemes and blanks together to whole texts.
The tokens of a text are what it spells (`tokens_eq_ok_iff`).

What a text spells does not depend on what comes behind it, as long as that begins with a character
at which every token ends (`Spells.append`).
-/

namespace StepFlow.Rule

open Text

/-! ## Lexemes -/

/-- The signs that no character makes longer, each with the token that it stands for. -/
def fullSigns : List (List Char × Token) :=
  [(['('], .openParen), ([')'], .closeParen), (['&', '&'], .and), (['|', '|'], .or),
    (['=', '=', '='], .comparison .equal), (['!', '=', '='], .comparison .unequal),
    (['>', '='], .comparison .atLeast), (['<', '='], .comparison .atMost)]

/-- The signs that are others with a `=` behind them. -/
def growingSigns : List (List Char × Token) :=
  [(['=', '='], .comparison .equal), (['!', '='], .comparison .unequal), (['!'], .not),
    (['>'], .comparison .greater), (['<'], .comparison .less)]

/-- The front of a text is a token, and the rest follows it. -/
inductive Lexeme : List Char → Token → List Char → Prop
  | fullSign {sign : List Char} {t : Token} {rest : List Char} :
      (sign, t) ∈ fullSigns → Lexeme (sign ++ rest) t rest
  | growingSign {sign : List Char} {t : Token} {rest : List Char} :
      (sign, t) ∈ growingSigns → rest.head? ≠ some '=' → Lexeme (sign ++ rest) t rest
  | text {quote : Char} {content rest : List Char} : quote = '"' ∨ quote = '\'' →
      (∀ c ∈ content, c ≠ quote) →
      Lexeme (quote :: (content ++ quote :: rest)) (.text (String.ofList content)) rest
  | number {first : Char} {run rest : List Char} {t : Token} :
      first.isDigit = true ∨ first = '-' ∧ run.head?.any Char.isDigit = true →
      (∀ c ∈ run, isNumberPart c = true) → rest.head?.any isNumberPart = false →
      lexNumber first run = .ok t → Lexeme (first :: (run ++ rest)) t rest
  | word {first : Char} {run rest : List Char} {t : Token} : isWordStart first = true →
      (∀ c ∈ run, isWordPart c = true) → rest.head?.any isWordPart = false →
      wordToken (first :: run) = .ok t → Lexeme (first :: (run ++ rest)) t rest

variable {c first : Char} {cs rest after run s r w : List Char} {t : Token} {ts us : List Token}

/-! ### Characters -/

/-- A character that begins no sign. -/
def NoSign (c : Char) : Prop := c ∉ ['(', ')', '&', '|', '=', '!', '>', '<']

instance : DecidablePred NoSign := fun c => inferInstanceAs (Decidable (c ∉ _))

theorem noSign_of_isWordPart (h : isWordPart c = true) : NoSign c := by
  simp only [NoSign, List.mem_cons, List.not_mem_nil, or_false]
  rintro (rfl | rfl | rfl | rfl | rfl | rfl | rfl | rfl) <;> revert h <;> decide

theorem isWordPart_of_isWordStart (h : isWordStart c = true) : isWordPart c = true := by
  simp only [isWordStart, isWordPart, Char.isAlphanum, Bool.or_eq_true] at h ⊢
  tauto

/-- A word does not begin with a digit. -/
theorem isDigit_of_isWordStart (h : isWordStart c = true) : c.isDigit = false := by
  refine Bool.eq_false_iff.2 fun hdigit => ?_
  have hhigh := (toNat_bounds_of_isDigit hdigit).2
  simp only [isWordStart, Bool.or_eq_true, beq_iff_eq] at h
  rcases h with h | rfl
  · have hlow := (toNat_bounds_of_isAlpha h).1
    omega
  · exact absurd hhigh (by decide)

theorem isWordPart_of_isNumberPart (h : isNumberPart c = true) : isWordPart c = true := by
  simp only [isNumberPart, isWordPart, Char.isAlphanum, Bool.or_eq_true] at h ⊢
  tauto

/-- Blanks have no part in words. -/
theorem isBlank_of_isWordPart (h : isWordPart c = true) : isBlank c = false := by
  simp only [isWordPart, Char.isAlphanum, Bool.or_eq_true, beq_iff_eq] at h
  rcases h with ((h | h) | rfl) | rfl
  · obtain ⟨hlow, hhigh⟩ := toNat_bounds_of_isAlpha h
    exact isBlank_eq_false_of_bounds (by omega) (by omega)
  · exact isBlank_of_isDigit h
  · decide
  · decide

/-- A number is read from its own characters only. -/
theorem lexNumber_append (hrun : ∀ c ∈ run, isNumberPart c = true)
    (hstop : rest.head?.any isNumberPart = false) :
    lexNumber first (run ++ rest) = lexNumber first run := by
  rw [lexNumber, lexNumber, takeWhile_append_of_stop hrun hstop, List.takeWhile_eq_self_iff.2 hrun]

/-- Where a run of digits and points begins with a digit can be seen from the run. -/
theorem head?_append_of_stop (hstop : rest.head?.any isNumberPart = false) :
    (run ++ rest).head?.any Char.isDigit = run.head?.any Char.isDigit := by
  cases run with
  | nil =>
    cases rest with
    | nil => rfl
    | cons c rest =>
      simp only [isNumberPart, List.head?_cons, Option.any_some, Bool.or_eq_false_iff] at hstop
      simp [hstop.1]
  | cons c run => rfl

/-! ## The lexer finds lexemes -/

/-- Where no sign begins, the lexer looks for a text, a number or a word. -/
theorem lexToken_of_noSign (hc : NoSign c) :
    lexToken c rest =
      if c = '"' ∨ c = '\'' then
        match rest.dropWhile (· ≠ c) with
        | [] => .error .unterminatedString
        | _ :: after => .ok (.text (String.ofList (rest.takeWhile (· ≠ c))), after)
      else if c.isDigit ∨ (c = '-' ∧ rest.head?.any Char.isDigit) then
        (lexNumber c rest).map fun token => (token, rest.dropWhile isNumberPart)
      else if isWordStart c then
        (wordToken (c :: rest.takeWhile isWordPart)).map fun token =>
          (token, rest.dropWhile isWordPart)
      else .error (.unexpectedCharacter c) := by
  unfold lexToken
  split
  case h_14 => rfl
  all_goals exact absurd (by decide) hc

/-- What the lexer finds at the front of a text is a lexeme. -/
theorem lexeme_of_lexToken (h : lexToken c rest = .ok (t, after)) : Lexeme (c :: rest) t after := by
  have full (sign : List Char) {t : Token} {rest : List Char} (hsign : (sign, t) ∈ fullSigns) :
      Lexeme (sign ++ rest) t rest := .fullSign hsign
  have growing (sign : List Char) {t : Token} {rest : List Char} (hsign : (sign, t) ∈ growingSigns)
      (hstop : ∀ more, rest = '=' :: more → False) : Lexeme (sign ++ rest) t rest :=
    .growingSign hsign fun hhead => by
      obtain ⟨more, hmore⟩ := List.head?_eq_some_iff.1 hhead
      exact hstop more hmore
  unfold lexToken at h
  split at h
  case h_1 => cases h; exact full ['('] (by decide)
  case h_2 => cases h; exact full [')'] (by decide)
  case h_3 => cases h; exact full ['&', '&'] (by decide)
  case h_4 => cases h; exact full ['|', '|'] (by decide)
  case h_5 => cases h; exact full ['=', '=', '='] (by decide)
  case h_6 hstop => cases h; exact growing ['=', '='] (by decide) hstop
  case h_7 => cases h; exact full ['!', '=', '='] (by decide)
  case h_8 hstop => cases h; exact growing ['!', '='] (by decide) hstop
  case h_9 hstop => cases h; exact growing ['!'] (by decide) hstop
  case h_10 => cases h; exact full ['>', '='] (by decide)
  case h_11 hstop => cases h; exact growing ['>'] (by decide) hstop
  case h_12 => cases h; exact full ['<', '='] (by decide)
  case h_13 hstop => cases h; exact growing ['<'] (by decide) hstop
  case h_14 =>
    split at h
    · rename_i hquote
      obtain ⟨content, behind, rfl, hcontent, hstop⟩ := exists_run (fun x => decide (x ≠ c)) rest
      rw [takeWhile_append_of_stop hcontent hstop, dropWhile_append_of_stop hcontent hstop] at h
      cases behind with
      | nil => cases h
      | cons q more =>
        cases h
        obtain rfl : q = c := by simpa using hstop
        exact .text hquote fun x hx => of_decide_eq_true (hcontent x hx)
    · split at h
      · rename_i hfirst
        obtain ⟨run, behind, rfl, hrun, hstop⟩ := exists_run isNumberPart rest
        rw [lexNumber_append hrun hstop, dropWhile_append_of_stop hrun hstop] at h
        rw [head?_append_of_stop hstop] at hfirst
        obtain ⟨_, hnumber, heq⟩ := exists_of_map_eq_ok h
        cases heq
        exact .number hfirst hrun hstop hnumber
      · split at h
        · rename_i hfirst
          obtain ⟨run, behind, rfl, hrun, hstop⟩ := exists_run isWordPart rest
          rw [takeWhile_append_of_stop hrun hstop, dropWhile_append_of_stop hrun hstop] at h
          obtain ⟨_, hword, heq⟩ := exists_of_map_eq_ok h
          cases heq
          exact .word hfirst hrun hstop hword
        · cases h

/-- Every lexeme is found. -/
theorem lexToken_of_lexeme (h : Lexeme (c :: rest) t after) : lexToken c rest = .ok (t, after) := by
  generalize hcs : c :: rest = cs at h
  cases h with
  | fullSign hsign =>
    simp only [fullSigns, List.mem_cons, Prod.mk.injEq, List.not_mem_nil, or_false] at hsign
    rcases hsign with ⟨rfl, rfl⟩ | ⟨rfl, rfl⟩ | ⟨rfl, rfl⟩ | ⟨rfl, rfl⟩ | ⟨rfl, rfl⟩ | ⟨rfl, rfl⟩ |
      ⟨rfl, rfl⟩ | ⟨rfl, rfl⟩ <;> cases hcs <;> rfl
  | growingSign hsign hstop =>
    simp only [growingSigns, List.mem_cons, Prod.mk.injEq, List.not_mem_nil, or_false] at hsign
    rcases hsign with ⟨rfl, rfl⟩ | ⟨rfl, rfl⟩ | ⟨rfl, rfl⟩ | ⟨rfl, rfl⟩ | ⟨rfl, rfl⟩ <;> cases hcs
    all_goals
      cases after with
      | nil => rfl
      | cons a more =>
        have ha : a ≠ '=' := fun h => hstop (h ▸ rfl)
        simp [lexToken, ha]
  | @text quote content _ hquote hcontent =>
    cases hcs
    have hc : NoSign c := by rcases hquote with rfl | rfl <;> decide
    have hrun : ∀ x ∈ content, decide (x ≠ c) = true := fun x hx => decide_eq_true (hcontent x hx)
    have hstop : (c :: after).head?.any (fun x => decide (x ≠ c)) = false := by simp
    rw [lexToken_of_noSign hc, if_pos hquote, takeWhile_append_of_stop hrun hstop,
      dropWhile_append_of_stop hrun hstop]
  | @number _ run _ _ hfirst hrun hstop hnumber =>
    cases hcs
    have hpart : isWordPart c = true ∨ c = '-' :=
      hfirst.imp (fun h => isWordPart_of_isNumberPart (by simp [isNumberPart, h])) (·.1)
    have hc : NoSign c := hpart.elim noSign_of_isWordPart fun h => by rw [h]; decide
    have hquote : ¬(c = '"' ∨ c = '\'') := by
      rintro (rfl | rfl) <;> exact absurd hpart (by decide)
    rw [lexToken_of_noSign hc, if_neg hquote, head?_append_of_stop hstop, if_pos hfirst,
      lexNumber_append hrun hstop, hnumber, dropWhile_append_of_stop hrun hstop]
    rfl
  | @word _ run _ _ hfirst hrun hstop hword =>
    cases hcs
    have hpart := isWordPart_of_isWordStart hfirst
    have hquote : ¬(c = '"' ∨ c = '\'') := by
      rintro (rfl | rfl) <;> exact absurd hpart (by decide)
    have hnumber : ¬(c.isDigit = true ∨ c = '-' ∧ (run ++ after).head?.any Char.isDigit = true) := by
      rintro (hdigit | ⟨rfl, -⟩)
      · rw [isDigit_of_isWordStart hfirst] at hdigit
        cases hdigit
      · exact absurd hpart (by decide)
    rw [lexToken_of_noSign (noSign_of_isWordPart hpart), if_neg hquote, if_neg hnumber,
      if_pos hfirst, takeWhile_append_of_stop hrun hstop, hword, dropWhile_append_of_stop hrun hstop]
    rfl

/-- The lexer finds the lexemes and nothing else. -/
theorem lexToken_eq_ok_iff : lexToken c rest = .ok (t, after) ↔ Lexeme (c :: rest) t after :=
  ⟨lexeme_of_lexToken, lexToken_of_lexeme⟩

/-- A lexeme begins with a character, and this is no blank. -/
theorem Lexeme.exists_eq_cons (h : Lexeme cs t rest) :
    ∃ c more, cs = c :: more ∧ isBlank c = false := by
  cases h with
  | fullSign hsign =>
    simp only [fullSigns, List.mem_cons, Prod.mk.injEq, List.not_mem_nil, or_false] at hsign
    rcases hsign with ⟨rfl, -⟩ | ⟨rfl, -⟩ | ⟨rfl, -⟩ | ⟨rfl, -⟩ | ⟨rfl, -⟩ | ⟨rfl, -⟩ | ⟨rfl, -⟩ |
      ⟨rfl, -⟩ <;> exact ⟨_, _, rfl, by decide⟩
  | growingSign hsign =>
    simp only [growingSigns, List.mem_cons, Prod.mk.injEq, List.not_mem_nil, or_false] at hsign
    rcases hsign with ⟨rfl, -⟩ | ⟨rfl, -⟩ | ⟨rfl, -⟩ | ⟨rfl, -⟩ | ⟨rfl, -⟩ <;>
      exact ⟨_, _, rfl, by decide⟩
  | text hquote =>
    refine ⟨_, _, rfl, ?_⟩
    rcases hquote with rfl | rfl <;> decide
  | number hfirst =>
    refine ⟨_, _, rfl, ?_⟩
    rcases hfirst with hdigit | ⟨rfl, -⟩
    · exact isBlank_of_isWordPart (isWordPart_of_isNumberPart (by simp [isNumberPart, hdigit]))
    · decide
  | word hfirst => exact ⟨_, _, rfl, isBlank_of_isWordPart (isWordPart_of_isWordStart hfirst)⟩

/-! ## Texts -/

/-- A text spells tokens: lexemes, with blanks between them at will. -/
inductive Spells : List Char → List Token → Prop
  | nil : Spells [] []
  | blank {c : Char} {cs : List Char} {ts : List Token} :
      isBlank c = true → Spells cs ts → Spells (c :: cs) ts
  | lexeme {cs rest : List Char} {t : Token} {ts : List Token} :
      Lexeme cs t rest → Spells rest ts → Spells cs (t :: ts)

theorem tokens_of_blank (h : isBlank c = true) : tokens (c :: cs) = tokens cs := by
  rw [tokens, if_pos h]

theorem tokens_of_lexToken (hblank : isBlank c = false)
    (h : lexToken c rest = .ok (t, after)) :
    tokens (c :: rest) = (tokens after).map (t :: ·) := by
  rw [tokens, if_neg (by simp [hblank])]
  split
  · rename_i hfault
    rw [h] at hfault
    cases hfault
  · rename_i htoken
    rw [h] at htoken
    cases htoken
    cases tokens after <;> rfl

/-- The tokens of a text are those that it spells. -/
theorem tokens_eq_ok_iff : tokens cs = .ok ts ↔ Spells cs ts := by
  constructor
  · intro h
    fun_induction tokens cs generalizing ts with
    | case1 => cases h; exact .nil
    | case2 c rest hblank ih => exact .blank hblank (ih h)
    | case3 => cases h
    | case4 => cases h
    | case5 c rest _ token after hlex _ more hmore ih =>
      cases h
      exact .lexeme (lexToken_eq_ok_iff.1 hlex) (ih hmore)
  · intro h
    induction h with
    | nil => rw [tokens]
    | blank hblank _ ih => rw [tokens_of_blank hblank, ih]
    | lexeme hlexeme _ ih =>
      obtain ⟨c, more, rfl, hblank⟩ := hlexeme.exists_eq_cons
      rw [tokens_of_lexToken hblank (lexToken_eq_ok_iff.2 hlexeme), ih]
      rfl

/-! ## Texts behind each other -/

/-- A character at which every token ends. -/
def Separates (c : Char) : Prop := c ≠ '=' ∧ isWordPart c = false

instance : DecidablePred Separates := fun _ => inferInstanceAs (Decidable (_ ∧ _))

theorem separates_of_isBlank (h : isBlank c = true) : Separates c := by
  refine ⟨fun heq => ?_, Bool.eq_false_iff.2 fun hpart => ?_⟩
  · rw [heq] at h
    revert h
    decide
  · rw [isBlank_of_isWordPart hpart] at h
    cases h

theorem Separates.isNumberPart_eq_false (h : Separates c) : isNumberPart c = false :=
  Bool.eq_false_iff.2 fun hpart => by simpa [h.2] using isWordPart_of_isNumberPart hpart

/-- A text at whose beginning every token ends. -/
def Ends (cs : List Char) : Prop := ∀ c, cs.head? = some c → Separates c

theorem ends_cons (h : Separates c) : Ends (c :: cs) := by
  rintro _ ⟨⟩
  exact h

/-- Blanks in front of a text at whose beginning tokens end leave it so. -/
theorem Ends.blanks (h : Ends s) (hw : ∀ c ∈ w, isBlank c = true) : Ends (w ++ s) := by
  cases w with
  | nil => exact h
  | cons c w => exact ends_cons (separates_of_isBlank (hw c List.mem_cons_self))

/-- Blanks in front of a text change nothing. -/
theorem Spells.blanks (h : Spells s ts) (hw : ∀ c ∈ w, isBlank c = true) :
    Spells (w ++ s) ts := by
  induction w with
  | nil => exact h
  | cons c w ih =>
    exact .blank (hw c List.mem_cons_self) (ih fun c hc => hw c (List.mem_cons_of_mem _ hc))

/-- A lexeme stays one when a text is put behind it at whose beginning every token ends. -/
theorem Lexeme.append (h : Lexeme r t rest) (hs : Ends s) : Lexeme (r ++ s) t (rest ++ s) := by
  have hhead {p : Char → Bool} (hstop : rest.head?.any p = false)
      (hp : ∀ c, Separates c → p c = false) : (rest ++ s).head?.any p = false := by
    cases rest with
    | cons c rest => exact hstop
    | nil =>
      cases hfirst : s.head? with
      | none => simp [hfirst]
      | some c => simpa [hfirst] using hp c (hs c hfirst)
  cases h with
  | fullSign hsign =>
    rw [List.append_assoc]
    exact .fullSign hsign
  | growingSign hsign hstop =>
    rw [List.append_assoc]
    refine .growingSign hsign fun hfirst => ?_
    cases rest with
    | nil => exact (hs '=' hfirst).1 rfl
    | cons c rest => exact hstop hfirst
  | text hquote hcontent =>
    rw [List.cons_append, List.append_assoc, List.cons_append]
    exact .text hquote hcontent
  | number hfirst hrun hstop hnumber =>
    rw [List.cons_append, List.append_assoc]
    exact .number hfirst hrun (hhead hstop fun c hc => hc.isNumberPart_eq_false) hnumber
  | word hfirst hrun hstop hword =>
    rw [List.cons_append, List.append_assoc]
    exact .word hfirst hrun (hhead hstop fun c hc => hc.2) hword

/-- Two texts spell the tokens of the first and then those of the second, if every token ends where
the second begins. -/
theorem Spells.append (h : Spells r ts) (hs : Ends s) (hspells : Spells s us) :
    Spells (r ++ s) (ts ++ us) := by
  induction h with
  | nil => exact hspells
  | blank hblank _ ih => exact .blank hblank ih
  | lexeme hlexeme _ ih => exact .lexeme (hlexeme.append hs) ih

end StepFlow.Rule
