import StepFlow.Rule.Error
import StepFlow.Text.Blank

/-!
# The tokens of a text

A rule is cut into tokens from left to right, each as long as it can be. Strings stand
between two quotes of one kind and have no escapes; `===` and `!==` are other spellings of
`==` and `!=`.
-/

namespace StepFlow.Rule

/-- Characters that may stand in a number after its first one. -/
def isNumberPart (c : Char) : Bool := c.isDigit || c == '.'

/-- Characters that may begin a word. -/
def isWordStart (c : Char) : Bool := c.isAlpha || c == '_'

/-- Characters that may stand in a word after its first one. -/
def isWordPart (c : Char) : Bool := c.isAlphanum || c == '_' || c == '.'

/-! ### Single tokens -/

/-- The number that a sign and a run of digits and points denote. A point may end the run,
but there may be only one. -/
def numberOf? (negative : Bool) (run : List Char) : Option Binary64 :=
  let whole := run.takeWhile Char.isDigit
  match run.dropWhile Char.isDigit with
  | [] => some (.ofDecimal negative (Nat.ofDigitChars 10 whole 0) 0)
  | _ :: fraction =>
    if fraction.all Char.isDigit then
      some (.ofDecimal negative (Nat.ofDigitChars 10 (whole ++ fraction) 0) (-fraction.length))
    else none

/-- The number at the front of a text whose first character is a digit or a minus. -/
def lexNumber (first : Char) (rest : List Char) : Except Fault Token :=
  let run := rest.takeWhile isNumberPart
  let number? := if first = '-' then numberOf? true run else numberOf? false (first :: run)
  match number? with
  | some x => .ok (.number x)
  | none => .error (.badNumber (String.ofList (first :: run)))

/-- The runs between the dots of a word. -/
def segments : List Char → List (List Char)
  | [] => [[]]
  | c :: rest =>
    if c = '.' then [] :: segments rest
    else
      match segments rest with
      | [] => [[c]]
      | run :: runs => (c :: run) :: runs

/-- The token that a word stands for: a constant, or a path without empty segments. -/
def wordToken (word : List Char) : Except Fault Token :=
  if word = "true".toList then .ok (.bool true)
  else if word = "false".toList then .ok (.bool false)
  else if word = "null".toList then .ok .null
  else if (segments word).any List.isEmpty then .error (.malformedPath (String.ofList word))
  else .ok (.path ((segments word).map String.ofList))

/-- The token at the front of a text that begins with a character other than a blank, and
what follows it. -/
def lexToken (c : Char) (rest : List Char) : Except Fault (Token × List Char) :=
  match c, rest with
  | '(', rest => .ok (.openParen, rest)
  | ')', rest => .ok (.closeParen, rest)
  | '&', '&' :: rest => .ok (.and, rest)
  | '|', '|' :: rest => .ok (.or, rest)
  | '=', '=' :: '=' :: rest => .ok (.comparison .equal, rest)
  | '=', '=' :: rest => .ok (.comparison .equal, rest)
  | '!', '=' :: '=' :: rest => .ok (.comparison .unequal, rest)
  | '!', '=' :: rest => .ok (.comparison .unequal, rest)
  | '!', rest => .ok (.not, rest)
  | '>', '=' :: rest => .ok (.comparison .atLeast, rest)
  | '>', rest => .ok (.comparison .greater, rest)
  | '<', '=' :: rest => .ok (.comparison .atMost, rest)
  | '<', rest => .ok (.comparison .less, rest)
  | c, rest =>
    if c = '"' ∨ c = '\'' then
      match rest.dropWhile (· ≠ c) with
      | [] => .error .unterminatedString
      | _ :: after => .ok (.text (String.ofList (rest.takeWhile (· ≠ c))), after)
    else if c.isDigit ∨ (c = '-' ∧ rest.head?.any Char.isDigit) then
      (lexNumber c rest).map fun token => (token, rest.dropWhile isNumberPart)
    else if isWordStart c then
      (wordToken (c :: rest.takeWhile isWordPart)).map fun token =>
        (token, rest.dropWhile isWordPart)
    else .error (.unexpectedCharacter c)

/-! ### All tokens -/

theorem length_dropWhile_le {α : Type} (p : α → Bool) (l : List α) :
    (l.dropWhile p).length ≤ l.length := by
  induction l with
  | nil => exact Nat.le_refl _
  | cons a l ih =>
    rw [List.dropWhile_cons]
    split
    · exact Nat.le_succ_of_le ih
    · exact Nat.le_refl _

/-- What follows a token is no longer than what followed its first character. -/
theorem length_le_of_lexToken {c : Char} {rest after : List Char} {token : Token}
    (h : lexToken c rest = .ok (token, after)) : after.length ≤ rest.length := by
  unfold lexToken at h
  split at h
  all_goals try (cases h; grind)
  split at h
  · split at h
    · simp at h
    · rename_i heq
      simp only [Except.ok.injEq, Prod.mk.injEq] at h
      obtain ⟨-, rfl⟩ := h
      have hlen := length_dropWhile_le (fun x => decide (x ≠ c)) rest
      rw [heq, List.length_cons] at hlen
      omega
  · split at h
    · cases hn : lexNumber c rest <;> simp [hn, Except.map] at h
      obtain ⟨-, rfl⟩ := h
      exact length_dropWhile_le _ _
    · split at h
      · cases hw : wordToken (c :: rest.takeWhile isWordPart) <;> simp [hw, Except.map] at h
        obtain ⟨-, rfl⟩ := h
        exact length_dropWhile_le _ _
      · simp at h

/-- The tokens of a text. -/
def tokens (cs : List Char) : Except Fault (List Token) :=
  match cs with
  | [] => .ok []
  | c :: rest =>
    if Text.isBlank c then tokens rest
    else
      match h : lexToken c rest with
      | .error fault => .error fault
      | .ok (token, after) =>
        have := length_le_of_lexToken h
        match tokens after with
        | .error fault => .error fault
        | .ok more => .ok (token :: more)
termination_by cs.length

end StepFlow.Rule
