import Mathlib.Data.List.DropRight
import StepFlow.Proofs.Json.Nesting
import StepFlow.Proofs.Json.Number

/-!
# Written JSON read back

A text of a value, in which gaps may stand between the parts (`Spelled`), is read as that value in
front of whatever may follow a value, except that arrays and objects nested too deep are unreadable
(`readValue_spelled`).  So a value is read from such a text as a whole exactly when it nests no deeper
than the limit (`ofText_spelled` and `toJson?_shown_eq_none`).
-/

namespace StepFlow.Document

open Text

/-! ## Strings -/

/-- A piece stands for a character: as itself, or by its number where that is a control
character's. -/
def Piece.StandsFor (p : Piece) (c : Char) : Prop :=
  p = .char c ∨ p = .unit c.toNat ∧ c.toNat < 0x20

/-- The two digits of a control character denote its number. -/
theorem hexUnit?_control {n : Nat} (h : n < 0x20) :
    hexUnit? '0' '0' (n / 16).digitChar (n % 16).digitChar = some n := by
  revert h
  revert n
  decide

/-- A written character is read as one piece. -/
theorem exists_readPieces_escapeChar (c : Char) :
    ∃ p : Piece, p.StandsFor c ∧ ∀ rest,
      readPieces (Json.escapeChar c ++ rest) =
        (readPieces rest).map fun found => (p :: found.1, found.2) := by
  have hsome (p : Piece) (rest : List Char) :
      (readPieces rest >>= fun found => some (p :: found.1, found.2)) =
        (readPieces rest).map fun found => (p :: found.1, found.2) := by
    cases readPieces rest <;> rfl
  by_cases hletter : c ∈ ['"', '\\', '\n', '\r', '\t', '\x08', '\x0c']
  · refine ⟨.char c, .inl rfl, fun rest => ?_⟩
    simp only [List.mem_cons, List.not_mem_nil, or_false] at hletter
    rcases hletter with rfl | rfl | rfl | rfl | rfl | rfl | rfl <;> exact hsome _ _
  · simp only [List.mem_cons, List.not_mem_nil, or_false, not_or] at hletter
    obtain ⟨hquote, hslash, hline, hreturn, htab, hback, hfeed⟩ := hletter
    by_cases hcontrol : c.toNat < 0x20
    · refine ⟨.unit c.toNat, .inr ⟨rfl, hcontrol⟩, fun rest => ?_⟩
      rw [← hsome]
      simp [Json.escapeChar, Json.unicodeEscape, hquote, hslash, hline, hreturn, htab, hback, hfeed,
        hcontrol, readPieces, hexUnit?_control hcontrol]
    · refine ⟨.char c, .inl rfl, fun rest => ?_⟩
      rw [← hsome]
      simp [Json.escapeChar, hquote, hslash, hline, hreturn, htab, hback, hfeed, hcontrol,
        readPieces]

/-- A control character is no part of a surrogate pair. -/
theorem joinPieces_unit {n : Nat} (h : n < 0x20) (pieces : List Piece) :
    joinPieces (.unit n :: pieces) = (joinPieces pieces).map (Char.ofNat n :: ·) := by
  have hhigh : isHighSurrogate n = false := by
    simp only [isHighSurrogate, Bool.and_eq_false_iff, decide_eq_false_iff_not]
    omega
  have hlow : isLowSurrogate n = false := by
    simp only [isLowSurrogate, Bool.and_eq_false_iff, decide_eq_false_iff_not]
    omega
  cases pieces with
  | nil => simp [joinPieces, hhigh, hlow]
  | cons p pieces => cases p <;> simp [joinPieces, hhigh, hlow]

/-- Pieces that stand for characters spell these characters. -/
theorem joinPieces_cons {p : Piece} {c : Char} (h : p.StandsFor c) (pieces : List Piece) :
    joinPieces (p :: pieces) = (joinPieces pieces).map (c :: ·) := by
  rcases h with rfl | ⟨rfl, hcontrol⟩
  · rfl
  · rw [joinPieces_unit hcontrol, Char.ofNat_toNat]

/-- Written characters are read up to the closing quote. -/
theorem exists_readPieces (cs rest : List Char) :
    ∃ pieces, readPieces (cs.flatMap Json.escapeChar ++ '"' :: rest) = some (pieces, rest) ∧
      joinPieces pieces = some cs := by
  induction cs with
  | nil => exact ⟨[], rfl, rfl⟩
  | cons c cs ih =>
    obtain ⟨pieces, hread, hjoin⟩ := ih
    obtain ⟨p, hp, hone⟩ := exists_readPieces_escapeChar c
    refine ⟨p :: pieces, ?_, ?_⟩
    · rw [List.flatMap_cons, List.append_assoc, hone, hread]
      rfl
    · rw [joinPieces_cons hp, hjoin]
      rfl

/-- A written string is read back. -/
theorem readString_chars (s : String) (rest : List Char) :
    readString (s.toList.flatMap Json.escapeChar ++ '"' :: rest) = some (some s, rest) := by
  obtain ⟨pieces, hread, hjoin⟩ := exists_readPieces s.toList rest
  simp [readString, hread, hjoin]

/-! ## Values -/

/-- Nothing is dropped in front of a character that is no gap. -/
theorem skipGap_cons {c : Char} (h : isGap c = false) (cs : List Char) :
    skipGap (c :: cs) = c :: cs :=
  List.dropWhile_cons_of_neg (by simp [h])

/-- A digit is neither a gap nor one of the characters that other values begin with. -/
theorem ne_of_isDigit {c : Char} (h : c.isDigit = true) :
    isGap c = false ∧ c ∉ ['n', 't', 'f', '"', '[', '\x7b', ']', '-'] := by
  obtain ⟨hlow, hhigh⟩ := toNat_sub_lt_of_isDigit h
  have hzero : '0'.toNat = 48 := rfl
  constructor
  · simp only [isGap, Bool.or_eq_false_iff, beq_eq_false_iff_ne, ne_eq]
    refine ⟨⟨⟨?_, ?_⟩, ?_⟩, ?_⟩ <;> rintro rfl <;> revert h <;> decide
  · intro hmem
    simp only [List.mem_cons, List.not_mem_nil, or_false] at hmem
    rcases hmem with rfl | rfl | rfl | rfl | rfl | rfl | rfl | rfl <;> revert h <;> decide

/-- The text of a number begins with a digit or a minus sign. -/
theorem exists_numberChars_eq_cons (n : Number) :
    ∃ c cs, Json.numberChars n = c :: cs ∧ (c = '-' ∨ c.isDigit = true) := by
  obtain ⟨l, hchars, hl, -⟩ := exists_literal_numberChars n
  obtain ⟨d, ds, hwhole⟩ := List.exists_cons_of_ne_nil hl.whole_ne_nil
  rw [← hchars, Literal.chars, hwhole]
  cases l.negative with
  | true => exact ⟨'-', _, rfl, .inl rfl⟩
  | false => exact ⟨d, _, rfl, .inr (hl.whole_digits d (by rw [hwhole]; exact List.mem_cons_self))⟩

/-- A written number is read back. -/
theorem readValue_numberChars (n : Number) {fuel : Nat} (depth : Nat) {rest : List Char}
    (hrest : EndsNumber rest) :
    readValue (fuel + 1) depth (Json.numberChars n ++ rest) = (number n, rest) := by
  obtain ⟨l, hchars, hl, hnumber⟩ := exists_literal_numberChars n
  have hread := readLiteral_chars hl hrest
  rw [hchars] at hread
  obtain ⟨c, cs, hcons, hfirst⟩ := exists_numberChars_eq_cons n
  rw [hcons, List.cons_append] at hread ⊢
  have hgap : isGap c = false := by
    rcases hfirst with rfl | hdigit
    · rfl
    · exact (ne_of_isDigit hdigit).1
  have hother : c ∉ ['n', 't', 'f', '"', '[', '\x7b'] := by
    rcases hfirst with rfl | hdigit
    · decide
    · intro hmem
      refine (ne_of_isDigit hdigit).2 ?_
      simp only [List.mem_cons, List.not_mem_nil, or_false] at hmem ⊢
      tauto
  have hkind : (c == '-' || c.isDigit) = true := by
    rcases hfirst with rfl | hdigit
    · rfl
    · simp [hdigit]
  simp only [List.mem_cons, List.not_mem_nil, or_false, not_or] at hother
  obtain ⟨hn, ht, hf, hquote, hbracket, hbrace⟩ := hother
  rw [readValue, skipGap_cons hgap]
  simp [hkind, hread, hnumber]

theorem endsNumber_mark {c : Char} (hc : c ∈ [',', ']', '\x7d']) (rest : List Char) :
    EndsNumber (c :: rest) := by
  simp only [List.mem_cons, List.not_mem_nil, or_false] at hc
  rcases hc with rfl | rfl | rfl <;> exact endsNumber_cons (by decide)

/-! ## Gaps -/

/-- Blanks that may stand between the parts of a text. -/
def Gap (cs : List Char) : Prop := ∀ c ∈ cs, isGap c = true

theorem gap_nil : Gap [] := fun c hc => by cases hc

variable {gap cs rest : List Char}

theorem skipGap_append (h : Gap gap) (cs : List Char) : skipGap (gap ++ cs) = skipGap cs := by
  induction gap with
  | nil => rfl
  | cons c gap ih =>
    have hc : isGap c = true := h c List.mem_cons_self
    have hgap := ih fun d hd => h d (List.mem_cons_of_mem _ hd)
    rw [List.cons_append, skipGap, List.dropWhile_cons_of_pos hc]
    exact hgap

theorem skipGap_skipGap (cs : List Char) : skipGap (skipGap cs) = skipGap cs :=
  List.dropWhile_idempotent _ _

/-- A number ends at a gap. -/
theorem endsNumber_gap (h : Gap gap) (hrest : EndsNumber rest) : EndsNumber (gap ++ rest) := by
  cases gap with
  | nil => exact hrest
  | cons c gap =>
    have hc := h c List.mem_cons_self
    simp only [isGap, Bool.or_eq_true, beq_iff_eq] at hc
    refine endsNumber_cons ?_
    rcases hc with ((rfl | rfl) | rfl) | rfl <;> decide

/-- A value is read past the gap in front of it. -/
theorem readValue_skipGap (fuel depth : Nat) (cs : List Char) :
    readValue fuel depth (skipGap cs) = readValue fuel depth cs := by
  cases fuel with
  | zero => rfl
  | succ fuel => rw [readValue, readValue, skipGap_skipGap]

theorem readItems_skipGap (fuel depth : Nat) (cs : List Char) :
    readItems fuel depth (skipGap cs) = readItems fuel depth cs := by
  cases fuel with
  | zero => rfl
  | succ fuel => rw [readItems, readItems, readValue_skipGap]

theorem readMembers_skipGap (fuel depth : Nat) (cs : List Char) :
    readMembers fuel depth (skipGap cs) = readMembers fuel depth cs := by
  cases fuel with
  | zero => rfl
  | succ fuel => rw [readMembers, readMembers, skipGap_skipGap]

/-! ## Texts of values -/

mutual

/-- The characters are a text of the value: its parts are written in their order, with gaps between
them. -/
inductive Spelled : Json → List Char → Prop
  | scalar {value : Json} : value.nesting = 0 → Spelled value value.chars
  | noItems {gap : List Char} : Gap gap → Spelled (.array []) ('[' :: gap ++ [']'])
  | array {items : List Json} {cs : List Char} :
      SpelledItems items cs → Spelled (.array items) ('[' :: cs)
  | noMembers {gap : List Char} : Gap gap → Spelled (.object []) ('\x7b' :: gap ++ ['\x7d'])
  | object {members : List (String × Json)} {cs : List Char} :
      SpelledMembers members cs → Spelled (.object members) ('\x7b' :: cs)

/-- The characters are a text of the items up to the closing bracket. -/
inductive SpelledItems : List Json → List Char → Prop
  | last {item : Json} {before text after : List Char} :
      Gap before → Spelled item text → Gap after →
      SpelledItems [item] (before ++ text ++ after ++ [']'])
  | more {item : Json} {items : List Json} {before text after others : List Char} :
      Gap before → Spelled item text → Gap after → SpelledItems items others →
      SpelledItems (item :: items) (before ++ text ++ after ++ ',' :: others)

/-- The characters are a text of the members up to the closing brace. -/
inductive SpelledMembers : List (String × Json) → List Char → Prop
  | last (key : String) {value : Json} {before between text after : List Char} :
      Gap before → Gap between → Spelled value text → Gap after →
      SpelledMembers [(key, value)]
        (before ++ Json.stringChars key ++ ':' :: between ++ text ++ after ++ ['\x7d'])
  | more (key : String) {value : Json} {members : List (String × Json)}
      {before between text after others : List Char} :
      Gap before → Gap between → Spelled value text → Gap after → SpelledMembers members others →
      SpelledMembers ((key, value) :: members)
        (before ++ Json.stringChars key ++ ':' :: between ++ text ++ after ++ ',' :: others)

end

variable {value : Json} {items : List Json} {members : List (String × Json)}

/-- The text of a value begins with a character that is neither a gap nor a closing bracket. -/
theorem Spelled.exists_eq_cons (h : Spelled value cs) :
    ∃ c rest, cs = c :: rest ∧ isGap c = false ∧ c ≠ ']' := by
  cases h with
  | scalar hvalue =>
    cases value with
    | null => exact ⟨'n', _, rfl, rfl, by decide⟩
    | bool b => cases b <;> exact ⟨_, _, rfl, rfl, by decide⟩
    | number n =>
      obtain ⟨c, cs, hchars, hfirst⟩ := exists_numberChars_eq_cons n
      refine ⟨c, cs, hchars, ?_⟩
      rcases hfirst with rfl | hdigit
      · exact ⟨rfl, by decide⟩
      · refine ⟨(ne_of_isDigit hdigit).1, ?_⟩
        rintro rfl
        revert hdigit
        decide
    | string s => exact ⟨'"', _, rfl, rfl, by decide⟩
    | array items => cases hvalue
    | object members => cases hvalue
  | noItems _ => exact ⟨'[', _, rfl, rfl, by decide⟩
  | array _ => exact ⟨'[', _, rfl, rfl, by decide⟩
  | noMembers _ => exact ⟨'\x7b', _, rfl, rfl, by decide⟩
  | object _ => exact ⟨'\x7b', _, rfl, rfl, by decide⟩

/-- The text of items does not begin as an empty array ends. -/
theorem SpelledItems.exists_skipGap_eq_cons (h : SpelledItems items cs) (rest : List Char) :
    ∃ c others, skipGap (cs ++ rest) = c :: others ∧ c ≠ ']' := by
  cases h with
  | last hbefore htext _ =>
    obtain ⟨c, others, rfl, hgap, hc⟩ := htext.exists_eq_cons
    simp only [List.append_assoc, List.cons_append]
    exact ⟨c, _, by rw [skipGap_append hbefore, skipGap_cons hgap], hc⟩
  | more hbefore htext _ _ =>
    obtain ⟨c, others, rfl, hgap, hc⟩ := htext.exists_eq_cons
    simp only [List.append_assoc, List.cons_append]
    exact ⟨c, _, by rw [skipGap_append hbefore, skipGap_cons hgap], hc⟩

/-- The text of members begins with the quote of the first key. -/
theorem SpelledMembers.exists_skipGap_eq_cons (h : SpelledMembers members cs) (rest : List Char) :
    ∃ others, skipGap (cs ++ rest) = '"' :: others := by
  cases h with
  | last _ hbefore _ _ _ =>
    simp only [List.append_assoc, Json.stringChars, List.cons_append]
    exact ⟨_, by rw [skipGap_append hbefore, skipGap_cons (by rfl)]⟩
  | more _ hbefore _ _ _ _ =>
    simp only [List.append_assoc, Json.stringChars, List.cons_append]
    exact ⟨_, by rw [skipGap_append hbefore, skipGap_cons (by rfl)]⟩

mutual

/-- A text of a value is read as far as the nesting of the value allows. -/
theorem readValue_spelled {value : Json} {cs : List Char} (h : Spelled value cs) (fuel depth : Nat)
    (rest : List Char) (hfuel : 2 * cs.length ≤ fuel) (hrest : EndsNumber rest) :
    readValue fuel depth (cs ++ rest) = (shown depth value, rest) := by
  obtain ⟨c, others, hcons, -, -⟩ := h.exists_eq_cons
  obtain ⟨fuel, rfl⟩ : ∃ n, fuel = n + 1 := by
    rw [hcons, List.length_cons] at hfuel
    exact Nat.exists_eq_succ_of_ne_zero (by omega)
  cases h with
  | scalar hvalue =>
    cases value with
    | null => rfl
    | bool b => cases b <;> rfl
    | number n => exact readValue_numberChars n depth hrest
    | string s =>
      have hread := readString_chars s rest
      simp [Json.chars, Json.stringChars, readValue, skipGap_cons (show isGap '"' = false by rfl),
        hread, shown]
    | array items => cases hvalue
    | object members => cases hvalue
  | noItems hgap =>
    simp [readValue, skipGap_cons (show isGap '[' = false by rfl), skipGap_append hgap,
      skipGap_cons (show isGap ']' = false by rfl), shown, shownItems]
  | @array items cs hitems =>
    have hread := readItems_spelled hitems fuel (depth + 1) rest (by
      rw [List.length_cons] at hfuel
      omega)
    obtain ⟨c, others, hstart, hc⟩ := hitems.exists_skipGap_eq_cons rest
    rw [← readItems_skipGap, hstart] at hread
    simp [readValue, skipGap_cons (show isGap '[' = false by rfl), hstart, hc, hread, shown]
  | noMembers hgap =>
    simp [readValue, skipGap_cons (show isGap '\x7b' = false by rfl), skipGap_append hgap,
      skipGap_cons (show isGap '\x7d' = false by rfl), shown, shownMembers]
  | @object members cs hmembers =>
    have hread := readMembers_spelled hmembers fuel (depth + 1) rest (by
      rw [List.length_cons] at hfuel
      omega)
    obtain ⟨others, hstart⟩ := hmembers.exists_skipGap_eq_cons rest
    rw [← readMembers_skipGap, hstart] at hread
    simp [readValue, skipGap_cons (show isGap '\x7b' = false by rfl), hstart, hread, shown]

/-- A text of items is read up to the closing bracket. -/
theorem readItems_spelled {items : List Json} {cs : List Char} (h : SpelledItems items cs)
    (fuel depth : Nat) (rest : List Char) (hfuel : 2 * cs.length ≤ fuel + 1) :
    readItems fuel depth (cs ++ rest) = (shownItems depth items, rest) := by
  obtain ⟨fuel, rfl⟩ : ∃ n, fuel = n + 1 := by
    cases h <;> simp only [List.length_append, List.length_cons] at hfuel <;>
      exact Nat.exists_eq_succ_of_ne_zero (by omega)
  cases h with
  | @last item before text after hbefore htext hafter =>
    simp only [List.length_append, List.length_cons] at hfuel
    have hitem := readValue_spelled htext fuel depth (after ++ ']' :: rest) (by omega)
      (endsNumber_gap hafter (endsNumber_mark (by simp) rest))
    rw [← readValue_skipGap, ← skipGap_append hbefore, readValue_skipGap] at hitem
    simp only [List.append_assoc, List.cons_append, List.nil_append]
    rw [readItems, hitem]
    simp [skipGap_append hafter, skipGap_cons (show isGap ']' = false by rfl), shownItems]
  | @more item items before text after others hbefore htext hafter hothers =>
    simp only [List.length_append, List.length_cons] at hfuel
    have hitem := readValue_spelled htext fuel depth (after ++ ',' :: (others ++ rest)) (by omega)
      (endsNumber_gap hafter (endsNumber_mark (by simp) _))
    rw [← readValue_skipGap, ← skipGap_append hbefore, readValue_skipGap] at hitem
    have hrest := readItems_spelled hothers fuel depth rest (by omega)
    simp only [List.append_assoc, List.cons_append]
    rw [readItems, hitem]
    simp [skipGap_append hafter, skipGap_cons (show isGap ',' = false by rfl), hrest, shownItems]

/-- A text of members is read up to the closing brace. -/
theorem readMembers_spelled {members : List (String × Json)} {cs : List Char}
    (h : SpelledMembers members cs) (fuel depth : Nat) (rest : List Char)
    (hfuel : 2 * cs.length ≤ fuel + 1) :
    readMembers fuel depth (cs ++ rest) = (shownMembers depth members, rest) := by
  obtain ⟨fuel, rfl⟩ : ∃ n, fuel = n + 1 := by
    cases h <;> simp only [List.length_append, List.length_cons] at hfuel <;>
      exact Nat.exists_eq_succ_of_ne_zero (by omega)
  cases h with
  | @last key value before between text after hbefore hbetween htext hafter =>
    simp only [List.length_append, List.length_cons] at hfuel
    have hvalue := readValue_spelled htext fuel depth (after ++ '\x7d' :: rest) (by omega)
      (endsNumber_gap hafter (endsNumber_mark (by simp) rest))
    rw [← readValue_skipGap, ← skipGap_append hbetween, readValue_skipGap] at hvalue
    have hkey := readString_chars key (':' :: (between ++ (text ++ (after ++ '\x7d' :: rest))))
    simp only [Json.stringChars, List.append_assoc, List.cons_append, List.nil_append]
    rw [readMembers, skipGap_append hbefore, skipGap_cons (by rfl)]
    simp [hkey, skipGap_cons (show isGap ':' = false by rfl), hvalue, skipGap_append hafter,
      skipGap_cons (show isGap '\x7d' = false by rfl), shownMembers]
  | @more key value members before between text after others hbefore hbetween htext hafter
      hothers =>
    simp only [List.length_append, List.length_cons] at hfuel
    have hvalue := readValue_spelled htext fuel depth (after ++ ',' :: (others ++ rest)) (by omega)
      (endsNumber_gap hafter (endsNumber_mark (by simp) _))
    rw [← readValue_skipGap, ← skipGap_append hbetween, readValue_skipGap] at hvalue
    have hkey := readString_chars key (':' :: (between ++ (text ++ (after ++ ',' :: (others ++ rest)))))
    have hrest := readMembers_spelled hothers fuel depth rest (by omega)
    simp only [Json.stringChars, List.append_assoc, List.cons_append, List.nil_append]
    rw [readMembers, skipGap_append hbefore, skipGap_cons (by rfl)]
    simp [hkey, skipGap_cons (show isGap ':' = false by rfl), hvalue, skipGap_append hafter,
      skipGap_cons (show isGap ',' = false by rfl), hrest, shownMembers]

end

/-- A text of a value is read as a whole, as far as the nesting of the value allows. -/
theorem ofText_spelled (h : Spelled value cs) : ofText (String.ofList cs) = (shown 0 value, true) := by
  have hread := readValue_spelled h (2 * cs.length + 2) 0 [] (by omega) endsNumber_nil
  rw [List.append_nil] at hread
  simp [ofText, hread, skipGap]

end StepFlow.Document
