import StepFlow.Json.Printer
import StepFlow.Json.Reader
import StepFlow.Proofs.Binary64.Decimal
import StepFlow.Proofs.Text.Digits

/-!
# Written numbers read back

A number in data is spelled by a sign, digits, a fraction and an exponent.  Every such spelling is
read as the parts it was put together from (`readLiteral_chars`), and the text of a number is a
spelling whose parts denote that number (`exists_literal_numberChars`).
-/

namespace StepFlow.Document

open Text

/-! ## Spellings -/

/-- The characters of an exponent, as they stand in data. -/
def exponentChars : Option Int → List Char
  | none => []
  | some e => 'e' :: Binary64.exponentText .data e

/-- The characters of a fraction; without digits there is no point either. -/
def fractionChars : List Char → List Char
  | [] => []
  | d :: ds => '.' :: d :: ds

/-- The characters of a number, as they stand in data. -/
def Literal.chars (l : Literal) : List Char :=
  (if l.negative then ['-'] else []) ++
    (l.whole ++ (fractionChars l.fraction ++ exponentChars l.exponent?))

/-- The parts of a number are runs of digits, and no zero stands in front of the others. -/
structure Literal.WellFormed (l : Literal) : Prop where
  whole_ne_nil : l.whole ≠ []
  whole_digits : AllDigits l.whole
  whole_canonical : ∀ d ds, l.whole ≠ '0' :: d :: ds
  fraction_digits : AllDigits l.fraction

/-- A number ends here: nothing follows that could belong to it. -/
def EndsNumber (rest : List Char) : Prop :=
  ∀ c, rest.head? = some c → c.isDigit = false ∧ c ≠ '.' ∧ c ≠ 'e' ∧ c ≠ 'E'

theorem endsNumber_nil : EndsNumber [] := by
  intro c hc
  cases hc

theorem endsNumber_cons {c : Char} {rest : List Char}
    (h : c.isDigit = false ∧ c ≠ '.' ∧ c ≠ 'e' ∧ c ≠ 'E') : EndsNumber (c :: rest) := by
  intro d hd
  cases hd
  exact h

variable {ds rest : List Char}

/-! ## Reading the parts -/

theorem digits_append (hdigits : AllDigits ds) (hrest : NoDigit rest) :
    digits (ds ++ rest) = (ds, rest) := by
  rw [digits, takeWhile_isDigit hdigits hrest, dropWhile_isDigit hdigits hrest]

theorem readWhole_append (hne : ds ≠ []) (hdigits : AllDigits ds)
    (hcanonical : ∀ d es, ds ≠ '0' :: d :: es) (hrest : NoDigit rest) :
    readWhole (ds ++ rest) = some (ds, rest) := by
  unfold readWhole
  rw [digits_append hdigits hrest]
  split
  · rename_i h
    exact absurd (Prod.mk.inj h).1 hne
  · rename_i h
    exact absurd (Prod.mk.inj h).1 (hcanonical _ _)
  · rfl

theorem readFraction_append (hdigits : AllDigits ds) (hrest : NoDigit rest)
    (hpoint : rest.head? ≠ some '.') :
    readFraction (fractionChars ds ++ rest) = some (ds, rest) := by
  cases ds with
  | nil =>
    change readFraction rest = some ([], rest)
    unfold readFraction
    split
    · exact absurd rfl hpoint
    · rfl
  | cons d ds =>
    simp only [fractionChars, List.cons_append, readFraction]
    rw [← List.cons_append, digits_append hdigits hrest]

/-- The digits of an exponent are read under its sign. -/
theorem readExponentDigits_append (e : Int) (hrest : NoDigit rest) :
    readExponentDigits (e < 0) (Nat.toDigits 10 e.natAbs ++ rest) = some (e, rest) := by
  unfold readExponentDigits
  rw [digits_append (allDigits_toDigits _) hrest]
  split
  · rename_i h
    exact absurd (Prod.mk.inj h).1 Nat.toDigits_ne_nil
  · rename_i h
    cases h
    simp only [digitsValue, Nat.ofDigitChars_ten_toDigits, decide_eq_true_eq]
    congr 2
    split <;> omega

theorem readExponent_append (e? : Option Int) (hrest : EndsNumber rest) :
    readExponent (exponentChars e? ++ rest) = some (e?, rest) := by
  cases e? with
  | none =>
    cases rest with
    | nil => rfl
    | cons c rest =>
      obtain ⟨-, -, he, hE⟩ := hrest c rfl
      simp [exponentChars, readExponent, he, hE]
  | some e =>
    have hnext : NoDigit rest := fun c hc => (hrest c hc).1
    have hread := readExponentDigits_append e hnext
    by_cases hneg : e < 0
    · simp only [hneg, decide_true] at hread
      simp [exponentChars, Binary64.exponentText, hneg, readExponent, hread]
    · simp only [hneg, decide_false] at hread
      simp [exponentChars, Binary64.exponentText, Binary64.Form.data, hneg, readExponent, hread]

/-- Neither a fraction nor an exponent begins with a digit. -/
theorem noDigit_exponentChars (e? : Option Int) (hrest : EndsNumber rest) :
    NoDigit (exponentChars e? ++ rest) ∧ (exponentChars e? ++ rest).head? ≠ some '.' := by
  cases e? with
  | none => exact ⟨fun c hc => (hrest c hc).1, fun h => (hrest _ h).2.1 rfl⟩
  | some e =>
    refine ⟨fun c hc => ?_, fun h => ?_⟩
    · cases hc
      rfl
    · cases h

theorem noDigit_fractionChars (ds : List Char) (hrest : NoDigit rest) :
    NoDigit (fractionChars ds ++ rest) := by
  cases ds with
  | nil => exact hrest
  | cons d ds =>
    intro c hc
    cases hc
    rfl

/-- A spelling is read as the parts it is put together from. -/
theorem readLiteral_chars {l : Literal} (hl : l.WellFormed) (hrest : EndsNumber rest) :
    readLiteral (l.chars ++ rest) = some (l, rest) := by
  obtain ⟨negative, whole, fraction, exponent?⟩ := l
  obtain ⟨hne, hwhole, hcanonical, hfraction⟩ := hl
  obtain ⟨hexponent, hpoint⟩ := noDigit_exponentChars exponent? hrest
  have hreadWhole := readWhole_append hne hwhole hcanonical
    (noDigit_fractionChars fraction hexponent)
  have hreadFraction := readFraction_append hfraction hexponent hpoint
  have hreadExponent := readExponent_append exponent? hrest
  cases negative with
  | true =>
    simp [readLiteral, Literal.chars, hreadWhole, hreadFraction, hreadExponent]
  | false =>
    cases whole with
    | nil => exact absurd rfl hne
    | cons d ds =>
      have hminus : d ≠ '-' := by
        rintro rfl
        exact absurd (hwhole '-' List.mem_cons_self) (by decide)
      simp only [List.cons_append] at hreadWhole
      simp [readLiteral, Literal.chars, hminus, hreadWhole, hreadFraction, hreadExponent]

/-! ## The parts of a number -/

/-- Digits of a positive number do not begin with a zero. -/
theorem toDigits_ne_zero_cons {n : Nat} (hn : 0 < n) (ds : List Char) :
    Nat.toDigits 10 n ≠ '0' :: ds := by
  intro heq
  have hvalue : Nat.ofDigitChars 10 ds 0 = n := by
    have := Nat.ofDigitChars_ten_toDigits (n := n)
    rwa [heq, ofDigitChars_cons_eq, Nat.sub_self, Nat.zero_mul, Nat.zero_add] at this
  have hdigits : AllDigits ds := fun d hd =>
    allDigits_toDigits n d (by rw [heq]; exact List.mem_cons_of_mem _ hd)
  have hlength : (Nat.toDigits 10 n).length ≤ ds.length := by
    cases ds with
    | nil => exact absurd hvalue hn.ne
    | cons d ds =>
      refine (Nat.length_toDigits_le_iff (by decide) (List.length_pos_of_mem
        List.mem_cons_self)).2 ?_
      exact hvalue ▸ ofDigitChars_lt hdigits
  rw [heq, List.length_cons] at hlength
  omega

/-- No zero stands in front of the other digits of a number. -/
theorem toDigits_canonical (n : Nat) (d : Char) (ds : List Char) :
    Nat.toDigits 10 n ≠ '0' :: d :: ds := by
  rcases Nat.eq_zero_or_pos n with rfl | hn
  · simp
  · exact toDigits_ne_zero_cons hn _

/-- The parts in which an integer is written. -/
def integerLiteral (n : Int) : Literal := ⟨n < 0, Nat.toDigits 10 n.natAbs, [], none⟩

theorem integerLiteral_chars (n : Int) : (integerLiteral n).chars = Json.integerChars n := by
  by_cases hn : n < 0 <;>
    simp [integerLiteral, Literal.chars, Json.integerChars, fractionChars, exponentChars, hn]

theorem integerLiteral_wellFormed (n : Int) : (integerLiteral n).WellFormed where
  whole_ne_nil := Nat.toDigits_ne_nil
  whole_digits := allDigits_toDigits _
  whole_canonical := toDigits_canonical _
  fraction_digits := fun _ hc => by cases hc

/-- The parts in which an integer is written denote the integer. -/
theorem integerLiteral_toNumber? (n : Int)
    (h : -0x8000000000000000 ≤ n ∧ n < 0x10000000000000000) :
    (integerLiteral n).toNumber? = some (.integer n h) := by
  have hvalue : digitsValue (Nat.toDigits 10 n.natAbs) = n.natAbs := Nat.ofDigitChars_ten_toDigits
  have hsigned : (if n < 0 then -(n.natAbs : Int) else n.natAbs) = n := by
    split <;> omega
  have hzero : (decide (n < 0) && n == 0) = false := by
    rw [Bool.and_eq_false_iff, decide_eq_false_iff_not, beq_eq_false_iff_ne]
    omega
  simp only [Literal.toNumber?, integerLiteral, hvalue, decide_eq_true_eq, hsigned, hzero,
    List.isEmpty_nil, Option.isNone_none, Bool.and_self, ↓reduceIte, Bool.false_eq_true]
  exact dif_pos h

/-- The value that the parts of a number denote, sign aside. -/
def Literal.value (l : Literal) : ℚ :=
  digitsValue (l.whole ++ l.fraction) * 10 ^ (l.exponent?.getD 0 - l.fraction.length)

/-- A number has a fraction or an exponent. -/
def Literal.IsReal (l : Literal) : Prop := l.fraction ≠ [] ∨ l.exponent? ≠ none

/-- The parts spell a decimal by the given characters, after its sign. -/
structure Literal.Spells (l : Literal) (negative : Bool) (d : Decimal) (body : List Char) :
    Prop where
  negative_eq : l.negative = negative
  chars_eq : l.chars = (if negative then ['-'] else []) ++ body
  wellFormed : l.WellFormed
  isReal : l.IsReal
  value_eq : l.value = d.value

variable {d : Decimal} {negative : Bool} {l : Literal} {x : Binary64}

/-- Parts that are no integer denote the number nearest to their value. -/
theorem toNumber?_of_isReal (hreal : l.IsReal)
    (hnearest : Binary64.nearest l.negative l.value = x) (hfinite : x.isFinite = true) :
    l.toNumber? = some (.real x hfinite) := by
  have hkind : (l.fraction.isEmpty && l.exponent?.isNone) = false := by
    rw [Bool.and_eq_false_iff]
    exact hreal.imp (fun h => by simpa using h)
      fun h => by simpa [Option.isSome_iff_ne_none] using h
  subst hnearest
  have hvalue := Binary64.ofDecimal_eq_nearest l.negative (digitsValue (l.whole ++ l.fraction))
    (l.exponent?.getD 0 - l.fraction.length)
  simp only [Literal.toNumber?, hkind, Literal.toReal?, hvalue]
  exact dif_pos hfinite

/-! ## Written decimals -/

/-- The digits of a positive decimal begin with one that is not zero. -/
theorem exists_chars_eq_cons (hd : 0 < d.digits) : ∃ c cs, c ≠ '0' ∧ d.chars = c :: cs := by
  obtain ⟨c, cs, heq⟩ := List.exists_cons_of_ne_nil (Nat.toDigits_ne_nil (n := d.digits) (b := 10))
  refine ⟨c, cs, ?_, heq⟩
  rintro rfl
  exact toDigits_ne_zero_cons hd cs heq

theorem fractionChars_of_ne_nil {ds : List Char} (h : ds ≠ []) : fractionChars ds = '.' :: ds := by
  obtain ⟨d, es, rfl⟩ := List.exists_cons_of_ne_nil h
  rfl

theorem digitsValue_chars (d : Decimal) : digitsValue d.chars = d.digits :=
  Nat.ofDigitChars_ten_toDigits

/-- Where zeros are put after the digits, the fraction is a zero. -/
theorem spells_whole (hd : 0 < d.digits) (he : 0 ≤ d.exponent) :
    Literal.Spells ⟨negative, d.chars ++ List.replicate d.exponent.toNat '0', ['0'], none⟩
      negative d (d.chars ++ List.replicate d.exponent.toNat '0' ++ ".0".toList) := by
  obtain ⟨c, cs, hc, hchars⟩ := exists_chars_eq_cons hd
  have hdigits : AllDigits d.chars := allDigits_toDigits _
  have hzeros : d.chars ++ List.replicate d.exponent.toNat '0' ++ ['0'] =
      d.chars ++ List.replicate (d.exponent.toNat + 1) '0' := by
    rw [List.replicate_succ', List.append_assoc]
  have hvalue : digitsValue (d.chars ++ List.replicate d.exponent.toNat '0' ++ ['0']) =
      10 ^ (d.exponent.toNat + 1) * d.digits := by
    rw [hzeros, digitsValue, Nat.ofDigitChars_append, Nat.ofDigitChars_replicate_zero]
    exact congrArg _ (digitsValue_chars d)
  have hpower : (10 : ℚ) ^ d.exponent = 10 ^ d.exponent.toNat := by
    rw [← zpow_natCast, Int.toNat_of_nonneg he]
  refine ⟨rfl, by simp [Literal.chars, fractionChars, exponentChars], ?_, .inl (by simp), ?_⟩
  · refine ⟨by simp [hchars], hdigits.append (allDigits_replicate_zero _), ?_,
      allDigits_replicate_zero 1⟩
    intro e es heq
    simp only [hchars, List.cons_append] at heq
    exact hc (List.cons.inj heq).1
  · simp only [Literal.value, hvalue, Option.getD_none, List.length_singleton, Decimal.value,
      hpower]
    push_cast
    ring

/-- Where the point falls between the digits, they are cut in two. -/
theorem spells_within (hd : 0 < d.digits) (he : d.exponent < 0)
    (hplaces : (-d.exponent).toNat < d.chars.length) :
    Literal.Spells ⟨negative, d.chars.take (d.chars.length - (-d.exponent).toNat),
        d.chars.drop (d.chars.length - (-d.exponent).toNat), none⟩ negative d
      (d.chars.take (d.chars.length - (-d.exponent).toNat) ++
        '.' :: d.chars.drop (d.chars.length - (-d.exponent).toNat)) := by
  obtain ⟨c, cs, hc, hchars⟩ := exists_chars_eq_cons hd
  have hdigits : AllDigits d.chars := allDigits_toDigits _
  obtain ⟨kept, hkept⟩ : ∃ n, d.chars.length - (-d.exponent).toNat = n + 1 :=
    Nat.exists_eq_succ_of_ne_zero (by omega)
  rw [hkept]
  have hlength : (d.chars.drop (kept + 1)).length = (-d.exponent).toNat := by
    rw [List.length_drop]
    omega
  have hfraction : d.chars.drop (kept + 1) ≠ [] := by
    rw [← List.length_pos_iff_ne_nil]
    omega
  have hwhole : d.chars.take (kept + 1) = c :: cs.take kept := by
    rw [hchars, List.take_succ_cons]
  refine ⟨rfl, ?_, ?_, .inl hfraction, ?_⟩
  · simp [Literal.chars, fractionChars_of_ne_nil hfraction, exponentChars]
  · refine ⟨by simp [hwhole], fun e h => hdigits e (List.mem_of_mem_take h), ?_,
      fun e h => hdigits e (List.mem_of_mem_drop h)⟩
    intro e es heq
    simp only [hwhole] at heq
    exact hc (List.cons.inj heq).1
  · simp only [Literal.value, List.take_append_drop, digitsValue_chars, hlength, Option.getD_none,
      Decimal.value]
    congr 2
    omega

/-- Where the point falls in front of the digits, zeros fill the places between. -/
theorem spells_before (he : d.exponent < 0) (hplaces : d.chars.length ≤ (-d.exponent).toNat) :
    Literal.Spells ⟨negative, ['0'],
        List.replicate ((-d.exponent).toNat - d.chars.length) '0' ++ d.chars, none⟩ negative d
      ("0.".toList ++ List.replicate ((-d.exponent).toNat - d.chars.length) '0' ++ d.chars) := by
  have hdigits : AllDigits d.chars := allDigits_toDigits _
  have hmany : d.chars ≠ [] := Nat.toDigits_ne_nil
  have hlength : (List.replicate ((-d.exponent).toNat - d.chars.length) '0' ++ d.chars).length =
      (-d.exponent).toNat := by
    rw [List.length_append, List.length_replicate]
    omega
  have hfraction : List.replicate ((-d.exponent).toNat - d.chars.length) '0' ++ d.chars ≠ [] := by
    simp [hmany]
  have hvalue : digitsValue (['0'] ++
      (List.replicate ((-d.exponent).toNat - d.chars.length) '0' ++ d.chars)) = d.digits := by
    rw [← List.append_assoc, ← List.replicate_one, List.replicate_append_replicate, digitsValue,
      Nat.ofDigitChars_append, Nat.ofDigitChars_replicate_zero, Nat.mul_zero]
    exact digitsValue_chars d
  refine ⟨rfl, ?_, ⟨by simp, allDigits_replicate_zero 1, by simp,
    (allDigits_replicate_zero _).append hdigits⟩, .inl hfraction, ?_⟩
  · simp only [Literal.chars, fractionChars_of_ne_nil hfraction, exponentChars]
    simp
  · simp only [Literal.value, hvalue, hlength, Option.getD_none, Decimal.value]
    congr 2
    omega

/-- A decimal is spelled by its digits around the point. -/
theorem exists_spells_plainText (negative : Bool) (hd : 0 < d.digits) :
    ∃ l : Literal, l.Spells negative d (Binary64.plainText d) := by
  unfold Binary64.plainText
  by_cases he : 0 ≤ d.exponent
  · simp only [he, ↓reduceIte]
    exact ⟨_, spells_whole hd he⟩
  · by_cases hplaces : (-d.exponent).toNat < d.chars.length
    · simp only [he, hplaces, ↓reduceIte]
      exact ⟨_, spells_within hd (by omega) hplaces⟩
    · simp only [he, hplaces, ↓reduceIte]
      exact ⟨_, spells_before (by omega) (by omega)⟩

/-- A decimal is spelled by its digits and an exponent. -/
theorem exists_spells_scientificText (negative : Bool) (d : Decimal) :
    ∃ l : Literal, l.Spells negative d (Binary64.scientificText .data d) := by
  have hdigits : AllDigits d.chars := allDigits_toDigits _
  have hmany : 0 < d.chars.length := Nat.length_toDigits_pos
  refine ⟨⟨negative, d.chars.take 1, d.chars.drop 1, some d.leadingExponent⟩, rfl, ?_, ?_,
    .inr (by simp), ?_⟩
  · unfold Binary64.scientificText
    match hchars : d.chars with
    | [] => simp [hchars] at hmany
    | [c] => simp [Literal.chars, fractionChars, exponentChars]
    | c :: c' :: cs => simp [Literal.chars, fractionChars, exponentChars]
  · refine ⟨?_, fun e he => hdigits e (List.mem_of_mem_take he), ?_,
      fun e he => hdigits e (List.mem_of_mem_drop he)⟩
    · simp [List.ne_nil_of_length_pos hmany]
    · intro e es heq
      have hone := congrArg List.length heq
      simp only [List.length_take, List.length_cons] at hone
      omega
  · simp only [Literal.value, List.take_append_drop, digitsValue_chars, Option.getD_some,
      List.length_drop, Decimal.leadingExponent, Decimal.value]
    congr 2
    omega

/-! ## Written numbers -/

/-- The text of a floating-point number is read back as the number. -/
theorem exists_literal_text (x : Binary64) (hfinite : x.isFinite = true) :
    ∃ l : Literal, l.chars = x.text .data ∧ l.WellFormed ∧
      l.toNumber? = some (.real x hfinite) := by
  have hsign (cs : List Char) : (if x.negative then '-' :: cs else cs) =
      (if x.negative then ['-'] else []) ++ cs := by
    split <;> rfl
  rw [Binary64.text, hsign]
  by_cases hzero : x.magnitude = 0
  · refine ⟨⟨x.negative, ['0'], ['0'], none⟩, ?_, ⟨by simp, allDigits_replicate_zero 1, by simp,
      allDigits_replicate_zero 1⟩, toNumber?_of_isReal (.inl (by simp)) ?_ hfinite⟩
    · simp [Literal.chars, fractionChars, exponentChars, Binary64.unsignedText, hzero]
    · have hvalue : Literal.value ⟨x.negative, ['0'], ['0'], none⟩ = x.value := by
        rw [Binary64.value_eq_zero_iff.2 hzero]
        simp [Literal.value, digitsValue, Nat.ofDigitChars_cons]
      rw [hvalue]
      exact x.nearest_value
  · have hdigits := Binary64.digits_toDecimal_pos .toEven hzero
    obtain ⟨l, hl⟩ : ∃ l : Literal, l.Spells x.negative (x.toDecimal .toEven)
        (x.unsignedText .data) := by
      simp only [Binary64.unsignedText, hzero, hfinite, Bool.not_true, Bool.false_eq_true,
        ↓reduceIte]
      split
      · exact exists_spells_plainText x.negative hdigits
      · exact exists_spells_scientificText x.negative _
    refine ⟨l, hl.chars_eq, hl.wellFormed, toNumber?_of_isReal hl.isReal ?_ hfinite⟩
    rw [hl.negative_eq, hl.value_eq]
    exact Binary64.nearest_toDecimal .toEven x

/-- The text of a number is read back as the number. -/
theorem exists_literal_numberChars (n : Number) :
    ∃ l : Literal, l.chars = Json.numberChars n ∧ l.WellFormed ∧ l.toNumber? = some n := by
  cases n with
  | integer n h =>
    exact ⟨integerLiteral n, integerLiteral_chars n, integerLiteral_wellFormed n,
      integerLiteral_toNumber? n h⟩
  | real x h => exact exists_literal_text x h

end StepFlow.Document
