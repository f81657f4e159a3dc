import Mathlib.Tactic.Linarith
import Mathlib.Tactic.Ring
import StepFlow.Proofs.Text.Characters
import StepFlow.Time.Instant

/-!
# Runs of digits

Digits of the same count compare as texts in the way that their numbers compare
(`lt_iff_ofDigitChars_lt`), and a run of digits in front of something else can be cut off again.
A number that is padded to a width it fits into has exactly that width, and its digits denote it.
-/

namespace StepFlow.Text

/-- Every character is a decimal digit. -/
def AllDigits (cs : List Char) : Prop := ∀ c ∈ cs, c.isDigit = true

/-- No digit stands at the front. -/
def NoDigit (cs : List Char) : Prop := ∀ c, cs.head? = some c → c.isDigit = false

variable {ds es cs rest : List Char} {n m width : Nat}

/-! ## The number that digits denote -/

theorem allDigits_toDigits (n : Nat) : AllDigits (Nat.toDigits 10 n) :=
  fun _ hc => Nat.isDigit_of_mem_toDigits (by decide) (by decide) hc

theorem allDigits_replicate_zero (n : Nat) : AllDigits (List.replicate n '0') := by
  intro c hc
  rw [List.eq_of_mem_replicate hc]
  rfl

theorem AllDigits.append (hd : AllDigits ds) (he : AllDigits es) : AllDigits (ds ++ es) := by
  intro c hc
  rcases List.mem_append.1 hc with hc | hc
  · exact hd c hc
  · exact he c hc

/-- The value of a digit lies below ten. -/
theorem toNat_sub_lt_of_isDigit {c : Char} (h : c.isDigit = true) :
    48 ≤ c.toNat ∧ c.toNat - '0'.toNat < 10 := by
  obtain ⟨hlow, hhigh⟩ := toNat_bounds_of_isDigit h
  have hzero : '0'.toNat = 48 := rfl
  omega

/-- The first digit counts for as much as its place says. -/
theorem ofDigitChars_cons_eq (c : Char) (cs : List Char) :
    Nat.ofDigitChars 10 (c :: cs) 0 =
      (c.toNat - '0'.toNat) * 10 ^ cs.length + Nat.ofDigitChars 10 cs 0 := by
  rw [Nat.ofDigitChars_cons, Nat.ofDigitChars_eq_ofDigitChars_zero]
  ring

/-- Digits denote a number below the power of ten of their count. -/
theorem ofDigitChars_lt (h : AllDigits ds) : Nat.ofDigitChars 10 ds 0 < 10 ^ ds.length := by
  induction ds with
  | nil => simp
  | cons c ds ih =>
    have hc := (toNat_sub_lt_of_isDigit (h c List.mem_cons_self)).2
    have hds := ih fun d hd => h d (List.mem_cons_of_mem _ hd)
    rw [ofDigitChars_cons_eq, List.length_cons, Nat.pow_succ]
    nlinarith

/-- Of two runs of the same count the smaller one as a text denotes the smaller number. -/
theorem lt_iff_ofDigitChars_lt (hd : AllDigits ds) (he : AllDigits es)
    (hlength : ds.length = es.length) :
    ds < es ↔ Nat.ofDigitChars 10 ds 0 < Nat.ofDigitChars 10 es 0 := by
  induction ds generalizing es with
  | nil =>
    cases List.length_eq_zero_iff.1 hlength.symm
    simp
  | cons c ds ih =>
    cases es with
    | nil => cases hlength
    | cons e es =>
      have hlength : ds.length = es.length := Nat.succ.inj hlength
      have hc := toNat_sub_lt_of_isDigit (hd c List.mem_cons_self)
      have he' := toNat_sub_lt_of_isDigit (he e List.mem_cons_self)
      have hds : AllDigits ds := fun d h => hd d (List.mem_cons_of_mem _ h)
      have hes : AllDigits es := fun d h => he d (List.mem_cons_of_mem _ h)
      have hdsLt := ofDigitChars_lt hds
      have hesLt := ofDigitChars_lt hes
      rw [List.cons_lt_cons_iff, ih hds hes hlength, ofDigitChars_cons_eq, ofDigitChars_cons_eq]
      rw [hlength] at hdsLt ⊢
      have hzero : '0'.toNat = 48 := rfl
      -- The digits in front decide unless they are the same.
      rcases Nat.lt_trichotomy c.toNat e.toNat with hlt | heq | hgt
      · have hless : c < e := hlt
        simp only [hless, true_or, true_iff]
        have : c.toNat - '0'.toNat + 1 ≤ e.toNat - '0'.toNat := by omega
        nlinarith
      · have hsame : c = e := Char.toNat_inj.1 heq
        subst hsame
        simp
      · have hnot : ¬c < e := fun h => absurd (show c.toNat < e.toNat from h) (by omega)
        have hne : c ≠ e := fun h => absurd (congrArg Char.toNat h) (by omega)
        simp only [hnot, hne, false_and, or_self, false_iff, Nat.not_lt]
        have : e.toNat - '0'.toNat + 1 ≤ c.toNat - '0'.toNat := by omega
        nlinarith

/-! ## Cutting texts -/

/-- Texts that begin with parts of the same length are compared by these parts first. -/
theorem append_lt_append_iff {α : Type} [LT α] {as bs cs ds : List α}
    (h : as.length = bs.length) : as ++ cs < bs ++ ds ↔ as < bs ∨ as = bs ∧ cs < ds := by
  induction as generalizing bs with
  | nil =>
    cases List.length_eq_zero_iff.1 h.symm
    simp
  | cons a as ih =>
    cases bs with
    | nil => cases h
    | cons b bs =>
      rw [List.cons_append, List.cons_append, List.cons_lt_cons_iff, List.cons_lt_cons_iff,
        ih (Nat.succ.inj h), List.cons.injEq]
      tauto

/-- Digits are what is taken of a text in front of something else. -/
theorem takeWhile_isDigit (hd : AllDigits ds) (hrest : NoDigit rest) :
    (ds ++ rest).takeWhile Char.isDigit = ds :=
  takeWhile_append_of_stop hd ((Option.any_eq_false _ _).2 hrest)

/-- Something else is what is left of a text after its digits. -/
theorem dropWhile_isDigit (hd : AllDigits ds) (hrest : NoDigit rest) :
    (ds ++ rest).dropWhile Char.isDigit = rest :=
  dropWhile_append_of_stop hd ((Option.any_eq_false _ _).2 hrest)

/-- Every character takes a byte at least. -/
theorem length_le_utf8ByteSize (cs : List Char) : cs.length ≤ (String.ofList cs).utf8ByteSize := by
  induction cs with
  | nil => simp
  | cons c cs ih =>
    have hsplit : String.ofList (c :: cs) = String.singleton c ++ String.ofList cs := by
      rw [String.singleton_eq_ofList, ← String.ofList_append]
      rfl
    have hpos := Char.utf8Size_pos c
    rw [hsplit, String.utf8ByteSize_append, String.utf8ByteSize_singleton, List.length_cons]
    omega

/-! ## Padded numbers -/

theorem allDigits_padded (width n : Nat) : AllDigits (Instant.padded width n) :=
  (allDigits_replicate_zero _).append (allDigits_toDigits n)

/-- A padded number begins with a digit. -/
theorem exists_padded_eq_cons (width n : Nat) :
    ∃ d ds, d.isDigit = true ∧ Instant.padded width n = d :: ds := by
  have hdigits := allDigits_padded width n
  have hne : Instant.padded width n ≠ [] := by
    simp [Instant.padded, Nat.toDigits_ne_nil]
  obtain ⟨d, ds, heq⟩ := List.exists_cons_of_ne_nil hne
  exact ⟨d, ds, hdigits d (by rw [heq]; exact List.mem_cons_self), heq⟩

theorem ofDigitChars_padded (width n : Nat) :
    Nat.ofDigitChars 10 (Instant.padded width n) 0 = n := by
  rw [Instant.padded, Nat.ofDigitChars_append, Nat.ofDigitChars_replicate_zero, Nat.mul_zero,
    Nat.ofDigitChars_ten_toDigits]

/-- A number that fits into a width is padded to that width. -/
theorem length_padded (hwidth : 0 < width) (hn : n < 10 ^ width) :
    (Instant.padded width n).length = width := by
  have hlength := (Nat.length_toDigits_le_iff (by decide : 1 < 10) hwidth).2 hn
  simp only [Instant.padded, List.length_append, List.length_replicate]
  omega

/-- Padded numbers compare as texts in the way that they compare as numbers. -/
theorem padded_lt_padded_iff (hwidth : 0 < width) (hn : n < 10 ^ width) (hm : m < 10 ^ width) :
    Instant.padded width n < Instant.padded width m ↔ n < m := by
  rw [lt_iff_ofDigitChars_lt (allDigits_padded _ _) (allDigits_padded _ _)
    ((length_padded hwidth hn).trans (length_padded hwidth hm).symm), ofDigitChars_padded,
    ofDigitChars_padded]

/-- Padded texts tell their numbers apart. -/
theorem padded_inj : Instant.padded width n = Instant.padded width m ↔ n = m := by
  refine ⟨fun h => ?_, fun h => by rw [h]⟩
  have := congrArg (Nat.ofDigitChars 10 · 0) h
  simpa only [ofDigitChars_padded] using this

/-- Texts that begin with numbers of one width are compared by these numbers first. -/
theorem padded_append_lt_iff {cs ds : List Char} (hwidth : 0 < width) (hn : n < 10 ^ width)
    (hm : m < 10 ^ width) :
    Instant.padded width n ++ cs < Instant.padded width m ++ ds ↔ n < m ∨ n = m ∧ cs < ds := by
  rw [append_lt_append_iff ((length_padded hwidth hn).trans (length_padded hwidth hm).symm),
    padded_lt_padded_iff hwidth hn hm, padded_inj]

end StepFlow.Text
