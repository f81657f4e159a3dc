import Mathlib.Data.List.TakeWhile
import Mathlib.Tactic.Common
import StepFlow.Text.Blank

/-!
# Characters and runs of them

Digits and letters lie between fixed code points, where there are no blanks.  A run of characters of
one kind can be cut off from a text as soon as what follows it does not begin with another one.
-/

namespace StepFlow.Text

/-! ## Characters of one kind -/

variable {c : Char}

theorem toNat_bounds_of_isDigit (h : c.isDigit = true) : 48 ≤ c.toNat ∧ c.toNat ≤ 57 := by
  simp only [Char.isDigit, Bool.and_eq_true, decide_eq_true_eq, ge_iff_le,
    UInt32.le_iff_toNat_le] at h
  exact h

theorem toNat_bounds_of_isAlpha (h : c.isAlpha = true) : 65 ≤ c.toNat ∧ c.toNat ≤ 122 := by
  rcases Bool.or_eq_true_iff.1 h with hupper | hlower
  · obtain ⟨hlow, hhigh⟩ : c.val ≥ 65 ∧ c.val ≤ 90 := of_decide_eq_true hupper
    exact ⟨hlow, hhigh.trans (by decide)⟩
  · obtain ⟨hlow, hhigh⟩ := Bool.and_eq_true_iff.1 hlower
    have hlow : c.val ≥ 97 := of_decide_eq_true hlow
    have hhigh : c.val ≤ 122 := of_decide_eq_true hhigh
    exact ⟨le_trans (by decide) hlow, hhigh⟩

/-- The printed characters of ASCII are no blanks. -/
theorem isBlank_eq_false_of_bounds (hlow : 33 ≤ c.toNat) (hhigh : c.toNat ≤ 126) :
    isBlank c = false := by
  have hval : c.val.toNat = c.toNat := rfl
  simp only [isBlank, UInt32.le_iff_toNat_le, beq_eq_false_iff_ne, Bool.or_eq_false_iff,
    Bool.and_eq_false_iff, decide_eq_false_iff_not, ne_eq, ← UInt32.toNat_inj, hval,
    UInt32.reduceToNat]
  omega

/-- A digit is no blank. -/
theorem isBlank_of_isDigit (h : c.isDigit = true) : isBlank c = false := by
  obtain ⟨hlow, hhigh⟩ := toNat_bounds_of_isDigit h
  exact isBlank_eq_false_of_bounds (by omega) (by omega)

/-! ## Runs -/

variable {p : Char → Bool} {cs run rest : List Char}

/-- A run goes as far as its characters do. -/
theorem takeWhile_append_of_stop (hrun : ∀ c ∈ run, p c = true) (hstop : rest.head?.any p = false) :
    (run ++ rest).takeWhile p = run := by
  rw [List.takeWhile_append_of_pos hrun]
  cases rest with
  | nil => simp
  | cons c rest => simp_all

/-- Something else is what is left of a text after a run. -/
theorem dropWhile_append_of_stop (hrun : ∀ c ∈ run, p c = true) (hstop : rest.head?.any p = false) :
    (run ++ rest).dropWhile p = rest := by
  rw [List.dropWhile_append_of_pos hrun]
  cases rest with
  | nil => rfl
  | cons c rest => simp_all

/-- A run ends where characters follow that have no part in it. -/
theorem takeWhile_append_of_fails (hrest : ∀ c ∈ rest, p c = false) :
    (cs ++ rest).takeWhile p = cs.takeWhile p := by
  have hstop : rest.takeWhile p = [] := by
    cases rest with
    | nil => rfl
    | cons c rest => rw [List.takeWhile_cons_of_neg (by simp [hrest c List.mem_cons_self])]
  rw [List.takeWhile_append, hstop]
  split
  · rename_i hlength
    have hall : cs.takeWhile p = cs := (List.takeWhile_prefix p).eq_of_length hlength
    rw [List.append_nil, hall]
  · rfl

/-- Whether a text begins with a character of a kind is not changed by those of other kinds behind
it. -/
theorem head?_any_append_of_fails (hrest : ∀ c ∈ rest, p c = false) :
    (cs ++ rest).head?.any p = cs.head?.any p := by
  cases cs with
  | cons c cs => rfl
  | nil =>
    cases rest with
    | nil => rfl
    | cons c rest => simp [hrest c List.mem_cons_self]

/-- Every text begins with a run of characters of a kind. -/
theorem exists_run (p : Char → Bool) (cs : List Char) :
    ∃ run rest, cs = run ++ rest ∧ (∀ c ∈ run, p c = true) ∧ rest.head?.any p = false := by
  refine ⟨cs.takeWhile p, cs.dropWhile p, List.takeWhile_append_dropWhile.symm,
    fun c hc => List.mem_takeWhile_imp hc, ?_⟩
  have hstop := List.head?_dropWhile_not p cs
  cases hhead : (cs.dropWhile p).head? with
  | none => rfl
  | some c => simpa [hhead] using hstop

end StepFlow.Text
