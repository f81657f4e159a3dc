import Mathlib.Data.Char
import StepFlow.Proofs.Text.Digits

/-!
# Texts as bytes

Texts are compared character by character.  Where they are kept they are bytes of UTF-8, and they
are sorted by these.  Both orders are the same for all texts (`bytes_lt_bytes_iff`): the first byte
of a character tells how many bytes it has, and grows with their number.
-/

namespace StepFlow.Text

/-- The bytes of a text in UTF-8. -/
def bytes (s : String) : List UInt8 := s.toByteArray.data.toList

/-- The bytes of a text are those of its characters. -/
theorem bytes_ofList (cs : List Char) :
    bytes (String.ofList cs) = cs.flatMap String.utf8EncodeChar := by
  rw [bytes, String.toByteArray_ofList, List.utf8Encode, List.toList_data_toByteArray]

/-! ## Characters -/

/-- The bytes of a character.  The first one carries the number of all in its upper bits, and the
others carry six bits of the code point each. -/
theorem utf8EncodeChar_cases (c : Char) :
    c.toNat < 0x80 ∧ String.utf8EncodeChar c = [.ofNat c.toNat] ∨
    0x80 ≤ c.toNat ∧ c.toNat < 0x800 ∧ String.utf8EncodeChar c =
      [.ofNat (c.toNat / 64 + 192), .ofNat (c.toNat % 64 + 128)] ∨
    0x800 ≤ c.toNat ∧ c.toNat < 0x10000 ∧ String.utf8EncodeChar c =
      [.ofNat (c.toNat / 4096 + 224), .ofNat (c.toNat / 64 % 64 + 128),
        .ofNat (c.toNat % 64 + 128)] ∨
    0x10000 ≤ c.toNat ∧ c.toNat < 0x110000 ∧ String.utf8EncodeChar c =
      [.ofNat (c.toNat / 262144 + 240), .ofNat (c.toNat / 4096 % 64 + 128),
        .ofNat (c.toNat / 64 % 64 + 128), .ofNat (c.toNat % 64 + 128)] := by
  have hval : c.val.toNat = c.toNat := rfl
  have hvalid : c.toNat < 0x110000 := by
    have := c.valid
    simp only [UInt32.isValidChar, Nat.isValidChar] at this
    omega
  unfold String.utf8EncodeChar
  simp only [hval]
  split
  · exact .inl ⟨by omega, rfl⟩
  · split
    · refine .inr (.inl ⟨by omega, by omega, ?_⟩)
      rw [Nat.mod_eq_of_lt (by omega : c.toNat / 64 < 32)]
    · split
      · refine .inr (.inr (.inl ⟨by omega, by omega, ?_⟩))
        rw [Nat.mod_eq_of_lt (by omega : c.toNat / 4096 < 16)]
      · refine .inr (.inr (.inr ⟨by omega, hvalid, ?_⟩))
        rw [Nat.mod_eq_of_lt (by omega : c.toNat / 262144 < 8)]

/-- Lists of bytes are compared by the numbers in front. -/
theorem ofNat_cons_lt_iff {n m : ℕ} {as bs : List UInt8} (hn : n < 256) (hm : m < 256) :
    UInt8.ofNat n :: as < UInt8.ofNat m :: bs ↔ n < m ∨ n = m ∧ as < bs := by
  have heq : UInt8.ofNat n = UInt8.ofNat m ↔ n = m := by
    rw [← UInt8.toNat_inj, UInt8.toNat_ofNat', UInt8.toNat_ofNat', Nat.mod_eq_of_lt hn,
      Nat.mod_eq_of_lt hm]
  rw [List.cons_lt_cons_iff, UInt8.ofNat_lt_iff_lt hn hm, heq]

/-- The bytes of a smaller character are smaller, whatever follows. -/
theorem utf8EncodeChar_append_lt {c d : Char} (h : c < d) (as bs : List UInt8) :
    String.utf8EncodeChar c ++ as < String.utf8EncodeChar d ++ bs := by
  have hless : c.toNat < d.toNat := h
  -- Characters of different lengths differ in the first byte.  Those of one length differ where
  -- their code points first do, six bits at a time.
  rcases utf8EncodeChar_cases c with
      ⟨hc, heq⟩ | ⟨hc, hc', heq⟩ | ⟨hc, hc', heq⟩ | ⟨hc, hc', heq⟩ <;>
    rcases utf8EncodeChar_cases d with
      ⟨hd, heq'⟩ | ⟨hd, hd', heq'⟩ | ⟨hd, hd', heq'⟩ | ⟨hd, hd', heq'⟩ <;>
    rw [heq, heq'] <;>
    clear heq heq' <;>
    simp (disch := omega) only [List.cons_append, ofNat_cons_lt_iff] <;>
    omega

/-! ## Texts -/

/-- The bytes of lists of characters compare as the characters do. -/
theorem flatMap_utf8EncodeChar_lt_iff {cs ds : List Char} :
    cs.flatMap String.utf8EncodeChar < ds.flatMap String.utf8EncodeChar ↔ cs < ds := by
  induction cs generalizing ds with
  | nil =>
    cases ds with
    | nil => simp
    | cons d ds =>
      obtain ⟨b, bs, hb⟩ := List.exists_cons_of_ne_nil (String.utf8EncodeChar_ne_nil (c := d))
      simp [hb]
  | cons c cs ih =>
    cases ds with
    | nil => simp
    | cons d ds =>
      rw [List.flatMap_cons, List.flatMap_cons, List.cons_lt_cons_iff]
      rcases lt_trichotomy c d with hlt | rfl | hgt
      · simp only [utf8EncodeChar_append_lt hlt, hlt, true_or]
      · rw [append_lt_append_iff rfl, ih]
        simp
      · have hnot := List.lt_asymm (utf8EncodeChar_append_lt hgt
          (ds.flatMap String.utf8EncodeChar) (cs.flatMap String.utf8EncodeChar))
        simp only [hnot, hgt.not_gt, hgt.ne', false_and, or_self]

/-- The bytes of texts compare as the texts do. -/
theorem bytes_lt_bytes_iff {s t : String} : bytes s < bytes t ↔ s < t := by
  rw [← String.ofList_toList (s := s), ← String.ofList_toList (s := t), bytes_ofList, bytes_ofList,
    flatMap_utf8EncodeChar_lt_iff, String.lt_iff, String.toList_ofList, String.toList_ofList]

/-! ## ASCII -/

/-- Every character takes a single byte. -/
def Ascii (cs : List Char) : Prop := ∀ c ∈ cs, c.toNat < 0x80

theorem ascii_cons_iff {c : Char} {cs : List Char} : Ascii (c :: cs) ↔ c.toNat < 0x80 ∧ Ascii cs :=
  List.forall_mem_cons

theorem ascii_append_iff {cs ds : List Char} : Ascii (cs ++ ds) ↔ Ascii cs ∧ Ascii ds :=
  List.forall_mem_append

/-- Digits take a single byte each. -/
theorem AllDigits.ascii {ds : List Char} (h : AllDigits ds) : Ascii ds := by
  intro c hc
  obtain ⟨-, hhigh⟩ := toNat_bounds_of_isDigit (h c hc)
  omega

/-- A text of ASCII has as many bytes as characters. -/
theorem length_bytes_ofList {cs : List Char} (h : Ascii cs) :
    (bytes (String.ofList cs)).length = cs.length := by
  rw [bytes_ofList]
  induction cs with
  | nil => rfl
  | cons c cs ih =>
    obtain ⟨hc, hcs⟩ := ascii_cons_iff.1 h
    have hsingle : String.utf8EncodeChar c = [.ofNat c.toNat] := by
      rcases utf8EncodeChar_cases c with ⟨-, heq⟩ | hlong
      · exact heq
      · omega
    rw [List.flatMap_cons, hsingle, List.singleton_append, List.length_cons, ih hcs,
      List.length_cons]

end StepFlow.Text
