import StepFlow.Binary64.Basic
import StepFlow.Json.Members

/-!
# JSON values

Data is JSON. A number is an integer of the 64-bit ranges, signed or unsigned, or a finite
floating-point number, and the two kinds differ even where their values agree. The members
of an object stand in the order in which they are written; `Json.canonical` sorts them by
key at every depth and keeps the last of several members under one key.
-/

namespace StepFlow

/-- A number in data: an integer from `-2 ^ 63` to below `2 ^ 64`, or a finite
floating-point number. -/
inductive Number where
  | integer (value : Int) (inRange : -0x8000000000000000 ≤ value ∧ value < 0x10000000000000000)
  | real (value : Binary64) (finite : value.isFinite = true)
deriving DecidableEq

namespace Number

/-- The nearest floating-point number. -/
def toBinary64 : Number → Binary64
  | integer n _ => .ofInt n
  | real x _ => x

/-- Equality of numbers of one kind; the two floating-point zeros are equal. -/
def equals : Number → Number → Bool
  | integer m _, integer n _ => m == n
  | real x _, real y _ => x.equals y
  | _, _ => false

end Number

/-- A JSON value. -/
inductive Json where
  | null
  | bool (value : Bool)
  | number (value : Number)
  | string (value : String)
  | array (items : List Json)
  | object (members : List (String × Json))
deriving Inhabited

namespace Json

/-! ### Building values -/

/-- An integer as a value; one beyond the integer ranges becomes a floating-point number,
and `null` where even that is infinite. -/
def ofInt (n : Int) : Json :=
  if h : -0x8000000000000000 ≤ n ∧ n < 0x10000000000000000 then number (.integer n h)
  else if h : (Binary64.ofInt n).isFinite = true then number (.real (.ofInt n) h)
  else null

/-- A floating-point number as a value; an infinity has none and becomes `null`. -/
def ofBinary64 (x : Binary64) : Json :=
  if h : x.isFinite = true then number (.real x h) else null

/-- A word of sixty-four bits as a value. -/
def ofUInt64 (n : UInt64) : Json :=
  number (.integer n.toNat ⟨by omega, by have := n.toNat_lt; omega⟩)

/-- A text that may be absent. -/
def ofString? : Option String → Json
  | some s => string s
  | none => null

/-! ### Parts of a value -/

/-- The value under a key of an object. -/
def field? (key : String) : Json → Option Json
  | object members => Members.find? key members
  | _ => none

/-- The value as a floating-point number, if it is a number. -/
def toBinary64? : Json → Option Binary64
  | number n => some n.toBinary64
  | _ => none

/-! ### Equality -/

mutual

/-- Equality of values, given equality of numbers. -/
def agrees (sameNumber : Number → Number → Bool) : Json → Json → Bool
  | null, null => true
  | bool a, bool b => a == b
  | number a, number b => sameNumber a b
  | string a, string b => a == b
  | array xs, array ys => agreesItems sameNumber xs ys
  | object xs, object ys => agreesMembers sameNumber xs ys
  | _, _ => false

/-- Equality of item lists, given equality of numbers. -/
def agreesItems (sameNumber : Number → Number → Bool) : List Json → List Json → Bool
  | [], [] => true
  | x :: xs, y :: ys => agrees sameNumber x y && agreesItems sameNumber xs ys
  | _, _ => false

/-- Equality of member lists, given equality of numbers. -/
def agreesMembers (sameNumber : Number → Number → Bool) :
    List (String × Json) → List (String × Json) → Bool
  | [], [] => true
  | (k, x) :: xs, (l, y) :: ys =>
    k == l && agrees sameNumber x y && agreesMembers sameNumber xs ys
  | _, _ => false

end

/-- Equality of data: part by part, and numbers of one kind by value. -/
def equals (x y : Json) : Bool := agrees Number.equals x y

mutual

theorem agrees_eq_iff (x y : Json) : agrees (fun a b => a == b) x y = true ↔ x = y := by
  cases x <;> cases y <;>
    simp [agrees, agreesItems_eq_iff, agreesMembers_eq_iff]

theorem agreesItems_eq_iff (xs ys : List Json) :
    agreesItems (fun a b => a == b) xs ys = true ↔ xs = ys := by
  cases xs with
  | nil => cases ys <;> simp [agreesItems]
  | cons x xs =>
    cases ys with
    | nil => simp [agreesItems]
    | cons y ys => simp [agreesItems, agrees_eq_iff x y, agreesItems_eq_iff xs ys]

theorem agreesMembers_eq_iff (xs ys : List (String × Json)) :
    agreesMembers (fun a b => a == b) xs ys = true ↔ xs = ys := by
  cases xs with
  | nil => cases ys <;> simp [agreesMembers]
  | cons x xs =>
    obtain ⟨k, x⟩ := x
    cases ys with
    | nil => simp [agreesMembers]
    | cons y ys =>
      obtain ⟨l, y⟩ := y
      simp [agreesMembers, agrees_eq_iff x y, agreesMembers_eq_iff xs ys]

end

instance : DecidableEq Json := fun x y => decidable_of_iff _ (agrees_eq_iff x y)

/-! ### Canonical form -/

mutual

/-- The value with the members of every object sorted by key, where the last member under a
key is the one that counts. -/
def canonical : Json → Json
  | array items => array (canonicalItems items)
  | object members => object (canonicalMembers members)
  | value => value

/-- The items in canonical form. -/
def canonicalItems : List Json → List Json
  | [] => []
  | item :: rest => item.canonical :: canonicalItems rest

/-- The members in canonical form. -/
def canonicalMembers : List (String × Json) → List (String × Json)
  | [] => []
  | (key, value) :: rest => Members.putAbsent key value.canonical (canonicalMembers rest)

end

mutual

/-- The members of every object in the value are sorted strictly by key. -/
def IsCanonical : Json → Prop
  | array items => CanonicalItems items
  | object members => CanonicalMembers members
  | _ => True

/-- Every item is in canonical form. -/
def CanonicalItems : List Json → Prop
  | [] => True
  | item :: rest => item.IsCanonical ∧ CanonicalItems rest

/-- The members are sorted strictly by key, with values in canonical form. -/
def CanonicalMembers : List (String × Json) → Prop
  | [] => True
  | (key, value) :: rest =>
    (∀ p ∈ rest, key < p.1) ∧ value.IsCanonical ∧ CanonicalMembers rest

end

theorem canonicalMembers_iff {members : List (String × Json)} :
    CanonicalMembers members ↔
      Members.Ordered members ∧ ∀ p ∈ members, p.2.IsCanonical := by
  induction members with
  | nil => simp [CanonicalMembers, Members.Ordered]
  | cons m rest ih =>
    obtain ⟨k, v⟩ := m
    simp only [CanonicalMembers, ih, Members.Ordered, List.pairwise_cons, List.mem_cons,
      forall_eq_or_imp]
    exact ⟨fun ⟨a, b, c, d⟩ => ⟨⟨a, c⟩, b, d⟩, fun ⟨⟨a, c⟩, b, d⟩ => ⟨a, b, c, d⟩⟩

mutual

theorem isCanonical_canonical (value : Json) : value.canonical.IsCanonical := by
  cases value with
  | array items => simpa [canonical, IsCanonical] using canonicalItems_canonicalItems items
  | object members =>
    simpa [canonical, IsCanonical] using canonicalMembers_canonicalMembers members
  | _ => simp [canonical, IsCanonical]

theorem canonicalItems_canonicalItems (items : List Json) :
    CanonicalItems (canonicalItems items) := by
  cases items with
  | nil => simp [canonicalItems, CanonicalItems]
  | cons item rest =>
    simpa [canonicalItems, CanonicalItems] using
      ⟨isCanonical_canonical item, canonicalItems_canonicalItems rest⟩

theorem canonicalMembers_canonicalMembers (members : List (String × Json)) :
    CanonicalMembers (canonicalMembers members) := by
  cases members with
  | nil => simp [canonicalMembers, CanonicalMembers]
  | cons m rest =>
    obtain ⟨k, v⟩ := m
    have hv := isCanonical_canonical v
    have hr := canonicalMembers_iff.1 (canonicalMembers_canonicalMembers rest)
    refine canonicalMembers_iff.2 ⟨hr.1.putAbsent, fun p hp => ?_⟩
    rcases Members.mem_putAbsent hp with rfl | hp
    · exact hv
    · exact hr.2 p hp

end

end Json

end StepFlow
