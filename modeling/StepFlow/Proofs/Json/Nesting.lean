import StepFlow.Json.Document
import StepFlow.Json.Reader

/-!
# Nesting

How deep arrays and objects stand within each other in a value, and what a reader that has a limit
for this depth sees of the value.
-/

namespace StepFlow

namespace Json

mutual

/-- The greatest number of arrays and objects that stand within each other. -/
def nesting : Json → Nat
  | array items => nestingItems items + 1
  | object members => nestingMembers members + 1
  | _ => 0

/-- The greatest nesting of the items. -/
def nestingItems : List Json → Nat
  | [] => 0
  | item :: rest => max item.nesting (nestingItems rest)

/-- The greatest nesting of the values of the members. -/
def nestingMembers : List (String × Json) → Nat
  | [] => 0
  | (_, value) :: rest => max value.nesting (nestingMembers rest)

end

variable {n : Nat}

theorem nestingItems_le_iff {items : List Json} :
    nestingItems items ≤ n ↔ ∀ item ∈ items, item.nesting ≤ n := by
  induction items with
  | nil => simp [nestingItems]
  | cons item rest ih => simp only [nestingItems, Nat.max_le, ih, List.mem_cons, forall_eq_or_imp]

theorem nestingMembers_le_iff {members : List (String × Json)} :
    nestingMembers members ≤ n ↔ ∀ m ∈ members, m.2.nesting ≤ n := by
  induction members with
  | nil => simp [nestingMembers]
  | cons m rest ih => simp only [nestingMembers, Nat.max_le, ih, List.mem_cons, forall_eq_or_imp]

@[simp] theorem nesting_ofInt (n : Int) : (ofInt n).nesting = 0 := by
  unfold ofInt
  split
  · rfl
  · split <;> rfl

@[simp] theorem nesting_ofBinary64 (x : Binary64) : (ofBinary64 x).nesting = 0 := by
  unfold ofBinary64
  split <;> rfl

end Json

namespace Document

mutual

/-- What a reader sees of a value with a number of arrays and objects around it. -/
def shown (depth : Nat) : Json → Document
  | .null => null
  | .bool b => bool b
  | .number n => number n
  | .string s => string s
  | .array items => limitDepth depth (array (shownItems (depth + 1) items))
  | .object members => limitDepth depth (object (shownMembers (depth + 1) members))

/-- What a reader sees of the items. -/
def shownItems (depth : Nat) : List Json → List Document
  | [] => []
  | item :: rest => shown depth item :: shownItems depth rest

/-- What a reader sees of the members. -/
def shownMembers (depth : Nat) : List (String × Json) → List (Option String × Document)
  | [] => []
  | (key, value) :: rest => (some key, shown depth value) :: shownMembers depth rest

end

mutual

/-- A value within the limit is seen as a whole. -/
theorem shown_eq_ofJson (depth : Nat) (value : Json) (h : depth + value.nesting ≤ depthLimit) :
    shown depth value = ofJson value := by
  cases value with
  | array items =>
    simp only [Json.nesting] at h
    rw [shown, limitDepth, if_pos (by omega), shownItems_eq_ofItems _ items (by omega), ofJson]
  | object members =>
    simp only [Json.nesting] at h
    rw [shown, limitDepth, if_pos (by omega), shownMembers_eq_ofMembers _ members (by omega), ofJson]
  | _ => rfl

theorem shownItems_eq_ofItems (depth : Nat) (items : List Json)
    (h : depth + Json.nestingItems items ≤ depthLimit) :
    shownItems depth items = ofItems items := by
  cases items with
  | nil => rfl
  | cons item rest =>
    simp only [Json.nestingItems] at h
    rw [shownItems, shown_eq_ofJson _ item (by omega), shownItems_eq_ofItems _ rest (by omega), ofItems]

theorem shownMembers_eq_ofMembers (depth : Nat) (members : List (String × Json))
    (h : depth + Json.nestingMembers members ≤ depthLimit) :
    shownMembers depth members = ofMembers members := by
  cases members with
  | nil => rfl
  | cons m rest =>
    obtain ⟨key, value⟩ := m
    simp only [Json.nestingMembers] at h
    rw [shownMembers, shown_eq_ofJson _ value (by omega), shownMembers_eq_ofMembers _ rest (by omega),
      ofMembers]

end

mutual

/-- Whatever the depth, what is seen of a value can be skipped. -/
theorem isWellFormed_shown (depth : Nat) (value : Json) :
    (shown depth value).isWellFormed = true := by
  cases value with
  | array items =>
    have h := wellFormedItems_shownItems (depth + 1) items
    rw [shown, limitDepth]
    split <;> simp [isWellFormed, h]
  | object members =>
    have h := wellFormedMembers_shownMembers (depth + 1) members
    rw [shown, limitDepth]
    split <;> simp [isWellFormed, h]
  | _ => rfl

theorem wellFormedItems_shownItems (depth : Nat) (items : List Json) :
    wellFormedItems (shownItems depth items) = true := by
  cases items with
  | nil => rfl
  | cons item rest =>
    simp [shownItems, wellFormedItems, isWellFormed_shown depth item,
      wellFormedItems_shownItems depth rest]

theorem wellFormedMembers_shownMembers (depth : Nat) (members : List (String × Json)) :
    wellFormedMembers (shownMembers depth members) = true := by
  cases members with
  | nil => rfl
  | cons m rest =>
    simp [shownMembers, wellFormedMembers, isWellFormed_shown depth m.2,
      wellFormedMembers_shownMembers depth rest]

end

mutual

/-- A value beyond the limit cannot be read. -/
theorem toJson?_shown_eq_none (depth : Nat) (value : Json) (h : depthLimit < depth + value.nesting)
    (hdepth : depth ≤ depthLimit) : (shown depth value).toJson? = none := by
  cases value with
  | array items =>
    have hwell : (array (shownItems (depth + 1) items)).isWellFormed = true :=
      wellFormedItems_shownItems (depth + 1) items
    simp only [Json.nesting] at h
    rw [shown, limitDepth, hwell]
    split
    · rw [toJson?, toItems?_shownItems_eq_none _ items (by omega) (by omega), Option.map_none]
    · rfl
  | object members =>
    have hwell : (object (shownMembers (depth + 1) members)).isWellFormed = true :=
      wellFormedMembers_shownMembers (depth + 1) members
    simp only [Json.nesting] at h
    rw [shown, limitDepth, hwell]
    split
    · rw [toJson?, toMembers?_shownMembers_eq_none _ members (by omega) (by omega), Option.map_none]
    · rfl
  | _ => simp only [Json.nesting] at h; omega

theorem toItems?_shownItems_eq_none (depth : Nat) (items : List Json)
    (h : depthLimit < depth + Json.nestingItems items) (hdepth : depth ≤ depthLimit) :
    toItems? (shownItems depth items) = none := by
  cases items with
  | nil => simp only [Json.nestingItems] at h; omega
  | cons item rest =>
    simp only [Json.nestingItems] at h
    rw [shownItems, toItems?]
    by_cases hitem : depthLimit < depth + item.nesting
    · rw [toJson?_shown_eq_none _ item hitem hdepth]
      rfl
    · rw [toItems?_shownItems_eq_none _ rest (by omega) hdepth]
      cases (shown depth item).toJson? <;> rfl

theorem toMembers?_shownMembers_eq_none (depth : Nat) (members : List (String × Json))
    (h : depthLimit < depth + Json.nestingMembers members) (hdepth : depth ≤ depthLimit) :
    toMembers? (shownMembers depth members) = none := by
  cases members with
  | nil => simp only [Json.nestingMembers] at h; omega
  | cons m rest =>
    obtain ⟨key, value⟩ := m
    simp only [Json.nestingMembers] at h
    rw [shownMembers, toMembers?]
    by_cases hvalue : depthLimit < depth + value.nesting
    · rw [toJson?_shown_eq_none _ value hvalue hdepth]
      rfl
    · rw [toMembers?_shownMembers_eq_none _ rest (by omega) hdepth]
      cases (shown depth value).toJson? <;> rfl

end

end Document

end StepFlow
