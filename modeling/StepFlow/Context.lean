import StepFlow.Json.Basic

/-!
# Contexts

The data of a run: a map from names to JSON values. A context is kept in canonical form at
every depth, so two contexts are equal exactly when they hold the same data. Values are put
in canonical form when they enter.
-/

namespace StepFlow

/-- A map from names to JSON values, sorted by name, with sorted objects inside. -/
structure Context where
  members : List (String × Json)
  isCanonical : Json.CanonicalMembers members
deriving DecidableEq

namespace Context

/-- The context without data. -/
def empty : Context := ⟨[], trivial⟩

instance : Inhabited Context := ⟨empty⟩

/-- The context that a list of members describes; the last member under a name counts. -/
def ofMembers (members : List (String × Json)) : Context :=
  ⟨Json.canonicalMembers members, Json.canonicalMembers_canonicalMembers members⟩

/-- The context as a JSON object. -/
def toJson (c : Context) : Json := .object c.members

/-- The value of a name. -/
def get? (c : Context) (name : String) : Option Json := Members.find? name c.members

private theorem canonical_put {name : String} {value : Json} {ms : List (String × Json)}
    (hv : value.IsCanonical) (h : Json.CanonicalMembers ms) :
    Json.CanonicalMembers (Members.put name value ms) := by
  have h := Json.canonicalMembers_iff.1 h
  refine Json.canonicalMembers_iff.2 ⟨h.1.put, fun p hp => ?_⟩
  rcases Members.mem_put hp with rfl | hp
  · exact hv
  · exact h.2 p hp

private theorem canonical_putAbsent {name : String} {value : Json} {ms : List (String × Json)}
    (hv : value.IsCanonical) (h : Json.CanonicalMembers ms) :
    Json.CanonicalMembers (Members.putAbsent name value ms) := by
  have h := Json.canonicalMembers_iff.1 h
  refine Json.canonicalMembers_iff.2 ⟨h.1.putAbsent, fun p hp => ?_⟩
  rcases Members.mem_putAbsent hp with rfl | hp
  · exact hv
  · exact h.2 p hp

private theorem canonical_erase {name : String} {ms : List (String × Json)}
    (h : Json.CanonicalMembers ms) : Json.CanonicalMembers (Members.erase name ms) := by
  have h := Json.canonicalMembers_iff.1 h
  exact Json.canonicalMembers_iff.2 ⟨h.1.erase, fun p hp => h.2 p (Members.mem_erase hp)⟩

private theorem canonical_override {base newer : List (String × Json)}
    (hb : Json.CanonicalMembers base) (ho : Json.CanonicalMembers newer) :
    Json.CanonicalMembers (Members.override base newer) := by
  induction newer generalizing base with
  | nil => exact hb
  | cons m rest ih =>
    obtain ⟨k, v⟩ := m
    obtain ⟨-, hv, hr⟩ := ho
    exact ih (canonical_put hv hb) hr

private theorem canonical_fill {base extra : List (String × Json)}
    (hb : Json.CanonicalMembers base) (he : Json.CanonicalMembers extra) :
    Json.CanonicalMembers (Members.fill base extra) := by
  induction extra generalizing base with
  | nil => exact hb
  | cons m rest ih =>
    obtain ⟨k, v⟩ := m
    obtain ⟨-, hv, hr⟩ := he
    exact ih (canonical_putAbsent hv hb) hr

/-- The context with a value under a name, in place of any value it had. -/
def insert (c : Context) (name : String) (value : Json) : Context :=
  ⟨Members.put name value.canonical c.members,
    canonical_put value.isCanonical_canonical c.isCanonical⟩

/-- The context without a name. -/
def erase (c : Context) (name : String) : Context :=
  ⟨Members.erase name c.members, canonical_erase c.isCanonical⟩

/-- The first context overwritten by the second. -/
def override (base newer : Context) : Context :=
  ⟨Members.override base.members newer.members,
    canonical_override base.isCanonical newer.isCanonical⟩

/-- The first context with those entries of the second whose names it lacks. -/
def fill (base extra : Context) : Context :=
  ⟨Members.fill base.members extra.members, canonical_fill base.isCanonical extra.isCanonical⟩

/-- The context with one entry. -/
def single (name : String) (value : Json) : Context := empty.insert name value

/-- Contexts with the same lookups are equal. -/
theorem ext_get? {a b : Context} (h : ∀ name, a.get? name = b.get? name) : a = b := by
  obtain ⟨as, ha⟩ := a
  obtain ⟨bs, hb⟩ := b
  have := (Json.canonicalMembers_iff.1 ha).1.ext (Json.canonicalMembers_iff.1 hb).1 h
  subst this
  rfl

end Context

end StepFlow
