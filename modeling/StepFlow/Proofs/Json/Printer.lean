import StepFlow.Proofs.Json.Text

/-!
# What the printer writes is read back

The text of a value on one line has no gaps, and the text with one part to a line has a line break in
front of every part and a blank in front of the value of a member.  Both are texts of the value, so
what is read of them is the value, as far as its nesting allows (`ofText_compact`, `ofText_pretty`).
-/

namespace StepFlow.Document

/-! ## Texts on one line -/

mutual

/-- The text of a value on one line has no gaps. -/
theorem spelled_chars (value : Json) : Spelled value value.chars := by
  cases value with
  | array items =>
    rw [Json.chars]
    cases items with
    | nil => exact .noItems gap_nil
    | cons item rest => exact .array (spelledItems_chars (item :: rest) (by simp))
  | object members =>
    rw [Json.chars]
    cases members with
    | nil => exact .noMembers gap_nil
    | cons m rest => exact .object (spelledMembers_chars (m :: rest) (by simp))
  | _ => exact .scalar rfl

theorem spelledItems_chars (items : List Json) (hitems : items ≠ []) :
    SpelledItems items (Json.itemChars items ++ [']']) := by
  match items with
  | [] => exact absurd rfl hitems
  | [item] => simpa [Json.itemChars] using SpelledItems.last gap_nil (spelled_chars item) gap_nil
  | item :: next :: rest =>
    have hrest := spelledItems_chars (next :: rest) (by simp)
    simpa [Json.itemChars] using SpelledItems.more gap_nil (spelled_chars item) gap_nil hrest

theorem spelledMembers_chars (members : List (String × Json)) (hmembers : members ≠ []) :
    SpelledMembers members (Json.memberChars members ++ ['\x7d']) := by
  match members with
  | [] => exact absurd rfl hmembers
  | [(key, value)] =>
    simpa [Json.memberChars] using
      SpelledMembers.last key gap_nil gap_nil (spelled_chars value) gap_nil
  | (key, value) :: next :: rest =>
    have hrest := spelledMembers_chars (next :: rest) (by simp)
    simpa [Json.memberChars] using
      SpelledMembers.more key gap_nil gap_nil (spelled_chars value) gap_nil hrest

end

/-- The text of a value on one line is read as a whole, as far as the nesting of the value allows. -/
theorem ofText_compact (value : Json) : ofText value.compact = (shown 0 value, true) :=
  ofText_spelled (spelled_chars value)

/-! ## Texts with one part to a line -/

/-- A new line is a gap, however deep. -/
theorem gap_newLine (depth : Nat) : Gap (Json.newLine depth) := by
  intro c hc
  rcases List.mem_cons.1 hc with rfl | hc
  · rfl
  · rw [List.eq_of_mem_replicate hc]
    rfl

theorem gap_blank : Gap [' '] := by
  intro c hc
  rw [List.mem_singleton.1 hc]
  rfl

mutual

/-- In the text of a value with one part to a line the gaps are line breaks, and a blank in front of
the value of a member. -/
theorem spelled_laidOut (depth : Nat) (value : Json) : Spelled value (value.laidOut depth) := by
  cases value with
  | array items =>
    cases items with
    | nil => exact .noItems gap_nil
    | cons item rest =>
      have hitems := spelledItems_laidOut (depth + 1) (item :: rest) (by simp) (gap_newLine depth)
      rw [Json.laidOut, List.append_assoc]
      · exact .array hitems
      · simp
  | object members =>
    cases members with
    | nil => exact .noMembers gap_nil
    | cons m rest =>
      have hmembers := spelledMembers_laidOut (depth + 1) (m :: rest) (by simp) (gap_newLine depth)
      rw [Json.laidOut, List.append_assoc]
      · exact .object hmembers
      · simp
  | _ => exact .scalar rfl

theorem spelledItems_laidOut (depth : Nat) (items : List Json) (hitems : items ≠ [])
    {after : List Char} (hafter : Gap after) :
    SpelledItems items (Json.laidOutItems depth items ++ (after ++ [']'])) := by
  match items with
  | [] => exact absurd rfl hitems
  | [item] =>
    simpa [Json.laidOutItems] using
      SpelledItems.last (gap_newLine depth) (spelled_laidOut depth item) hafter
  | item :: next :: rest =>
    have hrest := spelledItems_laidOut depth (next :: rest) (by simp) hafter
    simpa [Json.laidOutItems] using
      SpelledItems.more (gap_newLine depth) (spelled_laidOut depth item) gap_nil hrest

theorem spelledMembers_laidOut (depth : Nat) (members : List (String × Json))
    (hmembers : members ≠ []) {after : List Char} (hafter : Gap after) :
    SpelledMembers members (Json.laidOutMembers depth members ++ (after ++ ['\x7d'])) := by
  match members with
  | [] => exact absurd rfl hmembers
  | [(key, value)] =>
    simpa [Json.laidOutMembers] using
      SpelledMembers.last key (gap_newLine depth) gap_blank (spelled_laidOut depth value)
        hafter
  | (key, value) :: next :: rest =>
    have hrest := spelledMembers_laidOut depth (next :: rest) (by simp) hafter
    simpa [Json.laidOutMembers] using
      SpelledMembers.more key (gap_newLine depth) gap_blank (spelled_laidOut depth value)
        gap_nil hrest

end

/-- The text of a value with one part to a line is read as a whole, as far as the nesting of the value
allows. -/
theorem ofText_pretty (value : Json) : ofText value.pretty = (shown 0 value, true) :=
  ofText_spelled (spelled_laidOut 0 value)

end StepFlow.Document
