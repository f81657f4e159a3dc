/-!
# Blank characters

The characters that separate words: those with the Unicode property `White_Space`.
Rules are trimmed and split at them, and so are the names and messages that a node
carries.
-/

namespace StepFlow.Text

/-- The characters with the Unicode property `White_Space`; there are twenty-five of them. -/
def isBlank (c : Char) : Bool :=
  (9 ≤ c.val && c.val ≤ 13) || c.val == 0x20 || c.val == 0x85 || c.val == 0xA0 ||
    c.val == 0x1680 || (0x2000 ≤ c.val && c.val ≤ 0x200A) || c.val == 0x2028 ||
    c.val == 0x2029 || c.val == 0x202F || c.val == 0x205F || c.val == 0x3000

/-- The text without the blanks at its front. -/
def trimFront (cs : List Char) : List Char :=
  cs.dropWhile isBlank

/-- The text without the blanks at its end. -/
def trimBack (cs : List Char) : List Char :=
  (cs.reverse.dropWhile isBlank).reverse

/-- The text without the blanks at either end. -/
def trim (s : String) : String :=
  String.ofList (trimBack (trimFront s.toList))

end StepFlow.Text
