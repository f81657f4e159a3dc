import StepFlow.Text.Printable

/-!
# Quoted text

How a text is shown inside a message: between double quotes, with a backslash before a
quote or a backslash, the usual short forms for NUL, tab, line feed and carriage return,
and the code point in braces for every other character that does not print.
-/

namespace StepFlow.Text

/-- The code point of a character in lower-case hexadecimal, as in `\u{200b}`. -/
def codePointForm (c : Char) : List Char :=
  "\\u\x7b".toList ++ Nat.toDigits 16 c.toNat ++ ['\x7d']

/-- How one character is written inside a quoted text. -/
def quoteChar (c : Char) : List Char :=
  if c == '"' then ['\\', '"']
  else if c == '\\' then ['\\', '\\']
  else if c == '\x00' then ['\\', '0']
  else if c == '\t' then ['\\', 't']
  else if c == '\n' then ['\\', 'n']
  else if c == '\r' then ['\\', 'r']
  else if isPrintable c then [c]
  else codePointForm c

/-- A text between double quotes, with every character that could mislead a reader escaped. -/
def quote (s : String) : String :=
  String.ofList ('"' :: s.toList.flatMap quoteChar ++ ['"'])

end StepFlow.Text
