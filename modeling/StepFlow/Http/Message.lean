import StepFlow.Http.Address
import StepFlow.Json.Printer

/-!
# Messages

A request and a response as bytes: a first line, headers, an empty line, and a body. A
response ends where its connection does, or with the last of its chunks.
-/

namespace StepFlow.Http

/-! ### Requests -/

/-- The host and the service number of an address as a header names them. -/
def Address.authority (a : Address) : String :=
  a.host?.getD "" ++
    match a.service? with
    | some number => ":" ++ toString number
    | none => ""

/-- The path and the query of an address, without the fragment. -/
def Address.target (a : Address) : String :=
  String.ofList (a.path.toList.takeWhile (· != '#'))

/-- The text of a request that posts JSON to an address. -/
def requestText (a : Address) (body : Json) : String :=
  let content := body.compact
  "POST " ++ a.target ++ " HTTP/1.1\r\nhost: " ++ a.authority ++
    "\r\ncontent-type: application/json\r\naccept: */*\r\ncontent-length: " ++
    toString content.utf8ByteSize ++ "\r\nconnection: close\r\n\r\n" ++ content

/-! ### Responses -/

/-- The bytes of a text whose characters are all ASCII, as characters. -/
def asciiChars (bytes : List UInt8) : List Char := bytes.map fun b => Char.ofNat b.toNat

/-- Adds a line, given backwards, to lines in front of it. A carriage return at its end does
not belong to it. -/
def closeLine (backwards : List UInt8) : List UInt8 :=
  match backwards with
  | 13 :: rest => rest.reverse
  | line => line.reverse

/-- The lines before the first empty one, and what follows that one. The arguments are the
part of the present line that has been read and the lines before it, both backwards. -/
def splitHead (line : List UInt8) (lines : List (List UInt8)) :
    List UInt8 → Option (List (List UInt8) × List UInt8)
  | [] => none
  | b :: rest =>
    if b = 10 then
      let whole := closeLine line
      if whole.isEmpty then some (lines.reverse, rest) else splitHead [] (whole :: lines) rest
    else splitHead (b :: line) lines rest

/-- The status that the first line of a response gives. -/
def statusOf? (line : List Char) : Option Nat :=
  match line.dropWhile (· != ' ') with
  | _ :: rest =>
    let ds := rest.takeWhile Char.isDigit
    if ds.length = 3 then some (Nat.ofDigitChars 10 ds 0) else none
  | [] => none

/-- Whether a header says that the body comes in chunks. -/
def saysChunked (line : List Char) : Bool :=
  let lower := line.map Char.toLower
  "transfer-encoding:".toList.isPrefixOf lower && "chunked".toList.isSuffixOf lower

/-- The number that hexadecimal digits at the front of a line give. -/
def hexNumber (line : List Char) : Nat :=
  (line.takeWhile fun c => c.isDigit || ('a' ≤ c.toLower && c.toLower ≤ 'f')).foldl
    (fun n c => 16 * n + (if c.isDigit then c.toNat - 48 else c.toLower.toNat - 87)) 0

/-- The chunks of a body, put together. There are no more of them than the first argument
says. -/
def joinChunks : Nat → List UInt8 → List UInt8
  | 0, _ => []
  | limit + 1, bytes =>
    let line := bytes.takeWhile (· != 10)
    let size := hexNumber (asciiChars line)
    if size = 0 then []
    else
      let rest := bytes.drop (line.length + 1)
      rest.take size ++ joinChunks limit (rest.drop (size + 2))

/-- The status and the body of a response. -/
def responseOf? (bytes : ByteArray) : Option (Nat × String) := do
  let (lines, rest) ← splitHead [] [] bytes.toList
  let first :: headers := lines | none
  let status ← statusOf? (asciiChars first)
  let chunked := headers.any fun line => saysChunked (asciiChars line)
  let body := if chunked then joinChunks rest.length rest else rest
  let text ← String.fromUTF8? ⟨body.toArray⟩
  some (status, text)

end StepFlow.Http
