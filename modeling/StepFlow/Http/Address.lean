/-!
# Addresses

The address of a step service. A base address gets the name of the service behind it; the
result is read as a URL and shown in a normal form: scheme and host in lower case, without
credentials and without the usual service number, the path without dot segments, and
characters that a URL cannot hold as percent-escapes of their bytes.
-/

namespace StepFlow.Http

/-- The address at which steps are executed, below a base address. -/
def endpoint (base : String) : String :=
  let trimmed := base.toList.reverse.dropWhile (· == '/')
  String.ofList trimmed.reverse ++ "/simulate_workflow_step"

/-- An address in parts. -/
structure Address where
  scheme : String
  /-- The host, absent in an address that names none. -/
  host? : Option String
  /-- The number of the service at the host, absent where it is the usual one. -/
  service? : Option Nat
  /-- The path with what follows it. -/
  path : String
deriving DecidableEq, Repr

namespace Address

/-! ### Escapes -/

/-- One byte as a percent-escape. -/
def escapeByte (b : UInt8) : List Char :=
  let upper (n : Nat) : Char := (Nat.digitChar n).toUpper
  ['%', upper (b.toNat / 16), upper (b.toNat % 16)]

/-- The bytes of a character as percent-escapes. -/
def escapeBytes (c : Char) : List Char :=
  (String.singleton c).toUTF8.toList.flatMap escapeByte

/-- Characters that cannot stand in any part: controls, blanks and what is not ASCII. -/
def isAlwaysEscaped (c : Char) : Bool := c.toNat ≤ 0x20 || 0x7F ≤ c.toNat

/-- A part of an address with escapes for some characters. -/
def escapePart (special : List Char) (cs : List Char) : List Char :=
  cs.flatMap fun c => if isAlwaysEscaped c || special.contains c then escapeBytes c else [c]

/-- The characters that a path cannot hold. -/
def pathSpecials : List Char := ['"', '<', '>', '^', '\x60', '\x7b', '\x7d']

/-- The characters that a query cannot hold. -/
def querySpecials : List Char := ['"', '<', '>', '\'']

/-- The characters that a fragment cannot hold. -/
def fragmentSpecials : List Char := ['"', '<', '>', '\x60']

/-! ### Parts -/

/-- The schemes of addresses that always have a host, with their usual service numbers. -/
def knownSchemes : List (String × Nat) :=
  [("http", 80), ("https", 443), ("ws", 80), ("wss", 443), ("ftp", 21)]

/-- Whether a character may stand in a scheme after its first one. -/
def isSchemePart (c : Char) : Bool := c.isAlphanum || c == '+' || c == '-' || c == '.'

/-- The scheme in lower case and what follows its colon. -/
def splitScheme (cs : List Char) : Option (String × List Char) :=
  match cs with
  | first :: _ =>
    if first.isAlpha then
      match cs.dropWhile isSchemePart with
      | ':' :: rest => some (String.ofList ((cs.takeWhile isSchemePart).map Char.toLower), rest)
      | _ => none
    else none
  | [] => none

/-- Characters that no host may hold. -/
def isForbiddenInHost (c : Char) : Bool :=
  isAlwaysEscaped c || "#/:<>?@[\\]^|%".toList.contains c

/-- The host in normal form. -/
def normalHost (cs : List Char) : Option String :=
  let lower := cs.map Char.toLower
  match cs with
  | [] => none
  | '[' :: _ => if cs.getLast? = some ']' then some (String.ofList lower) else none
  | _ => if cs.any isForbiddenInHost then none else some (String.ofList lower)

/-- The service number after a host; the usual one of the scheme is left out. -/
def normalService (usual? : Option Nat) (cs : List Char) : Option (Option Nat) :=
  if cs.isEmpty then some none
  else if cs.all Char.isDigit then
    let n := Nat.ofDigitChars 10 cs 0
    if n < 65536 then some (if some n = usual? then none else some n) else none
  else none

/-- Host and service number of an authority, whose credentials are dropped. -/
def splitAuthority (usual? : Option Nat) (cs : List Char) : Option (String × Option Nat) := do
  let location := (cs.reverse.takeWhile (· != '@')).reverse
  let hostPart := match location with
    | '[' :: _ => location.takeWhile (· != ']') ++ (if location.contains ']' then [']'] else [])
    | _ => location.takeWhile (· != ':')
  let host ← normalHost hostPart
  match location.drop hostPart.length with
  | [] => some (host, none)
  | ':' :: digits => (normalService usual? digits).map fun service? => (host, service?)
  | _ => none

/-- The segments of a path between its slashes. -/
def segments (cs : List Char) : List (List Char) :=
  cs.foldr (fun c acc =>
    if c == '/' || c == '\\' then [] :: acc
    else
      match acc with
      | [] => [[c]]
      | run :: runs => (c :: run) :: runs) [[]]

/-- Segments without those that stand for the same or the upper directory. -/
def resolveDots : List (List Char) → List (List Char) → List (List Char)
  | done, [] => done.reverse
  | done, [segment] =>
    if segment = "..".toList then ([] :: done.drop 1).reverse
    else if segment = ".".toList then ([] :: done).reverse
    else (segment :: done).reverse
  | done, segment :: rest =>
    if segment = "..".toList then resolveDots (done.drop 1) rest
    else if segment = ".".toList then resolveDots done rest
    else resolveDots (segment :: done) rest

/-- The path in normal form. -/
def normalPath (cs : List Char) : List Char :=
  let segments := resolveDots [] (segments (cs.drop 1))
  segments.flatMap fun segment => '/' :: escapePart pathSpecials segment

/-- The path, the query and the fragment in normal form. -/
def normalTail (cs : List Char) : String :=
  let beforeFragment := cs.takeWhile (· != '#')
  let fragment := cs.dropWhile (· != '#')
  let path := beforeFragment.takeWhile (· != '?')
  let query := beforeFragment.dropWhile (· != '?')
  String.ofList <|
    normalPath (if path.isEmpty then ['/'] else path) ++ escapePart querySpecials query ++
      escapePart fragmentSpecials fragment

/-! ### Whole addresses -/

/-- Whether a character ends the host and what stands before it. -/
def endsAuthority (c : Char) : Bool := c == '/' || c == '\\' || c == '?' || c == '#'

/-- Reads an address. -/
def ofText? (text : String) : Option Address := do
  let strip (cs : List Char) := cs.dropWhile fun c => c.toNat ≤ 0x20
  let cs := (strip (strip text.toList).reverse).reverse.filter fun c =>
    !(c == '\t' || c == '\n' || c == '\r')
  let (scheme, rest) ← splitScheme cs
  let usual? := knownSchemes.lookup scheme
  if usual?.isSome then
    let rest := rest.dropWhile fun c => c == '/' || c == '\\'
    let (host, service?) ← splitAuthority usual? (rest.takeWhile (!endsAuthority ·))
    some ⟨scheme, some host, service?, normalTail (rest.dropWhile (!endsAuthority ·))⟩
  else
    match rest with
    | '/' :: '/' :: rest =>
      let authority := rest.takeWhile (!endsAuthority ·)
      let tail := String.ofList (rest.dropWhile (!endsAuthority ·))
      if authority.isEmpty then some ⟨scheme, none, none, "//" ++ tail⟩
      else
        let (host, service?) ← splitAuthority none authority
        some ⟨scheme, some host, service?, tail⟩
    | rest => some ⟨scheme, none, none, String.ofList rest⟩

/-- The address as it is shown. -/
def text (a : Address) : String :=
  a.scheme ++ ":" ++
    (match a.host? with
      | some host => "//" ++ host
      | none => "") ++
    (match a.service? with
      | some number => ":" ++ toString number
      | none => "") ++ a.path

/-- Whether requests can be sent to the address. -/
def isUsable (a : Address) : Bool :=
  a.host?.isSome && (a.scheme == "http" || a.scheme == "https")

end Address

/-- The wording for a request that did not get through to an address. -/
def undelivered (address : String) : String :=
  match Address.ofText? address with
  | none => "builder error"
  | some a =>
    if a.isUsable then "error sending request for url (" ++ a.text ++ ")"
    else "builder error for url (" ++ a.text ++ ")"

end StepFlow.Http
