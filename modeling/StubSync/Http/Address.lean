/-
Addresses on the web, in the one spelling that requests are sent with.

An address is `http://` or `https://`, a host that a number may follow after a
colon, a path, an optional query and an optional fragment.  Reading an address
resolves dots in its path and encodes the characters that may not stand for
themselves.
-/
import StubSync.Http.Host

namespace StubSync

structure Address where
  isSecure : Bool
  host : String
  /-- The number of the service at the host, if it is not the usual one. -/
  servicePort : Option Nat := none
  /-- The parts of the path, each of which follows a slash. -/
  path : List String
  query : Option String := none
  fragment : Option String := none
deriving Repr, DecidableEq

namespace Address

def hexDigit (n : Nat) : Char :=
  if n < 10 then Char.ofNat ('0'.toNat + n) else Char.ofNat ('A'.toNat + (n - 10))

def encodeByte (byte : UInt8) : List Char :=
  ['%', hexDigit (byte.toNat / 16), hexDigit (byte.toNat % 16)]

/-- Characters outside of printable ASCII are encoded everywhere. -/
def isAlwaysEncoded (c : Char) : Bool :=
  c.toNat < 0x20 || 0x7E < c.toNat

/-- The text with each character of a class written as its encoded bytes. -/
def encode (mark : Char → Bool) (text : List Char) : List Char :=
  text.flatMap fun c =>
    if isAlwaysEncoded c || mark c then (String.utf8EncodeChar c).flatMap encodeByte else [c]

def inFragment (c : Char) : Bool :=
  [' ', '"', '<', '>', Char.ofNat 0x60].contains c

def inPath (c : Char) : Bool :=
  inFragment c || ['#', '?', '\x7b', '\x7d'].contains c

def inQuery (c : Char) : Bool :=
  [' ', '"', '#', '<', '>', '\''].contains c

def isSlash (c : Char) : Bool :=
  c == '/' || c == '\\'

/-- A text without the blanks and control characters at its ends, and without
line ends and tabs. -/
def cleaned (text : List Char) : List Char :=
  let outer := fun (c : Char) => c.toNat ≤ 0x20
  let text := ((text.dropWhile outer).reverse.dropWhile outer).reverse
  text.filter fun c => c != '\t' && c != '\n' && c != '\r'

/-- Whether the scheme is the secure one, and the text after its colon. -/
def scheme? (text : List Char) : Option (Bool × List Char) := do
  let (name, rest) ← Text.cutAt? ':' text
  match String.ofList (Text.lowerAscii name) with
  | "http" => some (false, rest)
  | "https" => some (true, rest)
  | _ => none

/-- The parts of a path that are there after each dot part has been taken for
what it means: this place, or one part up. -/
def resolve (parts : List (List Char)) : List (List Char) :=
  go [] parts
where
  isDot (part : List Char) : Bool :=
    [".", "%2e"].contains (String.ofList (Text.lowerAscii part))
  isTwoDots (part : List Char) : Bool :=
    ["..", ".%2e", "%2e.", "%2e%2e"].contains (String.ofList (Text.lowerAscii part))
  go (earlier : List (List Char)) : List (List Char) → List (List Char)
    | [] => earlier.reverse
    | [part] =>
        if isTwoDots part then ([] :: earlier.drop 1).reverse
        else if isDot part then ([] :: earlier).reverse
        else (part :: earlier).reverse
    | part :: others =>
        if isTwoDots part then go (earlier.drop 1) others
        else if isDot part then go earlier others
        else go (part :: earlier) others

/-- The host, and what follows it. -/
def cutHost (text : List Char) : List Char × List Char :=
  if text.head? = some '[' then
    match Text.cutAt? ']' text with
    | some (host, rest) => (host ++ [']'], rest)
    | none => ([], text)
  else (text.takeWhile (· != ':'), text.dropWhile (· != ':'))

/-- The number of the service after a host, unless it is the usual one of the
scheme. -/
def servicePort? (isSecure : Bool) (text : List Char) : Option (Option Nat) :=
  match text with
  | [] => some none
  | [':'] => some none
  | ':' :: digits => do
      let number ← Decimal.whole? digits
      if 65535 < number then none
      return if number = (if isSecure then 443 else 80) then none else some number
  | _ => none

/-- The text after the last `@`: a user in front of the host is not sent. -/
def withoutUser (authority : List Char) : List Char :=
  (authority.reverse.takeWhile (· != '@')).reverse

/-- The address that a text gives, if it gives one. -/
def read? (text : String) : Option Address := do
  let (isSecure, text) ← scheme? (cleaned text.toList)
  let (text, fragment) :=
    match Text.cutAt? '#' text with
    | some (text, fragment) => (text, some fragment)
    | none => (text, none)
  let (text, query) :=
    match Text.cutAt? '?' text with
    | some (text, query) => (text, some query)
    | none => (text, none)
  let text := text.dropWhile isSlash
  let authority := withoutUser (text.takeWhile fun c => !isSlash c)
  let (host, service) := cutHost authority
  let path := (text.dropWhile fun c => !isSlash c).map fun c => if c = '\\' then '/' else c
  return {
    isSecure
    host := ← Host.read? host
    servicePort := ← servicePort? isSecure service
    path := (resolve (Text.split '/' (path.drop 1))).map fun part =>
      String.ofList (encode inPath part)
    query := query.map fun query => String.ofList (encode inQuery query)
    fragment := fragment.map fun fragment => String.ofList (encode inFragment fragment) }

def spellPath (address : Address) : String :=
  "".intercalate (address.path.map fun part => "/" ++ part)

/-- The path and the query, which is what a server is asked for. -/
def target (address : Address) : String :=
  address.spellPath ++
    match address.query with
    | some query => "?" ++ query
    | none => ""

instance : ToString Address where
  toString address :=
    let scheme := if address.isSecure then "https://" else "http://"
    let service :=
      match address.servicePort with
      | some number => s!":{number}"
      | none => ""
    let fragment :=
      match address.fragment with
      | some fragment => "#" ++ fragment
      | none => ""
    scheme ++ address.host ++ service ++ address.target ++ fragment

end Address

end StubSync
