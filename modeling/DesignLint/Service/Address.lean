import DesignLint.Json.Reader
import DesignLint.Number.Numeral
import DesignLint.Text.Search
import DesignLint.Text.Utf8

/-!
# Addresses

A request has an address, which may name the service in full or be relative to it.
All that counts is the path, which is read from the root of the service, and the
fields behind a question mark. Some characters are written as percent signs with two
hexadecimal digits.
-/

namespace DesignLint.Service

/-! ## Escapes and fields -/

/-- The bytes that a part of an address stands for. -/
def addressBytes : List Char → List UInt8
  | '%' :: a :: b :: rest =>
    match Json.Reader.hexDigit? a, Json.Reader.hexDigit? b with
    | some high, some low => (high * 16 + low).toUInt8 :: addressBytes rest
    | _, _ => '%'.val.toUInt8 :: addressBytes (a :: b :: rest)
  | c :: rest => (String.singleton c).toUTF8.toList ++ addressBytes rest
  | [] => []

/-- The text that a part of an address stands for. -/
def unescaped (text : String) : String := Utf8.repaired (addressBytes text.toList)

/-- The text that a field or value stands for; a plus sign is a space. -/
def unescapedField (text : String) : String :=
  unescaped (text.map fun c => if c = '+' then ' ' else c)

/-- The fields of an address and their values. -/
def fieldsOf (query : String) : List (String × String) :=
  ((splitText '&' query).filter fun part => !part.isEmpty).map fun part =>
    let (name, value) := splitAtFirst '=' part
    (unescapedField name, unescapedField (value.getD ""))

/-! ## Parts of an address -/

/-- The parts of an address as they are written, without what stands behind a number
sign. -/
structure WrittenAddress where
  scheme : List Char
  authority : List Char
  path : List Char
  query : List Char
deriving DecidableEq, Repr

/-- Whether a character may stand in a scheme. -/
def isSchemeCharacter (c : Char) : Bool := c.isAlphanum || c == '+' || c == '.' || c == '-'

/-- The scheme in front of a colon, which begins with a letter, and the text behind the
colon. -/
def splitScheme (text : List Char) : List Char × List Char :=
  let scheme := if text.head?.any Char.isAlpha then text.takeWhile isSchemeCharacter else []
  match text.drop scheme.length with
  | ':' :: rest => (scheme, rest)
  | _ => ([], text)

/-- What stands between two slashes at the start and the path, and the text from there. -/
def splitAuthority : List Char → List Char × List Char
  | '/' :: '/' :: rest =>
    let inside (c : Char) : Bool := c != '/' && c != '?' && c != '#'
    (rest.takeWhile inside, rest.dropWhile inside)
  | text => ([], text)

namespace WrittenAddress

/-- The parts of an address. -/
def ofText (text : List Char) : WrittenAddress :=
  let (scheme, rest) := splitScheme text
  let (authority, rest) := splitAuthority rest
  let path := rest.takeWhile fun c => c != '?' && c != '#'
  { scheme := scheme
    authority := authority
    path := path
    query := match rest.drop path.length with
      | '?' :: query => query.takeWhile (· != '#')
      | _ => [] }

/-- The name of the user, the host and the port in an authority. -/
def site (address : WrittenAddress) : List Char × List Char × List Char :=
  let place := (address.authority.reverse.takeWhile (· != '@')).reverse
  let user := (address.authority.take (address.authority.length - place.length)).dropLast
  let host := if place.head? = some '[' ∧ place.contains ']' then
      (place.reverse.dropWhile (· != ']')).reverse
    else place.takeWhile (· != ':')
  match place.drop host.length with
  | ':' :: port => (user, host, port)
  | port => (user, host, port)

end WrittenAddress

/-- A path without the steps that stay in a place or go up. -/
def withoutPoints (path : List Char) : List Char :=
  ['/'].intercalate ((pieces '/' path).foldl (fun kept step =>
    if step = ['.'] then kept
    else if step = ['.', '.'] then (if kept = [[]] then kept else kept.dropLast)
    else kept ++ [step]) [])

/-! ## Reading -/

/-- Why a text is no address of the service. -/
inductive AddressError where
  | tooLong
  | unprintable (character : Char) (position : Nat)
  | badPort (text : String)
  | twoSlashes
  | colonFirst
  | unencodable (error : EncodingError)
  | unknownScheme (scheme : String)
deriving DecidableEq, Repr

/-- The message of an error. -/
def AddressError.message : AddressError → String
  | tooLong => "URL too long"
  | unprintable character position =>
    "Invalid non-printable ASCII character in URL, " ++ quoted (String.singleton character)
      ++ " at position " ++ toString position ++ "."
  | badPort text => "Invalid port: " ++ quoted text
  | twoSlashes => "Relative URLs cannot have a path starting with '//'"
  | colonFirst => "Relative URLs cannot have a path starting with ':'"
  | unencodable error => error.message
  | unknownScheme scheme => quoted scheme

/-- An address: the path and the fields. -/
structure Address where
  path : String
  fields : List (String × String)
deriving DecidableEq, Repr

namespace Address

/-- The most characters of an address. -/
def lengthLimit : Nat := 65536

/-- The schemes of addresses. -/
def schemes : List String := ["http", "https"]

/-- Whether a character is a control character, which no address holds. -/
def isControl (c : Char) : Bool := decide (c.toNat < 32) || c.toNat == 127

/-- The path of an address, from the root of the service. -/
def pathOf (address : WrittenAddress) : Except AddressError (List Char) :=
  let (user, host, port) := address.site
  let isNamed := !(address.scheme ++ user ++ host ++ port).isEmpty
  let path := if isNamed then withoutPoints address.path else address.path
  let scheme := String.ofList (address.scheme.map Char.toLower)
  let half := (path ++ address.query).find? Surrogate.isStandIn
  if !port.isEmpty && !(Numeral.whole (String.ofList port)).toOption.isSome then
    .error (.badPort (String.ofList port))
  else if !isNamed && ['/', '/'].isPrefixOf path then .error .twoSlashes
  else if !isNamed && [':'].isPrefixOf path then .error .colonFirst
  else if let some c := half then .error (.unencodable ⟨0, Surrogate.shownPoint c, 1⟩)
  else if scheme.isEmpty || host.isEmpty then
    .ok (withoutPoints ('/' :: path.dropWhile (· == '/')))
  else if schemes.contains scheme then .ok path
  else .error (.unknownScheme scheme)

/-- The address that a text stands for. An escape in a path may be written with escapes
itself. -/
def ofText (text : String) : Except AddressError Address :=
  let characters := text.toList
  let shown := characters.takeWhile fun c => !isControl c
  if lengthLimit < characters.length then .error .tooLong
  else match characters.drop shown.length with
    | c :: _ => .error (.unprintable c shown.length)
    | [] =>
      let written := WrittenAddress.ofText characters
      (pathOf written).map fun path =>
        { path := unescaped (unescaped (String.ofList (if path.isEmpty then ['/'] else path)))
          fields := fieldsOf (String.ofList written.query) }

/-- The value of a field. The last one counts. -/
def field? (address : Address) (name : String) : Option String :=
  address.fields.reverse.lookup name

end Address

end DesignLint.Service
