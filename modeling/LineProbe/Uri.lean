import LineProbe.Location
import LineProbe.Text.Utf8

/-!
# Document addresses

The path of a document that is known by its address.
-/

namespace LineProbe.Uri

inductive UriError where
  | unbalancedBrackets
  | badFutureHost
  | badHost (host : Text)
  | bracketedVersion4
  | disguisedSeparator (host : Text)
deriving DecidableEq, Repr

def UriError.message : UriError → Text
  | .unbalancedBrackets => "Invalid IPv6 URL"
  | .badFutureHost => "IPvFuture address is invalid"
  | .badHost host => Text.quoted host ++ " does not appear to be an IPv4 or IPv6 address"
  | .bracketedVersion4 => "An IPv4 address cannot be in brackets"
  | .disguisedSeparator host =>
    "netloc '" ++ host ++ "' contains invalid characters under NFKC normalization"

/-! ## Hosts in brackets -/

def isOctet (text : Text) : Bool :=
  text ≠ [] && text.all Char.isDigit && text.length ≤ 3 && (text = ['0'] || text.head? ≠ some '0') &&
    text.foldl (fun value c => 10 * value + (c.toNat - '0'.toNat)) 0 ≤ 255

def isVersion4 (text : Text) : Bool :=
  let octets := Text.splitAtChar '.' text
  octets.length = 4 && octets.all isOctet

def isGroup (text : Text) : Bool :=
  text ≠ [] && text.length ≤ 4 && text.all fun c => (Text.hexValue? c).isSome

def groups? (text : Text) : Option (List Text) :=
  let parts := Text.splitAtChar ':' text
  let last := parts.getLastD []
  if parts.length < 3 then none
  else if last.contains '.' then
    if isVersion4 last then some (parts.dropLast ++ [['0'], ['0']]) else none
  else some parts

def fitsWithGap (groups : List Text) (gap : Nat) : Bool :=
  let side (part : List Text) (outer : Option Text) : Option (List Text) :=
    if outer = some [] then if part.length = 1 then some [] else none else some part
  match side (groups.take gap) groups.head?, side (groups.drop (gap + 1)) groups.getLast? with
  | some before, some after => (before ++ after).all isGroup && before.length + after.length < 8
  | _, _ => false

def fits (groups : List Text) : Bool :=
  let gaps := (List.range groups.length).filter fun index =>
    0 < index && index + 1 < groups.length && groups.getD index [] = []
  groups.length ≤ 9 &&
    match gaps with
    | [] => groups.length = 8 && groups.all isGroup
    | [gap] => fitsWithGap groups gap
    | _ => false

def isVersion6 (text : Text) : Bool :=
  let zoneFits :=
    match Text.splitAtChar '%' text with
    | [_] => true
    | [_, zone] => zone ≠ []
    | _ => false
  zoneFits && (groups? ((Text.splitAtChar '%' text).headD [])).any fits

def isFutureHost (text : Text) : Bool :=
  let digits := (text.drop 1).takeWhile fun c => (Text.hexValue? c).isSome
  let rest := text.drop (digits.length + 1)
  digits ≠ [] && rest.head? = some '.' && 2 ≤ rest.length

def hostError? (host : Text) : Option UriError :=
  if host.head? = some 'v' then if isFutureHost host then none else some .badFutureHost
  else if isVersion4 host then some .bracketedVersion4
  else if isVersion6 host then none
  else some (.badHost host)

/-! ## Addresses -/

def disguised : List Nat :=
  [0x2047, 0x2048, 0x2049, 0x2100, 0x2101, 0x2105, 0x2106, 0x2a74, 0xfe13, 0xfe16, 0xfe55, 0xfe56,
   0xfe5f, 0xfe6b, 0xff03, 0xff0f, 0xff1a, 0xff1f, 0xff20]

def authorityError? (authority : Text) : Option UriError :=
  let left := authority.contains '['
  let right := authority.contains ']'
  if left ≠ right then some .unbalancedBrackets
  else
    let host := ((authority.dropWhile (· ≠ '[')).drop 1).takeWhile (· ≠ ']')
    match if left then hostError? host else none with
    | some error => some error
    | none =>
      if authority.any fun c => disguised.contains c.toNat then some (.disguisedSeparator authority)
      else none

def cleaned (uri : Text) : Text :=
  (uri.dropWhile fun c => c.toNat ≤ 0x20).filter fun c => c ≠ '\t' && c ≠ '\r' && c ≠ '\n'

def isSchemeChar (c : Char) : Bool :=
  c.isAlphanum || c = '+' || c = '-' || c = '.'

def splitScheme (uri : Text) : Text × Text :=
  let scheme := uri.takeWhile (· ≠ ':')
  if scheme.length < uri.length && scheme.head?.any Char.isAlpha && scheme.all isSchemeChar then
    (scheme.map Char.toLower, uri.drop (scheme.length + 1))
  else ([], uri)

def splitAuthority (text : Text) : Text × Text :=
  if Text.startsWith text "//" then
    let rest := text.drop 2
    let authority := rest.takeWhile fun c => c ≠ '/' && c ≠ '?' && c ≠ '#'
    (authority, rest.drop authority.length)
  else ([], text)

/-! ## Escapes -/

def unescape : Text → List Byte
  | [] => []
  | '%' :: a :: b :: rest =>
    match Text.hexValue? a, Text.hexValue? b with
    | some high, some low => UInt8.ofNat (16 * high + low) :: unescape rest
    | _, _ => UInt8.ofNat '%'.toNat :: unescape (a :: b :: rest)
  | c :: rest => UInt8.ofNat c.toNat :: unescape rest

def runs : Text → List Text
  | [] => []
  | c :: rest =>
    match runs rest with
    | [] => [[c]]
    | run :: others =>
      if run.head?.any fun d => (d.toNat < 0x80) == (c.toNat < 0x80) then (c :: run) :: others
      else [c] :: run :: others

def decoded (text : Text) : Text :=
  (runs text).flatMap fun run =>
    if run.head?.any (·.toNat < 0x80) then Utf8.decodeAll (unescape run) else run

def path (uri : Text) : Except UriError Text :=
  let (scheme, rest) := splitScheme (cleaned uri)
  let (authority, rest) := splitAuthority rest
  match authorityError? authority with
  | some error => .error error
  | none =>
    if scheme = "file".toList then
      .ok (Location.normalize (decoded (rest.takeWhile fun c => c ≠ '#' && c ≠ '?')))
    else .ok (Location.normalize uri)

end LineProbe.Uri
