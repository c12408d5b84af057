import EventLog.Url.Percent

/-!
# Hosts

The host of an address: an IPv6 address between brackets, an IPv4 address, or a name. The schemes of
the web read names without regard to case and take a name that ends in a number for an IPv4 address;
other schemes keep a name as it is.
-/

namespace EventLog.Url

/-- An address that is not well formed. -/
inductive UrlFault
  | relative
  | emptyHost
  | invalidPort
  | invalidIpv4
  | invalidIpv6
  | invalidCharacter
  | invalidName
deriving DecidableEq, Repr, Inhabited

/-- The text of a fault. -/
def UrlFault.message : UrlFault → String
  | .relative => "relative URL without a base"
  | .emptyHost => "empty host"
  | .invalidPort => "invalid port number"
  | .invalidIpv4 => "invalid IPv4 address"
  | .invalidIpv6 => "invalid IPv6 address"
  | .invalidCharacter => "invalid domain character"
  | .invalidName => "invalid international domain name"

/-- The number that hexadecimal digits denote. -/
def ofHex? (ds : List Char) : Option Nat :=
  ds.foldlM (fun n c => (Json.Source.hexValue? c).map (16 * n + ·)) 0

/-- The number that decimal digits denote; there has to be one. -/
def ofDecimal? (ds : List Char) : Option Nat :=
  if ds.isEmpty || !ds.all Char.isDigit then none
  else some (ds.foldl (fun n c => 10 * n + (c.toNat - '0'.toNat)) 0)

/-- A part of an IPv4 address: a number up to 255 without a zero too many. -/
def octet? (ds : List Char) : Option Nat :=
  if 1 < ds.length && ds.head? == some '0' then none
  else (ofDecimal? ds).filter (· ≤ 255)

/-- The four parts of an IPv4 address. -/
def octets? (cs : List Char) : Option (List Nat) :=
  let parts := splitAll '.' cs
  if parts.length = 4 then parts.mapM octet? else none

/-- The pieces of 16 bits that a part of an IPv6 address stands for. Only the last part may be an IPv4
address. -/
def pieces? (last : Bool) (cs : List Char) : Option (List Nat) :=
  if last && cs.contains '.' then
    match octets? cs with
    | some [a, b, c, d] => some [256 * a + b, 256 * c + d]
    | _ => none
  else if cs.isEmpty || 4 < cs.length then none
  else (ofHex? cs).map ([·])

/-- The pieces of parts that are joined by colons. -/
def allPieces? (last : Bool) : List (List Char) → Option (List Nat)
  | [] => some []
  | [p] => pieces? last p
  | p :: ps => do
    let x ← pieces? false p
    let xs ← allPieces? last ps
    return x ++ xs

/-- Splits characters at the first pair of colons. -/
def splitGap : List Char → Option (List Char × List Char)
  | [] => none
  | ':' :: ':' :: cs => some ([], cs)
  | c :: cs => (splitGap cs).map fun (a, b) => (c :: a, b)

/-- The parts between colons, none for no text. -/
def partsOf (cs : List Char) : List (List Char) := if cs.isEmpty then [] else splitAll ':' cs

/-- The eight pieces of an IPv6 address. A pair of colons stands for one or more zeros. -/
def ipv6? (cs : List Char) : Option (List Nat) :=
  match splitGap cs with
  | none => (allPieces? true (partsOf cs)).filter (·.length = 8)
  | some (a, b) => do
    let xs ← allPieces? false (partsOf a)
    let ys ← allPieces? true (partsOf b)
    if xs.length + ys.length ≤ 7 then
      return xs ++ List.replicate (8 - (xs.length + ys.length)) 0 ++ ys
    else none

/-- The length of the run of zeros at the beginning. -/
def zerosAt (ps : List Nat) : Nat := (ps.takeWhile (· == 0)).length

/-- Where the longest run of two or more zeros begins and how long it is; the first of equals. -/
def longestZeros : Nat → List Nat → Option (Nat × Nat)
  | _, [] => none
  | i, p :: ps =>
    let here := zerosAt (p :: ps)
    match longestZeros (i + 1) ps with
    | some (j, n) => if 2 ≤ here && n ≤ here then some (i, here) else some (j, n)
    | none => if 2 ≤ here then some (i, here) else none

/-- Pieces in hexadecimal, joined by colons. -/
def joinPieces (ps : List Nat) : List Char :=
  ([':'].intercalate (ps.map (Nat.toDigits 16)))

/-- The written form of an IPv6 address, with its longest run of zeros left out. -/
def ipv6Chars (ps : List Nat) : List Char :=
  match longestZeros 0 ps with
  | none => joinPieces ps
  | some (i, n) => joinPieces (ps.take i) ++ ':' :: ':' :: joinPieces (ps.drop (i + n))

/-- A host between brackets. -/
def bracketed (cs : List Char) : Except UrlFault String :=
  if cs.getLast? == some ']' then
    match ipv6? ((cs.drop 1).dropLast) with
    | some ps => .ok (String.ofList ('[' :: ipv6Chars ps ++ [']']))
    | none => .error .invalidIpv6
  else .error .invalidIpv6

/-- The characters that no host may hold. -/
def isForbidden (c : Char) : Bool :=
  "\x00\t\n\r #/:<>?@[\\]^|".toList.contains c

/-- A host that is kept as it is. -/
def opaqueHost (cs : List Char) : Except UrlFault String :=
  if cs.head? == some '[' then bracketed cs
  else if cs.any isForbidden then .error .invalidCharacter
  else .ok (percentEncode (String.ofList cs))

/-- A part of an IPv4 address of the web: decimal, octal after `0`, hexadecimal after `0x`. -/
def webNumber? (cs : List Char) : Option Nat :=
  match cs with
  | [] => none
  | '0' :: 'x' :: hex => ofHex? hex
  | '0' :: ds =>
    if ds.isEmpty then some 0
    else if ds.all fun c => '0' ≤ c && c ≤ '7' then
      some (ds.foldl (fun n c => 8 * n + (c.toNat - '0'.toNat)) 0)
    else none
  | ds => ofDecimal? ds

/-- The parts of a name without the empty one after a final dot. -/
def labels (cs : List Char) : List (List Char) :=
  let parts := splitAll '.' cs
  if 1 < parts.length && parts.getLast? == some [] then parts.dropLast else parts

/-- A name whose last part is a number. -/
def endsInNumber (cs : List Char) : Bool :=
  match (labels cs).getLast? with
  | none => false
  | some l => (!l.isEmpty && l.all Char.isDigit) ||
    (['0', 'x'].isPrefixOf l && (webNumber? l).isSome)

/-- The number of an IPv4 address of the web: the last of up to four parts fills what is left. -/
def webIpv4? (cs : List Char) : Option Nat := do
  let parts := labels cs
  if 4 < parts.length then none
  else
    let ns ← parts.mapM webNumber?
    match ns.reverse with
    | [] => none
    | last :: before =>
      if before.all (· ≤ 255) && last < Nat.pow 256 (4 - before.length) then
        return before.foldr (fun n acc => 256 * acc + n) 0 * Nat.pow 256 (4 - before.length) + last
      else none

/-- The written form of an IPv4 address. -/
def ipv4Text (n : Nat) : String :=
  ".".intercalate ([n / 0x1000000 % 256, n / 0x10000 % 256, n / 0x100 % 256, n % 256].map toString)

/-- A host of the web. -/
def webHost (cs : List Char) : Except UrlFault String :=
  if cs.isEmpty then .error .emptyHost
  else if cs.head? == some '[' then bracketed cs
  else
    match Text.decode (percentDecode (String.ofList cs)) with
    | .error _ => .error .invalidName
    | .ok s =>
      let name := s.toList.map Char.toLower
      if name.any fun c => isForbidden c || c == '%' || c.toNat < 0x20 || c == '\x7f' then
        .error .invalidName
      else if name.isEmpty then .error .emptyHost
      else if endsInNumber name then
        match webIpv4? name with
        | some n => .ok (ipv4Text n)
        | none => .error .invalidIpv4
      else .ok (String.ofList name)

end EventLog.Url
