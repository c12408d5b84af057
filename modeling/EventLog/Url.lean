import EventLog.Url.Host

/-!
# Addresses

An absolute address: scheme, user, host, port, path and query. White space around it and line ends in
it do not count. Schemes of the web have a host, read `\` for `/`, and do not mention their own port.

* `Url.parse` reads an address.
-/

namespace EventLog

/-- An address. User, password, path and query are as they were written. -/
structure Url where
  scheme : String
  user : String
  password : Option String
  host : Option String
  port : Option Nat
  path : String
  query : Option String
deriving DecidableEq, Repr, Inhabited

namespace Url

/-- What a scheme asks of the rest of an address. -/
inductive SchemeKind
  /-- A scheme of the web and its own port. -/
  | web (port : Nat)
  | file
  | other
deriving DecidableEq, Repr, Inhabited

/-- The kind of a scheme. -/
def kindOf (scheme : String) : SchemeKind :=
  match [("http", 80), ("https", 443), ("ws", 80), ("wss", 443), ("ftp", 21)].lookup scheme with
  | some port => .web port
  | none => if scheme == "file" then .file else .other

/-- The scheme reads `\` for `/`. -/
def SchemeKind.isSpecial : SchemeKind → Bool
  | .other => false
  | _ => true

/-- Characters around an address that do not count. -/
def isOuter (c : Char) : Bool := decide (c.toNat ≤ 0x20)

/-- The characters of an address that count. -/
def significant (s : String) : List Char :=
  (((s.toList.dropWhile isOuter).reverse.dropWhile isOuter).reverse).filter fun c =>
    !(c == '\t' || c == '\n' || c == '\r')

/-- Splits off the scheme. -/
def splitScheme? (cs : List Char) : Option (String × List Char) :=
  let isPart (c : Char) : Bool := c.isAlphanum || c == '+' || c == '-' || c == '.'
  match cs with
  | [] => none
  | c :: _ =>
    if !c.isAlpha then none
    else
      match cs.dropWhile isPart with
      | ':' :: rest => some (String.ofList ((cs.takeWhile isPart).map Char.toLower), rest)
      | _ => none

/-- A character that ends the host and what stands before it. -/
def endsAuthority (kind : SchemeKind) (c : Char) : Bool :=
  c == '/' || c == '?' || c == '#' || (kind.isSpecial && c == '\\')

/-- What stands before the last `@` of a list and after it. -/
def splitUser : List Char → Option (List Char × List Char)
  | [] => none
  | c :: cs =>
    match splitUser cs with
    | some (a, b) => some (c :: a, b)
    | none => if c == '@' then some ([], cs) else none

/-- The host and what follows it: a colon outside of brackets ends the host. -/
def splitHost (inBrackets : Bool) : List Char → List Char × List Char
  | [] => ([], [])
  | c :: cs =>
    if c == ':' && !inBrackets then ([], c :: cs)
    else
      let (a, b) := splitHost (if c == '[' then true else if c == ']' then false else inBrackets) cs
      (c :: a, b)

/-- The number of a port. -/
def port? (kind : SchemeKind) (ds : List Char) : Except UrlFault (Option Nat) :=
  if ds.isEmpty then .ok none
  else
    match (ofDecimal? ds).filter (· < 0x10000) with
    | none => .error .invalidPort
    | some n => .ok (if kind == .web n then none else some n)

/-- A segment that stands for its own place, or for the one above it. -/
def dots? (segment : List Char) : Option Nat :=
  let s := String.ofList (segment.map Char.toLower)
  if [".", "%2e"].contains s then some 1
  else if ["..", ".%2e", "%2e.", "%2e%2e"].contains s then some 2
  else none

/-- The segments of a path without those that stand for other places. `done` is in reverse order. -/
def resolveDots (done : List (List Char)) : List (List Char) → List (List Char)
  | [] => done.reverse
  | s :: rest =>
    match dots? s with
    | none => resolveDots (s :: done) rest
    | some n =>
      let done := if n == 2 then done.drop 1 else done
      if rest.isEmpty then resolveDots ([] :: done) rest else resolveDots done rest

/-- A path that begins with a slash, or is empty. -/
def resolvePath (kind : SchemeKind) (cs : List Char) : List Char :=
  let cs := if kind.isSpecial then cs.map fun c => if c == '\\' then '/' else c else cs
  let cs := match cs with
    | '/' :: rest => some rest
    | [] => if kind.isSpecial then some [] else none
    | _ => some cs
  match cs with
  | none => []
  | some cs => '/' :: ['/'].intercalate (resolveDots [] (splitAll '/' cs))

/-- Splits off the query; a fragment is left out. -/
def splitQuery (cs : List Char) : List Char × Option String :=
  let cs := cs.takeWhile (· != '#')
  match cs.dropWhile (· != '?') with
  | [] => (cs, none)
  | _ :: query => (cs.takeWhile (· != '?'), some (String.ofList query))

/-- The user and password before the host. -/
def readUser (cs : List Char) : String × Option String :=
  let user := String.ofList (cs.takeWhile (· != ':'))
  match cs.dropWhile (· != ':') with
  | [] => (user, none)
  | _ :: password => (user, if password.isEmpty then none else some (String.ofList password))

/-- Reads a host. -/
def readHost (kind : SchemeKind) (cs : List Char) : Except UrlFault (Option String) :=
  match kind with
  | .web _ => (webHost cs).map some
  | .file =>
    if cs.isEmpty then .ok none
    else (webHost cs).map fun h => if h == "localhost" then none else some h
  | .other => (opaqueHost cs).map fun h => if h == "" then none else some h

/-- Reads what follows the two slashes. -/
def readAuthority (scheme : String) (kind : SchemeKind) (cs : List Char) : Except UrlFault Url := do
  let authority := cs.takeWhile (!endsAuthority kind ·)
  let tail := cs.dropWhile (!endsAuthority kind ·)
  let (userPart, hostPart) := match splitUser authority with
    | some (u, h) => (some u, h)
    | none => (none, authority)
  if userPart == some [] && hostPart.isEmpty && !tail.isEmpty then throw .emptyHost
  let (user, password) := readUser (userPart.getD [])
  let (hostChars, portChars) :=
    if kind == .file then (hostPart, []) else splitHost false hostPart
  let host ← readHost kind hostChars
  if host.isNone && (!portChars.isEmpty || user != "" || password.isSome) then throw .emptyHost
  -- A backslash ends the digits of a port under every scheme.
  let digits := (portChars.drop 1).takeWhile (· != '\\')
  let port ← port? kind digits
  let (path, query) := splitQuery ((portChars.drop 1).drop digits.length ++ tail)
  return { scheme, user, password, host, port, path := String.ofList (resolvePath kind path), query }

/-- Reads an address. -/
def parse (s : String) : Except UrlFault Url :=
  match splitScheme? (significant s) with
  | none => .error .relative
  | some (scheme, rest) =>
    let kind := kindOf scheme
    match kind with
    | .web _ => readAuthority scheme kind (rest.dropWhile fun c => c == '/' || c == '\\')
    | _ =>
      if ['/', '/'].isPrefixOf rest then readAuthority scheme kind (rest.drop 2)
      else
        let (path, query) := splitQuery rest
        let path := if path.head? == some '/' || kind == .file then resolvePath kind path else path
        .ok { scheme, user := "", password := none, host := none, port := none,
              path := String.ofList path, query }

end Url

end EventLog
