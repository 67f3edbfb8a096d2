/-
  Absolute URLs.

  * `Url` is a URL in its parts, `Url.parse?` reads one: blanks around it and line breaks in it are
    passed over, the scheme and the host are made small, the default port is dropped, the dot segments
    of the path are resolved, and each part is percent-encoded where it has to be;
  * `Url.toText` writes a URL;
  * `Url.addPairs` appends pairs to the query as a form does.
-/
import ObjectFeed.Url.Host

namespace ObjectFeed

namespace Url

/-- Who asks, and whom, and where. -/
structure Authority where
  username : String := ""
  password : String := ""
  host : Host
  /-- The port, unless it is the default of the scheme. -/
  port : Option Nat := none
  deriving DecidableEq, Repr

/-- A path. -/
inductive Path where
  /-- A text that is not divided. -/
  | whole (text : String)
  | segments (parts : List String)
  deriving DecidableEq, Repr

/-- The schemes that have a host and a path, with their default ports. -/
def specialSchemes : List (String × Option Nat) :=
  [("ftp", some 21), ("file", none), ("http", some 80), ("https", some 443), ("ws", some 80),
   ("wss", some 443)]

/-- Whether a scheme is special. -/
def isSpecial (scheme : String) : Bool := (specialSchemes.lookup scheme).isSome

/-- The default port of a scheme. -/
def defaultPort (scheme : String) : Option Nat := (specialSchemes.lookup scheme).getD none

end Url

/-- An absolute URL. -/
structure Url where
  scheme : String
  authority : Option Url.Authority := none
  path : Url.Path
  query : Option String := none
  fragment : Option String := none
  deriving DecidableEq, Repr

namespace Url

/-! ## Reading -/

/-- The scheme before the first colon, in small letters, and what follows it. -/
def scheme? (text : List Char) : Option (String × List Char) :=
  let isSchemeChar (c : Char) : Bool := c.isAlphanum || c = '+' || c = '-' || c = '.'
  match text.dropWhile isSchemeChar with
  | ':' :: rest =>
    if text.head?.any Char.isAlpha then
      some (String.ofList ((text.takeWhile isSchemeChar).map Char.toLower), rest)
    else none
  | _ => none

/-- A text up to the first place of a character, and what follows it if it is there. -/
def cutAt (c : Char) (text : List Char) : List Char × Option (List Char) :=
  match text.dropWhile (· ≠ c) with
  | _ :: rest => (text.takeWhile (· ≠ c), some rest)
  | [] => (text, none)

/-- A text up to the last place of a character, and what follows it, if it is there. -/
def cutAtLast? (c : Char) (text : List Char) : Option (List Char × List Char) :=
  match cutAt c text.reverse with
  | (after, some before) => some (before.reverse, after.reverse)
  | (_, none) => none

/-- Whether a segment is a single dot. -/
def isSingleDot (segment : List Char) : Bool :=
  let small := String.ofList (segment.map Char.toLower)
  small = "." || small = "%2e"

/-- Whether a segment is a double dot. -/
def isDoubleDot (segment : List Char) : Bool :=
  let small := String.ofList (segment.map Char.toLower)
  small = ".." || small = ".%2e" || small = "%2e." || small = "%2e%2e"

/-- The segments of a path with its dot segments resolved: a single dot is passed over, a double dot
    takes the segment before it away, and one of them at the end leaves an empty segment. -/
def resolveDots (read : List String) : List (List Char) → List String
  | [] => read
  | segment :: rest =>
    let closing : List String := if rest.isEmpty then [""] else []
    if isDoubleDot segment then resolveDots (read.dropLast ++ closing) rest
    else if isSingleDot segment then resolveDots (read ++ closing) rest
    else
      resolveDots (read ++ [String.ofList (percentEncode isPathEncoded segment)]) rest

/-- What separates the segments of a path. -/
def isSlash (special : Bool) (c : Char) : Bool := c = '/' || (special && c = '\\')

/-- The segments of a path after its first slash. -/
def segmentsOf (special : Bool) (text : List Char) : List String :=
  resolveDots [] (Host.splitOn (isSlash special) text)

/-- The path after a host. -/
def pathAfterHost (special : Bool) (text : List Char) : Path :=
  match text with
  | [] => .segments (if special then [""] else [])
  | c :: rest => .segments (segmentsOf special (if isSlash special c then rest else c :: rest))

/-- The port that a text after a colon writes. -/
def port? (scheme : String) (text : List Char) : Except Fault (Option Nat) :=
  if !text.all Char.isDigit then .error .badPort
  else
    let n := text.foldl (fun n c => n * 10 + (c.toNat - '0'.toNat)) 0
    if 65535 < n then .error .badPort
    else if text.isEmpty || defaultPort scheme = some n then .ok none
    else .ok (some n)

/-- A host and what follows the colon after it, brackets being passed over. -/
def cutPort (inBrackets : Bool) : List Char → List Char × Option (List Char)
  | [] => ([], none)
  | c :: rest =>
    if c = ':' && !inBrackets then ([], some rest)
    else
      let (host, port) := cutPort (if c = '[' then true else if c = ']' then false else inBrackets) rest
      (c :: host, port)

/-- An authority. -/
def authority? (scheme : String) (text : List Char) : Except Fault Authority := do
  let (user, rest, hasUser) := match cutAtLast? '@' text with
    | some (user, rest) => (user, rest, true)
    | none => ([], text, false)
  let (username, password) := cutAt ':' user
  let encode (part : List Char) : String := String.ofList (percentEncode isUserEncoded part)
  let (hostText, portText) := cutPort false rest
  if hostText.isEmpty && (isSpecial scheme || hasUser || portText.isSome) then
    throw .emptyHost
  let host ← if isSpecial scheme then Host.ofSpecial? hostText else Host.ofOpaque? hostText
  let port ← match portText with
    | some text => port? scheme text
    | none => pure none
  pure { username := encode username, password := encode (password.getD []), host, port }

/-- The authority and the path of a text after the slashes. -/
def afterSlashes? (scheme : String) (text : List Char) : Except Fault (Authority × Path) := do
  let special := isSpecial scheme
  let authority ← authority? scheme (text.takeWhile fun c => !isSlash special c)
  pure (authority, pathAfterHost special (text.dropWhile fun c => !isSlash special c))

/-- The authority and the path of a file. -/
def file? (text : List Char) : Except Fault (Authority × Path) :=
  let nowhere : Authority := { host := .name "" }
  match text with
  | a :: b :: rest =>
    if isSlash true a && isSlash true b then do
      let hostText := rest.takeWhile fun c => !isSlash true c
      let path := pathAfterHost true (rest.dropWhile fun c => !isSlash true c)
      if hostText.isEmpty then pure (nowhere, path)
      else
        let host ← Host.ofSpecial? hostText
        pure (if host = .name "localhost" then nowhere else { host }, path)
    else .ok (nowhere, pathAfterHost true text)
  | _ => .ok (nowhere, pathAfterHost true text)

/-- The authority, if there is one, and the path. -/
def hierarchy? (scheme : String) (text : List Char) : Except Fault (Option Authority × Path) :=
  if scheme = "file" then
    (file? text).map fun (authority, path) => (some authority, path)
  else if isSpecial scheme then
    (afterSlashes? scheme (text.dropWhile (isSlash true))).map fun (authority, path) =>
      (some authority, path)
  else
    match text with
    | '/' :: '/' :: rest =>
      (afterSlashes? scheme rest).map fun (authority, path) => (some authority, path)
    | '/' :: rest => .ok (none, .segments (segmentsOf false rest))
    | _ => .ok (none, .whole (String.ofList (percentEncode isControl text)))

/-- What is passed over around a URL. -/
def isMargin (c : Char) : Bool := c ≤ ' '

/-- What is passed over inside a URL. -/
def isBreak (c : Char) : Bool := c = '\t' || c = '\n' || c = '\r'

/-- Read an absolute URL. -/
def parse? (text : String) : Except Fault Url := do
  let text := ((text.toList.dropWhile isMargin).reverse.dropWhile isMargin).reverse
  match scheme? (text.filter fun c => !isBreak c) with
  | none => throw .relative
  | some (scheme, rest) =>
    let (rest, fragment) := cutAt '#' rest
    let (rest, query) := cutAt '?' rest
    let (authority, path) ← hierarchy? scheme rest
    let isQueryEncoded := if isSpecial scheme then isSpecialQueryEncoded else isQueryEncoded
    let encode (isEncoded : Char → Bool) (part : List Char) : String :=
      String.ofList (percentEncode isEncoded part)
    pure
      { scheme, authority, path
        query := query.map (encode isQueryEncoded)
        fragment := fragment.map (encode isFragmentEncoded) }

/-! ## Writing -/

/-- An authority after its two slashes. -/
def Authority.toText (a : Authority) : String :=
  let user :=
    if a.username.isEmpty && a.password.isEmpty then ""
    else a.username ++ (if a.password.isEmpty then "" else ":" ++ a.password) ++ "@"
  let port := match a.port with
    | some n => ":" ++ toString n
    | none => ""
  "//" ++ user ++ a.host.toText ++ port

/-- A path. -/
def Path.toText : Path → String
  | whole text => text
  | segments parts => parts.foldl (fun text part => text ++ "/" ++ part) ""

/-- A path without an authority must not look as if it had one. -/
def Path.guard : Path → String
  | segments ("" :: _ :: _) => "/."
  | segments _ | whole _ => ""

/-- A part after its mark, if it is there. -/
def marked (mark : String) : Option String → String
  | some part => mark ++ part
  | none => ""

/-- The text of a URL. -/
def toText (u : Url) : String :=
  let authority := match u.authority with
    | some a => a.toText
    | none => u.path.guard
  u.scheme ++ ":" ++ authority ++ u.path.toText ++ marked "?" u.query ++ marked "#" u.fragment

/-- A URL with pairs appended to its query.  Without pairs it stays as it is. -/
def addPairs (u : Url) (pairs : List (String × String)) : Url :=
  if pairs.isEmpty then u else { u with query := some (withPairs (u.query.getD "") pairs) }

end Url

end ObjectFeed
