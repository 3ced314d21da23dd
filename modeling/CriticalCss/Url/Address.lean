import CriticalCss.Url.Host

/-!
# Addresses

An address names a host on the network, or a file of this machine.  `Address.read?` reads one from
text and `Url.text` writes it in its one normal form: the scheme and the host in small letters, no
port where it is the scheme's own, no `.` or `..` in the path, and every character that needs it
percent-encoded.  Text that names neither a host nor a file is no address.
-/

namespace CriticalCss

/-- A place on the network. -/
structure Url where
  scheme : String
  /-- Name and password as they stand before `@`. -/
  user : String
  host : Host
  port : Option Nat
  path : List (List Char)
  query : Option (List Char)
  fragment : Option (List Char)
deriving DecidableEq

/-- What an address leads to. -/
inductive Address where
  | network (url : Url)
  | file (path : String)

namespace Url

/-- The port of the special schemes, which name a host always. -/
def defaultPort? (scheme : String) : Option Nat :=
  match scheme with
  | "http" | "ws" => some 80
  | "https" | "wss" => some 443
  | "ftp" => some 21
  | _ => none

/-- The address as text. -/
def text (u : Url) : String :=
  let marked (mark : Char) (part : Option (List Char)) : List Char :=
    match part with
    | none => []
    | some cs => mark :: cs
  let port := match u.port with
    | none => ""
    | some n => ":" ++ Text.ofNat n
  u.scheme ++ "://" ++ u.user ++ u.host.text ++ port ++
    String.ofList (u.path.flatMap ('/' :: ·) ++ marked '?' u.query ++ marked '#' u.fragment)

end Url

namespace Address

/-- The text without control characters and spaces at its ends, and without tabs and line ends. -/
def clean (cs : List Char) : List Char :=
  let isEdge (c : Char) : Bool := c.toNat ≤ 0x20
  ((cs.dropWhile isEdge).reverse.dropWhile isEdge).reverse.filter
    fun c => c ∉ ['\t', '\n', '\r']

/-- The scheme before a colon in small letters, and the text after it. -/
def takeScheme? (cs : List Char) : Option (String × List Char) :=
  let inScheme (c : Char) : Bool := c.isAlphanum || c ∈ ['+', '-', '.']
  let scheme := cs.takeWhile inScheme
  match scheme.head?, cs.drop scheme.length with
  | some c, ':' :: rest =>
    if c.isAlpha then some (Text.lower (String.ofList scheme), rest) else none
  | _, _ => none

/-- Whether a character ends the part that names user and host. -/
def endsHost (special : Bool) (c : Char) : Bool :=
  c ∈ ['/', '?', '#'] || (special && c = '\\')

/-- The text before the last `@` of a part, if it has one, and the text after it. -/
def splitUser (cs : List Char) : Option (List Char) × List Char :=
  let host := (cs.reverse.takeWhile (· ≠ '@')).reverse
  if host.length < cs.length then (some (cs.take (cs.length - host.length - 1)), host)
  else (none, cs)

/-- Name and password with `@` after them, encoded; without an `@` when both are empty. -/
def userText (cs : List Char) : List Char :=
  let name := cs.takeWhile (· ≠ ':')
  let password := cs.drop (name.length + 1)
  let encoded := Percent.encode Percent.inUser name ++
    if password = [] then [] else ':' :: Percent.encode Percent.inUser password
  if encoded = [] then [] else encoded ++ ['@']

/-- The text up to the first colon outside brackets, and the text from that colon on. -/
def splitPort : (inside : Bool) → List Char → List Char × List Char
  | _, [] => ([], [])
  | inside, c :: cs =>
    if c = ':' ∧ !inside then ([], c :: cs)
    else
      let (host, rest) := splitPort (c = '[' || (inside && c ≠ ']')) cs
      (c :: host, rest)

/-- Reads a port after its colon, up to 65535; it may be empty. -/
def port? (cs : List Char) : Option (Option Nat) := do
  let digits ← cs.mapM Text.digit?
  let n := Text.ofDigits 10 digits
  if cs = [] then some none else if 65535 < n then none else some (some n)

/-- The parts of a path between its slashes. -/
def segments (special : Bool) : List Char → List (List Char)
  | [] => [[]]
  | c :: cs =>
    match segments special cs with
    | [] => [[c]]
    | part :: more =>
      if c = '/' ∨ (special ∧ c = '\\') then [] :: part :: more else (c :: part) :: more

/-- A part of a path with each encoded point written plainly, if points are all it holds. -/
def points : List Char → Option Nat
  | [] => some 0
  | '.' :: cs => (points cs).map (· + 1)
  | '%' :: '2' :: 'e' :: cs => (points cs).map (· + 1)
  | '%' :: '2' :: 'E' :: cs => (points cs).map (· + 1)
  | _ => none

/-- A letter and a colon or bar, as a drive is named. -/
def isDrive : List Char → Bool
  | [c, mark] => c.isAlpha && (mark = ':' || mark = '|')
  | _ => false

/-- The path without its last part; a drive stays. -/
def up (path : List (List Char)) : List (List Char) :=
  match path.getLast? with
  | none => []
  | some part => if isDrive part then path else path.dropLast

/-- Follows the parts of a path: `.` stays where it is and `..` goes up.  At the end both leave an
empty part.  `write` gives the form of a part after the parts before it. -/
def follow (write : List (List Char) → List Char → List Char) (path : List (List Char)) :
    List (List Char) → List (List Char)
  | [] => path
  | part :: more =>
    let close (path : List (List Char)) := if more = [] then path ++ [[]] else path
    match points part with
    | some 1 => follow write (close path) more
    | some 2 => follow write (close (up path)) more
    | _ => follow write (path ++ [write path part]) more

/-- The path of an address with a host.  Only a special scheme sets a path where none is written. -/
def networkPath (special : Bool) (cs : List Char) : List (List Char) :=
  let write (_ : List (List Char)) (part : List Char) := Percent.encode Percent.inPath part
  match cs with
  | [] => if special then [[]] else []
  | c :: rest =>
    if c = '/' ∨ (special ∧ c = '\\') then follow write [] (segments special rest)
    else follow write [] (segments special (c :: rest))

/-- The text up to a mark, and the text after the mark if there is one. -/
def splitAt (mark : Char) (cs : List Char) : List Char × Option (List Char) :=
  let before := cs.takeWhile (· ≠ mark)
  if before.length < cs.length then (before, some (cs.drop (before.length + 1))) else (before, none)

/-- The path, the query and the fragment of the text after the host. -/
def splitPath (cs : List Char) : List Char × Option (List Char) × Option (List Char) :=
  let (before, fragment) := splitAt '#' cs
  let (path, query) := splitAt '?' before
  (path, query, fragment)

/-- Reads what stands after `//`.  A special scheme needs a host; any other has none where nothing
is written. -/
def network? (scheme : String) (cs : List Char) : Option Url := do
  let default := Url.defaultPort? scheme
  let special := default.isSome
  let authority := cs.takeWhile (!endsHost special ·)
  let (user, place) := splitUser authority
  let (hostText, portText) := splitPort false place
  if hostText = [] then none
  else
    let host ← if special then Host.read? hostText else Host.readPlain? hostText
    let rest := cs.drop authority.length
    let (portDigits, portRest) := match portText, special with
      | _ :: digits, true => (digits, rest)
      | _ :: digits, false =>
        let before := digits.takeWhile (· ≠ '\\')
        (before, digits.drop before.length ++ rest)
      | [], _ => ([], rest)
    let port ← port? portDigits
    let (path, query, fragment) := splitPath portRest
    let inQuery := if special then Percent.inSpecialQuery else Percent.inQuery
    return {
      scheme, host
      user := String.ofList (userText (user.getD []))
      port := if port = default then none else port
      path := networkPath special path
      query := query.map (Percent.encode inQuery)
      fragment := fragment.map (Percent.encode Percent.inFragment) }

/-- The parts of the path of a file.  A drive at its start is written with a colon, and slashes at
its start count once. -/
def filePath (cs : List Char) : List (List Char) :=
  let write (path : List (List Char)) (part : List Char) :=
    match path, isDrive part, part with
    | [], true, c :: _ => [c, ':']
    | _, _, _ => Percent.encode Percent.inPath part
  let rest := match cs with
    | '/' :: rest => rest
    | '\\' :: rest => rest
    | cs => cs
  match (follow write [] (segments true rest)).dropWhile (· = []) with
  | [] => [[]]
  | path => path

/-- The path of a file as the file system has it.  A drive at its end is followed by a slash. -/
def fileText (path : List (List Char)) : String :=
  let bytes := path.flatMap fun part => 0x2F :: Percent.bytes part
  let isLetter (b : Nat) : Bool := (0x41 ≤ b && b ≤ 0x5A) || (0x61 ≤ b && b ≤ 0x7A)
  let whole := match bytes.reverse with
    | mark :: b :: _ :: _ =>
      if isLetter b ∧ (mark = 0x3A ∨ mark = 0x7C) then bytes ++ [0x2F] else bytes
    | _ => bytes
  String.ofList (Text.fromBytesLossy whole)

/-- Whether a host names this machine. -/
def isHere (cs : List Char) : Option Bool :=
  if cs = [] then some true
  else (Host.read? cs).map (· = .name "localhost")

/-- Reads what stands after `file:`.  A host other than this machine is dropped only where the path
begins with a drive. -/
def file? (cs : List Char) : Option String :=
  let cs := (splitPath cs).1
  let isSlash (c : Char) : Bool := c = '/' || c = '\\'
  match cs with
  | a :: b :: rest =>
    if isSlash a ∧ isSlash b then
      let host := rest.takeWhile (!isSlash ·)
      if isDrive host then some (fileText (filePath rest))
      else
        let path := rest.drop host.length
        match isHere host with
        | none => none
        | some here =>
          let startsWithDrive : Bool := match segments true (path.drop 1) with
            | part :: _ => isDrive part
            | [] => false
          if here ∨ startsWithDrive then some (fileText (filePath path)) else none
    else some (fileText (filePath cs))
  | cs => some (fileText (filePath cs))

/-- Reads an address. -/
def read? (s : String) : Option Address := do
  let (scheme, rest) ← takeScheme? (clean s.toList)
  if scheme = "file" then (file? rest).map .file
  else if (Url.defaultPort? scheme).isSome then
    (network? scheme (rest.dropWhile fun c => c = '/' ∨ c = '\\')).map .network
  else
    match rest with
    | '/' :: '/' :: rest => (network? scheme rest).map .network
    | _ => none

end Address

end CriticalCss
