import Sprig.Url.Basic

/-!
# Reading addresses

An absolute address. Controls and spaces at either end are dropped, tabs and line ends everywhere;
then come the scheme, the fragment after a hash sign, the query after a question mark, and in what
is left an authority after two slashes and a path. A special scheme takes backslashes for slashes
and needs no fixed number of them before its authority. Paths are resolved: single dots vanish, and
two dots take the segment before them away. A plain path whose first segment with a leading dot is
a name is not resolved.
-/

namespace Sprig.Url

/-! ### Scheme -/

/-- The text without the controls and spaces at either end, and without tabs and line ends. -/
def cleaned (t : Text) : Text :=
  let isOuter (u : CodeUnit) : Bool := u ≤ 0x20
  let t := ((t.dropWhile isOuter).reverse.dropWhile isOuter).reverse
  t.filter fun u => u != 0x09 && u != 0x0A && u != 0x0D

/-- The units of a scheme. -/
def isSchemeUnit (u : CodeUnit) : Bool :=
  u.isAlphanumeric || u == CodeUnit.plus || u == CodeUnit.minus || u == CodeUnit.point

/-- Reads a scheme and the colon after it: the scheme in lower case, and what follows. -/
def takeScheme? (t : Text) : Option (Text × Text) :=
  match t.cut CodeUnit.colon with
  | (name, some rest) =>
    if name.head?.any CodeUnit.isLetter && name.all isSchemeUnit then some (name.lower, rest)
    else none
  | (_, none) => none

/-! ### Authority -/

/-- Reads the credentials of an authority: the user name, the password, and what follows the last
sign that ends them, which must not be empty. -/
def takeCredentials? (t : Text) : Option (Text × Text × Text) :=
  let rest := (t.reverse.takeWhile (· ≠ CodeUnit.atSign)).reverse
  if rest.length = t.length then some ([], [], t)
  else if rest.isEmpty then none
  else
    let credentials := t.take (t.length - rest.length - 1)
    let (username, password) := Text.cut CodeUnit.colon credentials
    some (Percent.encode Percent.userinfo username,
      Percent.encode Percent.userinfo (password.getD []), rest)

/-- The host of an authority, and what follows the colon after it, if there is one outside
brackets. -/
def cutService : (inBrackets : Bool) → Text → Text × Option Text
  | _, [] => ([], none)
  | inBrackets, u :: rest =>
    if u = CodeUnit.colon ∧ !inBrackets then ([], some rest)
    else
      let inBrackets :=
        if u = CodeUnit.openBracket then true
        else if u = CodeUnit.closeBracket then false
        else inBrackets
      let parts := cutService inBrackets rest
      (u :: parts.1, parts.2)

/-- The number of a service that digits write, none if it is the usual one of the scheme or there
are no digits. -/
def service? (scheme digits : Text) : Option (Option Nat) :=
  let number := digits.toNat
  if digits.isEmpty then some none
  else if !digits.all CodeUnit.isDigit || 65535 < number then none
  else if Scheme.services.lookup scheme = some number then some none
  else some (some number)

/-- An authority. Only a scheme that is not special may leave the host out, and not before the
number of a service. -/
def authority? (scheme t : Text) : Option Authority := do
  let (username, password, rest) ← takeCredentials? t
  let (name, digits) := cutService false rest
  if name.isEmpty && (Scheme.isSpecial scheme || digits.isSome) then none
  else
    let host ← Host.ofText? (Scheme.isSpecial scheme) name
    return ⟨username, password, host, ← service? scheme (digits.getD [])⟩

/-! ### Path -/

/-- A segment that stands for the directory itself. -/
def isSingleDot (segment : Text) : Bool :=
  ([".", "%2e"] : List Text).contains segment.lower

/-- A segment that stands for the directory above. -/
def isDoubleDot (segment : Text) : Bool :=
  (["..", ".%2e", "%2e.", "%2e%2e"] : List Text).contains segment.lower

/-- The letter of a drive and its mark. -/
def isDrive : Text → Bool
  | [letter, mark] => letter.isLetter && (mark == CodeUnit.colon || mark == 0x7C)
  | _ => false

/-- A segment that starts with the letter of a drive and a colon. -/
def hasDrive : Text → Bool
  | letter :: mark :: _ => letter.isLetter && mark == CodeUnit.colon
  | _ => false

/-- The segments without the last one. A drive that comes first in the path of a file stays. -/
def parent (scheme : Text) : List Text → List Text
  | [name] => if scheme = Scheme.file ∧ hasDrive name then [name] else []
  | names => names.dropLast

/-- The segments after one more. A drive that comes first in the path of a file is marked by a
colon. -/
def follow (scheme : Text) (names : List Text) (segment : Text) : List Text :=
  if isDoubleDot segment then parent scheme names
  else if isSingleDot segment then names
  else if scheme = Scheme.file ∧ names.isEmpty ∧ isDrive segment then
    [segment.take 1 ++ [CodeUnit.colon]]
  else names ++ [segment]

/-- The segments after the last one. If it is dots, an empty segment follows the directory that they
lead to; only where two dots have nothing to take away, an address that is not special is left
without a path. -/
def finish (scheme : Text) (names : List Text) (last : Text) : List Text :=
  if isDoubleDot last ∧ names.isEmpty ∧ !Scheme.isSpecial scheme then []
  else if isDoubleDot last ∨ isSingleDot last then follow scheme names last ++ [[]]
  else follow scheme names last

/-- A slash of a scheme; a special one takes a backslash for it. -/
def isSlash (scheme : Text) (u : CodeUnit) : Bool :=
  u == CodeUnit.slash || (u == CodeUnit.backslash && Scheme.isSpecial scheme)

/-- A path that is taken as it is, dots and all: nothing in it is escaped or has to be, it has no
backslashes, and the first segment after a slash that starts with a dot is a name with something
else behind the dot. The first segment of all must neither start with a dot nor be a drive. -/
def isLiteral (scheme t : Text) : Bool :=
  let names := t.split CodeUnit.slash
  let startsWithDot (name : Text) : Bool := name.head? == some CodeUnit.point
  let isPlain := t.scalars.all fun v =>
    !Percent.path v && v != CodeUnit.percent.toNat && v != CodeUnit.backslash.toNat
  let isExcluded := names.head?.any fun name =>
    startsWithDot name || (scheme == Scheme.file && isDrive name)
  let isNamed := (names.tail.find? startsWithDot).any fun name =>
    name.tail.head?.any fun u => u != CodeUnit.point
  isPlain && !isExcluded && isNamed

/-- The path of an address, after its first slash. -/
def segments (scheme t : Text) : Locator :=
  if isLiteral scheme t then .segments (t.split CodeUnit.slash)
  else
    let t : Text := t.map fun u => if isSlash scheme u then CodeUnit.slash else u
    let all := (t.split CodeUnit.slash).map (Percent.encode Percent.path)
    .segments (finish scheme (all.dropLast.foldl (follow scheme) []) (all.getLast?.getD []))

/-- The path that follows an authority. Only a special scheme has one even where there is
nothing. -/
def segmentsAfter (scheme t : Text) : Locator :=
  match t with
  | [] => if Scheme.isSpecial scheme then segments scheme [] else .segments []
  | _ :: rest => segments scheme rest

/-! ### Address -/

/-- What follows a slash. -/
def afterSlash? (scheme : Text) : Text → Option Text
  | [] => none
  | u :: rest => if isSlash scheme u then some rest else none

/-- The text up to the first slash, and the rest. -/
def atSlash (scheme t : Text) : Text × Text :=
  (t.takeWhile fun u => !isSlash scheme u, t.dropWhile fun u => !isSlash scheme u)

/-- Reads an authority and the path after it. -/
def takeAuthority? (scheme t : Text) : Option (Option Authority × Locator) := do
  let (name, rest) := atSlash scheme t
  return (some (← authority? scheme name), segmentsAfter scheme rest)

/-- Reads the host of a file and the path after it. A drive is no host, and the local host is left
out. -/
def takeFileHost? (t : Text) : Option (Host × Locator) :=
  let (name, rest) := atSlash Scheme.file t
  if isDrive name then some (.empty, segments Scheme.file t)
  else if name.isEmpty then some (.empty, segmentsAfter Scheme.file rest)
  else do
    let host ← Host.ofText? true name
    return (if host = .domain "localhost" then .empty else host, segmentsAfter Scheme.file rest)

/-- Reads the address of a file, whose host is empty unless two slashes come before it. -/
def takeFile? (t : Text) : Option (Host × Locator) :=
  match afterSlash? Scheme.file t with
  | none => some (.empty, segments Scheme.file t)
  | some rest =>
    match afterSlash? Scheme.file rest with
    | none => some (.empty, segments Scheme.file rest)
    | some rest => takeFileHost? rest

/-- Reads an address that is not special, whose path is a text unless a slash comes before it. -/
def takeOther? (scheme t : Text) : Option (Option Authority × Locator) :=
  match afterSlash? scheme t with
  | none => some (none, .verbatim (Percent.encode Percent.control t))
  | some rest =>
    match afterSlash? scheme rest with
    | none => some (none, segments scheme rest)
    | some rest => takeAuthority? scheme rest

/-- Reads what stands between the scheme and the query. -/
def takeBody? (scheme t : Text) : Option (Option Authority × Locator) :=
  if scheme = Scheme.file then
    (takeFile? t).map fun (host, locator) => (some (.ofHost host), locator)
  else if Scheme.isSpecial scheme then takeAuthority? scheme (t.dropWhile (isSlash scheme))
  else takeOther? scheme t

/-- The address that a text writes. -/
def ofText? (t : Text) : Option Url := do
  let (scheme, rest) ← takeScheme? (cleaned t)
  let (rest, fragment) := rest.cut CodeUnit.hash
  let (body, query) := rest.cut CodeUnit.questionMark
  let (authority, locator) ← takeBody? scheme body
  let queryClass := if Scheme.isSpecial scheme then Percent.specialQuery else Percent.query
  return ⟨scheme, authority, locator, query.map (Percent.encode queryClass),
    fragment.map (Percent.encode Percent.fragment)⟩

end Sprig.Url
