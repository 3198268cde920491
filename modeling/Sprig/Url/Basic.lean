import Sprig.Url.Host

/-!
# Uniform resource locators

An address by its parts, as the URL standard has them, and its written form.
-/

namespace Sprig

namespace Scheme

/-- The scheme of files. -/
def file : Text := "file"

/-- The special schemes that name a service, with its usual number. -/
def services : List (Text × Nat) :=
  [("ftp", 21), ("http", 80), ("https", 443), ("ws", 80), ("wss", 443)]

/-- The special schemes, whose addresses always have a host and a path. -/
def isSpecial (scheme : Text) : Bool := scheme == file || (services.lookup scheme).isSome

end Scheme

/-- Who is addressed: credentials, which are often empty, a host, and the number of a service there
if it is not the usual one of the scheme. -/
structure Authority where
  username : Text
  password : Text
  host : Host
  service : Option Nat
  deriving DecidableEq, Repr

/-- What is addressed there: a text, or segments that a slash comes before. -/
inductive Locator where
  | verbatim (text : Text)
  | segments (names : List Text)
  deriving DecidableEq, Repr

/-- An address. -/
structure Url where
  scheme : Text
  authority : Option Authority
  locator : Locator
  query : Option Text
  fragment : Option Text
  deriving DecidableEq, Repr

namespace Authority

/-- The authority of a host alone. -/
def ofHost (host : Host) : Authority := ⟨[], [], host, none⟩

/-- The credentials in their written form, with the sign that ends them if there are any. -/
def credentials (a : Authority) : Text :=
  let password := if a.password.isEmpty then [] else CodeUnit.colon :: a.password
  if a.username.isEmpty && a.password.isEmpty then []
  else a.username ++ password ++ [CodeUnit.atSign]

/-- An authority in its written form. -/
def toText (a : Authority) : Text :=
  a.credentials ++ a.host.toText ++ a.service.elim [] fun n => CodeUnit.colon :: Text.ofNat n

end Authority

namespace Locator

/-- A locator in its written form. -/
def toText : Locator → Text
  | verbatim t => t
  | segments names => names.flatMap fun name => CodeUnit.slash :: name

/-- A locator whose written form would read as an authority. -/
def isAmbiguous : Locator → Bool
  | segments ([] :: _ :: _) => true
  | _ => false

end Locator

namespace Url

/-- What stands between the scheme and the locator. -/
def authorityText (url : Url) : Text :=
  match url.authority with
  | some authority => ("//" : Text) ++ authority.toText
  | none => if url.locator.isAmbiguous then "/." else []

/-- An address in its written form. -/
def toText (url : Url) : Text :=
  url.scheme ++ [CodeUnit.colon] ++ url.authorityText ++ url.locator.toText ++
    url.query.elim [] (CodeUnit.questionMark :: ·) ++ url.fragment.elim [] (CodeUnit.hash :: ·)

end Url

end Sprig
