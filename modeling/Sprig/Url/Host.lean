import Sprig.Url.Domain
import Sprig.Url.Ipv4
import Sprig.Url.Ipv6
import Sprig.Url.Percent

/-!
# Hosts

The host of an address. Brackets hold an address of 128 bits. A special scheme takes domain names
and addresses of 32 bits, after its escapes are resolved; any other scheme takes a text as it is.
-/

namespace Sprig

/-- A host. -/
inductive Host where
  | domain (name : Text)
  | ipv4 (address : Nat)
  | ipv6 (pieces : List Nat)
  | named (text : Text)
  | empty
  deriving DecidableEq, Repr

namespace Host

/-- The units that no host holds. -/
def isForbidden (u : CodeUnit) : Bool :=
  u == 0 || u == 0x09 || u == 0x0A || u == 0x0D || (" #/:<>?@[\\]^|" : Text).contains u

/-- The units that no domain name holds. -/
def isForbiddenInDomain (u : CodeUnit) : Bool :=
  isForbidden u || u < 0x20 || u == CodeUnit.percent || u == 0x7F

/-- The address of 128 bits between brackets, if the second one is there. -/
def bracketed? (t : Text) : Option Host :=
  if t.getLast? = some CodeUnit.closeBracket then (Ipv6.ofText? t.dropLast).map ipv6 else none

/-- The host of a special scheme without brackets. -/
def special? (t : Text) : Option Host := do
  let name ← Domain.toAscii? (Percent.decode t)
  if name.any isForbiddenInDomain then none
  else if Ipv4.isNumeric name then (Ipv4.ofText? name).map ipv4
  else some (domain name)

/-- The host of any other scheme without brackets. -/
def other? (t : Text) : Option Host :=
  if t.any isForbidden then none
  else if t.isEmpty then some empty
  else some (named (Percent.encode Percent.control t))

/-- The host that a text writes. -/
def ofText? (isSpecial : Bool) (t : Text) : Option Host :=
  if t.head? = some CodeUnit.openBracket then bracketed? t.tail
  else if isSpecial then special? t
  else other? t

/-- A host in its written form. -/
def toText : Host → Text
  | domain name => name
  | ipv4 address => Ipv4.toText address
  | ipv6 pieces => [CodeUnit.openBracket] ++ Ipv6.toText pieces ++ [CodeUnit.closeBracket]
  | named t => t
  | empty => []

end Host

end Sprig
