import PandaProxy.Python.Str

namespace PandaProxy.Python

namespace IpAddress

def octet (s : String) : Option Nat :=
  let digits := s.toList
  if digits.isEmpty ∨ ¬ digits.all Char.isDigit ∨ digits.length > 3 then none
  else if s ≠ "0" ∧ digits.head? = some '0' then none
  else
    let value := digits.foldl (fun n c => 10 * n + (c.toNat - '0'.toNat)) 0
    if value > 255 then none else some value

-- `ipaddress.IPv4Address(s)`, as its four octets; `none` is the `AddressValueError`.
def ipv4 (s : String) : Option (List Nat) :=
  let octets := Str.split '.' s
  if octets.length = 4 then octets.mapM octet else none

def isIpv4 (s : String) : Bool := (ipv4 s).isSome

-- `str(ipaddress.ip_address(s))`: a dotted quad that is accepted is the one it prints. `ipv6` gives
-- the text of what is no dotted quad.
def ipAddress (ipv6 : String → Option String) (s : String) : Option String :=
  if isIpv4 s then some s else ipv6 s

end IpAddress

end PandaProxy.Python
