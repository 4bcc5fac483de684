import IcsTrafficGen.Dnp3.StringUtilities
import Mathlib.Data.Int.Bitwise

/- `CidrCalculator`: the constructor takes a network in CIDR notation apart, and each call
   of `GetNextIpAddress` goes one address on. -/
namespace IcsTrafficGen.Dnp3

/-- `int networkAddr[4]`. -/
structure Octets where
  a : Int
  b : Int
  c : Int
  d : Int
  deriving DecidableEq, Repr

/-- An address as it is written. -/
def Octets.dotted (o : Octets) : String :=
  toString o.a ++ "." ++ toString o.b ++ "." ++ toString o.c ++ "." ++ toString o.d

structure CidrCalculator where
  cidrNotation : String
  netMask : List Int
  networkAddr : Octets
  deriving DecidableEq, Repr

namespace CidrCalculator

/-- `parts.front()`, which an empty vector does not have. -/
def front (parts : List (List Char)) : Cpp (List Char) :=
  match parts.head? with
  | some part => .ok part
  | none => .error .undefined

def back (parts : List (List Char)) : Cpp (List Char) :=
  match parts.getLast? with
  | some part => .ok part
  | none => .error .undefined

/-- `std::vector<int> cidrRange(cidrI)`, filled with the numbers from 0 on. -/
def cidrRange (cidrI : Int) : Cpp (List ℕ) :=
  if 0 ≤ cidrI then .ok (List.range cidrI.toNat) else .error .throws

/-- One pass of the loop over the bits of the prefix. -/
def setMaskBit (netMask : List Int) (i : ℕ) : Cpp (List Int) := do
  let octet ← Cpp.vecGet netMask (i / 8 : ℕ)
  Cpp.vecSet netMask (i / 8 : ℕ) (octet + 2 ^ (7 - i % 8))

/-- `addr[i] & this->netMask[i]`. -/
def maskOctet (addr netMask : List Int) (i : ℕ) : Cpp Int := do
  let octet ← Cpp.vecGet addr i
  let mask ← Cpp.vecGet netMask i
  pure (Int.land octet mask)

/-- The constructor. A notation without the two parts is not refused. -/
def new (cidr : String) : Cpp CidrCalculator := do
  let parts := split '/' cidr.toList
  let addrStr ← front parts
  let prefixStr ← back parts
  let cidrI ← CppString.streamInt prefixStr
  let addr ← (split '.' addrStr).mapM CppString.streamInt
  let range ← cidrRange cidrI
  let netMask ← range.foldlM setMaskBit [0, 0, 0, 0]
  let a ← maskOctet addr netMask 0
  let b ← maskOctet addr netMask 1
  let c ← maskOctet addr netMask 2
  let d ← maskOctet addr netMask 3
  pure { cidrNotation := cidr, netMask := netMask, networkAddr := ⟨a, b, c, d⟩ }

/-- How `GetNextIpAddress` changes the address. -/
def nextAddr (o : Octets) : Octets :=
  if o.d < 254 then { o with d := o.d + 1 }
  else if o.c < 254 then { o with c := o.c + 1, d := 1 }
  else if o.b < 254 then { o with b := o.b + 1, c := 0, d := 1 }
  else if o.a < 254 then { a := o.a + 1, b := 0, c := 0, d := 1 }
  -- the end of all addresses is not reported
  else { o with b := 0, c := 0, d := 1 }

def getNextIpAddress (gen : CidrCalculator) : String × CidrCalculator :=
  let next := nextAddr gen.networkAddr
  (next.dotted, { gen with networkAddr := next })

end CidrCalculator
end IcsTrafficGen.Dnp3
