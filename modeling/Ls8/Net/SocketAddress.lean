import Ls8.Text.Unsigned

/-!
# Socket addresses

An internet address and a port: `127.0.0.1:3030`, or `[::1]:3030` for the longer addresses,
which may name the zone they are meant in: `[fe80::1%2]:3030`.

* `SocketAddress.parse?`: the address of a text, nothing left over.
* `SocketAddress.text`: an address in its shortest form. The longest run of zero groups, if
  there are two at least, is written `::`.

The readers take the characters that remain and return those after what they read.
-/

namespace Ls8.Net

structure Ipv4 where
  octets : Vector UInt8 4
  deriving DecidableEq

structure Ipv6 where
  groups : Vector UInt16 8
  deriving DecidableEq

inductive SocketAddress where
  | v4 (address : Ipv4) (port : UInt16)
  | v6 (address : Ipv6) (zone : UInt32) (port : UInt16)
  deriving DecidableEq

/-! ## Reading -/

/-- What follows a given character. -/
def after? (mark : Char) (text : List Char) : Option (List Char) :=
  match text with
  | c :: rest => if c = mark then some rest else none
  | [] => none

/-- A number in `base` and what follows it. All digits there are belong to it. -/
def number? (base : Nat) (text : List Char) : Option (List Char × Nat × List Char) :=
  let run := text.takeWhile fun c => (Text.digit? base c).isSome
  (Text.digits? base run).map (run, ·, text.drop run.length)

def octet? (text : List Char) : Option (UInt8 × List Char) := do
  let (run, value, rest) ← number? 10 text
  if run.length ≤ 3 ∧ value < 256 ∧ (run.length = 1 ∨ run.head? ≠ some '0') then
    some (value.toUInt8, rest)
  else none

def ipv4? (text : List Char) : Option (Ipv4 × List Char) := do
  let (a, rest) ← octet? text
  let (b, rest) ← octet? (← after? '.' rest)
  let (c, rest) ← octet? (← after? '.' rest)
  let (d, rest) ← octet? (← after? '.' rest)
  return (⟨#v[a, b, c, d]⟩, rest)

def group? (text : List Char) : Option (UInt16 × List Char) := do
  let (run, value, rest) ← number? 16 text
  if run.length ≤ 4 then some (value.toUInt16, rest) else none

/-- The last two groups of an address, written as four bytes. -/
def groupsOfIpv4 (address : Ipv4) : List UInt16 :=
  let pair (high low : UInt8) := high.toUInt16 * 256 + low.toUInt16
  let octets := address.octets
  [pair octets[0] octets[1], pair octets[2] octets[3]]

/-- The groups read from a text, whether four bytes ended them, and what follows. -/
structure GroupRun where
  groups : List UInt16
  endsInIpv4 : Bool
  rest : List Char

/-- As many groups as there are, `room` at most, with colons between them and before the
first unless it begins the run. Four bytes may take the place of the last two. -/
def groups (room : Nat) (first : Bool) (text : List Char) : GroupRun :=
  match room with
  | 0 => ⟨[], false, text⟩
  | room + 1 =>
    match if first then some text else after? ':' text with
    | none => ⟨[], false, text⟩
    | some start =>
      match if room ≥ 1 then ipv4? start else none with
      | some (address, rest) => ⟨groupsOfIpv4 address, true, rest⟩
      | none =>
        match group? start with
        | none => ⟨[], false, text⟩
        | some (group, rest) =>
          let more := groups room false rest
          { more with groups := group :: more.groups }

/-- The address with these groups at its two ends and zeros between them. -/
def Ipv6.ofEnds (front back : List UInt16) : Ipv6 :=
  ⟨Vector.ofFn fun i : Fin 8 =>
    if i.val < 8 - back.length then front[i.val]?.getD 0
    else back[i.val - (8 - back.length)]?.getD 0⟩

/-- An address of eight groups, and what follows. One run of zero groups may be left out
between two colons. -/
def ipv6? (text : List Char) : Option (Ipv6 × List Char) := do
  let front := groups 8 true text
  if front.groups.length = 8 then return (.ofEnds front.groups [], front.rest)
  if front.endsInIpv4 then none
  let rest ← after? ':' (← after? ':' front.rest)
  let back := groups (8 - (front.groups.length + 1)) true rest
  return (.ofEnds front.groups back.groups, back.rest)

def port? (text : List Char) : Option (UInt16 × List Char) := do
  let (_, value, rest) ← number? 10 (← after? ':' text)
  if value < UInt16.size then some (value.toUInt16, rest) else none

/-- The zone after a percent sign, or zone 0, and what follows. -/
def zone (text : List Char) : UInt32 × List Char :=
  let named := do
    let (_, value, rest) ← number? 10 (← after? '%' text)
    if value < Text.halfWordBound then some (value.toUInt32, rest) else none
  named.getD (0, text)

namespace SocketAddress

def v4? (text : List Char) : Option (SocketAddress × List Char) := do
  let (address, rest) ← ipv4? text
  let (port, rest) ← port? rest
  return (.v4 address port, rest)

def v6? (text : List Char) : Option (SocketAddress × List Char) := do
  let (address, rest) ← ipv6? (← after? '[' text)
  let (zone, rest) := zone rest
  let (port, rest) ← port? (← after? ']' rest)
  return (.v6 address zone port, rest)

def parse? (text : String) : Option SocketAddress :=
  match (v4? text.toList).or (v6? text.toList) with
  | some (address, []) => some address
  | _ => none

end SocketAddress

/-! ## Writing -/

def Ipv4.text (address : Ipv4) : String :=
  ".".intercalate (address.octets.toList.map fun octet => toString octet.toNat)

def groupsText (groups : List UInt16) : String :=
  ":".intercalate (groups.map fun group => String.ofList (Nat.toDigits 16 group.toNat))

def zeroRun (groups : List UInt16) : Nat := (groups.takeWhile (· == 0)).length

/-- The place and length of the longest run of zero groups, the first of several, given the
longest one before `place`. -/
def longestZeroRun (place : Nat) (best : Nat × Nat) : List UInt16 → Nat × Nat
  | [] => best
  | group :: rest =>
    let length := zeroRun (group :: rest)
    longestZeroRun (place + 1) (if length > best.2 then (place, length) else best) rest

/-- The four bytes of an address that stands for a shorter one. -/
def Ipv6.mapped? (address : Ipv6) : Option Ipv4 :=
  match address.groups.toList with
  | [0, 0, 0, 0, 0, 0xFFFF, high, low] =>
    some ⟨#v[(high / 256).toUInt8, high.toUInt8, (low / 256).toUInt8, low.toUInt8]⟩
  | _ => none

/-- An address in its shortest form. -/
def Ipv6.text (address : Ipv6) : String :=
  match address.mapped? with
  | some short => "::ffff:" ++ short.text
  | none =>
    let groups := address.groups.toList
    let (place, length) := longestZeroRun 0 (0, 0) groups
    if length > 1 then
      groupsText (groups.take place) ++ "::" ++ groupsText (groups.drop (place + length))
    else groupsText groups

def SocketAddress.text : SocketAddress → String
  | .v4 address port => address.text ++ s!":{port.toNat}"
  | .v6 address zone port =>
    let zoneText := if zone = 0 then "" else s!"%{zone.toNat}"
    "[" ++ address.text ++ zoneText ++ s!"]:{port.toNat}"

end Ls8.Net
