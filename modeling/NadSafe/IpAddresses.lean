import NadSafe.HostText

/-!
# Internet addresses

The two kinds of addresses, how the standard library writes them, and which of
them the server takes for global.
-/

namespace NadSafe.IpAddresses

open HostText

/-- `Ipv4Addr`, by octets. -/
structure Ipv4Addr where
  /-- The first octet. -/
  a : UInt8
  /-- The second. -/
  b : UInt8
  /-- The third. -/
  c : UInt8
  /-- The fourth. -/
  d : UInt8
  deriving DecidableEq

/-- `Ipv6Addr`, by segments. -/
structure Ipv6Addr where
  /-- The first segment. -/
  a : UInt16
  /-- The second. -/
  b : UInt16
  /-- The third. -/
  c : UInt16
  /-- The fourth. -/
  d : UInt16
  /-- The fifth. -/
  e : UInt16
  /-- The sixth. -/
  f : UInt16
  /-- The seventh. -/
  g : UInt16
  /-- The eighth. -/
  h : UInt16
  deriving DecidableEq

/-- `IpAddr`. -/
inductive IpAddr where
  /-- Version 4. -/
  | v4 (ip : Ipv4Addr)
  /-- Version 6. -/
  | v6 (ip : Ipv6Addr)
  deriving DecidableEq

namespace Ipv4Addr

variable (ip : Ipv4Addr)

/-- `is_private`. -/
def isPrivate : Bool :=
  ip.a=10 || (ip.a=172 && 16≤ ip.b && ip.b≤31) || (ip.a=192 && ip.b=168)

/-- `is_loopback`. -/
def isLoopback : Bool := ip.a=127

/-- `is_link_local`. -/
def isLinkLocal : Bool := ip.a=169 && ip.b=254

/-- `is_documentation`. -/
def isDocumentation : Bool :=
  (ip.a=192 && ip.b=0 && ip.c=2) || (ip.a=198 && ip.b=51 && ip.c=100) || (ip.a=203 && ip.b=0 && ip.c=113)

/-- `is_broadcast`. -/
def isBroadcast : Bool := ip.a=255 && ip.b=255 && ip.c=255 && ip.d=255

/-- The addresses of version 4 in `is_global_hardcoded`. -/
def isGlobal : Bool :=
  !(ip.a=0
    || ip.isPrivate
    || (ip.a=100 && ip.b &&& 0b11000000=0b01000000)
    || ip.isLoopback
    || ip.isLinkLocal
    || (ip.a=192 && ip.b=0 && ip.c=0 && ip.d≠9 && ip.d≠10)
    || ip.isDocumentation
    || (ip.a=198 && ip.b &&& 0xfe=18)
    || (ip.a &&& 240=240 && !ip.isBroadcast)
    || ip.isBroadcast)

/-- `Display`: four numbers. -/
def text : Text := u8Text ip.a++ '.'::u8Text ip.b++ '.'::u8Text ip.c++ '.'::u8Text ip.d

end Ipv4Addr

namespace Ipv6Addr

variable (ip : Ipv6Addr)

/-- `segments`. -/
def segments : List UInt16 := [ip.a,ip.b,ip.c,ip.d,ip.e,ip.f,ip.g,ip.h]

/-- `::ffff:0:0/96`, where addresses of version 4 are mapped to. -/
def isMapped : Bool := ip.a=0 && ip.b=0 && ip.c=0 && ip.d=0 && ip.e=0 && ip.f=0xffff

/-- The exceptions among the protocol assignments. -/
def isAssigned : Bool :=
  ip.segments=[0x2001,1,0,0,0,0,0,1]
    || ip.segments=[0x2001,1,0,0,0,0,0,2]
    || (ip.a=0x2001 && ip.b=3)
    || (ip.a=0x2001 && ip.b=4 && ip.c=0x112)
    || (ip.a=0x2001 && 0x20≤ ip.b && ip.b≤0x3F)

/-- The addresses of version 6 in `is_global_hardcoded`. -/
def isGlobal : Bool :=
  !(ip.segments=[0,0,0,0,0,0,0,0]
    || ip.segments=[0,0,0,0,0,0,0,1]
    || ip.isMapped
    || (ip.a=0x64 && ip.b=0xff9b && ip.c=1)
    || (ip.a=0x100 && ip.b=0 && ip.c=0 && ip.d=0)
    || (ip.a=0x2001 && ip.b<0x200 && !ip.isAssigned)
    || ip.a=0x2002
    || (ip.a=0x2001 && ip.b=0xdb8) || (ip.a=0x3fff && ip.b≤0x0fff)
    || ip.a=0x5f00
    || ip.a &&& 0xfe00=0xfc00
    || ip.a &&& 0xffc0=0xfe80)

/-- A run of zero segments. -/
structure Span where
  /-- Where it starts. -/
  start : ℕ
  /-- How long it is. -/
  len : ℕ

/-- The longest run of zeros, the first of several. -/
def longestZeros (segments : List UInt16) : Span :=
  (segments.zipIdx.foldl (fun (longest,current) (segment,i) =>
    if segment=0 then
      let current : Span := ⟨if current.len=0 then i else current.start,current.len+1⟩
      (if longest.len<current.len then current else longest,current)
    else (longest,(⟨0,0⟩ : Span))) ((⟨0,0⟩ : Span),(⟨0,0⟩ : Span))).1

/-- `fmt_subslice`: hexadecimal numbers between colons. -/
def subslice (segments : List UInt16) : Text :=
  List.intercalate [':'] (segments.map fun segment => Nat.toDigits 16 segment.toNat)

/-- `Display`. The longest run of zeros is left out, unless it is a single one. -/
def text : Text :=
  if ip.isMapped then
    "::ffff:".toList++Ipv4Addr.text ⟨(ip.g>>>8).toUInt8,ip.g.toUInt8,(ip.h>>>8).toUInt8,ip.h.toUInt8⟩
  else
    let zeros := longestZeros ip.segments
    if 1<zeros.len then
      subslice (ip.segments.take zeros.start)++"::".toList++subslice (ip.segments.drop (zeros.start+zeros.len))
    else subslice ip.segments

end Ipv6Addr

/-- `is_global`. -/
def isGlobal : IpAddr → Bool
  | .v4 ip => ip.isGlobal
  | .v6 ip => ip.isGlobal

/-- `IpAddr::to_string`. -/
def ipText : IpAddr → Text
  | .v4 ip => ip.text
  | .v6 ip => ip.text

example : ipText (.v6 ⟨0xfe80,0,0,1,0,0,0,0xa⟩)="fe80:0:0:1::a".toList := by decide

/-- No private, loopback, link-local or broadcast address is global. -/
theorem isGlobal_v4_private {ip : Ipv4Addr} (h : isGlobal (.v4 ip)=true) :
    ip.isPrivate=false ∧ ip.isLoopback=false ∧ ip.isLinkLocal=false ∧ ip.isBroadcast=false := by
  simp only [isGlobal,Ipv4Addr.isGlobal,Bool.not_eq_true',Bool.or_eq_false_iff] at h
  obtain ⟨⟨⟨⟨⟨⟨⟨⟨⟨-,hprivate⟩,-⟩,hloopback⟩,hlink⟩,-⟩,-⟩,-⟩,-⟩,hbroadcast⟩ := h
  exact ⟨hprivate,hloopback,hlink,hbroadcast⟩

end NadSafe.IpAddresses
