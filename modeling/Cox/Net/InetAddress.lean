import Mathlib.Data.List.SplitOn
import Cox.Lib.Bytes

/-!
# Socket addresses

`InetAddress` of net/inet_address.h: an IPv4, an IPv6 or a Unix-domain address, told apart by
its family. Ports are in host order. The texts of addresses are written and read by
`inet_ntop` and `inet_pton`, of which only the round trip is used.
-/
namespace Cox.Net

open Cox.Lib

structure SockaddrIn where
  port : UInt16
  addr : Vector UInt8 4
  deriving DecidableEq

structure SockaddrIn6 where
  port : UInt16
  flowinfo : UInt32
  addr : Vector UInt8 16
  scopeId : UInt32
  deriving DecidableEq

inductive Family where
  | inet
  | inet6
  | unix
  deriving DecidableEq

inductive InetAddress where
  | inet (addr : SockaddrIn)
  | inet6 (addr : SockaddrIn6)
  | unix (path : Bytes)
  deriving DecidableEq

/-- `inet_ntop` and `inet_pton`, for both families. -/
structure IpText where
  ntop4 : Vector UInt8 4 → Bytes
  pton4 : Bytes → Option (Vector UInt8 4)
  ntop6 : Vector UInt8 16 → Bytes
  pton6 : Bytes → Option (Vector UInt8 16)
  pton4_ntop4 : ∀ addr, pton4 (ntop4 addr) = some addr
  pton6_ntop6 : ∀ addr, pton6 (ntop6 addr) = some addr

namespace InetAddress

def family : InetAddress → Family
  | .inet _ => .inet
  | .inet6 _ => .inet6
  | .unix _ => .unix

def isIpv6 (a : InetAddress) : Bool := a.family == .inet6

def isUnix (a : InetAddress) : Bool := a.family == .unix

def ofPort (port : UInt16) (loopbackOnly ipv6 : Bool) : InetAddress :=
  if ipv6 then
    .inet6 ⟨port, 0, (Vector.replicate 15 0).push (if loopbackOnly then 1 else 0), 0⟩
  else .inet ⟨port, if loopbackOnly then #v[127, 0, 0, 1] else #v[0, 0, 0, 0]⟩

/-- The constructor from a text and a port, which throws if the text is no address. The rest of
the structure is zero. -/
def ofIp (form : IpText) (ip : Bytes) (port : UInt16) (ipv6 : Bool) : Option InetAddress :=
  if ipv6 then (form.pton6 ip).map fun addr => .inet6 ⟨port, 0, addr, 0⟩
  else (form.pton4 ip).map fun addr => .inet ⟨port, addr⟩

def toIp (form : IpText) : InetAddress → Bytes
  | .inet a => form.ntop4 a.addr
  | .inet6 a => form.ntop6 a.addr
  | .unix _ => []

/-- What `connect` reads of an IP address: the family, the bytes of the address, the port, and
the scope of an IPv6 address. -/
structure Target where
  family : Family
  addr : Bytes
  port : UInt16
  scopeId : UInt32
  deriving DecidableEq

def target : InetAddress → Target
  | .inet a => ⟨.inet, a.addr.toList, a.port, 0⟩
  | .inet6 a => ⟨.inet6, a.addr.toList, a.port, a.scopeId⟩
  | .unix path => ⟨.unix, path, 0, 0⟩

end InetAddress

namespace IpText

def address (n : Nat) (bytes : Bytes) : Option (Vector UInt8 n) :=
  if size : bytes.toArray.size = n then some ⟨bytes.toArray, size⟩ else none

theorem address_toList {n : Nat} (addr : Vector UInt8 n) : address n addr.toList = some addr := by
  simp [address, Vector.toList]

open List

def joined (base : Nat) (sep : UInt8) (numbers : List Nat) : Bytes :=
  [sep].intercalate (numbers.map (numeral base))

def numbers (base : Nat) (sep : UInt8) (s : Bytes) : List Nat :=
  (s.splitOn sep).map (readDigits base 0)

def pairs : Bytes → List Nat
  | high :: low :: rest => (high.toNat * 256 + low.toNat) :: pairs rest
  | [_] | [] => []

def unpaired (numbers : List Nat) : Bytes :=
  numbers.flatMap fun n => [UInt8.ofNat (n / 256), UInt8.ofNat n]

theorem numbers_joined (base : Nat) (sep : UInt8) (low : 1 < base) (high : base < 17)
    (other : ∀ d < base, sep ≠ digitByte d) (ns : List Nat) (nonempty : ns ≠ []) :
    numbers base sep (joined base sep ns) = ns := by
  have apart : ∀ piece ∈ ns.map (numeral base), sep ∉ piece := by
    refine forall_mem_map.mpr fun n _ inside => ?_
    obtain ⟨d, small, same⟩ := mem_numeral base n low high sep inside
    exact other d small same
  rw [numbers, joined, splitOn_intercalate _ apart (by simpa using nonempty), map_map]
  exact map_id'' (fun n => readDigits_numeral base n low high) ns

theorem unpaired_pairs (bytes : Bytes) (even : 2 ∣ bytes.length) : unpaired (pairs bytes) = bytes := by
  induction bytes using pairs.induct with
  | case1 high low rest ih =>
    have here : UInt8.ofNat ((high.toNat * 256 + low.toNat) / 256) = high ∧
        UInt8.ofNat (high.toNat * 256 + low.toNat) = low := by
      have small := low.toNat_lt
      constructor
      · rw [show (high.toNat * 256 + low.toNat) / 256 = high.toNat by omega, UInt8.ofNat_toNat]
      · apply UInt8.toNat_inj.mp
        rw [UInt8.toNat_ofNat']
        omega
    rw [pairs, unpaired, flatMap_cons, here.1, here.2]
    exact congrArg (high :: low :: ·) (ih (by simp only [length_cons] at even; omega))
  | case2 => simp at even
  | case3 => rfl

/-- Four numbers with dots between them, or eight in hexadecimal with colons, none left out. -/
def plain : IpText where
  ntop4 addr := joined 10 46 (addr.toList.map (·.toNat))
  pton4 ip := address 4 ((numbers 10 46 ip).map UInt8.ofNat)
  ntop6 addr := joined 16 58 (pairs addr.toList)
  pton6 ip := address 16 (unpaired (numbers 16 58 ip))
  pton4_ntop4 addr := by
    have same : (addr.toList.map (·.toNat)).map UInt8.ofNat = addr.toList := by
      rw [map_map]
      exact map_id'' (fun _ => UInt8.ofNat_toNat) _
    rw [numbers_joined 10 46 (by decide) (by decide) (by decide) _ (by simp), same, address_toList]
  pton6_ntop6 addr := by
    have back := unpaired_pairs addr.toList (by simp)
    have some : pairs addr.toList ≠ [] := fun none => by
      have length := congrArg length back
      simp [none, unpaired] at length
    rw [numbers_joined 16 58 (by decide) (by decide) (by decide) _ some, back, address_toList]

end IpText

end Cox.Net
