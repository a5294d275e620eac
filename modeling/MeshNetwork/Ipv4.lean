import Mathlib.Data.List.Basic

set_option autoImplicit false

namespace MeshNetwork

structure Ipv4Addr where
  a : UInt8
  b : UInt8
  c : UInt8
  d : UInt8
  deriving DecidableEq, Repr

/-- A buffer of the `bytes` crate: the program only reads its contents. -/
class Buf (B : Type) where
  bytes : B → List UInt8

instance : Buf (List UInt8) := ⟨id⟩

def len {B : Type} [Buf B] (packet : B) : Nat := (Buf.bytes packet).length

/-- `packet[i]`, which panics (`none`) out of bounds. -/
def index {B : Type} [Buf B] (packet : B) (i : Nat) : Option UInt8 := (Buf.bytes packet)[i]?

structure Ipv4Packet where
  packetLength : Nat
  totalLength : Nat
  ttl : UInt8
  srcIp : Ipv4Addr
  destIp : Ipv4Addr
  deriving DecidableEq, Repr

inductive ParseError where
  | tooSmallPacket
  | incorrectIpVersion
  deriving DecidableEq, Repr

namespace Ipv4Packet
variable {B : Type} [Buf B]

def new (packet : B) : Option (Except ParseError Ipv4Packet) :=
  if len packet < 20 then some (.error .tooSmallPacket)
  else do
    let ipVersion := (← index packet 0) >>> 4
    if ipVersion ≠ 4 then return .error .incorrectIpVersion
    let totalLength := (← index packet 2).toNat <<< 8 ||| (← index packet 3).toNat
    let ttl ← index packet 8
    let srcIp := ⟨← index packet 12,← index packet 13,← index packet 14,← index packet 15⟩
    let destIp := ⟨← index packet 16,← index packet 17,← index packet 18,← index packet 19⟩
    return .ok { packetLength := len packet, totalLength, ttl, srcIp, destIp }

def byte (packet : B) (i : Nat) : UInt8 := (Buf.bytes packet).getD i 0

def header (packet : B) : Ipv4Packet where
  packetLength := len packet
  totalLength := (byte packet 2).toNat <<< 8 ||| (byte packet 3).toNat
  ttl := byte packet 8
  srcIp := ⟨byte packet 12,byte packet 13,byte packet 14,byte packet 15⟩
  destIp := ⟨byte packet 16,byte packet 17,byte packet 18,byte packet 19⟩

def parse (packet : B) : Except ParseError Ipv4Packet :=
  if len packet < 20 then .error .tooSmallPacket
  else if byte packet 0 >>> 4 ≠ 4 then .error .incorrectIpVersion
  else .ok (header packet)

theorem index_of_lt (packet : B) {i : Nat} (h : i < len packet) :
    index packet i = some (byte packet i) := by
  simp only [index,byte,List.getD_eq_getElem?_getD]
  rw [List.getElem?_eq_getElem h]
  rfl

theorem new_eq_parse (packet : B) : new packet = some (parse packet) := by
  unfold new parse
  by_cases h : len packet < 20
  · simp [h]
  · have hi : ∀ i, i < 20 → index packet i = some (byte packet i) := fun i hlt =>
      index_of_lt packet (by omega)
    simp only [h,if_false,hi 0 (by omega),hi 2 (by omega),hi 3 (by omega),hi 8 (by omega),
      hi 12 (by omega),hi 13 (by omega),hi 14 (by omega),hi 15 (by omega),hi 16 (by omega),
      hi 17 (by omega),hi 18 (by omega),hi 19 (by omega)]
    by_cases hv : byte packet 0 >>> 4 = 4 <;> simp [hv,header]

theorem parse_ok {packet : B} {p : Ipv4Packet} (h : parse packet = .ok p) :
    20 ≤ len packet ∧ byte packet 0 >>> 4 = 4 ∧ p = header packet := by
  unfold parse at h
  split at h
  · simp at h
  · rename_i hlen
    split at h
    · simp at h
    · rename_i hv
      simp only [Except.ok.injEq] at h
      exact ⟨by omega,by simpa using hv,h.symm⟩

end Ipv4Packet
end MeshNetwork
