import MeshNetwork.Ipv4

set_option autoImplicit false

namespace MeshNetwork

inductive AddrParseError where
  | ipv4
  deriving DecidableEq

theorem isDigit_toDigits {n : Nat} {c : Char} (h : c ∈ Nat.toDigits 10 n) : c.isDigit = true :=
  Nat.isDigit_of_mem_toDigits (by omega) (by omega) h

theorem toDigits_injective {m n : Nat} (h : Nat.toDigits 10 m = Nat.toDigits 10 n) : m = n := by
  rw [← Nat.ofDigitChars_ten_toDigits (n := m),h,Nat.ofDigitChars_ten_toDigits]

theorem head_toDigits {n : Nat} (hn : 0 < n) : (Nat.toDigits 10 n).head? ≠ some '0' := by
  induction n using Nat.strongRecOn with
  | ind n ih =>
    by_cases hlt : n < 10
    · have hchar : ∀ k < 10, 0 < k → Nat.digitChar k ≠ '0' := by decide
      rw [Nat.toDigits_of_lt_base hlt,List.head?_cons,ne_eq,Option.some.injEq]
      exact hchar n hlt hn
    · rw [Nat.toDigits_of_base_le (by omega) (by omega),List.head?_append_of_ne_nil _
        Nat.toDigits_ne_nil]
      exact ih (n / 10) (by omega) (by omega)

namespace Ipv4Addr

def readOctet (digits : List Char) : Option UInt8 :=
  if digits ≠ [] ∧ digits.length ≤ 3 ∧ digits.all Char.isDigit ∧
      (digits.head? = some '0' → digits.length = 1) ∧ Nat.ofDigitChars 10 digits 0 ≤ 255 then
    some (UInt8.ofNat (Nat.ofDigitChars 10 digits 0))
  else none

def fromStr (s : String) : Except AddrParseError Ipv4Addr :=
  match (s.toList.splitOn '.').map readOctet with
  | [some a,some b,some c,some d] => .ok ⟨a,b,c,d⟩
  | _ => .error .ipv4

theorem readOctet_toDigits (n : Nat) :
    readOctet (Nat.toDigits 10 n) = if n ≤ 255 then some (UInt8.ofNat n) else none := by
  unfold readOctet
  rw [Nat.ofDigitChars_ten_toDigits]
  by_cases hn : n ≤ 255
  · rw [if_pos hn,if_pos]
    refine ⟨Nat.toDigits_ne_nil,?_,?_,fun h0 => ?_,hn⟩
    · exact (Nat.length_toDigits_le_iff (by omega) (by omega)).mpr (by omega)
    · exact List.all_eq_true.mpr fun c hc => isDigit_toDigits hc
    · have hz : n = 0 := by
        by_contra hne
        exact head_toDigits (by omega) h0
      rw [hz]
      rfl
  · rw [if_neg hn,if_neg]
    rintro ⟨-,-,-,-,hle⟩
    exact hn hle

theorem fromStr_dotted {s : String} {a b c d : List Char}
    (h : s.toList = ['.'].intercalate [a,b,c,d]) (ha : '.' ∉ a) (hb : '.' ∉ b) (hc : '.' ∉ c)
    (hd : '.' ∉ d) :
    fromStr s = match [readOctet a,readOctet b,readOctet c,readOctet d] with
      | [some a,some b,some c,some d] => .ok ⟨a,b,c,d⟩
      | _ => .error .ipv4 := by
  unfold fromStr
  rw [h,List.splitOn_intercalate]
  · rfl
  · simpa using ⟨ha,hb,hc,hd⟩
  · simp

def and (x y : Ipv4Addr) : Ipv4Addr := ⟨x.a &&& y.a,x.b &&& y.b,x.c &&& y.c,x.d &&& y.d⟩

end Ipv4Addr
end MeshNetwork
