import MeshNetwork.Ipv4
import MeshNetwork.Manager
import MeshNetwork.NetworkRuns

/-!
What the transport guarantees: the remote key of a connection is authenticated, and a
connection delivers what its remote end has sent, perhaps late, twice or not at all.
-/

set_option autoImplicit false

namespace MeshNetwork
open Runs

variable {K B : Type}

def otherEnd (k : K) (conn : Connection K) : Connection K :=
  ⟨conn.serial,k,!conn.outgoing⟩

variable [DecidableEq K]

def sentOn (tr : List (K × Obs K B)) (k : K) (conn : Connection K) : List B :=
  tr.filterMap fun x =>
    match x.2 with
    | .sent c packet => if x.1 = k ∧ c = conn then some packet else none
    | _ => none

theorem mem_sentOn {tr : List (K × Obs K B)} {k : K} {conn : Connection K} {packet : B}
    (h : packet ∈ sentOn tr k conn) : (k,.sent conn packet) ∈ tr := by
  simp only [sentOn,List.mem_filterMap] at h
  obtain ⟨⟨j,o⟩,hmem,ho⟩ := h
  cases o with
  | sent c p =>
    simp only [Option.ite_none_right_eq_some,Option.some.injEq] at ho
    obtain ⟨⟨rfl,rfl⟩,rfl⟩ := ho
    exact hmem
  | _ => simp at ho

/-- What the transport lets `k` observe next, after `tr`. Nothing is assumed about a
remote end that is not honest. -/
def transportAllows [Buf B] (honest : K → Prop) (tr : List (K × Obs K B)) (k : K) :
    Obs K B → Prop
  | .attempted pubKey serial => (k,.attempted pubKey serial) ∉ tr
  | .dialed conn => (k,.attempted conn.remoteId conn.serial) ∈ tr ∧ (k,.dialed conn) ∉ tr
  | .accepted conn => (k,.accepted conn) ∉ tr ∧
      (honest conn.remoteId → (conn.remoteId,.attempted k conn.serial) ∈ tr)
  | .received conn packet => honest conn.remoteId →
      ∃ p ∈ sentOn tr conn.remoteId (otherEnd k conn), Buf.bytes p = Buf.bytes packet
  | _ => True

instance [Buf B] [DecidableEq B] (honest : K → Prop) [DecidablePred honest]
    (tr : List (K × Obs K B)) (k : K) (o : Obs K B) :
    Decidable (transportAllows honest tr k o) := by
  cases o <;> simp only [transportAllows] <;> infer_instance

end MeshNetwork
