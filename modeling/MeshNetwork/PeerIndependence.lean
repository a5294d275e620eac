import MeshNetwork.CoreWindow
import MeshNetwork.Unwinding

set_option autoImplicit false

namespace MeshNetwork
open Unwinding

/-- The event is about `pk`: its connection, a packet to it that `verify_send_packet`
lets through, or a packet from it. -/
def VpnCore.concerns {K B : Type} [DecidableEq K] [Buf B] (self : VpnCore K B) (pk : K) :
    Event K B → Bool
  | .peerConnected k => k = pk
  | .peerDisconnected k => k = pk
  | .packetFromTun p => self.acceptedFor p = some pk
  | .packetFromIroh _ source => source = pk

section Peers
variable {K B : Type} [DecidableEq K] [Buf B]

theorem VpnCore.run_eq_run (self : VpnCore K B) (evs : List (Event K B)) :
    self.run evs = Unwinding.run VpnCore.process self evs := by
  induction evs generalizing self with
  | nil => rfl
  | cons ev evs ih => simp only [VpnCore.run,Unwinding.run,ih]

theorem VpnCore.target_of_concerns {self : VpnCore K B} {pk k : K} {ev : Event K B} {x : Signal B}
    (ht : self.target ev = some (k,x)) : self.concerns pk ev = true ↔ k = pk := by
  cases ev with
  | peerConnected key =>
    simp only [target,Option.ite_none_right_eq_some,Option.some.injEq,Prod.mk.injEq] at ht
    simp [concerns,ht.2.1]
  | peerDisconnected key =>
    simp only [target,Option.ite_none_right_eq_some,Option.some.injEq,Prod.mk.injEq] at ht
    simp [concerns,ht.2.1]
  | packetFromTun p =>
    simp only [target,Option.map_eq_some_iff,Prod.mk.injEq] at ht
    obtain ⟨key,hacc,rfl,-⟩ := ht
    simp [concerns,hacc]
  | packetFromIroh p source => simp [target] at ht

theorem VpnCore.reply_congr {core core' : VpnCore K B} (ha : core.ipv4Addr = core'.ipv4Addr)
    (hr : core.routeTable = core'.routeTable) (hm : core.maxPacketSize = core'.maxPacketSize)
    (ev : Event K B) : core.reply ev = core'.reply ev := by
  obtain ⟨size,addr,peers,routes⟩ := core
  obtain ⟨size',addr',peers',routes'⟩ := core'
  simp only at ha hr hm
  subst ha hr hm
  cases ev <;> rfl

variable {ipv4Addr : Ipv4Addr} {routeTable : RouteTable K} {maxPacketSize : Nat}
variable {core core' next : VpnCore K B}

theorem CoreInvariant.reply_new (h : CoreInvariant ipv4Addr routeTable maxPacketSize core)
    (ev : Event K B) :
    core.reply ev = (VpnCore.new ipv4Addr routeTable maxPacketSize).reply ev :=
  VpnCore.reply_congr h.addr h.routes h.size ev

theorem CoreInvariant.process_reply (h : CoreInvariant ipv4Addr routeTable maxPacketSize core)
    {ev : Event K B} (ht : (VpnCore.new ipv4Addr routeTable maxPacketSize).target ev = none) :
    core.process ev =
      some (core,[(VpnCore.new ipv4Addr routeTable maxPacketSize).reply ev]) := by
  rw [← h.target_new ev] at ht
  rw [← h.reply_new ev]
  exact VpnCore.process_reply ht

theorem CoreInvariant.process_target (h : CoreInvariant ipv4Addr routeTable maxPacketSize core)
    {ev : Event K B} {k : K} {x : Signal B}
    (ht : (VpnCore.new ipv4Addr routeTable maxPacketSize).target ev = some (k,x)) :
    ∃ s, core.peers.lookup k = some s ∧
      core.process ev = some (core.setPeer k (s.step x),s.actions k x) := by
  rw [← h.target_new ev] at ht
  obtain ⟨s,hs⟩ := h.target_known ht
  exact ⟨s,hs,VpnCore.process_target ht hs⟩

structure SamePeer (ipv4Addr : Ipv4Addr) (routeTable : RouteTable K) (maxPacketSize : Nat) (pk : K)
    (core core' : VpnCore K B) : Prop where
  left : CoreInvariant ipv4Addr routeTable maxPacketSize core
  right : CoreInvariant ipv4Addr routeTable maxPacketSize core'
  peer : core.peers.lookup pk = core'.peers.lookup pk

theorem CoreInvariant.process_eq (h : CoreInvariant ipv4Addr routeTable maxPacketSize core)
    {ev : Event K B} {actions : List (Action K B)} (hp : core.process ev = some (next,actions)) :
    CoreInvariant ipv4Addr routeTable maxPacketSize next := by
  obtain ⟨next',actions',hp',hn,-⟩ := h.process ev
  rw [hp',Option.some.injEq,Prod.mk.injEq] at hp
  rw [← hp.1]
  exact hn

theorem samePeer_unwinds (ipv4Addr : Ipv4Addr) (routeTable : RouteTable K) (maxPacketSize : Nat)
    (pk : K) : Unwinds (VpnCore.process (K := K) (B := B))
      ((VpnCore.new ipv4Addr routeTable maxPacketSize).concerns pk)
      (SamePeer ipv4Addr routeTable maxPacketSize pk) where
  symm core core' h := ⟨h.right,h.left,h.peer.symm⟩
  trans core core' core'' h h' := ⟨h.left,h'.right,h.peer.trans h'.peer⟩
  total core core' ev h := by
    obtain ⟨next,actions,hp,-⟩ := h.left.process ev
    exact ⟨next,actions,hp⟩
  hidden core core' ev next actions h hcon hp := by
    refine ⟨h.left.process_eq hp,h.right,?_⟩
    cases ht : (VpnCore.new ipv4Addr routeTable maxPacketSize).target ev with
    | none =>
      rw [h.left.process_reply ht,Option.some.injEq,Prod.mk.injEq] at hp
      rw [← hp.1]
      exact h.peer
    | some r =>
      obtain ⟨k,x⟩ := r
      obtain ⟨s,-,heq⟩ := h.left.process_target ht
      rw [heq,Option.some.injEq,Prod.mk.injEq] at hp
      have hne : pk ≠ k := by
        rintro rfl
        rw [(VpnCore.target_of_concerns ht).mpr rfl] at hcon
        simp at hcon
      rw [← hp.1,core.setPeer_lookup_ne _ hne]
      exact h.peer
  shared core core' ev next next' actions actions' h hcon hp hp' := by
    have hn := h.left.process_eq hp
    have hn' := h.right.process_eq hp'
    cases ht : (VpnCore.new ipv4Addr routeTable maxPacketSize).target ev with
    | none =>
      rw [h.left.process_reply ht,Option.some.injEq,Prod.mk.injEq] at hp
      rw [h.right.process_reply ht,Option.some.injEq,Prod.mk.injEq] at hp'
      obtain ⟨rfl,rfl⟩ := hp
      obtain ⟨rfl,rfl⟩ := hp'
      exact ⟨h,rfl⟩
    | some r =>
      obtain ⟨k,x⟩ := r
      obtain rfl := (VpnCore.target_of_concerns ht).mp hcon
      obtain ⟨s,hs,heq⟩ := h.left.process_target ht
      obtain ⟨s',hs',heq'⟩ := h.right.process_target ht
      obtain rfl := Option.some.inj (hs.symm.trans (h.peer.trans hs'))
      rw [heq,Option.some.injEq,Prod.mk.injEq] at hp
      rw [heq',Option.some.injEq,Prod.mk.injEq] at hp'
      obtain ⟨rfl,rfl⟩ := hp
      obtain ⟨rfl,rfl⟩ := hp'
      exact ⟨⟨hn,hn',by simp⟩,rfl⟩

omit [Buf B] in
theorem VpnCore.setPeer_comm (self : VpnCore K B) {pk k : K} (s t : PeerState B) (h : pk ≠ k) :
    (self.setPeer pk s).setPeer k t = (self.setPeer k t).setPeer pk s := by
  simp only [setPeer]
  rw [Finmap.insert_insert_of_ne _ h]

omit [Buf B] in
theorem VpnCore.run_pair [Buf B] {mid last : VpnCore K B} {ev ev' : Event K B}
    {actions actions' : List (Action K B)} (hp : core.process ev = some (mid,actions))
    (hp' : mid.process ev' = some (last,actions')) :
    core.run [ev,ev'] = some (last,[actions,actions']) := by
  simp [VpnCore.run,hp,hp']

/-- An event about `pk` and one that is not about it can be processed in either order. -/
theorem CoreInvariant.commute (h : CoreInvariant ipv4Addr routeTable maxPacketSize core) {pk : K}
    {ev ev' : Event K B}
    (hev : (VpnCore.new ipv4Addr routeTable maxPacketSize).concerns pk ev = true)
    (hev' : (VpnCore.new ipv4Addr routeTable maxPacketSize).concerns pk ev' = false) :
    ∃ last actions actions', core.run [ev,ev'] = some (last,[actions,actions']) ∧
      core.run [ev',ev] = some (last,[actions',actions]) := by
  cases ht : (VpnCore.new ipv4Addr routeTable maxPacketSize).target ev with
  | none =>
    obtain ⟨next,actions',hp',hn,-⟩ := h.process ev'
    exact ⟨next,_,actions',VpnCore.run_pair (h.process_reply ht) hp',
      VpnCore.run_pair hp' (hn.process_reply ht)⟩
  | some r =>
    obtain ⟨k,x⟩ := r
    obtain ⟨s,hs,hp⟩ := h.process_target ht
    have hn := h.process_eq hp
    cases ht' : (VpnCore.new ipv4Addr routeTable maxPacketSize).target ev' with
    | none =>
      exact ⟨_,_,_,VpnCore.run_pair hp (hn.process_reply ht'),
        VpnCore.run_pair (h.process_reply ht') hp⟩
    | some r' =>
      obtain ⟨k',x'⟩ := r'
      obtain ⟨s',hs',hp'⟩ := h.process_target ht'
      obtain rfl := (VpnCore.target_of_concerns ht).mp hev
      have hne : k ≠ k' := by
        rintro rfl
        rw [(VpnCore.target_of_concerns ht').mpr rfl] at hev'
        simp at hev'
      obtain ⟨t',ht₂',hq'⟩ := hn.process_target ht'
      obtain ⟨t,ht₂,hq⟩ := (h.process_eq hp').process_target ht
      rw [core.setPeer_lookup_ne _ hne.symm,hs',Option.some.injEq] at ht₂'
      rw [core.setPeer_lookup_ne _ hne,hs,Option.some.injEq] at ht₂
      subst ht₂ ht₂'
      rw [core.setPeer_comm _ _ hne.symm] at hq
      exact ⟨_,_,_,VpnCore.run_pair hp hq',VpnCore.run_pair hp' hq⟩

/-- Two histories with the same events about `pk` leave `pk` in the same state and answer
these events alike; events about different peers commute. -/
theorem peers_do_not_interfere (ipv4Addr : Ipv4Addr) (routeTable : RouteTable K)
    (maxPacketSize : Nat) (pk : K) :
    let core₀ : VpnCore K B := .new ipv4Addr routeTable maxPacketSize
    (∀ evs evs', evs.filter (core₀.concerns pk) = evs'.filter (core₀.concerns pk) →
      ∃ core outs core' outs', core₀.run evs = some (core,outs) ∧
        core₀.run evs' = some (core',outs') ∧ core.peers.lookup pk = core'.peers.lookup pk ∧
        visible (core₀.concerns pk) evs outs = visible (core₀.concerns pk) evs' outs') ∧
    ∀ evs core outs, core₀.run evs = some (core,outs) → ∀ ev ev', core₀.concerns pk ev = true →
      core₀.concerns pk ev' = false → ∃ last actions actions',
        core.run [ev,ev'] = some (last,[actions,actions']) ∧
          core.run [ev',ev] = some (last,[actions',actions]) := by
  have h₀ := @VpnCore.new_invariant K B _ _ ipv4Addr routeTable maxPacketSize
  refine ⟨fun evs evs' hsame => ?_,fun evs core outs hrun ev ev' hev hev' => ?_⟩
  · obtain ⟨core,outs,hr,-⟩ := h₀.run evs
    obtain ⟨core',outs',hr',-⟩ := h₀.run evs'
    have hview := (samePeer_unwinds ipv4Addr routeTable maxPacketSize pk).two_runs
      ⟨h₀,h₀,rfl⟩ ((VpnCore.run_eq_run _ evs).symm.trans hr)
      ((VpnCore.run_eq_run _ evs').symm.trans hr') hsame
    exact ⟨core,outs,core',outs',hr,hr',hview.1.peer,hview.2⟩
  · exact (h₀.run_eq hrun).commute hev hev'

end Peers
end MeshNetwork
