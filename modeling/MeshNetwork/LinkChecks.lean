import MeshNetwork.CoreInvariant

set_option autoImplicit false

namespace MeshNetwork
open Ipv4Packet

section Emission
variable {K B : Type} [DecidableEq K] [Buf B] {ipv4Addr : Ipv4Addr} {routeTable : RouteTable K}
variable {maxPacketSize : Nat} {core next : VpnCore K B}

omit [DecidableEq K] [Buf B] in
theorem PeerState.mem_actions {k pk : K} {s : PeerState B} {input : Signal B} {p : B}
    (h : Action.sendPacketTo p pk ∈ s.actions k input) :
    pk = k ∧ (p ∈ s.packetQueue ∨ input = .arrived p) := by
  cases input with
  | opened =>
    simp only [PeerState.actions] at h
    split at h
    · simp at h
    · obtain ⟨q,hq,heq⟩ := List.mem_map.mp h
      simp only [Action.sendPacketTo.injEq] at heq
      obtain ⟨rfl,rfl⟩ := heq
      exact ⟨rfl,.inl hq⟩
  | closed =>
    simp only [PeerState.actions] at h
    split at h <;> simp at h
  | arrived q =>
    simp only [PeerState.actions] at h
    split at h
    · simp only [List.mem_singleton,Action.sendPacketTo.injEq] at h
      obtain ⟨rfl,rfl⟩ := h
      exact ⟨rfl,.inr rfl⟩
    · split at h <;> simp at h

omit [DecidableEq K] in
theorem VpnCore.reply_ne_send [DecidableEq K] (core : VpnCore K B) (ev : Event K B) (p : B)
    (pk : K) : core.reply ev ≠ .sendPacketTo p pk := by
  cases ev <;> unfold VpnCore.reply <;> repeat' split
  all_goals simp

theorem CoreInvariant.emitted (h : CoreInvariant ipv4Addr routeTable maxPacketSize core)
    {ev : Event K B} {actions : List (Action K B)} (hp : core.process ev = some (next,actions))
    {p : B} {pk : K} (hmem : Action.sendPacketTo p pk ∈ actions) :
    core.SendOk p ∧ core.routeTable.lookup (header p).destIp = some pk := by
  cases ht : core.target ev with
  | none =>
    rw [VpnCore.process_reply ht] at hp
    simp only [Option.some.injEq,Prod.mk.injEq] at hp
    obtain ⟨rfl,rfl⟩ := hp
    simp only [List.mem_singleton] at hmem
    exact absurd hmem.symm (core.reply_ne_send ev p pk)
  | some r =>
    obtain ⟨k,input⟩ := r
    obtain ⟨s,hs⟩ := h.target_known ht
    rw [VpnCore.process_target ht hs] at hp
    simp only [Option.some.injEq,Prod.mk.injEq] at hp
    obtain ⟨rfl,rfl⟩ := hp
    obtain ⟨rfl,hq | rfl⟩ := PeerState.mem_actions hmem
    · obtain ⟨ip,hv,hr⟩ := h.queued pk s hs p hq
      obtain ⟨hok,rfl⟩ := VpnCore.verifySendPacket_ok.mp hv
      exact ⟨hok,hr⟩
    · exact VpnCore.acceptedFor_eq_some.mp (target_packet ht).2

theorem CoreInvariant.run_actions (h : CoreInvariant ipv4Addr routeTable maxPacketSize core)
    {evs : List (Event K B)} {outs : List (List (Action K B))}
    (hrun : core.run evs = some (next,outs)) {actions : List (Action K B)}
    (hact : actions ∈ outs) : ∃ mid ev last, mid.process ev = some (last,actions) ∧
      CoreInvariant ipv4Addr routeTable maxPacketSize mid := by
  induction evs generalizing core outs with
  | nil =>
    simp only [VpnCore.run,Option.some.injEq,Prod.mk.injEq] at hrun
    obtain ⟨-,rfl⟩ := hrun
    simp at hact
  | cons ev evs ih =>
    obtain ⟨mid,first,hp,hmid,-⟩ := h.process ev
    obtain ⟨last,rest,hr,-⟩ := hmid.run evs
    simp only [VpnCore.run,hp,hr,Option.bind_eq_bind,Option.bind_some,Option.pure_def,
      Option.some.injEq,Prod.mk.injEq] at hrun
    obtain ⟨rfl,rfl⟩ := hrun
    rcases List.mem_cons.mp hact with rfl | hrest
    · exact ⟨core,ev,mid,hp,h⟩
    · exact ih hmid hr hrest

theorem CoreInvariant.emitted_run (h : CoreInvariant ipv4Addr routeTable maxPacketSize core)
    {evs : List (Event K B)} {outs : List (List (Action K B))}
    (hrun : core.run evs = some (next,outs)) {actions : List (Action K B)}
    (hact : actions ∈ outs) {p : B} {pk : K} (hmem : Action.sendPacketTo p pk ∈ actions) :
    core.SendOk p ∧ core.routeTable.lookup (header p).destIp = some pk := by
  obtain ⟨mid,ev,last,hp,hmid⟩ := h.run_actions hrun hact
  obtain ⟨hok,hroute⟩ := hmid.emitted hp hmem
  have haddr : mid.ipv4Addr = core.ipv4Addr := hmid.addr.trans h.addr.symm
  have hroutes : mid.routeTable = core.routeTable := hmid.routes.trans h.routes.symm
  have hsize : mid.maxPacketSize = core.maxPacketSize := hmid.size.trans h.size.symm
  refine ⟨⟨hok.long,hok.version,?_,hok.total,hok.ttl,?_,?_⟩,?_⟩
  · rw [← hsize]
    exact hok.size
  · rw [← haddr]
    exact hok.src
  · rw [← hroutes]
    exact hok.dest
  · rw [← hroutes]
    exact hroute

theorem CoreInvariant.run_eq (h : CoreInvariant ipv4Addr routeTable maxPacketSize core)
    {evs : List (Event K B)} {outs : List (List (Action K B))}
    (hrun : core.run evs = some (next,outs)) :
    CoreInvariant ipv4Addr routeTable maxPacketSize next := by
  obtain ⟨last,outs',hr,hl⟩ := h.run evs
  rw [hr] at hrun
  simp only [Option.some.injEq,Prod.mk.injEq] at hrun
  obtain ⟨rfl,-⟩ := hrun
  exact hl

end Emission

section Link
variable {K B : Type} [DecidableEq K] [Buf B]

/-- A packet the one end of a link emits for the other passes all its checks,
whatever has happened at both ends. -/
theorem emitted_packet_is_written (maxPacketSize : Nat) {addrA addrB : Ipv4Addr}
    {routesA routesB : RouteTable K} {keyA keyB : K}
    (toA : routesB.lookup addrA = some keyA)
    {evsA evsB : List (Event K B)} {coreA coreB : VpnCore K B}
    {outsA outsB : List (List (Action K B))}
    (runA : (VpnCore.new addrA routesA maxPacketSize).run evsA = some (coreA,outsA))
    (runB : (VpnCore.new addrB routesB maxPacketSize).run evsB = some (coreB,outsB))
    {actions : List (Action K B)} (hact : actions ∈ outsA) {packet : B}
    (hmem : Action.sendPacketTo packet keyB ∈ actions)
    (hdest : (header packet).destIp = addrB) :
    coreB.process (.packetFromIroh packet keyA) = some (coreB,[.writeToTun packet]) := by
  obtain ⟨hok,-⟩ := (VpnCore.new_invariant addrA routesA maxPacketSize).emitted_run runA hact hmem
  have hB := (VpnCore.new_invariant addrB routesB maxPacketSize).run_eq runB
  have hrecv : coreB.RecvOk packet keyA := by
    refine ⟨hok.long,hok.version,?_,hok.total,?_,?_⟩
    · rw [hB.size]
      exact hok.size
    · rw [hok.src,hB.routes]
      exact toA
    · rw [hB.addr]
      exact hdest
  rw [VpnCore.process_reply (by rfl),VpnCore.reply,VpnCore.verifyRecvPacket_ok.mpr hrecv]

/-- A packet buffered for a peer that connects later is written on the other side. -/
theorem flushed_ping_is_written :
    let ping : List UInt8 := [0x45,0,0,20,0,0,0,0,64,0,0,0,10,67,1,1,10,67,1,2]
    let coreB : VpnCore Nat (List UInt8) :=
      .new ⟨10,67,1,2⟩ (AList.insert ⟨10,67,1,1⟩ 1 ∅) 1100
    coreB.process (.packetFromIroh ping 1) = some (coreB,[.writeToTun ping]) :=
  @emitted_packet_is_written Nat (List UInt8) _ _ 1100 ⟨10,67,1,1⟩ ⟨10,67,1,2⟩
    (AList.insert ⟨10,67,1,2⟩ 2 ∅) (AList.insert ⟨10,67,1,1⟩ 1 ∅) 1 2 rfl
    [.packetFromTun [0x45,0,0,20,0,0,0,0,64,0,0,0,10,67,1,1,10,67,1,2],.peerConnected 2]
    [] _ _ _ _ rfl rfl
    [.sendPacketTo [0x45,0,0,20,0,0,0,0,64,0,0,0,10,67,1,1,10,67,1,2] 2] (by decide)
    _ (by decide) (by decide)

end Link
end MeshNetwork
