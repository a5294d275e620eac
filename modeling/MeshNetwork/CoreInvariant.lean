import MeshNetwork.CoreTargets

set_option autoImplicit false

namespace MeshNetwork
open Ipv4Packet

/-- What holds of a core built from an address, a route table and a packet size
after any events. -/
structure CoreInvariant {K B : Type} [DecidableEq K] [Buf B] (ipv4Addr : Ipv4Addr)
    (routeTable : RouteTable K) (maxPacketSize : Nat) (core : VpnCore K B) : Prop where
  addr : core.ipv4Addr = ipv4Addr
  routes : core.routeTable = routeTable
  size : core.maxPacketSize = maxPacketSize
  keys : ∀ pk, pk ∈ core.peers ↔ ∃ ip, routeTable.lookup ip = some pk
  bounded : ∀ pk s, core.peers.lookup pk = some s → s.packetQueue.length ≤ maxPacketsInQueue
  drained : ∀ pk s, core.peers.lookup pk = some s → s.isConnected = true → s.packetQueue = []
  queued : ∀ pk s, core.peers.lookup pk = some s → ∀ p ∈ s.packetQueue,
    ∃ ip, core.verifySendPacket p = some (.ok ip) ∧ core.routeTable.lookup ip = some pk

namespace VpnCore
variable {K B : Type} [DecidableEq K]

theorem foldl_insert_lookup {V : Type} (v : V) (l : List (Sigma fun _ : Ipv4Addr => K))
    (m : Finmap fun _ : K => V) (pk : K) :
    (l.foldl (fun m e => m.insert e.2 v) m).lookup pk =
      if ∃ e ∈ l, e.2 = pk then some v else m.lookup pk := by
  induction l generalizing m with
  | nil => simp
  | cons e l ih =>
    rw [List.foldl_cons,ih]
    by_cases hl : ∃ e' ∈ l, e'.2 = pk
    · have hc : ∃ e' ∈ e :: l, e'.2 = pk := by
        obtain ⟨e',he',hk⟩ := hl
        exact ⟨e',List.mem_cons_of_mem _ he',hk⟩
      rw [if_pos hl,if_pos hc]
    · rw [if_neg hl]
      by_cases he : e.2 = pk
      · subst he
        rw [if_pos ⟨e,List.mem_cons_self,rfl⟩,Finmap.lookup_insert]
      · have hc : ¬ ∃ e' ∈ e :: l, e'.2 = pk := by
          rintro ⟨e',he',hk⟩
          rcases List.mem_cons.mp he' with rfl | hmem
          · exact he hk
          · exact hl ⟨e',hmem,hk⟩
        rw [if_neg hc,Finmap.lookup_insert_of_ne _ (Ne.symm he)]

omit [DecidableEq K] in
theorem exists_entry_iff (routeTable : RouteTable K) (pk : K) :
    (∃ e ∈ routeTable.entries, e.2 = pk) ↔ ∃ ip, routeTable.lookup ip = some pk := by
  constructor
  · rintro ⟨⟨ip,k⟩,he,rfl⟩
    exact ⟨ip,AList.mem_lookup_iff.mpr he⟩
  · rintro ⟨ip,h⟩
    exact ⟨⟨ip,pk⟩,AList.mem_lookup_iff.mp h,rfl⟩

theorem new_lookup (ipv4Addr : Ipv4Addr) (routeTable : RouteTable K) (maxPacketSize : Nat)
    (pk : K) (s : PeerState B) :
    (new ipv4Addr routeTable maxPacketSize : VpnCore K B).peers.lookup pk = some s ↔
      (∃ ip, routeTable.lookup ip = some pk) ∧ s = ⟨false,[]⟩ := by
  simp only [new,foldl_insert_lookup,Finmap.lookup_empty]
  rw [← exists_entry_iff]
  split
  · rename_i h
    simp only [Option.some.injEq,h,true_and]
    exact eq_comm
  · rename_i h
    simp only [reduceCtorEq,h,false_and]

variable [Buf B]

theorem new_invariant (ipv4Addr : Ipv4Addr) (routeTable : RouteTable K) (maxPacketSize : Nat) :
    CoreInvariant ipv4Addr routeTable maxPacketSize
      (new ipv4Addr routeTable maxPacketSize : VpnCore K B) where
  addr := rfl
  routes := rfl
  size := rfl
  keys pk := by
    rw [Finmap.mem_iff]
    constructor
    · rintro ⟨s,hs⟩
      exact ((new_lookup ipv4Addr routeTable maxPacketSize pk s).mp hs).1
    · intro h
      exact ⟨_,(new_lookup ipv4Addr routeTable maxPacketSize pk ⟨false,[]⟩).mpr ⟨h,rfl⟩⟩
  bounded pk s hs := by
    obtain ⟨-,rfl⟩ := (new_lookup ipv4Addr routeTable maxPacketSize pk s).mp hs
    exact Nat.zero_le _
  drained pk s hs _ := by
    obtain ⟨-,rfl⟩ := (new_lookup ipv4Addr routeTable maxPacketSize pk s).mp hs
    rfl
  queued pk s hs p hp := by
    obtain ⟨-,rfl⟩ := (new_lookup ipv4Addr routeTable maxPacketSize pk s).mp hs
    simp at hp

end VpnCore

section Step
variable {K B : Type} [DecidableEq K] [Buf B] {ipv4Addr : Ipv4Addr} {routeTable : RouteTable K}
variable {maxPacketSize : Nat} {core : VpnCore K B}

theorem CoreInvariant.lookup_of_route (h : CoreInvariant ipv4Addr routeTable maxPacketSize core)
    {ip : Ipv4Addr} {pk : K} (hr : routeTable.lookup ip = some pk) :
    ∃ s, core.peers.lookup pk = some s :=
  Finmap.mem_iff.mp ((h.keys pk).mpr ⟨ip,hr⟩)

theorem CoreInvariant.target_known (h : CoreInvariant ipv4Addr routeTable maxPacketSize core)
    {ev : Event K B} {pk : K} {input : Signal B} (ht : core.target ev = some (pk,input)) :
    ∃ s, core.peers.lookup pk = some s := by
  cases ev with
  | peerConnected k =>
    simp only [VpnCore.target,Option.ite_none_right_eq_some,Option.some.injEq,
      Prod.mk.injEq] at ht
    obtain ⟨hn,rfl,-⟩ := ht
    exact VpnCore.isNeighbour_iff.mp hn
  | peerDisconnected k =>
    simp only [VpnCore.target,Option.ite_none_right_eq_some,Option.some.injEq,
      Prod.mk.injEq] at ht
    obtain ⟨hn,rfl,-⟩ := ht
    exact VpnCore.isNeighbour_iff.mp hn
  | packetFromTun p =>
    simp only [VpnCore.target,Option.map_eq_some_iff,Prod.mk.injEq] at ht
    obtain ⟨k,hk,rfl,-⟩ := ht
    have hr := (VpnCore.acceptedFor_eq_some.mp hk).2
    rw [h.routes] at hr
    exact h.lookup_of_route hr
  | packetFromIroh p source => simp [VpnCore.target] at ht

theorem target_packet {ev : Event K B} {pk : K} {p : B}
    (ht : core.target ev = some (pk,.arrived p)) :
    ev = .packetFromTun p ∧ core.acceptedFor p = some pk := by
  cases ev with
  | packetFromTun q =>
    simp only [VpnCore.target,Option.map_eq_some_iff,Prod.mk.injEq,Signal.arrived.injEq] at ht
    obtain ⟨k,hk,rfl,rfl⟩ := ht
    exact ⟨rfl,hk⟩
  | peerConnected k => simp [VpnCore.target] at ht
  | peerDisconnected k => simp [VpnCore.target] at ht
  | packetFromIroh q source => simp [VpnCore.target] at ht

omit [Buf B] [DecidableEq K] in
theorem PeerState.step_bounded (s : PeerState B) (input : Signal B)
    (h : s.packetQueue.length ≤ maxPacketsInQueue) :
    (s.step input).packetQueue.length ≤ maxPacketsInQueue := by
  cases input with
  | opened => simp only [PeerState.step]; split <;> simp [h]
  | closed => simp only [PeerState.step]; split <;> exact h
  | arrived p =>
    simp only [PeerState.step]
    split
    · exact h
    · split
      · rename_i hfull
        simp [maxPacketsInQueue] at *
        omega
      · simp [maxPacketsInQueue] at *
        omega

omit [Buf B] [DecidableEq K] in
theorem PeerState.step_drained (s : PeerState B) (input : Signal B)
    (h : s.isConnected = true → s.packetQueue = [])
    (hc : (s.step input).isConnected = true) : (s.step input).packetQueue = [] := by
  cases input with
  | opened =>
    simp only [PeerState.step] at hc ⊢
    split
    · rename_i hs
      exact h hs
    · rfl
  | closed =>
    simp only [PeerState.step] at hc ⊢
    split at hc
    · simp at hc
    · rename_i hs
      exact absurd hc hs
  | arrived p =>
    simp only [PeerState.step] at hc ⊢
    split at hc
    · rename_i hs
      simp [hs,h hs]
    · split at hc <;> simp at hc

omit [Buf B] [DecidableEq K] in
theorem PeerState.mem_step {s : PeerState B} {input : Signal B} {p : B}
    (h : p ∈ (s.step input).packetQueue) : p ∈ s.packetQueue ∨ input = .arrived p := by
  cases input with
  | opened =>
    simp only [PeerState.step] at h
    split at h
    · exact .inl h
    · simp at h
  | closed =>
    simp only [PeerState.step] at h
    split at h <;> exact .inl h
  | arrived q =>
    simp only [PeerState.step] at h
    split at h
    · exact .inl h
    · split at h
      · rcases List.mem_append.mp h with ht | hq
        · exact .inl (List.mem_of_mem_tail ht)
        · simp only [List.mem_singleton] at hq
          exact .inr (by rw [hq])
      · rcases List.mem_append.mp h with ht | hq
        · exact .inl ht
        · simp only [List.mem_singleton] at hq
          exact .inr (by rw [hq])

omit [DecidableEq K] [Buf B] in
theorem PeerState.actions_no_internal (pk : K) (s : PeerState B) (input : Signal B) :
    Action.noAction .internalStateError ∉ s.actions pk input := by
  cases input <;> simp only [PeerState.actions] <;> repeat' split
  all_goals simp

theorem CoreInvariant.setPeer (h : CoreInvariant ipv4Addr routeTable maxPacketSize core)
    {ev : Event K B} {pk : K} {input : Signal B} {s : PeerState B}
    (ht : core.target ev = some (pk,input)) (hs : core.peers.lookup pk = some s) :
    CoreInvariant ipv4Addr routeTable maxPacketSize (core.setPeer pk (s.step input)) where
  addr := h.addr
  routes := h.routes
  size := h.size
  keys k := by
    rw [← h.keys k]
    change k ∈ core.peers.insert pk _ ↔ _
    rw [Finmap.mem_insert]
    constructor
    · rintro (rfl | hk)
      · exact Finmap.mem_iff.mpr ⟨s,hs⟩
      · exact hk
    · exact .inr
  bounded k t hk := by
    by_cases hkp : k = pk
    · subst k
      rw [VpnCore.setPeer_lookup,Option.some.injEq] at hk
      subst t
      exact s.step_bounded input (h.bounded pk s hs)
    · rw [core.setPeer_lookup_ne _ hkp] at hk
      exact h.bounded k t hk
  drained k t hk hc := by
    by_cases hkp : k = pk
    · subst k
      rw [VpnCore.setPeer_lookup,Option.some.injEq] at hk
      subst t
      exact s.step_drained input (h.drained pk s hs) hc
    · rw [core.setPeer_lookup_ne _ hkp] at hk
      exact h.drained k t hk hc
  queued k t hk p hp := by
    by_cases hkp : k = pk
    · subst k
      rw [VpnCore.setPeer_lookup,Option.some.injEq] at hk
      subst t
      rcases PeerState.mem_step hp with hq | rfl
      · exact h.queued pk s hs p hq
      · obtain ⟨-,hacc⟩ := target_packet ht
        obtain ⟨hok,hr⟩ := VpnCore.acceptedFor_eq_some.mp hacc
        have hv := VpnCore.verifySendPacket_ok.mpr ⟨hok,rfl⟩
        exact ⟨_,hv,hr⟩
    · rw [core.setPeer_lookup_ne _ hkp] at hk
      exact h.queued k t hk p hp

omit [DecidableEq K] in
theorem VpnCore.reply_ne_internal [DecidableEq K] (core : VpnCore K B) (ev : Event K B) :
    core.reply ev ≠ .noAction .internalStateError := by
  cases ev <;> unfold VpnCore.reply <;> repeat' split
  all_goals simp

/-- One event: no panic, no internal error, and the invariant is kept. -/
theorem CoreInvariant.process (h : CoreInvariant ipv4Addr routeTable maxPacketSize core)
    (ev : Event K B) : ∃ next actions, core.process ev = some (next,actions) ∧
      CoreInvariant ipv4Addr routeTable maxPacketSize next ∧
      Action.noAction .internalStateError ∉ actions := by
  cases ht : core.target ev with
  | none =>
    refine ⟨core,_,VpnCore.process_reply ht,h,?_⟩
    have hne := core.reply_ne_internal ev
    simpa using Ne.symm hne
  | some r =>
    obtain ⟨pk,input⟩ := r
    obtain ⟨s,hs⟩ := h.target_known ht
    exact ⟨_,_,VpnCore.process_target ht hs,h.setPeer ht hs,s.actions_no_internal pk input⟩

theorem CoreInvariant.run (h : CoreInvariant ipv4Addr routeTable maxPacketSize core)
    (evs : List (Event K B)) : ∃ last outs, core.run evs = some (last,outs) ∧
      CoreInvariant ipv4Addr routeTable maxPacketSize last := by
  induction evs generalizing core with
  | nil => exact ⟨core,[],rfl,h⟩
  | cons ev evs ih =>
    obtain ⟨next,actions,hp,hn,-⟩ := h.process ev
    obtain ⟨last,outs,hr,hl⟩ := ih hn
    exact ⟨last,actions :: outs,by simp [VpnCore.run,hp,hr],hl⟩

end Step

/-- In every reachable state the tables and queues are as they should be, and
no event at all makes the core panic or report an internal error. -/
theorem core_never_panics {K B : Type} [DecidableEq K] [Buf B] (ipv4Addr : Ipv4Addr)
    (routeTable : RouteTable K) (maxPacketSize : Nat) (evs : List (Event K B)) :
    ∃ core outs, (VpnCore.new ipv4Addr routeTable maxPacketSize).run evs = some (core,outs) ∧
      CoreInvariant ipv4Addr routeTable maxPacketSize core ∧
      ∀ ev, ∃ next actions, core.process ev = some (next,actions) ∧
        Action.noAction .internalStateError ∉ actions := by
  obtain ⟨core,outs,hr,hi⟩ :=
    (VpnCore.new_invariant ipv4Addr routeTable maxPacketSize).run evs
  refine ⟨core,outs,hr,hi,fun ev => ?_⟩
  obtain ⟨next,actions,hp,-,hno⟩ := hi.process ev
  exact ⟨next,actions,hp,hno⟩

end MeshNetwork
