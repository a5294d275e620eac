import MeshNetwork.LinkChecks

set_option autoImplicit false

namespace MeshNetwork
open Ipv4Packet

def sendsTo {K B : Type} [DecidableEq K] (pk : K) (actions : List (Action K B)) : List B :=
  actions.filterMap fun
    | .sendPacketTo p k => if k = pk then some p else none
    | _ => none

theorem sendsTo_snoc {K B : Type} [DecidableEq K] (pk : K) (outs : List (List (Action K B)))
    (actions : List (Action K B)) :
    sendsTo pk (outs ++ [actions]).flatten = sendsTo pk outs.flatten ++ sendsTo pk actions := by
  simp only [List.flatten_append,List.flatten_singleton,sendsTo,List.filterMap_append]

def Action.isOverflow {K B : Type} : Action K B → Bool
  | .noAction .packetQueueOverflow => true
  | _ => false

namespace VpnCore
variable {K B : Type} [DecidableEq K] [Buf B]

def signalFor (self : VpnCore K B) (pk : K) (ev : Event K B) : Option (Signal B) :=
  match self.target ev with
  | some (k,s) => if k = pk then some s else none
  | none => none

/-- The signals of a history to the gate of `pk`; a packet is numbered by the position
of its event. -/
def signals (self : VpnCore K B) (pk : K) (evs : List (Event K B)) : List (Signal (Nat × B)) :=
  evs.zipIdx.filterMap fun e => (self.signalFor pk e.1).map (Signal.map fun p => (e.2,p))

def acceptedPackets (self : VpnCore K B) (pk : K) (evs : List (Event K B)) : List (Nat × B) :=
  evs.zipIdx.filterMap fun
    | (.packetFromTun p,i) => if self.acceptedFor p = some pk then some (i,p) else none
    | _ => none

def isAcceptedFor (self : VpnCore K B) (pk : K) : Event K B → Bool
  | .packetFromTun p => decide (self.acceptedFor p = some pk)
  | _ => false

def overflowReports (self : VpnCore K B) (pk : K) (evs : List (Event K B))
    (outs : List (List (Action K B))) : Nat :=
  (((evs.zip outs).filter fun e => self.isAcceptedFor pk e.1).flatMap Prod.snd).countP
    Action.isOverflow

theorem arrivals_signals (self : VpnCore K B) (pk : K) (evs : List (Event K B)) :
    arrivals (self.signals pk evs) = self.acceptedPackets pk evs := by
  unfold arrivals signals acceptedPackets
  rw [List.filterMap_filterMap]
  congr 1
  funext e
  obtain ⟨ev,i⟩ := e
  cases ev with
  | packetFromTun p =>
    simp only [signalFor,target]
    cases self.acceptedFor p with
    | none => simp
    | some k => by_cases hk : k = pk <;> simp [hk,Signal.map]
  | peerConnected k =>
    simp only [signalFor,target]
    cases self.isNeighbour k <;> by_cases hk : k = pk <;> simp [hk,Signal.map]
  | peerDisconnected k =>
    simp only [signalFor,target]
    cases self.isNeighbour k <;> by_cases hk : k = pk <;> simp [hk,Signal.map]
  | packetFromIroh p source => simp [signalFor,target]

theorem acceptedPackets_numbered (self : VpnCore K B) (pk : K) (evs : List (Event K B)) :
    (self.acceptedPackets pk evs).Pairwise fun x y => x.1 < y.1 := by
  have hidx : evs.zipIdx.Pairwise fun x y => x.2 < y.2 := by
    rw [← List.pairwise_map,List.zipIdx_map_snd]
    exact List.pairwise_lt_range'
  have hnum : ∀ {e : Event K B × Nat} {x : Nat × B}, (match e with
      | (.packetFromTun p,i) => if self.acceptedFor p = some pk then some (i,p) else none
      | _ => none) = some x → x.1 = e.2 := by
    intro e x h
    split at h
    · split at h
      · simp only [Option.some.injEq] at h
        rw [← h]
      · simp at h
    · simp at h
  refine List.Pairwise.filterMap _ (fun a b hab x hx y hy => ?_) hidx
  rw [hnum hx,hnum hy]
  exact hab

theorem signals_snoc (self : VpnCore K B) (pk : K) (evs : List (Event K B)) (ev : Event K B) :
    self.signals pk (evs ++ [ev]) = self.signals pk evs ++
      ((self.signalFor pk ev).map (Signal.map fun p => (evs.length,p))).toList := by
  simp only [signals,List.zipIdx_append,List.filterMap_append,Nat.zero_add]
  cases h : self.signalFor pk ev <;> simp [h]

omit [DecidableEq K] in
theorem run_snoc [DecidableEq K] {core mid next : VpnCore K B} {evs : List (Event K B)}
    {ev : Event K B} {outs : List (List (Action K B))} {actions : List (Action K B)}
    (hr : core.run evs = some (mid,outs)) (hp : mid.process ev = some (next,actions)) :
    core.run (evs ++ [ev]) = some (next,outs ++ [actions]) := by
  induction evs generalizing core outs with
  | nil =>
    simp only [run,Option.some.injEq,Prod.mk.injEq] at hr
    obtain ⟨rfl,rfl⟩ := hr
    simp [run,hp]
  | cons e evs ih =>
    cases he : core.process e with
    | none => simp [run,he] at hr
    | some r =>
      obtain ⟨c,a⟩ := r
      cases hc : c.run evs with
      | none => simp [run,he,hc] at hr
      | some q =>
        obtain ⟨last,rest⟩ := q
        simp only [run,he,hc,Option.bind_eq_bind,Option.bind_some,Option.pure_def,
          Option.some.injEq,Prod.mk.injEq] at hr
        obtain ⟨rfl,rfl⟩ := hr
        simp [run,he,ih hc]

theorem run_length {core last : VpnCore K B} {evs : List (Event K B)}
    {outs : List (List (Action K B))} (hr : core.run evs = some (last,outs)) :
    outs.length = evs.length := by
  induction evs generalizing core outs with
  | nil =>
    simp only [run,Option.some.injEq,Prod.mk.injEq] at hr
    simp [← hr.2]
  | cons e evs ih =>
    cases he : core.process e with
    | none => simp [run,he] at hr
    | some r =>
      obtain ⟨c,a⟩ := r
      cases hc : c.run evs with
      | none => simp [run,he,hc] at hr
      | some q =>
        obtain ⟨end_,rest⟩ := q
        simp only [run,he,hc,Option.bind_eq_bind,Option.bind_some,Option.pure_def,
          Option.some.injEq,Prod.mk.injEq] at hr
        obtain ⟨rfl,rfl⟩ := hr
        simp [ih hc]

theorem target_congr {core core' : VpnCore K B} (ha : core.ipv4Addr = core'.ipv4Addr)
    (hr : core.routeTable = core'.routeTable) (hm : core.maxPacketSize = core'.maxPacketSize)
    (hn : ∀ pk, core.isNeighbour pk = core'.isNeighbour pk) (ev : Event K B) :
    core.target ev = core'.target ev := by
  cases ev with
  | peerConnected k => simp only [target,hn]
  | peerDisconnected k => simp only [target,hn]
  | packetFromTun p =>
    have hacc : core.acceptedFor p = core'.acceptedFor p := by
      obtain ⟨size,addr,peers,routes⟩ := core
      obtain ⟨size',addr',peers',routes'⟩ := core'
      simp only at ha hr hm
      subst ha hr hm
      rfl
    simp only [target,hacc]
  | packetFromIroh p source => rfl

end VpnCore

section Window
variable {K B : Type} [DecidableEq K] [Buf B] {ipv4Addr : Ipv4Addr} {routeTable : RouteTable K}
variable {maxPacketSize : Nat} {core : VpnCore K B}

theorem CoreInvariant.target_new (h : CoreInvariant ipv4Addr routeTable maxPacketSize core)
    (ev : Event K B) :
    core.target ev = (VpnCore.new ipv4Addr routeTable maxPacketSize).target ev := by
  have h₀ := @VpnCore.new_invariant K B _ _ ipv4Addr routeTable maxPacketSize
  refine VpnCore.target_congr h.addr h.routes h.size (fun pk => ?_) ev
  have hk := h.keys pk
  have hk₀ := h₀.keys pk
  rw [Finmap.mem_iff] at hk hk₀
  rw [Bool.eq_iff_iff,VpnCore.isNeighbour_iff,VpnCore.isNeighbour_iff,hk,hk₀]

def Ledger.peerState (l : Ledger (Nat × B)) : PeerState B :=
  ⟨l.isOpen,(l.waiting maxPacketsInQueue).map Prod.snd⟩

omit [Buf B] in
theorem Ledger.peerState_step (l : Ledger (Nat × B)) (hopen : l.isOpen = true → l.current = [])
    (i : Nat) (x : Signal B) :
    l.peerState.step x = (l.step maxPacketsInQueue (x.map fun p => (i,p))).peerState := by
  cases ho : l.isOpen with
  | true =>
    have hc := hopen ho
    cases x <;> simp [Ledger.peerState,PeerState.step,Ledger.step,Signal.map,ho,hc,
      Ledger.waiting]
  | false =>
    cases x with
    | opened => simp [Ledger.peerState,PeerState.step,Ledger.step,Signal.map,ho,Ledger.waiting]
    | closed => simp [Ledger.peerState,PeerState.step,Ledger.step,Signal.map,ho,Ledger.waiting]
    | arrived p =>
      simp only [Ledger.peerState,PeerState.step,Ledger.step,Signal.map,ho,Ledger.waiting,
        Bool.false_eq_true,if_false]
      rw [Ledger.rtake_push (by decide),List.length_map]
      split <;> simp

omit [Buf B] in
theorem Ledger.peerState_actions (pk : K) (l : Ledger (Nat × B)) (i : Nat) (x : Signal B) :
    sendsTo pk (l.peerState.actions pk x) =
      (l.released maxPacketsInQueue (x.map fun p => (i,p))).map Prod.snd := by
  cases ho : l.isOpen with
  | true => cases x <;> simp [sendsTo,Ledger.peerState,PeerState.actions,Ledger.released,
      Signal.map,ho]
  | false =>
    cases x with
    | opened => simp [sendsTo,Ledger.peerState,PeerState.actions,Ledger.released,Signal.map,ho,
        Ledger.waiting,List.filterMap_map,Function.comp_def]
    | closed => simp [sendsTo,Ledger.peerState,PeerState.actions,Ledger.released,Signal.map,ho]
    | arrived p =>
      simp only [Ledger.peerState,PeerState.actions,Ledger.released,Signal.map,ho,
        Bool.false_eq_true,if_false]
      split <;> simp [sendsTo]

omit [DecidableEq K] [Buf B] in
theorem Ledger.peerState_overflow (pk : K) (l : Ledger (Nat × B)) (i : Nat) (x : Signal B) :
    (l.peerState.actions pk x).countP Action.isOverflow =
      l.evicted maxPacketsInQueue (x.map fun p => (i,p)) := by
  have hsend : ∀ q : List B, (q.map fun p => Action.sendPacketTo p pk).countP
      Action.isOverflow = 0 := by
    intro q
    induction q with
    | nil => rfl
    | cons p q ih => simp [ih,Action.isOverflow]
  have hfull := Ledger.length_rtake_full maxPacketsInQueue l.current
  cases x with
  | opened =>
    simp only [PeerState.actions,Signal.map,Ledger.evicted]
    split
    · rfl
    · exact hsend _
  | closed =>
    simp only [PeerState.actions,Signal.map,Ledger.evicted]
    split <;> rfl
  | arrived p =>
    simp only [PeerState.actions,Signal.map,Ledger.evicted,Ledger.peerState,Ledger.waiting,
      List.length_map,hfull]
    cases ho : l.isOpen with
    | true => simp [Action.isOverflow]
    | false =>
      by_cases hn : maxPacketsInQueue ≤ l.current.length <;>
        simp [hn,List.countP_cons,Action.isOverflow]

omit [Buf B] in
theorem sendsTo_eq_nil {pk : K} {actions : List (Action K B)}
    (h : ∀ p, Action.sendPacketTo p pk ∉ actions) : sendsTo pk actions = [] := by
  rw [sendsTo,List.filterMap_eq_nil_iff]
  intro a ha
  cases a with
  | sendPacketTo p k =>
    by_cases hk : k = pk
    · subst k
      exact absurd ha (h p)
    · simp [hk]
  | _ => rfl

def VpnCore.ledger (self : VpnCore K B) (pk : K) (evs : List (Event K B)) : Ledger (Nat × B) :=
  .ofSignals maxPacketsInQueue (self.signals pk evs)

structure FollowsLedger (core₀ : VpnCore K B) (pk : K) (evs : List (Event K B))
    (core : VpnCore K B) (outs : List (List (Action K B))) : Prop where
  peer : core.peers.lookup pk = some (core₀.ledger pk evs).peerState
  emissions : sendsTo pk outs.flatten = (core₀.ledger pk evs).emitted.map Prod.snd
  reports : core₀.overflowReports pk evs outs =
    ((core₀.ledger pk evs).lost maxPacketsInQueue).length

theorem VpnCore.overflowReports_snoc (self : VpnCore K B) (pk : K) {evs : List (Event K B)}
    {outs : List (List (Action K B))} (hl : outs.length = evs.length) (ev : Event K B)
    (actions : List (Action K B)) :
    self.overflowReports pk (evs ++ [ev]) (outs ++ [actions]) =
      self.overflowReports pk evs outs +
        if self.isAcceptedFor pk ev then actions.countP Action.isOverflow else 0 := by
  rw [overflowReports,List.zip_append hl.symm,List.filter_append,List.flatMap_append,
    List.countP_append]
  cases h : self.isAcceptedFor pk ev <;> simp [h,overflowReports]

theorem VpnCore.isAcceptedFor_iff (self : VpnCore K B) (pk : K) (ev : Event K B) :
    self.isAcceptedFor pk ev = true ↔ ∃ p, self.signalFor pk ev = some (.arrived p) := by
  cases ev with
  | packetFromTun p =>
    simp only [isAcceptedFor,signalFor,target,decide_eq_true_eq]
    cases self.acceptedFor p with
    | none => simp
    | some k => by_cases hk : k = pk <;> simp [hk]
  | peerConnected k =>
    simp only [isAcceptedFor,signalFor,target]
    cases self.isNeighbour k <;> by_cases hk : k = pk <;> simp [hk]
  | peerDisconnected k =>
    simp only [isAcceptedFor,signalFor,target]
    cases self.isNeighbour k <;> by_cases hk : k = pk <;> simp [hk]
  | packetFromIroh p source => simp [isAcceptedFor,signalFor,target]

theorem VpnCore.ledger_snoc (self : VpnCore K B) (pk : K) (evs : List (Event K B))
    (ev : Event K B) :
    self.ledger pk (evs ++ [ev]) =
      match self.signalFor pk ev with
      | some x => (self.ledger pk evs).step maxPacketsInQueue (x.map fun p => (evs.length,p))
      | none => self.ledger pk evs := by
  rw [ledger,signals_snoc]
  cases h : self.signalFor pk ev with
  | none => simp [ledger]
  | some x => simp [ledger,Ledger.ofSignals_snoc]

theorem VpnCore.ledger_open (self : VpnCore K B) (pk : K) (evs : List (Event K B))
    (h : (self.ledger pk evs).isOpen = true) : (self.ledger pk evs).current = [] :=
  Ledger.current_open (self.signals pk evs) h

theorem target_opened {ev : Event K B} {pk : K} (ht : core.target ev = some (pk,.opened)) :
    ev = .peerConnected pk := by
  cases ev with
  | peerConnected k =>
    simp only [VpnCore.target,Option.ite_none_right_eq_some,Option.some.injEq,Prod.mk.injEq] at ht
    rw [ht.2.1]
  | peerDisconnected k => simp [VpnCore.target] at ht
  | packetFromTun p => simp [VpnCore.target] at ht
  | packetFromIroh p source => simp [VpnCore.target] at ht

theorem CoreInvariant.process_other
    (hi : CoreInvariant ipv4Addr routeTable maxPacketSize core) {next : VpnCore K B} {pk : K}
    {ev : Event K B} {actions : List (Action K B)} (hs : core.signalFor pk ev = none)
    (hp : core.process ev = some (next,actions)) :
    next.peers.lookup pk = core.peers.lookup pk ∧ sendsTo pk actions = [] := by
  cases ht : core.target ev with
  | none =>
    rw [VpnCore.process_reply ht] at hp
    simp only [Option.some.injEq,Prod.mk.injEq] at hp
    obtain ⟨rfl,rfl⟩ := hp
    refine ⟨rfl,sendsTo_eq_nil fun p hmem => ?_⟩
    simp only [List.mem_singleton] at hmem
    exact core.reply_ne_send ev p pk hmem.symm
  | some r =>
    obtain ⟨k,x⟩ := r
    have hk : k ≠ pk := by
      rintro rfl
      simp [VpnCore.signalFor,ht] at hs
    obtain ⟨t,hl⟩ := hi.target_known ht
    rw [VpnCore.process_target ht hl] at hp
    simp only [Option.some.injEq,Prod.mk.injEq] at hp
    obtain ⟨rfl,rfl⟩ := hp
    refine ⟨core.setPeer_lookup_ne _ (Ne.symm hk),sendsTo_eq_nil fun p hmem => ?_⟩
    exact hk (PeerState.mem_actions hmem).1.symm

theorem VpnCore.target_of_signalFor {pk : K} {ev : Event K B} {x : Signal B}
    (hs : core.signalFor pk ev = some x) : core.target ev = some (pk,x) := by
  unfold signalFor at hs
  split at hs
  · rename_i k y ht
    split at hs
    · rename_i hk
      simp only [Option.some.injEq] at hs
      rw [ht,hk,hs]
    · simp at hs
  · simp at hs

theorem CoreInvariant.signalFor_new (h : CoreInvariant ipv4Addr routeTable maxPacketSize core)
    (pk : K) (ev : Event K B) :
    core.signalFor pk ev = (VpnCore.new ipv4Addr routeTable maxPacketSize).signalFor pk ev := by
  unfold VpnCore.signalFor
  rw [h.target_new]

theorem FollowsLedger.snoc {next : VpnCore K B} {pk : K} {evs : List (Event K B)}
    {outs : List (List (Action K B))} {ev : Event K B} {actions : List (Action K B)}
    (hi : CoreInvariant ipv4Addr routeTable maxPacketSize core)
    (h : FollowsLedger (.new ipv4Addr routeTable maxPacketSize) pk evs core outs)
    (hl : outs.length = evs.length) (hp : core.process ev = some (next,actions)) :
    FollowsLedger (.new ipv4Addr routeTable maxPacketSize) pk (evs ++ [ev]) next
      (outs ++ [actions]) := by
  have hsig := hi.signalFor_new pk ev
  have hacc := VpnCore.isAcceptedFor_iff (.new ipv4Addr routeTable maxPacketSize) pk ev
  have hled := VpnCore.ledger_snoc (.new ipv4Addr routeTable maxPacketSize) pk evs ev
  rw [← hsig] at hacc hled
  cases hs : core.signalFor pk ev with
  | none =>
    have hno : (VpnCore.new ipv4Addr routeTable maxPacketSize).isAcceptedFor pk ev = false := by
      simpa [hs] using hacc
    obtain ⟨hsame,hnil⟩ := hi.process_other hs hp
    rw [hs] at hled
    refine ⟨?_,?_,?_⟩
    · rw [hled,hsame]
      exact h.peer
    · rw [hled,sendsTo_snoc,hnil,List.append_nil]
      exact h.emissions
    · rw [hled,VpnCore.overflowReports_snoc _ _ hl,hno]
      exact h.reports
  | some x =>
    have ht := VpnCore.target_of_signalFor hs
    rw [VpnCore.process_target ht h.peer] at hp
    simp only [Option.some.injEq,Prod.mk.injEq] at hp
    obtain ⟨rfl,rfl⟩ := hp
    rw [hs] at hled
    have hopen := VpnCore.ledger_open (.new ipv4Addr routeTable maxPacketSize) pk evs
    refine ⟨?_,?_,?_⟩
    · rw [hled,VpnCore.setPeer_lookup,Ledger.peerState_step _ hopen]
    · rw [hled,Ledger.step_emitted,List.map_append,sendsTo_snoc,h.emissions,
        Ledger.peerState_actions pk _ evs.length]
    · rw [hled,VpnCore.overflowReports_snoc _ _ hl,Ledger.lost_length_step,h.reports,
        ← Ledger.peerState_overflow pk]
      cases x with
      | arrived p => rw [if_pos (hacc.mpr ⟨p,hs⟩)]
      | opened =>
        have hno : (VpnCore.new ipv4Addr routeTable maxPacketSize).isAcceptedFor pk ev = false := by
          simpa [hs] using hacc
        rw [hno,Ledger.peerState_overflow pk _ evs.length]
        rfl
      | closed =>
        have hno : (VpnCore.new ipv4Addr routeTable maxPacketSize).isAcceptedFor pk ev = false := by
          simpa [hs] using hacc
        rw [hno,Ledger.peerState_overflow pk _ evs.length]
        rfl

theorem followsLedger_run {pk : K} {ip : Ipv4Addr} (hpk : routeTable.lookup ip = some pk)
    (evs : List (Event K B)) : ∃ core outs,
      (VpnCore.new ipv4Addr routeTable maxPacketSize).run evs = some (core,outs) ∧
      CoreInvariant ipv4Addr routeTable maxPacketSize core ∧
      FollowsLedger (.new ipv4Addr routeTable maxPacketSize) pk evs core outs := by
  induction evs using List.reverseRecOn with
  | nil =>
    have hempty : (VpnCore.new ipv4Addr routeTable maxPacketSize : VpnCore K B).ledger pk [] =
        Ledger.empty := rfl
    refine ⟨_,[],rfl,VpnCore.new_invariant ipv4Addr routeTable maxPacketSize,?_,?_,?_⟩
    · refine (VpnCore.new_lookup ipv4Addr routeTable maxPacketSize pk _).mpr ⟨⟨ip,hpk⟩,?_⟩
      simp [hempty,Ledger.peerState,Ledger.empty,Ledger.waiting]
    · simp [hempty,sendsTo,Ledger.empty]
    · simp [hempty,VpnCore.overflowReports,Ledger.lost,Ledger.intervals,Ledger.empty,List.rdrop]
  | append_singleton evs ev ih =>
    obtain ⟨core,outs,hr,hi,hf⟩ := ih
    obtain ⟨next,actions,hp,hn,-⟩ := hi.process ev
    exact ⟨next,_,VpnCore.run_snoc hr hp,hn,hf.snoc hi (VpnCore.run_length hr) hp⟩

/-- The core as a sliding-window FIFO for one peer: what it answers next, and what the
whole history has come to. -/
structure SlidingWindowFifo (core₀ : VpnCore K B) (pk : K) (evs : List (Event K B))
    (core : VpnCore K B) (outs : List (List (Action K B))) : Prop where
  direct : ∀ p, core.acceptedFor p = some pk → (core₀.ledger pk evs).isOpen = true →
    core.process (.packetFromTun p) = some (core,[.sendPacketTo p pk])
  buffered : ∀ p, core.acceptedFor p = some pk → (core₀.ledger pk evs).isOpen = false →
    ∃ next, core.process (.packetFromTun p) = some (next,
      if maxPacketsInQueue ≤ (core₀.ledger pk evs).current.length then
        [.noAction .packetQueueOverflow,.noAction .packetBuffered]
      else [.noAction .packetBuffered])
  flush : (core₀.ledger pk evs).isOpen = false → ∃ next,
    core.process (.peerConnected pk) = some (next,
      ((core₀.ledger pk evs).current.rtake maxPacketsInQueue).map
        fun x => .sendPacketTo x.2 pk)
  silent : ∀ ev next actions, core.process ev = some (next,actions) →
    (∀ p, ev = .packetFromTun p → core.acceptedFor p = some pk →
      (core₀.ledger pk evs).isOpen = false) →
    (ev = .peerConnected pk → (core₀.ledger pk evs).isOpen = true) → sendsTo pk actions = []
  emissions : sendsTo pk outs.flatten = (core₀.ledger pk evs).emitted.map Prod.snd
  order : ((core₀.ledger pk evs).emitted).Sublist (core₀.acceptedPackets pk evs)
  numbered : (core₀.acceptedPackets pk evs).Pairwise fun x y => x.1 < y.1
  fates : (core₀.acceptedPackets pk evs).Perm ((core₀.ledger pk evs).emitted ++
    (core₀.ledger pk evs).lost maxPacketsInQueue ++
    (core₀.ledger pk evs).waiting maxPacketsInQueue)
  waiting : core.peers.lookup pk = some ⟨(core₀.ledger pk evs).isOpen,
    ((core₀.ledger pk evs).waiting maxPacketsInQueue).map Prod.snd⟩
  losses : ∀ x, x ∈ (core₀.ledger pk evs).lost maxPacketsInQueue ↔
    ∃ i ∈ (core₀.ledger pk evs).intervals, ∃ xs ys, i = xs ++ x :: ys ∧
      maxPacketsInQueue ≤ ys.length
  reports : core₀.overflowReports pk evs outs =
    ((core₀.ledger pk evs).lost maxPacketsInQueue).length

theorem FollowsLedger.process {pk : K} {evs : List (Event K B)}
    {outs : List (List (Action K B))} {core₀ : VpnCore K B}
    (hf : FollowsLedger core₀ pk evs core outs) {ev : Event K B} {x : Signal B}
    (hs : core.signalFor pk ev = some x) : core.process ev =
      some (core.setPeer pk ((core₀.ledger pk evs).peerState.step x),
        (core₀.ledger pk evs).peerState.actions pk x) :=
  VpnCore.process_target (VpnCore.target_of_signalFor hs) hf.peer

theorem core_refines_sliding_window (ipv4Addr : Ipv4Addr) (routeTable : RouteTable K)
    (maxPacketSize : Nat) {pk : K} (hpk : ∃ ip, routeTable.lookup ip = some pk)
    (evs : List (Event K B)) : ∃ core outs,
      (VpnCore.new ipv4Addr routeTable maxPacketSize).run evs = some (core,outs) ∧
      SlidingWindowFifo (.new ipv4Addr routeTable maxPacketSize) pk evs core outs := by
  obtain ⟨ip,hip⟩ := hpk
  obtain ⟨core,outs,hr,hi,hf⟩ := @followsLedger_run K B _ _ ipv4Addr routeTable maxPacketSize
    pk ip hip evs
  have hrec := VpnCore.arrivals_signals (.new ipv4Addr routeTable maxPacketSize) pk evs
  have hn : core.isNeighbour pk = true := VpnCore.isNeighbour_iff.mpr ⟨_,hf.peer⟩
  have hconn : core.signalFor pk (.peerConnected pk) = some .opened := by
    simp [VpnCore.signalFor,VpnCore.target,hn]
  have htun : ∀ p, core.acceptedFor p = some pk →
      core.signalFor pk (.packetFromTun p) = some (.arrived p) := fun p ha => by
    simp [VpnCore.signalFor,VpnCore.target,ha]
  have hfull := Ledger.length_rtake_full maxPacketsInQueue
    ((VpnCore.new ipv4Addr routeTable maxPacketSize).ledger pk evs).current
  refine ⟨core,outs,hr,?_,?_,?_,?_,hf.emissions,?_,?_,?_,hf.peer,?_,hf.reports⟩
  · intro p ha ho
    rw [hf.process (htun p ha)]
    have hstep : ((VpnCore.new ipv4Addr routeTable maxPacketSize).ledger pk
        evs).peerState.step (.arrived p) =
        ((VpnCore.new ipv4Addr routeTable maxPacketSize).ledger pk evs).peerState := by
      simp [PeerState.step,Ledger.peerState,ho]
    rw [hstep,VpnCore.setPeer_self hf.peer]
    simp [PeerState.actions,Ledger.peerState,ho]
  · intro p ha ho
    have hact : (((VpnCore.new ipv4Addr routeTable maxPacketSize).ledger pk
        evs).peerState.actions pk (.arrived p)) =
        if maxPacketsInQueue ≤
            ((VpnCore.new ipv4Addr routeTable maxPacketSize).ledger pk evs).current.length then
          [.noAction .packetQueueOverflow,.noAction .packetBuffered]
        else [.noAction .packetBuffered] := by
      simp [PeerState.actions,Ledger.peerState,ho,Ledger.waiting,hfull]
    rw [← hact]
    exact ⟨_,hf.process (htun p ha)⟩
  · intro ho
    have hact : (((VpnCore.new ipv4Addr routeTable maxPacketSize).ledger pk
        evs).peerState.actions pk .opened) =
        (((VpnCore.new ipv4Addr routeTable maxPacketSize).ledger pk
          evs).current.rtake maxPacketsInQueue).map fun x => .sendPacketTo x.2 pk := by
      simp [PeerState.actions,Ledger.peerState,ho,Ledger.waiting]
    rw [← hact]
    exact ⟨_,hf.process hconn⟩
  · intro ev next actions hp hclosed hopen
    cases hs : core.signalFor pk ev with
    | none => exact (hi.process_other hs hp).2
    | some x =>
      have ht := VpnCore.target_of_signalFor hs
      rw [hf.process hs] at hp
      simp only [Option.some.injEq,Prod.mk.injEq] at hp
      obtain ⟨-,rfl⟩ := hp
      rw [Ledger.peerState_actions pk _ 0]
      cases x with
      | opened =>
        have hev := target_opened ht
        simp [Ledger.released,Signal.map,hopen hev]
      | closed => rfl
      | arrived p =>
        obtain ⟨hev,ha⟩ := target_packet ht
        simp [Ledger.released,Signal.map,hclosed p hev ha]
  · rw [← hrec]
    exact Ledger.emitted_sublist _ _
  · exact VpnCore.acceptedPackets_numbered _ pk evs
  · rw [← hrec]
    exact Ledger.fates _ _
  · exact Ledger.mem_lost _ _

/-- One packet waits for its peer to connect. -/
theorem core_refines_sliding_window_ping :
    let ping : List UInt8 := [0x45,0,0,20,0,0,0,0,64,0,0,0,10,67,1,1,10,67,1,2]
    let core₀ : VpnCore Nat (List UInt8) :=
      .new ⟨10,67,1,1⟩ (AList.insert ⟨10,67,1,2⟩ 2 ∅) 1100
    ∃ core outs, core₀.run [.packetFromTun ping,.peerConnected 2] = some (core,outs) ∧
      SlidingWindowFifo core₀ 2 [.packetFromTun ping,.peerConnected 2] core outs :=
  core_refines_sliding_window ⟨10,67,1,1⟩ (AList.insert ⟨10,67,1,2⟩ 2 ∅) 1100
    ⟨⟨10,67,1,2⟩,rfl⟩ _

end Window
end MeshNetwork
