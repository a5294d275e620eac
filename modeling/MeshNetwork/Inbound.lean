import MeshNetwork.DeviceAuthenticity

set_option autoImplicit false

namespace MeshNetwork
open Runs

section Packets
variable {K : Type}

def Packet.tagged (routeTable : RouteTable K) (packet : Packet) : Packet × Option K :=
  (packet,routeTable.lookup (Ipv4Packet.header packet).srcIp)

def NodeObs.received? : NodeObs K → Option (Packet × Option K)
  | .manager (.received conn packet) => some (packet,some conn.remoteId)
  | _ => none

def IrohEvent.packet? : IrohEvent K Packet → Option (Packet × Option K)
  | .recvPacketFrom packet pubKey => some (packet,some pubKey)
  | _ => none

def Action.write? : Action K Packet → Option Packet
  | .writeToTun packet => some packet
  | _ => none

variable [DecidableEq K] {ipv4Addr : Ipv4Addr} {routeTable : RouteTable K} {maxPacketSize : Nat}
variable {core next : VpnCore K Packet} {actions : List (Action K Packet)}

theorem CoreInvariant.writes_nothing (h : CoreInvariant ipv4Addr routeTable maxPacketSize core)
    {ev : Event K Packet} (hp : core.process ev = some (next,actions))
    (hev : ∀ p source, ev ≠ .packetFromIroh p source) : actions.filterMap Action.write? = [] := by
  rw [List.filterMap_eq_nil_iff]
  intro action haction
  cases action with
  | writeToTun p =>
    obtain ⟨source,heq,-⟩ := h.writes hp haction
    exact absurd heq (hev p source)
  | _ => rfl

/-- A datagram is written at most once, and only when its source address is that of its sender. -/
theorem CoreInvariant.writes_once (h : CoreInvariant ipv4Addr routeTable maxPacketSize core)
    {event : IrohEvent K Packet}
    (hp : core.process (mapIrohEventToCoreEvent event) = some (next,actions)) :
    ((actions.filterMap Action.write?).map (Packet.tagged routeTable)).Sublist
      ([event].filterMap IrohEvent.packet?) := by
  cases event with
  | recvPacketFrom packet k =>
    have hreply : core.process (.packetFromIroh packet k) =
        some (core,[core.reply (.packetFromIroh packet k)]) := VpnCore.process_reply rfl
    simp only [mapIrohEventToCoreEvent,hreply,Option.some.injEq,Prod.mk.injEq] at hp
    obtain ⟨-,rfl⟩ := hp
    obtain ⟨r,hr⟩ := core.verifyRecvPacket_total packet k
    simp only [VpnCore.reply,hr]
    cases r with
    | error e => exact List.nil_sublist _
    | ok u =>
      have hsrc := (VpnCore.verifyRecvPacket_ok.mp hr).src
      rw [h.routes] at hsrc
      simp [Action.write?,IrohEvent.packet?,Packet.tagged,hsrc]
  | connectedToPeer k | disconnectedFromPeer k =>
    rw [h.writes_nothing hp (by simp [mapIrohEventToCoreEvent])]
    exact List.nil_sublist _

end Packets

namespace Node
variable {K : Type} [LinearOrder K]

def received (tr : List (NodeObs K)) : List (Packet × Option K) := tr.filterMap NodeObs.received?

def wrote (tr : List (NodeObs K)) : List Packet := tr.filterMap Process.wrote?

def arriving (routeTable : RouteTable K) (n : Node K) : List (Packet × Option K) :=
  (n.hand.filterMap Action.write?).map (Packet.tagged routeTable) ++
    n.toCoord.filterMap IrohEvent.packet?

def Inbound (routeTable : RouteTable K) (n : Node K) (tr : List (NodeObs K)) : Prop :=
  ((wrote tr).map (Packet.tagged routeTable) ++ arriving routeTable n).Sublist (received tr)

variable {cfg : Config K} {n : Node K} {tr : List (NodeObs K)}

theorem wrote_shows (n : Node K) {a : NodeAct K} (h : a ≠ .coordAction) :
    wrote (n.shows a) = [] := by
  rw [wrote,List.filterMap_eq_nil_iff]
  intro o ho
  cases shown ho with
  | wroteTun hand => exact absurd rfl h
  | _ => rfl

omit [LinearOrder K] in
theorem wrote_action (n : Node K) (action : Action K Packet) :
    (wrote (n.actionShows action)).Sublist ([action].filterMap Action.write?) := by
  cases action with
  | writeToTun packet =>
    by_cases hroom : n.toTun.length < n.cfg.toTunCapacity
    · simp only [actionShows,hroom,if_true]
      exact List.Sublist.refl _
    · simp only [actionShows,hroom,if_false]
      exact List.nil_sublist _
  | sendPacketTo packet k =>
    by_cases hroom : n.toIroh.length < n.cfg.irohCapacity
    · simp only [actionShows,hroom,if_true]
      exact List.nil_sublist _
    · simp only [actionShows,hroom,if_false]
      exact List.nil_sublist _
  | _ => exact List.nil_sublist _

omit [LinearOrder K] in
theorem posts_packets (quiet : Manager.SendsNoPacket n.manager) (act : Act K Packet) :
    ((n.posts act).filterMap IrohEvent.packet?).Sublist
      (received ((n.manager.shows act).map .manager)) := by
  cases act with
  | effect =>
    have hnone : (n.posts .effect).filterMap IrohEvent.packet? = [] := by
      rw [List.filterMap_eq_nil_iff]
      intro event hevent
      simp only [posts] at hevent
      split at hevent
      · rename_i ev rest hpc
        rw [List.mem_singleton.mp hevent]
        cases ev with
        | recvPacketFrom p k => exact absurd (by rw [hpc]; exact List.mem_cons_self) (quiet p k)
        | _ => rfl
      · simp at hevent
    rw [hnone]
    exact List.nil_sublist _
  | readDatagram s packet =>
    simp only [posts]
    split
    · exact List.Sublist.refl _
    · exact List.nil_sublist _
  | _ => exact List.nil_sublist _

theorem Inbound.next (kept : CoreKept cfg n) (quiet : Manager.SendsNoPacket n.manager)
    (h : Inbound cfg.routeTable n tr) {a : NodeAct K} (hen : n.enabled a) :
    Inbound cfg.routeTable (n.next a) (tr ++ n.shows a) := by
  have hnone : a ≠ .coordAction → wrote (n.shows a) = [] := wrote_shows n
  have hm := moved hen
  generalize n.next a = n' at hm
  generalize n.shows a = os at hm hnone
  -- it is enough that what arrives was arriving or is received now
  have step : ∀ {seen : List (Packet × Option K)}, seen.Sublist (received os) →
      ((wrote os).map (Packet.tagged cfg.routeTable) ++ arriving cfg.routeTable n').Sublist
        (arriving cfg.routeTable n ++ seen) → Inbound cfg.routeTable n' (tr ++ os) := by
    intro seen hseen hflow
    have hbefore := List.Sublist.append_left hflow ((wrote tr).map (Packet.tagged cfg.routeTable))
    have hafter := List.Sublist.append h hseen
    rw [List.append_assoc] at hafter
    have hall := hbefore.trans hafter
    rw [← List.append_assoc,← List.map_append,wrote,wrote,received,received,← List.filterMap_append,
      ← List.filterMap_append] at hall
    exact hall
  have idle : wrote os = [] →
      (arriving cfg.routeTable n').Sublist (arriving cfg.routeTable n) →
      Inbound cfg.routeTable n' (tr ++ os) := by
    intro hos harriving
    refine step (List.nil_sublist _) ?_
    rw [hos,List.map_nil,List.nil_append,List.append_nil]
    exact harriving
  cases hm with
  | coordIroh free queue answer =>
    rename_i event rest core actions
    refine idle (hnone (by simp)) ?_
    have hwrites := kept.core.writes_once answer
    have hrest := hwrites.append_right (rest.filterMap IrohEvent.packet?)
    rw [← List.filterMap_append] at hrest
    simpa only [arriving,free,queue,List.filterMap_nil,List.map_nil,List.nil_append,
      List.singleton_append] using hrest
  | coordTun free queue answer =>
    refine idle (hnone (by simp)) ?_
    simp only [arriving,free,kept.core.writes_nothing answer (by simp)]
    exact List.Sublist.refl _
  | coordAction hand =>
    rename_i action rest
    have hleft : arriving cfg.routeTable (({ n with hand := rest } : Node K).handleAction action) =
        (rest.filterMap Action.write?).map (Packet.tagged cfg.routeTable) ++
          n.toCoord.filterMap IrohEvent.packet? := by
      rw [handleAction_eq]
      rfl
    refine step (List.nil_sublist _) ?_
    rw [hleft]
    have hwrote := (wrote_action n action).map (Packet.tagged cfg.routeTable)
    simp only [arriving,hand,List.append_nil]
    rw [← List.singleton_append,List.filterMap_append,List.map_append,List.append_assoc]
    exact hwrote.append_right _
  | manager hact own =>
    rename_i act
    refine step (posts_packets quiet act) ?_
    rw [hnone (by simp)]
    simp [arriving]
  | _ => exact idle (hnone (by simp)) (List.Sublist.refl _)

theorem inbound_run {ok : Node K → NodeAct K → Prop} (run : Run system ok (start cfg) n tr) :
    Inbound cfg.routeTable n tr := by
  induction run with
  | nil => exact List.Sublist.refl []
  | snoc a run _ hen ih =>
    exact ih.next (coreKept_run run) (Manager.sendsNoPacket_run (manager_run run)) hen

/-- What is written to the TUN was received before, in this order. -/
theorem wrote_received {ok : Node K → NodeAct K → Prop} (run : Run system ok (start cfg) n tr) :
    ((wrote tr).map (Packet.tagged cfg.routeTable)).Sublist (received tr) :=
  (List.sublist_append_left _ _).trans (inbound_run run)

end Node

namespace Tun
variable {P : Type}

theorem taken_prefix [DecidableEq P] [Buf P] {ok : Tun P → TunAct P → Prop} {capacity : Nat}
    {t : Tun P} {tr : List (TunObs P)} (run : Run system ok (new capacity) t tr) :
    Accounted t tr ∧ tr.filterMap TunObs.taken? <+: tr.filterMap TunObs.sent? := by
  have hall := run_invariant run
    (fun t tr => Accounted t tr ∧ tr.filterMap TunObs.taken? <+: tr.filterMap TunObs.sent?)
    ⟨⟨rfl,rfl,fun _ => rfl⟩,List.prefix_rfl⟩ fun t t' tr os hs hm h => ?_
  · exact hall.2
  · have haccounted := h.1.moved hs hm
    refine ⟨haccounted,?_⟩
    have quiet : os.filterMap TunObs.taken? = [] →
        (tr ++ os).filterMap TunObs.taken? <+: (tr ++ os).filterMap TunObs.sent? := by
      intro hnone
      rw [List.filterMap_append,List.filterMap_append,hnone,List.append_nil]
      exact h.2.trans (List.prefix_append _ _)
    cases hm with
    | writerTakes loop phase queue =>
      rw [haccounted.waiting (hs.not_returned loop)]
      exact List.prefix_append _ _
    | writerEnds loop device awaited pending own idle =>
      rcases idle with ⟨-,rfl⟩ | ⟨packet,kind,-,rfl⟩ <;> exact quiet rfl
    | _ => exact quiet rfl

end Tun

namespace Process
variable {K : Type} [LinearOrder K] {p : Process K} {tr : List (ProcessObs K)}
variable {id : K} {ipv4Addr : Ipv4Addr} {routeTable : RouteTable K}

/-- The packets that the writers have passed to the devices, of whatever iteration. -/
def passed (tr : List (ProcessObs K)) : List Packet :=
  (tr.filterMap tunObs).filterMap TunObs.passed?

/-- The packets that a process passes to its devices are packets it has received, in the order in
which it received them and none more often, and the key at the other end of the connection is
the one that the source address belongs to. -/
theorem passes_in_order (run : Run system anyStep (main id ipv4Addr routeTable) p tr) :
    ((passed tr).map (Packet.tagged routeTable)).Sublist
      (Node.received (tr.filterMap nodeObs)) := by
  obtain ⟨-,node,tun⟩ := views run
  obtain ⟨accounted,earlier⟩ := Tun.taken_prefix tun
  have htaken : (passed tr).Sublist ((tr.filterMap tunObs).filterMap TunObs.taken?) := by
    rw [accounted.passed]
    exact List.sublist_append_left _ _
  have hwrote := htaken.trans earlier.sublist
  rw [sent_wrote run] at hwrote
  exact (hwrote.map _).trans (Node.wrote_received node)

/-- Two datagrams come in one after the other. -/
theorem passes_in_order_two :
    let ping : List UInt8 := [0x45,0,0,20,0,0,0,0,64,0,0,0,10,67,1,2,10,67,1,1]
    ∃ (p : Process Nat) (tr : List (ProcessObs Nat)),
      Run system anyStep (main 1 ⟨10,67,1,1⟩ (AList.insert ⟨10,67,1,2⟩ 2 ∅)) p tr ∧
      passed tr = [⟨5,ping⟩,⟨6,ping⟩] ∧
      ((passed tr).map (Packet.tagged (AList.insert ⟨10,67,1,2⟩ 2 ∅))).Sublist
        (Node.received (tr.filterMap nodeObs)) := by
  let ping : List UInt8 := [0x45,0,0,20,0,0,0,0,64,0,0,0,10,67,1,2,10,67,1,1]
  let conn : Connection Nat := ⟨7,2,false⟩
  let session : Session Nat Packet := ⟨0,conn,false,false,true,[]⟩
  obtain ⟨p,tr,run,h⟩ := @exec_reaches _ _ _ (system (K := Nat)) anyStep _ _
    (main 1 ⟨10,67,1,1⟩ (AList.insert ⟨10,67,1,2⟩ 2 ∅))
    [.tun .create,.node (.manager .effect),.node (.manager (.accepted conn)),
      .node (.manager (.reportAccept conn)),.node (.manager .recvTask),.node (.manager .effect),
      .node (.manager .effect),.node (.manager (.readDatagram session ⟨5,ping⟩)),
      .node (.manager (.readDatagram session ⟨6,ping⟩)),.node .coordIroh,.node .coordIroh,
      .node .coordAction,.node .coordIroh,.node .coordAction,.tun (.recv ⟨1,false,.receiving⟩),
      .tun (.write ⟨1,false,.holding ⟨5,ping⟩⟩ ⟨5,ping⟩),
      .tun (.written ⟨1,false,.writing ⟨5,ping⟩⟩ ⟨5,ping⟩ (.ok 20)),
      .tun (.recv ⟨1,false,.receiving⟩),.tun (.write ⟨1,false,.holding ⟨6,ping⟩⟩ ⟨6,ping⟩)]
    (fun r => decide (passed r.2 = [⟨5,ping⟩,⟨6,ping⟩])) (by decide)
  exact ⟨p,tr,run,of_decide_eq_true h,passes_in_order run⟩

end Process
end MeshNetwork
