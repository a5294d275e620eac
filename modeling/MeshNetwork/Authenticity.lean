import MeshNetwork.Agreement
import MeshNetwork.PacketChannels
import MeshNetwork.Transport

/-!
A packet that a node writes to its TUN comes from the peer that its source address
belongs to. Nothing is assumed about nodes that do not run this program.
-/

set_option autoImplicit false

namespace MeshNetwork
open Runs

namespace Manager
variable {K B : Type} [LinearOrder K]

def ChannelsHanded (m : Manager K B) (tr : List (Obs K B)) : Prop :=
  ∀ x ∈ m.sessions, ∀ p ∈ x.packetChannel, .handed x.connection p ∈ tr

theorem ChannelsHanded.next {m : Manager K B} {tr : List (Obs K B)} (h : ChannelsHanded m tr)
    (hw : m.Wired) {l : Act K B} (hen : m.enabled l) :
    ChannelsHanded (m.next l) (tr ++ m.shows l) := by
  have earlier : ∀ x ∈ m.sessions, ∀ p ∈ x.packetChannel, .handed x.connection p ∈ tr ++ m.shows l :=
    fun x hx p hp => List.mem_append_left _ (h x hx p hp)
  intro x' hx' p hp
  by_cases hshow : ∃ c q, .handed c q ∈ m.shows l
  · obtain ⟨c,q,hq⟩ := hshow
    obtain ⟨before,x,after,hs,rfl,hnext⟩ := hw.puts hq
    rw [hs] at earlier
    rw [hnext] at hx'
    rcases List.mem_append.mp hx' with hbefore | hrest
    · exact earlier x' (List.mem_append_left _ hbefore) p hp
    · rcases List.mem_cons.mp hrest with rfl | hafter
      · rcases List.mem_append.mp hp with hold | hnew
        · exact earlier x (List.mem_append_right _ List.mem_cons_self) p hold
        · rw [List.mem_singleton.mp hnew]
          exact List.mem_append_right _ hq
      · exact earlier x' (List.mem_append_right _ (List.mem_cons_of_mem _ hafter)) p hp
  · cases hw.channelFrom hen (fun c q hq => hshow ⟨c,q,hq⟩) x' hx' with
    | new empty fresh => simp [empty] at hp
    | same mem same =>
      rw [same.connection]
      exact earlier _ mem p (same.packetChannel ▸ hp)
    | first mem taken task connection packetChannel =>
      rw [connection]
      exact earlier _ mem p (List.mem_of_mem_tail (packetChannel ▸ hp))

theorem channelsHanded_run {ok : Manager K B → Act K B → Prop} {id : K} {peers : KeySet K}
    {channelCapacity : Nat} {m : Manager K B} {tr : List (Obs K B)}
    (run : Runs.Run system ok (start id peers channelCapacity) m tr) : ChannelsHanded m tr := by
  induction run with
  | nil =>
    intro x hx
    simp [start] at hx
  | snoc l run hok hen ih => exact ih.next (wired_run run) hen

theorem sent_handed {m : Manager K B} {tr : List (Obs K B)} (h : ChannelsHanded m tr) {l : Act K B}
    (hen : m.enabled l) {c : Connection K} {p : B} (hshow : .sent c p ∈ m.shows l) :
    .handed c p ∈ tr := by
  cases shown hshow with
  | sent hqueued => exact h _ hen.1 p hqueued

def SendsNoPacket (m : Manager K B) : Prop := ∀ p k, .send (.recvPacketFrom p k) ∉ m.pc

theorem SendsOnce.noPacket {iroh : Iroh K} {effects : List (Effect K B)}
    (h : SendsOnce iroh effects) (p : B) (k : K) : .send (.recvPacketFrom p k) ∉ effects := by
  intro hmem
  have hsent : .recvPacketFrom p k ∈ sends effects := List.mem_filterMap.mpr ⟨_,hmem,rfl⟩
  rcases h with hs | ⟨k',hs⟩ | ⟨k',hs,-⟩
  all_goals
    rw [hs] at hsent
    simp at hsent

theorem SendsNoPacket.next {m : Manager K B} (h : SendsNoPacket m) {l : Act K B}
    (hen : m.enabled l) : SendsNoPacket (m.next l) := by
  have hm := moved hen
  generalize hnext : m.next l = m' at hm
  cases hm with
  | handle idle queue reaction => exact (reaction_truthful reaction).2.noPacket
  | core idle reaction => exact (coreReaction_truthful reaction).2.noPacket
  | effect hpc =>
    intro p k hmem
    exact h p k (by rw [hpc]; exact List.mem_cons_of_mem _ hmem)
  | task own =>
    intro p k hmem
    rw [← hnext,task_pc m own] at hmem
    exact h p k hmem

theorem sendsNoPacket_run {ok : Manager K B → Act K B → Prop} {id : K} {peers : KeySet K}
    {channelCapacity : Nat} {m : Manager K B} {tr : List (Obs K B)}
    (run : Runs.Run system ok (start id peers channelCapacity) m tr) : SendsNoPacket m := by
  refine run.invariant (fun m _ => SendsNoPacket m) (fun p k hmem => ?_)
    fun _ _ _ h _ hen => h.next hen
  obtain ⟨k',-,⟨-,he⟩ | ⟨-,he⟩⟩ := Iroh.mem_init hmem <;> simp at he

end Manager

theorem CoreInvariant.writes {K B : Type} [DecidableEq K] [Buf B] {ipv4Addr : Ipv4Addr}
    {routeTable : RouteTable K} {maxPacketSize : Nat} {core next : VpnCore K B}
    (h : CoreInvariant ipv4Addr routeTable maxPacketSize core) {ev : Event K B}
    {actions : List (Action K B)} (hp : core.process ev = some (next,actions)) {p : B}
    (hmem : .writeToTun p ∈ actions) :
    ∃ source, ev = .packetFromIroh p source ∧ core.RecvOk p source := by
  cases ht : core.target ev with
  | none =>
    rw [VpnCore.process_reply ht] at hp
    simp only [Option.some.injEq,Prod.mk.injEq] at hp
    obtain ⟨rfl,rfl⟩ := hp
    simp only [List.mem_singleton] at hmem
    cases ev with
    | packetFromIroh packet source =>
      obtain ⟨r,hr⟩ := core.verifyRecvPacket_total packet source
      cases r with
      | error e => simp [VpnCore.reply,hr] at hmem
      | ok u =>
        simp only [VpnCore.reply,hr,Action.writeToTun.injEq] at hmem
        subst hmem
        exact ⟨source,rfl,VpnCore.verifyRecvPacket_ok.mp hr⟩
    | packetFromTun packet =>
      simp only [VpnCore.reply] at hmem
      split at hmem <;> simp at hmem
    | _ => simp [VpnCore.reply] at hmem
  | some r =>
    obtain ⟨k,input⟩ := r
    obtain ⟨s,hs⟩ := h.target_known ht
    rw [VpnCore.process_target ht hs] at hp
    simp only [Option.some.injEq,Prod.mk.injEq] at hp
    obtain ⟨rfl,rfl⟩ := hp
    cases input <;> simp only [PeerState.actions] at hmem <;> repeat' split at hmem
    all_goals simp at hmem

namespace Node
variable {K : Type} [LinearOrder K]

def FromPeer (cfg : Config K) (p : Packet) (tr : List (NodeObs K)) : Prop :=
  (Ipv4Packet.header p).destIp = cfg.ipv4Addr ∧ ∃ conn : Connection K,
    cfg.routeTable.lookup (Ipv4Packet.header p).srcIp = some conn.remoteId ∧
      .manager (.received conn p) ∈ tr

/-- Every datagram on its way to the TUN was received from the key it is tagged with. -/
structure Traced (cfg : Config K) (n : Node K) (tr : List (NodeObs K)) : Prop where
  queued : ∀ p k, .recvPacketFrom p k ∈ n.toCoord →
    ∃ conn : Connection K, conn.remoteId = k ∧ .manager (.received conn p) ∈ tr
  hand : ∀ p, .writeToTun p ∈ n.hand → FromPeer cfg p tr

omit [LinearOrder K] in
theorem FromPeer.later {cfg : Config K} {p : Packet} {tr os : List (NodeObs K)}
    (h : FromPeer cfg p tr) : FromPeer cfg p (tr ++ os) := by
  obtain ⟨hd,conn,hr,hrec⟩ := h
  exact ⟨hd,conn,hr,List.mem_append_left _ hrec⟩

omit [LinearOrder K] in
theorem posts_received {n : Node K} (h : Manager.SendsNoPacket n.manager) {act : Act K Packet}
    {p : Packet} {k : K} (hp : .recvPacketFrom p k ∈ n.posts act) :
    ∃ conn : Connection K, conn.remoteId = k ∧ .received conn p ∈ n.manager.shows act := by
  cases act with
  | effect =>
    simp only [posts] at hp
    split at hp
    · rename_i event rest hpc
      rw [List.mem_singleton] at hp
      subst hp
      exact absurd (by rw [hpc]; exact List.mem_cons_self) (h p k)
    · simp at hp
  | readDatagram s packet =>
    simp only [posts] at hp
    split at hp
    · simp only [List.mem_singleton,IrohEvent.recvPacketFrom.injEq] at hp
      obtain ⟨rfl,rfl⟩ := hp
      exact ⟨s.connection,rfl,List.mem_cons_self⟩
    · simp at hp
  | _ => simp [posts] at hp

theorem Traced.next {cfg : Config K} {n : Node K} {tr : List (NodeObs K)}
    (kept : CoreKept cfg n) (quiet : Manager.SendsNoPacket n.manager) (h : Traced cfg n tr)
    {a : NodeAct K} (hen : n.enabled a) : Traced cfg (n.next a) (tr ++ n.shows a) := by
  have hm := moved hen
  generalize n.next a = n' at hm
  generalize n.shows a = os at hm
  have older : ∀ p k, .recvPacketFrom p k ∈ n.toCoord →
      ∃ conn : Connection K, conn.remoteId = k ∧ .manager (.received conn p) ∈ tr ++ os := by
    intro p k hp
    obtain ⟨conn,hk,hrec⟩ := h.queued p k hp
    exact ⟨conn,hk,List.mem_append_left _ hrec⟩
  cases hm with
  | coordIroh free queue answer =>
    rename_i event rest core actions
    refine ⟨fun p k hp => older p k (by rw [queue]; exact List.mem_cons_of_mem _ hp),
      fun p hp => ?_⟩
    obtain ⟨source,hev,hok⟩ := kept.core.writes answer hp
    cases event with
    | recvPacketFrom packet k =>
      simp only [mapIrohEventToCoreEvent,Event.packetFromIroh.injEq] at hev
      obtain ⟨rfl,rfl⟩ := hev
      obtain ⟨conn,rfl,hrec⟩ := older packet k (by rw [queue]; exact List.mem_cons_self)
      refine ⟨?_,conn,?_,hrec⟩
      · rw [hok.dest,kept.core.addr]
      · rw [← kept.core.routes]
        exact hok.src
    | _ => simp [mapIrohEventToCoreEvent] at hev
  | coordTun free queue answer =>
    refine ⟨older,fun p hp => ?_⟩
    obtain ⟨source,hev,-⟩ := kept.core.writes answer hp
    simp at hev
  | coordAction hand =>
    rw [handleAction_eq]
    refine ⟨older,fun p hp => (h.hand p ?_).later⟩
    rw [hand]
    exact List.mem_cons_of_mem _ hp
  | manager hact own =>
    refine ⟨fun p k hp => ?_,fun p hp => (h.hand p hp).later⟩
    rcases List.mem_append.mp hp with hold | hnew
    · exact older p k hold
    · obtain ⟨conn,hk,hrec⟩ := posts_received quiet hnew
      exact ⟨conn,hk,List.mem_append_right _ (List.mem_map_of_mem hrec)⟩
  | _ => exact ⟨older,fun p hp => (h.hand p hp).later⟩

theorem traced_run {cfg : Config K} {ok : Node K → NodeAct K → Prop} {n : Node K}
    {tr : List (NodeObs K)} (run : Run system ok (start cfg) n tr) : Traced cfg n tr := by
  induction run with
  | nil => exact ⟨fun p k hp => by simp [start] at hp,fun p hp => by simp [start] at hp⟩
  | snoc a run hok hen ih =>
    exact ih.next (coreKept_run run) (Manager.sendsNoPacket_run (manager_run run)) hen

theorem wrote_fromPeer {cfg : Config K} {n : Node K} {tr : List (NodeObs K)}
    (h : Traced cfg n tr) {a : NodeAct K} {p : Packet} (hshow : .wroteTun p ∈ n.shows a) :
    FromPeer cfg p tr := by
  cases shown hshow with
  | wroteTun hhand => exact h.hand p hhand

/-- A node shows a packet as written when it puts the packet into the channel to the TUN. -/
theorem wroteTun_iff {n : Node K} {a : NodeAct K} (hen : n.enabled a) (p : Packet) :
    .wroteTun p ∈ n.shows a ↔ (n.next a).toTun = n.toTun ++ [p] := by
  have silent : a ≠ .coordAction → .wroteTun p ∉ n.shows a := by
    intro hne hshow
    cases shown hshow with
    | wroteTun hand => exact hne rfl
  have hm := moved hen
  generalize n.next a = n' at hm
  generalize hos : n.shows a = os at hm silent
  cases hm with
  | coordAction hand =>
    rename_i action rest
    cases action with
    | writeToTun packet =>
      simp only [actionShows,handleAction]
      by_cases room : n.toTun.length < n.cfg.toTunCapacity
      · simp [room,eq_comm]
      · simp [room]
    | sendPacketTo packet k =>
      simp only [actionShows,handleAction]
      by_cases room : n.toIroh.length < n.cfg.irohCapacity <;> simp [room]
    | _ => simp [actionShows,handleAction]
  | tunWrite =>
    refine iff_of_false (silent (by simp)) fun h => ?_
    have hlen := congrArg List.length h
    simp only [List.length_tail,List.length_append,List.length_singleton] at hlen
    omega
  | tunRead data => exact iff_of_false (silent (by simp)) (by simp [next])
  | _ => exact iff_of_false (silent (by simp)) (by simp)

theorem sent_accepted {cfg : Config K} {ok : Node K → NodeAct K → Prop} {n : Node K}
    {tr : List (NodeObs K)} (run : Run system ok (start cfg) n tr) {a : NodeAct K}
    (hen : n.enabled a) {conn : Connection K} {p : Packet}
    (hshow : .manager (.sent conn p) ∈ n.shows a) : p ∈ accepted conn.remoteId tr := by
  have hhanded : .manager (.handed conn p) ∈ tr := by
    cases shown hshow with
    | manager own =>
      exact mem_managerView.mp
        (Manager.sent_handed (Manager.channelsHanded_run (manager_run run)) hen.1 own)
  have hmem : p ∈ handed conn.remoteId tr :=
    List.mem_filterMap.mpr ⟨_,hhanded,by simp [NodeObs.handedTo]⟩
  exact (carried_run run conn.remoteId).order.subset (List.mem_append_left _ hmem)

end Node

section Network
variable {K : Type} [LinearOrder K]

def managerTrace (tr : List (K × NodeObs K)) : List (K × Obs K Packet) :=
  tr.filterMap fun x => x.2.manager?.map (Prod.mk x.1)

/-- A network in which the honest nodes run this program, and whatever the others do
shows only in what connections deliver. Of the transport nothing else is assumed. -/
def nodeNet (honest : K → Prop) : Net K (Node K) (NodeAct K) (NodeObs K) where
  system := Node.system
  member := honest
  ok := fun _ => anyStep
  allows := fun tr k o =>
    match o with
    | .manager (.received conn packet) =>
      transportAllows honest (managerTrace tr) k (.received conn packet)
    | _ => True

omit [LinearOrder K] in
theorem mem_managerTrace {tr : List (K × NodeObs K)} {k : K} {o : Obs K Packet}
    (h : (k,o) ∈ managerTrace tr) : (k,.manager o) ∈ tr := by
  obtain ⟨⟨j,x⟩,hx,heq⟩ := List.mem_filterMap.mp h
  cases x <;> simp [NodeObs.manager?] at heq
  obtain ⟨rfl,rfl⟩ := heq
  exact hx

/-- What is known of a packet that `B` has written to its TUN after `tr`. -/
structure Authentic (honest : K → Prop) (cfg : K → Config K) (B : K) (p : Packet)
    (tr : List (K × NodeObs K)) : Prop where
  dest : (Ipv4Packet.header p).destIp = (cfg B).ipv4Addr
  source : ∃ conn : Connection K,
    (cfg B).routeTable.lookup (Ipv4Packet.header p).srcIp = some conn.remoteId ∧
      (B,.manager (.received conn p)) ∈ tr
  /-- The owner of the source address, when it is honest, accepted the same bytes for `B`. -/
  accepted : ∀ A, (cfg B).routeTable.lookup (Ipv4Packet.header p).srcIp = some A → honest A →
    ∃ q, Buf.bytes q = Buf.bytes p ∧ (A,.accepted q B) ∈ tr ∧
      (Ipv4Packet.header q).srcIp = (Ipv4Packet.header p).srcIp ∧
      (Ipv4Packet.header q).destIp = (cfg B).ipv4Addr

section Decide
variable (honest : K → Prop) [DecidablePred honest]

instance : DecidablePred (nodeNet honest).member := inferInstanceAs (DecidablePred honest)

instance (k : K) (n : Node K) (a : NodeAct K) : Decidable ((nodeNet honest).ok k n a) :=
  inferInstanceAs (Decidable True)

instance (n : Node K) (a : NodeAct K) : Decidable ((nodeNet honest).system.enabled n a) :=
  inferInstanceAs (Decidable (n.enabled a))

instance (tr : List (K × NodeObs K)) (k : K) (o : NodeObs K) :
    Decidable ((nodeNet honest).allows tr k o) := by
  simp only [nodeNet]
  split <;> infer_instance

end Decide

variable {honest : K → Prop} {cfg : K → Config K} {s : K → Node K} {tr : List (K × NodeObs K)}

/-- A datagram that came from an honest node was accepted there for the one it came to. -/
theorem received_accepted (run : NetRun (nodeNet honest) (fun k => Node.start (cfg k)) s tr)
    {B : K} {conn : Connection K} {p : Packet} (hrec : (B,.manager (.received conn p)) ∈ tr)
    (hA : honest conn.remoteId) :
    ∃ q, Buf.bytes q = Buf.bytes p ∧ (conn.remoteId,.accepted q B) ∈ tr := by
  obtain ⟨u,hu,hall⟩ := run.allowed hrec
  obtain ⟨q,hq,hbytes⟩ := hall hA
  have hsent := hu.subset (mem_managerTrace (mem_sentOn hq))
  obtain ⟨before,after,htr⟩ := List.append_of_mem hsent
  obtain ⟨s',u',l,run',hu',-,-,hen,hshow,-⟩ := run.made htr
  have hacc := Node.sent_accepted (run'.project conn.remoteId) hen hshow
  have hmem := mem_view.mp (Node.mem_accepted hacc)
  have hpre : u' <+: tr := hu'.trans (by rw [htr]; exact List.prefix_append _ _)
  exact ⟨q,hbytes,hpre.subset hmem⟩

theorem header_congr {p q : Packet} (h : Buf.bytes q = Buf.bytes p) :
    Ipv4Packet.header q = Ipv4Packet.header p := by
  simp only [Ipv4Packet.header,Ipv4Packet.byte,len,h]

/-- Every packet that a node writes to its TUN comes from the key its source address
belongs to; when that key is honest, its node has read the packet from its own TUN. -/
theorem tun_sources_authentic
    (run : NetRun (nodeNet honest) (fun k => Node.start (cfg k)) s tr) {B : K} {p : Packet}
    {u v : List (K × NodeObs K)} (hwrote : tr = u ++ (B,.wroteTun p) :: v) :
    Authentic honest cfg B p u := by
  obtain ⟨s',u',l,run',hu,-,-,-,hshow,-⟩ := run.made hwrote
  obtain ⟨hdest,conn,hroute,hrec⟩ :=
    Node.wrote_fromPeer (Node.traced_run (run'.project B)) hshow
  have hrec' := mem_view.mp hrec
  refine ⟨hdest,⟨conn,hroute,hu.subset hrec'⟩,fun A hA honestA => ?_⟩
  rw [hroute,Option.some.injEq] at hA
  subst hA
  obtain ⟨q,hbytes,hacc⟩ := received_accepted run' hrec' honestA
  refine ⟨q,hbytes,hu.subset hacc,?_,?_⟩
  · rw [header_congr hbytes]
  · rw [header_congr hbytes]
    exact hdest

/-- Node 2 dials node 1, which then receives a ping from it. -/
theorem tun_sources_authentic_ping :
    let ping : List UInt8 := [0x45,0,0,20,0,0,0,0,64,0,0,0,10,67,1,2,10,67,1,1]
    let cfg : Nat → Config Nat := fun k =>
      if k = 1 then .main 1 ⟨10,67,1,1⟩ (AList.insert ⟨10,67,1,2⟩ 2 ∅)
      else .main 2 ⟨10,67,1,2⟩ (AList.insert ⟨10,67,1,1⟩ 1 ∅)
    ∃ (s : Nat → Node Nat) (u : List (Nat × NodeObs Nat)),
      NetRun (nodeNet fun k => k = 1 ∨ k = 2) (fun k => Node.start (cfg k)) s
        (u ++ [(1,.wroteTun ⟨5,ping⟩)]) ∧
      Authentic (fun k => k = 1 ∨ k = 2) cfg 1 ⟨5,ping⟩ u := by
  let ping : List UInt8 := [0x45,0,0,20,0,0,0,0,64,0,0,0,10,67,1,2,10,67,1,1]
  let cfg : Nat → Config Nat := fun k =>
    if k = 1 then .main 1 ⟨10,67,1,1⟩ (AList.insert ⟨10,67,1,2⟩ 2 ∅)
    else .main 2 ⟨10,67,1,2⟩ (AList.insert ⟨10,67,1,1⟩ 1 ∅)
  let near : Connection Nat := ⟨7,2,false⟩
  let far : Connection Nat := ⟨7,1,true⟩
  obtain ⟨s,tr,run,h⟩ := @netExec_reaches _ _ _ _ _
    (nodeNet (K := Nat) fun k => k = 1 ∨ k = 2) _ _ _ _ (fun k => Node.start (cfg k))
    [(1,.manager .effect),(2,.manager .effect),(2,.manager (.attempt ⟨0,1,false,none⟩ 7)),
      (1,.manager (.accepted near)),(2,.manager (.dialed ⟨0,1,false,none⟩ 7)),
      (1,.manager (.reportAccept near)),(2,.manager (.reportDial ⟨0,1,false,some far⟩)),
      (1,.manager .recvTask),(1,.manager .effect),(1,.manager .effect),(2,.manager .recvTask),
      (2,.manager .effect),(2,.manager .effect),(2,.coordIroh),(2,.tunRead ping),(2,.coordTun),
      (2,.coordAction),(2,.managerCore),(2,.manager .effect),
      (2,.manager (.sendDatagram ⟨1,far,false,false,true,[⟨0,ping⟩]⟩ .sent)),
      (1,.manager (.readDatagram ⟨0,near,false,false,true,[]⟩ ⟨5,ping⟩)),
      (1,.coordIroh),(1,.coordIroh),(1,.coordAction)]
    (fun r => decide (r.2.getLast? = some (1,.wroteTun ⟨5,ping⟩))) (by decide)
  obtain ⟨u,htr⟩ := List.getLast?_eq_some_iff.mp (of_decide_eq_true h)
  subst htr
  exact ⟨s,u,run,tun_sources_authentic run rfl⟩

end Network
end MeshNetwork
