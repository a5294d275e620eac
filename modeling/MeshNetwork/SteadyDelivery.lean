import MeshNetwork.Inbound
import MeshNetwork.Resilience
import MeshNetwork.SteadyLink

set_option autoImplicit false

namespace MeshNetwork
open Runs

section Takes
variable {K : Type} [DecidableEq K]

def Config.takes (cfg : Config K) (pk : K) (p : Packet) : Bool :=
  match (VpnCore.new cfg.ipv4Addr cfg.routeTable cfg.maxPacketSize : VpnCore K Packet)
    |>.verifyRecvPacket p pk with
  | some (.ok _) => true
  | _ => false

theorem CoreInvariant.takes_iff {cfg : Config K} {core : VpnCore K Packet}
    (h : CoreInvariant cfg.ipv4Addr cfg.routeTable cfg.maxPacketSize core) {pk : K} {p : Packet} :
    cfg.takes pk p = true ↔ core.RecvOk p pk := by
  let fresh : VpnCore K Packet := VpnCore.new cfg.ipv4Addr cfg.routeTable cfg.maxPacketSize
  have hnew : CoreInvariant cfg.ipv4Addr cfg.routeTable cfg.maxPacketSize fresh :=
    VpnCore.new_invariant _ _ _
  have htakes : cfg.takes pk p = true ↔ fresh.RecvOk p pk := by
    rw [← VpnCore.verifyRecvPacket_ok]
    obtain ⟨r,hr⟩ := fresh.verifyRecvPacket_total p pk
    unfold Config.takes
    change (match fresh.verifyRecvPacket p pk with | some (.ok _) => true | _ => false) = true ↔ _
    rw [hr]
    cases r <;> simp
  rw [htakes]
  constructor
  · rintro ⟨long,version,size,total,src,dest⟩
    exact ⟨long,version,by rw [h.size,← hnew.size]; exact size,total,
      by rw [h.routes,← hnew.routes]; exact src,by rw [h.addr,← hnew.addr]; exact dest⟩
  · rintro ⟨long,version,size,total,src,dest⟩
    exact ⟨long,version,by rw [hnew.size,← h.size]; exact size,total,
      by rw [hnew.routes,← h.routes]; exact src,by rw [hnew.addr,← h.addr]; exact dest⟩

def Config.owes (cfg : Config K) (pk : K) (p : Packet) : Bool :=
  decide (cfg.routeTable.lookup (Ipv4Packet.header p).srcIp = some pk)

def IrohEvent.from? (pk : K) : IrohEvent K Packet → Option Packet
  | .recvPacketFrom packet pubKey => if pubKey = pk then some packet else none
  | _ => none

def NodeObs.receivedFrom? (pk : K) : NodeObs K → Option Packet
  | .manager (.received conn packet) => if conn.remoteId = pk then some packet else none
  | _ => none

theorem CoreInvariant.writes_from {cfg : Config K} {core next : VpnCore K Packet}
    (h : CoreInvariant cfg.ipv4Addr cfg.routeTable cfg.maxPacketSize core)
    {actions : List (Action K Packet)} {event : IrohEvent K Packet}
    (hp : core.process (mapIrohEventToCoreEvent event) = some (next,actions)) (pk : K) :
    (actions.filterMap Action.write?).filter (cfg.owes pk) =
      ([event].filterMap (IrohEvent.from? pk)).filter (cfg.takes pk) := by
  cases event with
  | recvPacketFrom packet k =>
    have hreply : core.process (.packetFromIroh packet k) =
        some (core,[core.reply (.packetFromIroh packet k)]) := VpnCore.process_reply rfl
    simp only [mapIrohEventToCoreEvent,hreply,Option.some.injEq,Prod.mk.injEq] at hp
    obtain ⟨-,rfl⟩ := hp
    obtain ⟨r,hr⟩ := core.verifyRecvPacket_total packet k
    have htakes : cfg.takes k packet = true ↔ core.RecvOk packet k := h.takes_iff
    rw [← VpnCore.verifyRecvPacket_ok,hr] at htakes
    simp only [VpnCore.reply,hr]
    cases r with
    | error e =>
      have hno : cfg.takes k packet = false := by simpa using htakes
      by_cases hk : k = pk
      · subst hk
        simp [Action.write?,IrohEvent.from?,hno]
      · simp [Action.write?,IrohEvent.from?,hk]
    | ok u =>
      have hyes : cfg.takes k packet = true := htakes.mpr rfl
      have hsrc := (VpnCore.verifyRecvPacket_ok.mp hr).src
      rw [h.routes] at hsrc
      by_cases hk : k = pk
      · subst hk
        simp [Action.write?,IrohEvent.from?,Config.owes,hsrc,hyes]
      · simp [Action.write?,IrohEvent.from?,Config.owes,hsrc,hk]
  | connectedToPeer k | disconnectedFromPeer k =>
    rw [h.writes_nothing hp (by simp [mapIrohEventToCoreEvent])]
    rfl

end Takes

namespace Node
variable {K : Type} [LinearOrder K] {cfg : Config K} {n : Node K} {tr : List (NodeObs K)}

def receivedFrom (pk : K) (tr : List (NodeObs K)) : List Packet :=
  tr.filterMap (NodeObs.receivedFrom? pk)

def wroteFrom (cfg : Config K) (pk : K) (tr : List (NodeObs K)) : List Packet :=
  (wrote tr).filter (cfg.owes pk)

/-- The packets from `pk` on their way to the TUN, those left out that will not get there. -/
def incoming (cfg : Config K) (pk : K) (n : Node K) : List Packet :=
  (n.hand.filterMap Action.write?).filter (cfg.owes pk) ++
    (n.toCoord.filterMap (IrohEvent.from? pk)).filter (cfg.takes pk)

theorem receivedFrom_shows (n : Node K) {a : NodeAct K} (h : ∀ act, a ≠ .manager act) (pk : K) :
    receivedFrom pk (n.shows a) = [] := by
  rw [receivedFrom,List.filterMap_eq_nil_iff]
  intro o ho
  cases shown ho with
  | manager own => exact absurd rfl (h _)
  | _ => rfl

theorem posts_from (quiet : Manager.SendsNoPacket n.manager) {pk : K} {act : Act K Packet}
    (roomy : n.Roomy pk (.manager act)) : (n.posts act).filterMap (IrohEvent.from? pk) =
      receivedFrom pk ((n.manager.shows act).map .manager) := by
  have silent : (∀ s packet, act ≠ .readDatagram s packet) →
      receivedFrom pk ((n.manager.shows act).map .manager) = [] := by
    intro hne
    rw [receivedFrom,List.filterMap_eq_nil_iff]
    intro o ho
    obtain ⟨x,hx,rfl⟩ := List.mem_map.mp ho
    cases Manager.shown hx with
    | received s packet => exact absurd rfl (hne s packet)
    | _ => rfl
  cases act with
  | effect =>
    rw [silent (by simp),List.filterMap_eq_nil_iff]
    intro event hevent
    simp only [posts] at hevent
    split at hevent
    · rename_i ev rest hpc
      rw [List.mem_singleton.mp hevent]
      cases ev with
      | recvPacketFrom p k => exact absurd (by rw [hpc]; exact List.mem_cons_self) (quiet p k)
      | _ => rfl
    · simp at hevent
  | readDatagram s packet =>
    by_cases hk : s.connection.remoteId = pk
    · simp [posts,roomy hk,receivedFrom,Manager.shows,NodeObs.receivedFrom?,IrohEvent.from?,hk]
    · simp only [posts]
      split <;> simp [receivedFrom,Manager.shows,NodeObs.receivedFrom?,IrohEvent.from?,hk]
  | _ => exact (silent (by simp)).symm

theorem receives (kept : CoreKept cfg n) (quiet : Manager.SendsNoPacket n.manager) {pk : K}
    {a : NodeAct K} (hen : n.enabled a) (roomy : n.Roomy pk a) :
    wroteFrom cfg pk (n.shows a) ++ (n.next a).incoming cfg pk =
      n.incoming cfg pk ++ (receivedFrom pk (n.shows a)).filter (cfg.takes pk) := by
  have hwrote : a ≠ .coordAction → wroteFrom cfg pk (n.shows a) = [] := by
    intro ha
    rw [wroteFrom,wrote_shows n ha]
    rfl
  have hreceived : (∀ act, a ≠ .manager act) → receivedFrom pk (n.shows a) = [] :=
    fun h => n.receivedFrom_shows h pk
  have hm := moved hen
  generalize n.next a = n' at hm
  generalize n.shows a = os at hm hwrote hreceived
  cases hm with
  | coordIroh free queue answer =>
    rename_i event rest core actions
    rw [hwrote (by simp),hreceived (by simp)]
    have hwrites := kept.core.writes_from answer pk
    simp only [incoming,free,queue,hwrites,List.filterMap_nil,List.filter_nil,List.nil_append,
      List.append_nil]
    rw [← List.filter_append,← List.filterMap_append,List.singleton_append]
  | coordTun free queue answer =>
    rw [hwrote (by simp),hreceived (by simp)]
    simp [incoming,free,kept.core.writes_nothing answer (by simp)]
  | coordAction hand =>
    rename_i action rest
    have hfits := roomy action (by simp [hand])
    rw [hreceived (by simp),handleAction_eq]
    have hshown : wroteFrom cfg pk (n.actionShows action) =
        ([action].filterMap Action.write?).filter (cfg.owes pk) := by
      cases action with
      | writeToTun packet =>
        by_cases howes : cfg.owes pk packet = true
        · have hroom : n.toTun.length < n.cfg.toTunCapacity := hfits (by
            rw [kept.sameCfg]
            simpa [Config.owes] using howes)
          simp [wroteFrom,wrote,actionShows,hroom,Process.wrote?,Action.write?]
        · simp only [actionShows]
          split <;> simp [wroteFrom,wrote,Process.wrote?,Action.write?,howes]
      | sendPacketTo packet k =>
        simp only [actionShows]
        split <;> rfl
      | _ => rfl
    simp only [incoming,hand,hshown,List.filter_nil,List.append_nil]
    rw [← List.append_assoc,← List.filter_append,← List.filterMap_append,List.singleton_append]
  | manager hact own =>
    rename_i act
    rw [hwrote (by simp),List.nil_append,← posts_from quiet roomy]
    simp [incoming]
  | _ =>
    rw [hwrote (by simp),hreceived (by simp)]
    simp [incoming,next]

theorem receives_run (run₀ : Run system anyStep (start cfg) n tr) {pk : K} {n' : Node K}
    {os : List (NodeObs K)} (run : Run system (Roomy pk) n n' os) :
    wroteFrom cfg pk os ++ n'.incoming cfg pk =
      n.incoming cfg pk ++ (receivedFrom pk os).filter (cfg.takes pk) := by
  induction run with
  | nil => simp [wroteFrom,wrote,receivedFrom]
  | @snoc n' os a run hok hen ih =>
    have whole := run₀.trans (run.mono fun _ _ _ => trivial)
    have hstep := receives (coreKept_run whole) (Manager.sendsNoPacket_run (manager_run whole))
      hen hok
    have hwrote : wroteFrom cfg pk (os ++ n'.shows a) =
        wroteFrom cfg pk os ++ wroteFrom cfg pk (n'.shows a) := by
      simp only [wroteFrom,wrote,List.filterMap_append,List.filter_append]
    have hreceived : receivedFrom pk (os ++ n'.shows a) =
        receivedFrom pk os ++ receivedFrom pk (n'.shows a) := List.filterMap_append
    change wroteFrom cfg pk (os ++ n'.shows a) ++ (n'.next a).incoming cfg pk =
      n.incoming cfg pk ++ (receivedFrom pk (os ++ n'.shows a)).filter (cfg.takes pk)
    rw [hwrote,hreceived,List.append_assoc,hstep,← List.append_assoc,ih,List.filter_append,
      List.append_assoc]

/-- From rest to rest everything that the core lets through is written, and in order. -/
theorem Quiet.writes_received (quiet : n.Quiet) (run₀ : Run system anyStep (start cfg) n tr)
    {pk : K} {n' : Node K} {os : List (NodeObs K)} (run : Run system (Roomy pk) n n' os)
    (quiet' : n'.Quiet) :
    wroteFrom cfg pk os = (receivedFrom pk os).filter (cfg.takes pk) := by
  have hflow := receives_run run₀ run
  simpa [incoming,quiet.hand,quiet.toCoord,quiet'.hand,quiet'.toCoord] using hflow

theorem Steady.sentTo_eq {t : TaskId} {c : Connection K} (h : n.Steady t c)
    (run₀ : Run system anyStep (start cfg) n tr) {n' : Node K} {os : List (NodeObs K)}
    (run : Run system (Undisturbed c.remoteId) n n' os) :
    sentTo c.remoteId os = Manager.sentOver c (managerView os) := by
  induction run with
  | nil => rfl
  | @snoc n' os a run hok hen ih =>
    have whole := run₀.trans (run.mono fun _ _ _ => trivial)
    have steady := (h.run run₀ run).1
    change sentTo c.remoteId (os ++ n'.shows a) =
      Manager.sentOver c (managerView (os ++ n'.shows a))
    rw [managerView_append,sentTo,Manager.sentOver,List.filterMap_append,List.filterMap_append]
    refine congrArg₂ _ ih ?_
    rw [managerView,List.filterMap_filterMap]
    refine List.filterMap_congr fun o ho => ?_
    cases shown ho with
    | manager own =>
      cases Manager.shown own with
      | @sent s packet queued =>
        have hs : s ∈ n'.manager.sessions := hen.1.1
        simp only [NodeObs.manager?,Option.bind_some]
        rcases steady.manager.session_cases (dialsBelow whole).wired hs with ⟨hc,-⟩ | ⟨-,hk⟩
        · simp [hc]
        · have hc : s.connection ≠ c := fun hc => hk (by rw [hc])
          simp [hk,hc]
      | _ => rfl
    | _ => rfl

end Node

section Network
variable {K : Type} [LinearOrder K] {honest : K → Prop} {cfg : K → Config K} {s s' : K → Node K}
variable {tr u : List (K × NodeObs K)} {X Y : K} {c : Connection K}

/-- The network while the connection between two nodes stands and no channel that a packet of the
one for the other comes to is full. All other nodes and connections do as they like. -/
def steadyNet (honest : K → Prop) (X Y : K) : Net K (Node K) (NodeAct K) (NodeObs K) :=
  { vpnNet honest with
    ok := fun k n a => (k = X → n.Undisturbed Y a) ∧ (k = Y → n.Undisturbed X a) }

instance [DecidablePred honest] : DecidablePred (steadyNet honest X Y).member :=
  inferInstanceAs (DecidablePred honest)

instance (k : K) (n : Node K) (a : NodeAct K) : Decidable ((steadyNet honest X Y).ok k n a) :=
  inferInstanceAs (Decidable ((k = X → n.Undisturbed Y a) ∧ (k = Y → n.Undisturbed X a)))

instance (n : Node K) (a : NodeAct K) : Decidable ((steadyNet honest X Y).system.enabled n a) :=
  inferInstanceAs (Decidable (n.enabled a))

instance [DecidablePred honest] (tr : List (K × NodeObs K)) (k : K) (o : NodeObs K) :
    Decidable ((steadyNet honest X Y).allows tr k o) :=
  inferInstanceAs (Decidable ((vpnNet honest).allows tr k o))

theorem member_path (run : NetRun (vpnNet honest) (fun k => Node.start (cfg k)) s tr)
    (path : NetPath (steadyNet honest X Y) s tr s' (tr ++ u)) (k : K) :
    Run Node.system anyStep (Node.start (cfg k)) (s k) (view k tr) ∧
      Run Node.system ((steadyNet honest X Y).ok k) (s k) (s' k) (view k u) := by
  obtain ⟨u',heq,own⟩ := path.project k
  rw [List.append_cancel_left heq]
  exact ⟨member_run run k,own⟩

/-- While the connection between two nodes stands and no channel on the way is full, they stay
connected, and when the transport has delivered what the one has sent to the other, exactly the
packets that the one has accepted for the other are written to the TUN there, in order. -/
theorem steady_link_delivers (run : NetRun (vpnNet honest) (fun k => Node.start (cfg k)) s tr)
    (known : Mutual X Y (cfg X) (cfg Y)) (joined : Joined X Y (s X) (s Y) c)
    (path : NetPath (steadyNet honest X Y) s tr s' (tr ++ u)) (quiet : (s' X).Quiet)
    (quiet' : (s' Y).Quiet)
    (delivered : Node.receivedFrom X (view Y u) = Node.sentTo Y (view X u)) :
    Joined X Y (s' X) (s' Y) c ∧ Node.wroteFrom (cfg Y) X (view Y u) =
      (accepted Y (view X u)).filter fun p =>
        decide ((Ipv4Packet.header p).destIp = (cfg Y).ipv4Addr) := by
  obtain ⟨runX,ownX⟩ := member_path run path X
  obtain ⟨runY,ownY⟩ := member_path run path Y
  obtain ⟨t,hl⟩ := joined.near
  obtain ⟨t',hl'⟩ := joined.far
  have steadyX := joined.quiet.steady runX known.lists.1 hl
  have steadyY := joined.quiet'.steady runY known.lists.2 hl'
  obtain rfl : c.remoteId = Y := (Node.dialsBelow runX).wired.named Y t c hl
  have ownX := ownX.mono fun n a h => h.1 rfl
  have ownY := ownY.mono fun n a h => h.2 rfl
  have wholeX := runX.trans (ownX.mono fun _ _ _ => trivial)
  have wholeY := runY.trans (ownY.mono fun _ _ _ => trivial)
  refine ⟨⟨quiet,quiet',⟨t,(steadyX.run runX ownX).1.manager.entry⟩,t',
    (steadyY.run runY ownY).1.manager.entry⟩,?_⟩
  have hsent := joined.quiet.sends_accepted runX steadyX ownX quiet
  rw [← steadyX.sentTo_eq runX ownX,← delivered] at hsent
  rw [joined.quiet'.writes_received runY (ownY.mono fun _ _ h => h.2) quiet',hsent]
  refine List.filter_congr fun p hp => ?_
  have kept := (Node.coreKept_run wholeY).core
  have haccepted : (Node.start (cfg X)).core.acceptedFor p = some c.remoteId :=
    Node.accepted_start wholeX (by
      rw [accepted_append]
      exact List.mem_append_right _ hp)
  rw [Bool.eq_iff_iff,decide_eq_true_eq,kept.takes_iff]
  exact ⟨fun h => h.dest.trans kept.addr,fun h => known.checked kept haccepted h p.ticket⟩

/-- Two pings of node 1 to node 2. -/
theorem steady_link_delivers_two :
    let ping : List UInt8 := [0x45,0,0,20,0,0,0,0,64,0,0,0,10,67,1,1,10,67,1,2]
    let cfg : Nat → Config Nat := fun k =>
      if k = 1 then .main 1 ⟨10,67,1,1⟩ (AList.insert ⟨10,67,1,2⟩ 2 ∅)
      else .main 2 ⟨10,67,1,2⟩ (AList.insert ⟨10,67,1,1⟩ 1 ∅)
    let honest : Nat → Prop := fun k => k = 1 ∨ k = 2
    ∃ (s s' : Nat → Node Nat) (tr u : List (Nat × NodeObs Nat)),
      NetRun (vpnNet honest) (fun k => Node.start (cfg k)) s tr ∧
      NetPath (steadyNet honest 1 2) s tr s' (tr ++ u) ∧
      accepted 2 (view 1 u) = [⟨0,ping⟩,⟨1,ping⟩] ∧
      Node.wroteFrom (cfg 2) 1 (view 2 u) = (accepted 2 (view 1 u)).filter fun p =>
        decide ((Ipv4Packet.header p).destIp = (cfg 2).ipv4Addr) := by
  intro ping cfg honest
  let near : Connection Nat := ⟨7,2,false⟩
  let far : Connection Nat := ⟨7,1,true⟩
  let p : Packet := ⟨0,ping⟩
  let q : Packet := ⟨1,ping⟩
  let sender : Session Nat Packet := ⟨0,near,false,false,true,[]⟩
  let receiver : Session Nat Packet := ⟨1,far,false,false,true,[]⟩
  let settled : (Nat → Node Nat) → Bool := fun s =>
    settledWith (s 1) sender && settledWith (s 2) receiver
  let after : (Nat → Node Nat) × List (Nat × NodeObs Nat) → List (Nat × NodeObs Nat) →
      List (Nat × NodeObs Nat) := fun r tr => r.2.drop tr.length
  obtain ⟨s,tr,run,h⟩ := @netExec_reaches _ _ _ _ _ (vpnNet (K := Nat) fun k => k = 1 ∨ k = 2)
    _ _ _ _ (fun k => Node.start (cfg k))
    [(1,.manager .effect),(2,.manager .effect),(2,.manager (.attempt ⟨0,1,false,none⟩ 7)),
      (1,.manager (.accepted near)),(2,.manager (.dialed ⟨0,1,false,none⟩ 7)),
      (1,.manager (.reportAccept near)),
      (2,.manager (.reportDial ⟨0,1,false,some far⟩)),(2,.manager .recvTask),
      (2,.manager .effect),(2,.manager .effect),(1,.manager .recvTask),(1,.manager .effect),
      (1,.manager .effect),(1,.coordIroh),(2,.coordIroh)]
    (fun r => settled r.1 &&
      decide ((r.1 1).manager.iroh.stateTable.lookup 2 = some (.connected 0 near) ∧
        (r.1 2).manager.iroh.stateTable.lookup 1 = some (.connected 1 far)) &&
      (netExec (steadyNet (fun k => k = 1 ∨ k = 2) 1 2) r.1 r.2
        [(1,.tunRead ping),(1,.tunRead ping),(1,.coordTun),(1,.coordAction),(1,.managerCore),
          (1,.manager .effect),(1,.coordTun),(1,.coordAction),(1,.managerCore),
          (1,.manager .effect),(1,.manager (.sendDatagram { sender with packetChannel := [p,q] } .sent)),
          (1,.manager (.sendDatagram { sender with packetChannel := [q] } .sent)),
          (2,.manager (.readDatagram receiver p)),(2,.manager (.readDatagram receiver q)),
          (2,.coordIroh),(2,.coordAction),(2,.coordIroh),(2,.coordAction),(2,.tunWrite),
          (2,.tunWrite)]).any fun r' => settled r'.1 &&
            decide (accepted 2 (view 1 (after r' r.2)) = [p,q] ∧
              Node.receivedFrom 1 (view 2 (after r' r.2)) = Node.sentTo 2 (view 1 (after r' r.2))))
    (by decide)
  simp only [Bool.and_eq_true,decide_eq_true_eq,Option.any_eq_true] at h
  obtain ⟨⟨hs,hnear,hfar⟩,⟨s',tr'⟩,hexec,hs',hacc,hdel⟩ := h
  have path := netExec_path .nil hexec
  obtain ⟨u,rfl,-⟩ := path.project 1
  simp only [settled,Bool.and_eq_true] at hs hs'
  simp only [after,List.drop_left] at hacc hdel
  obtain ⟨quiet,-⟩ := settledWith_spec hs.1 ⟨rfl,rfl,rfl⟩ rfl
  obtain ⟨quiet',-⟩ := settledWith_spec hs.2 ⟨rfl,rfl,rfl⟩ rfl
  obtain ⟨rest,-⟩ := settledWith_spec hs'.1 ⟨rfl,rfl,rfl⟩ rfl
  obtain ⟨rest',-⟩ := settledWith_spec hs'.2 ⟨rfl,rfl,rfl⟩ rfl
  have known : Mutual 1 2 (cfg 1) (cfg 2) := ⟨rfl,rfl,by decide,by decide,Nat.le_refl _⟩
  exact ⟨s,s',tr,u,run,path,hacc,(steady_link_delivers run known
    ⟨quiet,quiet',⟨0,hnear⟩,1,hfar⟩ path rest rest' hdel).2⟩

end Network
end MeshNetwork
