import MeshNetwork.Authenticity
import MeshNetwork.ProcessViews
import MeshNetwork.TunPackets

set_option autoImplicit false

namespace MeshNetwork
open Runs

namespace Process
variable {K : Type} [LinearOrder K] {cfg : Config K} {p : Process K} {tr : List (ProcessObs K)}

structure ReadFirst (p : Process K) (tr : List (ProcessObs K)) : Prop where
  waiting : ∀ q ∈ p.tun.toCoord, ∃ d, .read d (.ok q) ∈ tr
  accepted : ∀ q k, .node (.accepted q k) ∈ tr → ∃ d, .read d (.ok q) ∈ tr

theorem node_shown {a : ProcessAct K} {o : NodeObs K} (h : .node o ∈ p.shows a) :
    ∃ act, a = .node act ∧ o ∈ p.node.shows act := by
  have hseen : o ∈ (p.shows a).filterMap nodeObs := List.mem_filterMap.mpr ⟨_,h,rfl⟩
  cases a with
  | tun act =>
    change o ∈ (readShows act ++ (p.tun.shows act).map ProcessObs.tun).filterMap nodeObs at hseen
    rw [nodeObs_tun] at hseen
    simp at hseen
  | node act =>
    change o ∈ ((p.node.shows act).map ProcessObs.node ++
      (p.node.shows act).filterMap sends).filterMap nodeObs at hseen
    rw [nodeObs_node] at hseen
    exact ⟨act,rfl,hseen⟩
  | _ => simp [shows] at h

omit [LinearOrder K] in
theorem receives_read {t : Tun Packet} {act : TunAct Packet} {q : Packet} (h : q ∈ t.receives act) :
    ∃ d, .read d (.ok q) ∈ readShows (K := K) act := by
  cases act with
  | read r result =>
    cases result with
    | error kind => simp [Tun.receives] at h
    | ok packet =>
      simp only [Tun.receives] at h
      repeat' split at h
      all_goals simp only [List.mem_singleton,List.not_mem_nil] at h
      exact ⟨r.device,by simp [readShows,h]⟩
  | _ => simp [Tun.receives] at h

theorem fromTun_next {n : Node K} {a : NodeAct K} (own : a.own = true) (hen : n.enabled a)
    {q : Packet} (h : q ∈ (n.next a).fromTun) : q ∈ n.fromTun := by
  have hm := Node.moved hen
  generalize n.next a = n' at hm h
  generalize n.shows a = os at hm
  cases hm with
  | tunRead data => simp [NodeAct.own] at own
  | coordTun free queue answer =>
    rw [queue]
    exact List.mem_cons_of_mem _ h
  | coordAction hand =>
    rw [Node.handleAction_eq] at h
    exact h
  | _ => exact h

theorem accepted_waiting {n : Node K} {a : NodeAct K} {q : Packet} {k : K}
    (h : .accepted q k ∈ n.shows a) : q ∈ n.fromTun := by
  cases Node.shown h with
  | accepted route =>
    cases hq : n.fromTun with
    | nil => simp [Node.shows,hq] at h
    | cons packet rest =>
      simp only [Node.shows,hq,List.mem_append] at h
      rcases h with htakes | hissues
      · rcases Node.mem_takes htakes with ⟨j,-,heq⟩ | ⟨old,j,heq⟩
        · simp only [NodeObs.accepted.injEq] at heq
          rw [heq.1]
          exact List.mem_cons_self
        · simp at heq
      · obtain ⟨packet',j,heq⟩ := Node.mem_issues hissues
        simp at heq

theorem ReadFirst.next (h : ReadFirst p tr) (assembled : Assembled cfg p) {a : ProcessAct K}
    (hen : p.enabled a) : ReadFirst (p.next a) (tr ++ p.shows a) := by
  have waits : ∀ q ∈ p.tun.toCoord, ∃ d, .read d (.ok q) ∈ tr ++ p.shows a := fun q hq => by
    obtain ⟨d,hd⟩ := h.waiting q hq
    exact ⟨d,List.mem_append_left _ hd⟩
  refine ⟨fun q hq => ?_,fun q k hacc => ?_⟩
  · cases a with
    | tun act =>
      have takes := Tun.next_onlyTakes assembled.running hen.2.1
      rw [show (p.next (.tun act)).tun.toCoord = p.tun.toCoord ++ p.tun.receives act from
        takes.toCoord] at hq
      rcases List.mem_append.mp hq with hold | hnew
      · exact waits q hold
      · obtain ⟨d,hd⟩ := receives_read (K := K) hnew
        exact ⟨d,List.mem_append_right _ (List.mem_append_left _ hd)⟩
    | node act => exact waits q (fromTun_next hen.2.1 hen.2.2.1 hq)
    | _ => exact waits q hq
  · rcases List.mem_append.mp hacc with hold | hnew
    · obtain ⟨d,hd⟩ := h.accepted q k hold
      exact ⟨d,List.mem_append_left _ hd⟩
    · obtain ⟨act,rfl,hshow⟩ := node_shown hnew
      exact waits q (accepted_waiting hshow)

variable {id : K} {ipv4Addr : Ipv4Addr} {routeTable : RouteTable K}

theorem readFirst_run (run : Run system anyStep (main id ipv4Addr routeTable) p tr) :
    ReadFirst p tr := by
  induction run with
  | nil => exact ⟨by simp [main,Tun.new],by simp⟩
  | snoc a run _ hen ih => exact ih.next (views run).1 hen

omit [LinearOrder K] in
theorem own_sends_nothing {t : Tun Packet} {act : TunAct Packet} (own : act.own = true)
    {q : Packet} : .sent q ∉ t.shows act := by
  intro h
  cases act with
  | writerBack event | readerBack event | recv w =>
    simp only [Tun.shows] at h
    split at h <;> simp at h
  | written w packet result => cases result <;> simp [Tun.shows] at h
  | coordSends packet => simp [TunAct.own] at own
  | _ => simp [Tun.shows] at h

def wrote? : NodeObs K → Option Packet
  | .wroteTun packet => some packet
  | _ => none

theorem sent_wrote {ok : Process K → ProcessAct K → Prop} {p₀ : Process K}
    (run : Run system ok p₀ p tr) :
    (tr.filterMap tunObs).filterMap TunObs.sent? = (tr.filterMap nodeObs).filterMap wrote? := by
  induction run with
  | nil => rfl
  | @snoc p tr a run _ hen ih =>
    simp only [List.filterMap_append,ih]
    refine congrArg _ ?_
    cases a with
    | tun act =>
      change ((readShows act ++ (p.tun.shows act).map ProcessObs.tun).filterMap tunObs).filterMap
        TunObs.sent? = ((readShows act ++ (p.tun.shows act).map ProcessObs.tun).filterMap
          nodeObs).filterMap wrote?
      rw [tunObs_tun,nodeObs_tun,List.filterMap_eq_nil_iff.mpr]
      · rfl
      · intro o ho
        cases o with
        | sent q => exact absurd ho (own_sends_nothing hen.2.1)
        | _ => rfl
    | node act =>
      change (((p.node.shows act).map ProcessObs.node ++
        (p.node.shows act).filterMap sends).filterMap tunObs).filterMap TunObs.sent? =
          (((p.node.shows act).map ProcessObs.node ++
            (p.node.shows act).filterMap sends).filterMap nodeObs).filterMap wrote?
      rw [tunObs_node,nodeObs_node,List.filterMap_filterMap]
      refine List.filterMap_congr fun o _ => ?_
      cases o <;> rfl
    | _ => rfl

theorem passed_shown {t : Tun Packet} {act : TunAct Packet} {d : Nat} {q : Packet}
    (h : .passed d q ∈ t.shows act) : ∃ w, act = .write w q := by
  cases act with
  | write w packet =>
    simp only [Tun.shows,List.mem_singleton,TunObs.passed.injEq] at h
    rw [h.2]
    exact ⟨w,rfl⟩
  | writerBack event | readerBack event | recv w =>
    simp only [Tun.shows] at h
    split at h <;> simp at h
  | written w packet result => cases result <;> simp [Tun.shows] at h
  | _ => simp [Tun.shows] at h

/-- What a writer is about to pass to its device, the coordinator has written to the TUN more
often than it was passed to a device before. -/
theorem passed_fewer (run : Run system anyStep (main id ipv4Addr routeTable) p tr)
    {a : ProcessAct K} (hen : p.enabled a) {d : Nat} {q : Packet}
    (h : .tun (.passed d q) ∈ p.shows a) :
    ((tr.filterMap tunObs).filterMap TunObs.passed?).count q <
      ((tr.filterMap nodeObs).filterMap wrote?).count q := by
  obtain ⟨supervised,accounted⟩ := Tun.run_invariant (views run).2.2 Tun.Accounted
    ⟨rfl,rfl,fun _ => rfl⟩ fun _ _ _ _ hs hm h => h.moved hs hm
  rcases tun_shown h with ⟨act,rfl,hshow⟩ | ⟨act,packet,-,heq,-⟩
  · obtain ⟨w,rfl⟩ := passed_shown hshow
    obtain ⟨hw,hphase⟩ : w ∈ p.tun.writers ∧ w.phase = .holding q := hen.2.2.1
    have loop := (supervised.writer hw).1
    have hheld : p.tun.inHand = [q] := by
      rw [Tun.inHand_single loop]
      simp [hphase,WriterPhase.held?]
    rw [← sent_wrote run,accounted.waiting (supervised.not_returned loop),accounted.passed,hheld]
    simp only [List.count_append,List.count_singleton_self]
    omega
  · simp at heq

theorem passed_wrote (run : Run system anyStep (main id ipv4Addr routeTable) p tr)
    {a : ProcessAct K} (hen : p.enabled a) {d : Nat} {q : Packet}
    (h : .tun (.passed d q) ∈ p.shows a) : .node (.wroteTun q) ∈ tr := by
  have hmem := List.count_pos_iff.mp (Nat.zero_lt_of_lt (passed_fewer run hen h))
  obtain ⟨o,ho,hq⟩ := List.mem_filterMap.mp hmem
  obtain ⟨x,hx,hnode⟩ := List.mem_filterMap.mp ho
  cases o <;> simp [wrote?] at hq
  cases x <;> simp [nodeObs] at hnode
  rw [hnode,hq] at hx
  exact hx

end Process

section Network
variable {K : Type} [LinearOrder K]

def onDevices (honest : K → Prop) (allows : List (K × NodeObs K) → K → NodeObs K → Prop) :
    Net K (Process K) (ProcessAct K) (ProcessObs K) where
  system := Process.system
  member := honest
  ok := fun _ => anyStep
  allows := fun tr k o =>
    match o with
    | .node x => allows (seenBy Process.nodeObs tr) k x
    | .tun _ | .read _ _ => True

section Decide
variable (honest : K → Prop) (allows : List (K × NodeObs K) → K → NodeObs K → Prop)

instance [DecidablePred honest] : DecidablePred (onDevices honest allows).member :=
  inferInstanceAs (DecidablePred honest)

instance (k : K) (p : Process K) (a : ProcessAct K) :
    Decidable ((onDevices honest allows).ok k p a) := inferInstanceAs (Decidable True)

instance (p : Process K) (a : ProcessAct K) :
    Decidable ((onDevices honest allows).system.enabled p a) :=
  inferInstanceAs (Decidable (p.enabled a))

instance [∀ tr k o, Decidable (allows tr k o)] (tr : List (K × ProcessObs K)) (k : K)
    (o : ProcessObs K) : Decidable ((onDevices honest allows).allows tr k o) :=
  match o with
  | .node x => inferInstanceAs (Decidable (allows (seenBy Process.nodeObs tr) k x))
  | .tun _ | .read _ _ => inferInstanceAs (Decidable True)

end Decide

theorem onDevices_view (honest : K → Prop)
    (allows : List (K × NodeObs K) → K → NodeObs K → Prop) (ipv4Addr : K → Ipv4Addr)
    (routeTable : K → RouteTable K) :
    NetProjects (onDevices honest allows) ⟨Node.system,honest,fun _ => anyStep,allows⟩
      (fun k => Process.Assembled (.main k (ipv4Addr k) (routeTable k))) Process.node
      Process.nodeObs where
  member _ h := h
  steps k := Process.node_view _
  allows tr k o o' hseen hall := by
    cases o with
    | node x =>
      simp only [Process.nodeObs,Option.some.injEq] at hseen
      rw [← hseen]
      exact hall
    | _ => simp [Process.nodeObs] at hseen

theorem onDevices_run {honest : K → Prop} {allows : List (K × NodeObs K) → K → NodeObs K → Prop}
    {ipv4Addr : K → Ipv4Addr} {routeTable : K → RouteTable K} {s : K → Process K}
    {tr : List (K × ProcessObs K)} (run : NetRun (onDevices honest allows)
      (fun k => Process.main k (ipv4Addr k) (routeTable k)) s tr) :
    (∀ k, Process.Assembled (.main k (ipv4Addr k) (routeTable k)) (s k)) ∧
      NetRun ⟨Node.system,honest,fun _ => anyStep,allows⟩
        (fun k => Node.start (.main k (ipv4Addr k) (routeTable k))) (fun k => (s k).node)
        (seenBy Process.nodeObs tr) :=
  (onDevices_view honest allows ipv4Addr routeTable).run
    (fun _ => Process.main_assembled _ _ _) run

/-- A network in which the honest nodes run this program on their devices. Of the transport
nothing is assumed but that it delivers on a connection what was sent on it. -/
abbrev processNet (honest : K → Prop) : Net K (Process K) (ProcessAct K) (ProcessObs K) :=
  onDevices honest (nodeNet honest).allows

structure FromDevice (honest : K → Prop) (ipv4Addr : K → Ipv4Addr) (routeTable : K → RouteTable K)
    (B : K) (p : Packet) (tr : List (K × ProcessObs K)) : Prop where
  dest : (Ipv4Packet.header p).destIp = ipv4Addr B
  source : ∃ conn : Connection K,
    (routeTable B).lookup (Ipv4Packet.header p).srcIp = some conn.remoteId ∧
      (B,.node (.manager (.received conn p))) ∈ tr
  /-- The owner of the source address, when it is honest, read the same bytes from its device. -/
  read : ∀ A, (routeTable B).lookup (Ipv4Packet.header p).srcIp = some A → honest A →
    (Ipv4Packet.header p).srcIp = ipv4Addr A ∧
      (routeTable A).lookup (ipv4Addr B) = some B ∧
      ∃ d q, (A,.read d (.ok q)) ∈ tr ∧ Buf.bytes q = Buf.bytes p

variable {honest : K → Prop} {ipv4Addr : K → Ipv4Addr} {routeTable : K → RouteTable K}
variable {s : K → Process K} {tr : List (K × ProcessObs K)}

theorem member_run_process (run : NetRun (processNet honest)
    (fun k => Process.main k (ipv4Addr k) (routeTable k)) s tr) (k : K) :
    Run Process.system anyStep (Process.main k (ipv4Addr k) (routeTable k)) (s k) (view k tr) :=
  run.project k

/-- A network of processes behaves as one of nodes does, with a supervisor of the TUN at each. -/
structure NetRefines (honest : K → Prop) (ipv4Addr : K → Ipv4Addr) (routeTable : K → RouteTable K)
    (s : K → Process K) (tr : List (K × ProcessObs K)) : Prop where
  nodes : NetRun (nodeNet honest) (fun k => Node.start (.main k (ipv4Addr k) (routeTable k)))
    (fun k => (s k).node) (seenBy Process.nodeObs tr)
  tuns : ∀ k, Run Tun.system anyStep (.new 8192) (s k).tun
    ((view k tr).filterMap Process.tunObs)

/-- What the tasks of all processes do together, in whatever order, is what a network of nodes
can do, and on the side of the TUN what the supervisor can do. -/
theorem processes_refine_nodes (run : NetRun (processNet honest)
    (fun k => Process.main k (ipv4Addr k) (routeTable k)) s tr) :
    NetRefines honest ipv4Addr routeTable s tr :=
  ⟨(onDevices_run run).2,fun k => (Process.views (member_run_process run k)).2.2⟩

/-- A packet is read from the second device, the first having failed before. -/
theorem processes_refine_nodes_reconnect :
    let ping : List UInt8 := [0x45,0,0,20,0,0,0,0,64,0,0,0,10,67,1,1,10,67,1,2]
    let ipv4Addr : Nat → Ipv4Addr := fun _ => ⟨10,67,1,1⟩
    let routeTable : Nat → RouteTable Nat := fun _ => AList.insert ⟨10,67,1,2⟩ 2 ∅
    ∃ (s : Nat → Process Nat) (tr : List (Nat × ProcessObs Nat)),
      NetRun (processNet fun k => k = 1) (fun k => Process.main k (ipv4Addr k) (routeTable k)) s
        tr ∧
      (1,.node (.accepted ⟨0,ping⟩ 2)) ∈ tr ∧ (s 1).tun.created = 2 ∧
      NetRefines (fun k => k = 1) ipv4Addr routeTable s tr := by
  let ping : List UInt8 := [0x45,0,0,20,0,0,0,0,64,0,0,0,10,67,1,1,10,67,1,2]
  obtain ⟨s,tr,run,h⟩ := @netExec_reaches _ _ _ _ _ (processNet (K := Nat) fun k => k = 1) _ _ _ _
    (fun k => Process.main k ⟨10,67,1,1⟩ (AList.insert ⟨10,67,1,2⟩ 2 ∅))
    [(1,.tun .create),(1,.tun (.read ⟨1,false⟩ (.error .connectionReset))),(1,.tun .noticeReader),
      (1,.tun (.stopWriter ⟨1,true,.receiving⟩)),(1,.tun (.writerBack .reconnectRequired)),
      (1,.tun .create),(1,.tun (.read ⟨2,false⟩ (.ok ⟨0,ping⟩))),(1,.node .coordTun)]
    (fun r => decide ((1,.node (.accepted ⟨0,ping⟩ 2)) ∈ r.2 ∧ (r.1 1).tun.created = 2))
    (by decide)
  obtain ⟨hacc,hcreated⟩ := of_decide_eq_true h
  exact ⟨s,tr,run,hacc,hcreated,processes_refine_nodes run⟩

/-- Every packet that a node gives its TUN device to write came over a connection with the key
that its source address belongs to; when that key is honest, its node has read the packet from
a TUN device of its own, where the packet had the address of that node as its source. -/
theorem device_packets_authentic (run : NetRun (processNet honest)
    (fun k => Process.main k (ipv4Addr k) (routeTable k)) s tr) {B : K} {d : Nat} {p : Packet}
    {u v : List (K × ProcessObs K)} (hpassed : tr = u ++ (B,.tun (.passed d p)) :: v) :
    FromDevice honest ipv4Addr routeTable B p u := by
  obtain ⟨s₁,u₁,l₁,run₁,hu₁,-,-,hen₁,hshow₁,-⟩ := run.made hpassed
  have hwrote : (B,NodeObs.wroteTun p) ∈ seenBy Process.nodeObs u₁ :=
    mem_seenBy.mpr ⟨_,mem_view.mp
      (Process.passed_wrote (member_run_process run₁ B) hen₁ hshow₁),rfl⟩
  have nodes : NetRun (nodeNet honest) _ _ _ := (onDevices_run run₁).2
  -- the network of nodes, before `B` wrote the packet to its TUN
  obtain ⟨before,after,htr⟩ := List.append_of_mem hwrote
  obtain ⟨n,u₂,l₂,nodes₂,hu₂,-,-,-,hshow₂,-⟩ := nodes.made htr
  have older : ∀ {k : K} {o : NodeObs K}, (k,o) ∈ u₂ → (k,.node o) ∈ u₁ := by
    intro k o hmem
    have hin : (k,o) ∈ seenBy Process.nodeObs u₁ := by
      rw [htr]
      exact List.mem_append_left _ (hu₂.subset hmem)
    obtain ⟨x,hx,hseen⟩ := mem_seenBy.mp hin
    cases x <;> simp [Process.nodeObs] at hseen
    rw [hseen] at hx
    exact hx
  obtain ⟨hdest,conn,hroute,hrec⟩ :=
    Node.wrote_fromPeer (Node.traced_run (nodes₂.project B)) hshow₂
  have hrec' := mem_view.mp hrec
  refine ⟨hdest,⟨conn,hroute,hu₁.subset (older hrec')⟩,fun A hA honestA => ?_⟩
  obtain rfl : conn.remoteId = A := Option.some.inj (hroute.symm.trans hA)
  obtain ⟨q,hbytes,hacc⟩ := received_accepted nodes₂ hrec' honestA
  have hown : q ∈ accepted B (view conn.remoteId u₂) :=
    List.mem_filterMap.mpr ⟨_,mem_view.mpr hacc,by simp [NodeObs.acceptedFor]⟩
  obtain ⟨hsrc,hback⟩ := Node.accepted_own (nodes₂.project conn.remoteId) hown
  rw [header_congr hbytes] at hsrc hback
  rw [hdest] at hback
  obtain ⟨d',hd'⟩ := (Process.readFirst_run (member_run_process run₁ conn.remoteId)).accepted q B
    (mem_view.mpr (older hacc))
  exact ⟨hsrc,hback,d',q,hu₁.subset (mem_view.mp hd'),hbytes⟩

/-- Node 2 reads a ping from its device, and node 1 passes it to its own. -/
theorem device_packets_authentic_ping :
    let ping : List UInt8 := [0x45,0,0,20,0,0,0,0,64,0,0,0,10,67,1,2,10,67,1,1]
    let ipv4Addr : Nat → Ipv4Addr := fun k => if k = 1 then ⟨10,67,1,1⟩ else ⟨10,67,1,2⟩
    let routeTable : Nat → RouteTable Nat := fun k =>
      if k = 1 then AList.insert ⟨10,67,1,2⟩ 2 ∅ else AList.insert ⟨10,67,1,1⟩ 1 ∅
    ∃ (s : Nat → Process Nat) (u : List (Nat × ProcessObs Nat)),
      NetRun (processNet fun k => k = 1 ∨ k = 2)
        (fun k => Process.main k (ipv4Addr k) (routeTable k)) s
        (u ++ [(1,.tun (.passed 1 ⟨5,ping⟩))]) ∧
      FromDevice (fun k => k = 1 ∨ k = 2) ipv4Addr routeTable 1 ⟨5,ping⟩ u := by
  let ping : List UInt8 := [0x45,0,0,20,0,0,0,0,64,0,0,0,10,67,1,2,10,67,1,1]
  let ipv4Addr : Nat → Ipv4Addr := fun k => if k = 1 then ⟨10,67,1,1⟩ else ⟨10,67,1,2⟩
  let routeTable : Nat → RouteTable Nat := fun k =>
    if k = 1 then AList.insert ⟨10,67,1,2⟩ 2 ∅ else AList.insert ⟨10,67,1,1⟩ 1 ∅
  let near : Connection Nat := ⟨7,2,false⟩
  let far : Connection Nat := ⟨7,1,true⟩
  obtain ⟨s,tr,run,h⟩ := @netExec_reaches _ _ _ _ _
    (processNet (K := Nat) fun k => k = 1 ∨ k = 2) _ _ _ _
    (fun k => Process.main k (ipv4Addr k) (routeTable k))
    [(1,.tun .create),(2,.tun .create),(1,.node (.manager .effect)),(2,.node (.manager .effect)),
      (2,.node (.manager (.attempt ⟨0,1,false,none⟩ 7))),(1,.node (.manager (.accepted near))),
      (2,.node (.manager (.dialed ⟨0,1,false,none⟩ 7))),
      (1,.node (.manager (.reportAccept near))),
      (2,.node (.manager (.reportDial ⟨0,1,false,some far⟩))),(1,.node (.manager .recvTask)),
      (1,.node (.manager .effect)),(1,.node (.manager .effect)),(2,.node (.manager .recvTask)),
      (2,.node (.manager .effect)),(2,.node (.manager .effect)),(2,.node .coordIroh),
      (2,.tun (.read ⟨1,false⟩ (.ok ⟨0,ping⟩))),(2,.node .coordTun),(2,.node .coordAction),
      (2,.node .managerCore),(2,.node (.manager .effect)),
      (2,.node (.manager (.sendDatagram ⟨1,far,false,false,true,[⟨0,ping⟩]⟩ .sent))),
      (1,.node (.manager (.readDatagram ⟨0,near,false,false,true,[]⟩ ⟨5,ping⟩))),
      (1,.node .coordIroh),(1,.node .coordIroh),(1,.node .coordAction),
      (1,.tun (.recv ⟨1,false,.receiving⟩)),
      (1,.tun (.write ⟨1,false,.holding ⟨5,ping⟩⟩ ⟨5,ping⟩))]
    (fun r => decide (r.2.getLast? = some (1,.tun (.passed 1 ⟨5,ping⟩)))) (by decide)
  obtain ⟨u,htr⟩ := List.getLast?_eq_some_iff.mp (of_decide_eq_true h)
  subst htr
  exact ⟨s,u,run,device_packets_authentic run rfl⟩

end Network
end MeshNetwork
