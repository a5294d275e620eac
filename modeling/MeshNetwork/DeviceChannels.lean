import MeshNetwork.Datagrams
import MeshNetwork.DeviceAuthenticity
import MeshNetwork.Inbound
import MeshNetwork.LossyChannels
import MeshNetwork.Resilience

set_option autoImplicit false

namespace MeshNetwork
open Runs

namespace Node
variable {K : Type} [LinearOrder K] {cfg : Config K} {n : Node K} {tr : List (NodeObs K)}

/-- A packet that left on two connections has left twice. -/
theorem sent_one_connection (run : Run system anyStep (start cfg) n tr) {c c' : Connection K}
    {p : Packet} (h : .manager (.sent c p) ∈ tr) (h' : .manager (.sent c' p) ∈ tr)
    (same : c'.remoteId = c.remoteId) : c = c' := by
  by_contra hne
  have hcount := List.nodup_iff_count_le_one.mp (sentTo_distinct run c.remoteId) p
  rw [count_sentTo] at hcount
  have htwo := add_le_total (f := Obs.sends (fun x => x.remoteId = c.remoteId) p)
    (mem_managerView.mpr h) (mem_managerView.mpr h') (by
      intro heq
      simp only [Obs.sent.injEq] at heq
      exact hne heq.1)
  simp [Obs.sends,same] at htwo
  omega

omit [LinearOrder K] in
theorem mem_received {pk : K} {p : Packet} (h : (p,some pk) ∈ received tr) :
    ∃ conn : Connection K, conn.remoteId = pk ∧ .manager (.received conn p) ∈ tr := by
  obtain ⟨o,ho,hp⟩ := List.mem_filterMap.mp h
  cases o with
  | manager x =>
    cases x with
    | received conn packet =>
      simp only [NodeObs.received?,Option.some.injEq,Prod.mk.injEq] at hp
      obtain ⟨rfl,hk⟩ := hp
      exact ⟨conn,hk,ho⟩
    | _ => simp [NodeObs.received?] at hp
  | _ => simp [NodeObs.received?] at hp

theorem received_shows {n : Node K} {a : NodeAct K} {pk : K} {p : Packet}
    (h : (p,some pk) ∈ received (n.shows a)) :
    ∃ conn : Connection K, conn.remoteId = pk ∧ n.shows a = [.manager (.received conn p)] := by
  obtain ⟨conn,hk,hmem⟩ := mem_received h
  refine ⟨conn,hk,?_⟩
  cases shown hmem with
  | manager own =>
    cases Manager.shown own with
    | received s packet => rfl

end Node

section Network
variable {K : Type} [LinearOrder K]

/-- Of the transport it is assumed that it delivers a datagram between honest nodes as it was
sent on the connection, and at most once. The number of a packet tells equal ones apart. -/
def exactNet (honest : K → Prop) : Net K (Node K) (NodeAct K) (NodeObs K) where
  system := Node.system
  member := honest
  ok := fun _ => anyStep
  allows := fun tr k o =>
    match o with
    | .manager (.received conn packet) => honest conn.remoteId →
      packet ∈ sentOn (managerTrace tr) conn.remoteId (otherEnd k conn) ∧
        (k,.manager (.received conn packet)) ∉ tr
    | _ => True

section Decide
variable (honest : K → Prop) [DecidablePred honest]

instance : DecidablePred (exactNet honest).member := inferInstanceAs (DecidablePred honest)

instance (k : K) (n : Node K) (a : NodeAct K) : Decidable ((exactNet honest).ok k n a) :=
  inferInstanceAs (Decidable True)

instance (n : Node K) (a : NodeAct K) : Decidable ((exactNet honest).system.enabled n a) :=
  inferInstanceAs (Decidable (n.enabled a))

instance (tr : List (K × NodeObs K)) (k : K) (o : NodeObs K) :
    Decidable ((exactNet honest).allows tr k o) :=
  match o with
  | .manager (.received conn packet) =>
    inferInstanceAs (Decidable (honest conn.remoteId →
      packet ∈ sentOn (managerTrace tr) conn.remoteId (otherEnd k conn) ∧
        ¬ (k,.manager (.received conn packet)) ∈ tr))
  | .manager (.emitted _) | .manager (.dialSpawned _) | .manager (.attempted _ _)
  | .manager (.dialed _) | .manager (.accepted _) | .manager (.installed _)
  | .manager (.sent _ _) | .manager (.handed _ _) | .manager (.channelFull _ _)
  | .manager (.notConnected _ _) | .processed _ | .accepted _ _ | .evicted _ _ | .issued _ _
  | .irohFull _ _ | .wroteTun _ => inferInstanceAs (Decidable True)

end Decide

section Received
variable {honest : K → Prop} {cfg : K → Config K} {s : K → Node K} {tr : List (K × NodeObs K)}

omit [LinearOrder K] in
theorem otherEnd_inj {k : K} {c c' : Connection K} (same : c.remoteId = c'.remoteId)
    (h : otherEnd k c = otherEnd k c') : c = c' := by
  simp only [otherEnd,Connection.mk.injEq,Bool.not_inj_iff] at h
  obtain ⟨serial,remoteId,outgoing⟩ := c
  obtain ⟨serial',remoteId',outgoing'⟩ := c'
  simp only at same h
  rw [same,h.1,h.2.2]

theorem received_sent (run : NetRun (exactNet honest) (fun k => Node.start (cfg k)) s tr) {B : K}
    {conn : Connection K} {p : Packet} (hrec : (B,.manager (.received conn p)) ∈ tr)
    (hA : honest conn.remoteId) :
    (conn.remoteId,.manager (.sent (otherEnd B conn) p)) ∈ tr := by
  obtain ⟨u,hu,hall⟩ := run.allowed hrec
  exact hu.subset (mem_managerTrace (mem_sentOn (hall hA).1))

theorem received_once (run : NetRun (exactNet honest) (fun k => Node.start (cfg k)) s tr) {A : K}
    (hA : honest A) (B : K) (p : Packet) :
    (Node.received (view B tr)).count (p,some A) ≤ 1 := by
  induction run with
  | nil => exact Nat.zero_le 1
  | @snoc s tr j a run hj hok hen hall ih =>
    rw [view_append]
    by_cases hB : B = j
    · subst hB
      rw [view_self,Node.received,List.filterMap_append,List.count_append]
      by_cases hnew : (p,some A) ∈ Node.received ((s B).shows a)
      · obtain ⟨conn,rfl,hshow⟩ := Node.received_shows hnew
        have hone : (((exactNet honest).system.shows (s B) a).filterMap
            NodeObs.received?).count (p,some conn.remoteId) = 1 := by
          change (((s B).shows a).filterMap NodeObs.received?).count _ = 1
          rw [hshow]
          simp [NodeObs.received?]
        have hnone : ((view B tr).filterMap NodeObs.received?).count
            (p,some conn.remoteId) = 0 := by
          rw [List.count_eq_zero]
          intro hold
          obtain ⟨conn',hk,hmem⟩ := Node.mem_received hold
          have hbefore := mem_view.mp hmem
          obtain ⟨hsent,hfresh⟩ := hall (.manager (.received conn p)) (by
            change _ ∈ (s B).shows a
            rw [hshow]
            exact List.mem_cons_self) hA
          have hsent' := received_sent run hbefore (by rw [hk]; exact hA)
          rw [hk] at hsent'
          have hend := Node.sent_one_connection (run.project conn.remoteId)
            (mem_view.mpr (mem_managerTrace (mem_sentOn hsent))) (mem_view.mpr hsent') rfl
          rw [otherEnd_inj hk.symm hend] at hfresh
          exact hfresh hbefore
        omega
      · have hnone : (((exactNet honest).system.shows (s B) a).filterMap
            NodeObs.received?).count (p,some A) = 0 := List.count_eq_zero.mpr hnew
        rw [hnone]
        exact ih
    · rw [view_ne hB,List.append_nil]
      exact ih

end Received

section Passed
variable {honest : K → Prop} {ipv4Addr : K → Ipv4Addr} {routeTable : K → RouteTable K}
variable {s : K → Process K} {tr : List (K × ProcessObs K)}

theorem passed_once (run : NetRun (onDevices honest (exactNet honest).allows)
    (fun k => Process.main k (ipv4Addr k) (routeTable k)) s tr) {A B : K} (hA : honest A)
    {a : ProcessAct K} (hen : (s B).enabled a) {d : Nat} {p : Packet}
    (hshow : .tun (.passed d p) ∈ (s B).shows a)
    (hsrc : (routeTable B).lookup (Ipv4Packet.header p).srcIp = some A) :
    (∀ d, (B,.tun (.passed d p)) ∉ tr) ∧ (∃ d, (A,.read d (.ok p)) ∈ tr) ∧
      (VpnCore.new (ipv4Addr A) (routeTable A) 1100).acceptedFor p = some B := by
  have nodes : NetRun (exactNet honest) _ _ _ := (onDevices_run run).2
  have fewer := Process.passed_fewer (run.project B) hen hshow
  have order := Node.wrote_received (nodes.project B)
  have once := received_once nodes hA B p
  rw [view_seenBy] at order once
  have hcount := order.count_le (p,some A)
  have htag : Packet.tagged (routeTable B) p = (p,some A) := by simp [Packet.tagged,hsrc]
  have hwrote := List.count_map_of_injective (Node.wrote ((view B tr).filterMap Process.nodeObs))
    (Packet.tagged (routeTable B)) (fun x y h => congrArg Prod.fst h) p
  rw [htag] at hwrote
  change _ < (Node.wrote _).count p at fewer
  change ((Node.wrote _).map (Packet.tagged (routeTable B))).count _ ≤ _ at hcount
  rw [← hwrote] at fewer
  refine ⟨fun d' hpassed => ?_,?_⟩
  · have hpos : 0 < (((view B tr).filterMap Process.tunObs).filterMap TunObs.passed?).count p :=
      List.count_pos_iff.mpr (List.mem_filterMap.mpr
        ⟨_,Process.mem_tunObs.mpr (mem_view.mpr hpassed),rfl⟩)
    omega
  · have hmem := List.count_pos_iff.mp ((Nat.zero_lt_of_lt fewer).trans_le hcount)
    obtain ⟨conn,rfl,hrec⟩ := Node.mem_received hmem
    rw [← view_seenBy] at hrec
    have hsent := received_sent nodes (mem_view.mp hrec) hA
    have hacc : p ∈ accepted B (view conn.remoteId (seenBy Process.nodeObs tr)) :=
      Node.sentTo_accepted (nodes.project conn.remoteId)
        (List.mem_filterMap.mpr ⟨_,mem_view.mpr hsent,by simp [otherEnd]⟩)
    refine ⟨?_,Node.accepted_start (nodes.project conn.remoteId) hacc⟩
    have hshown := Node.mem_accepted hacc
    rw [view_seenBy] at hshown
    obtain ⟨x,hx,hnode⟩ := List.mem_filterMap.mp hshown
    cases x <;> simp [Process.nodeObs] at hnode
    rw [hnode] at hx
    obtain ⟨d',hread⟩ := (Process.readFirst_run (run.project conn.remoteId)).accepted p B hx
    exact ⟨d',mem_view.mp hread⟩

end Passed

section Crossing
variable (honest : K → Prop) [DecidablePred honest] (ipv4Addr : K → Ipv4Addr)
variable (routeTable : K → RouteTable K)

/-- What is seen of the channels at the devices: a packet that is read is put into the channel to
the peer that the core accepts it for, and one that is passed to a device is got from the channel
of the peer that its source address belongs to. -/
def crossing : K × ProcessObs K → Option (ChannelObs (K × K) Packet)
  | (k,.read _ (.ok packet)) =>
    ((VpnCore.new (ipv4Addr k) (routeTable k) 1100).acceptedFor packet).map fun pubKey =>
      .put (k,pubKey) packet
  | (k,.tun (.passed _ packet)) =>
    ((routeTable k).lookup (Ipv4Packet.header packet).srcIp).bind fun pubKey =>
      if honest pubKey then some (.get (pubKey,k) packet) else none
  | _ => none

theorem crossing_shows (k : K) (p : Process K) (a : ProcessAct K) :
    ((p.shows a).map (Prod.mk k)).filterMap (crossing honest ipv4Addr routeTable) = [] ∨
      ∃ o ∈ p.shows a, ((p.shows a).map (Prod.mk k)).filterMap
        (crossing honest ipv4Addr routeTable) =
          (crossing honest ipv4Addr routeTable (k,o)).toList := by
  let f : ProcessObs K → Option (ChannelObs (K × K) Packet) :=
    fun o => crossing honest ipv4Addr routeTable (k,o)
  have quiet : ∀ {os : List (ProcessObs K)}, (∀ d q, .tun (.passed d q) ∉ os) →
      (∀ d result, .read d result ∉ os) → os.filterMap f = [] := by
    intro os noPass noRead
    rw [List.filterMap_eq_nil_iff]
    intro o ho
    cases o with
    | node x => rfl
    | read d result => exact absurd ho (noRead d result)
    | tun x =>
      cases x with
      | passed d q => exact absurd ho (noPass d q)
      | _ => rfl
  rw [List.filterMap_map]
  change (p.shows a).filterMap f = [] ∨ ∃ o ∈ p.shows a, (p.shows a).filterMap f = (f o).toList
  have one : ∀ (o : ProcessObs K) (os : List (ProcessObs K)), os.filterMap f = [] →
      (o :: os).filterMap f = (f o).toList := by
    intro o os hos
    cases hf : f o <;> simp [hf,hos]
  cases a with
  | tun act =>
    by_cases hread : ∃ r result, act = .read r result
    · obtain ⟨r,result,rfl⟩ := hread
      refine .inr ⟨.read r.device result,List.mem_cons_self,one _ _ (quiet ?_ ?_)⟩
      · simp [Tun.shows]
      · simp
    · have noRead : ∀ d result, .read d result ∉ p.shows (.tun act) := by
        intro d result h
        rcases List.mem_append.mp h with hshow | hshow
        · unfold Process.readShows at hshow
          split at hshow
          · exact hread ⟨_,_,rfl⟩
          · simp at hshow
        · simp at hshow
      by_cases hpass : ∃ w q, act = .write w q
      · obtain ⟨w,q,rfl⟩ := hpass
        exact .inr ⟨.tun (.passed w.device q),List.mem_cons_self,one _ [] rfl⟩
      · refine .inl (quiet (fun d q h => ?_) noRead)
        rcases Process.tun_shown h with ⟨act',heq,hshow⟩ | ⟨act',packet,heq,-⟩
        · simp only [ProcessAct.tun.injEq] at heq
          subst heq
          obtain ⟨w,rfl⟩ := Process.passed_shown hshow
          exact hpass ⟨w,q,rfl⟩
        · simp at heq
  | node act =>
    refine .inl (quiet (fun d q h => ?_) fun d result h => ?_)
    · rcases Process.tun_shown h with ⟨act',heq,-⟩ | ⟨act',packet,-,heq,-⟩ <;> simp at heq
    · rcases List.mem_append.mp h with hshow | hshow
      · simp at hshow
      · obtain ⟨x,-,hx⟩ := List.mem_filterMap.mp hshow
        cases x <;> simp [Process.sends] at hx
  | _ => exact .inl rfl

variable {honest ipv4Addr routeTable}

theorem crossing_get {x : K × ProcessObs K} {A B : K} {p : Packet}
    (h : crossing honest ipv4Addr routeTable x = some (.get (A,B) p)) :
    honest A ∧ (routeTable B).lookup (Ipv4Packet.header p).srcIp = some A ∧
      ∃ d, x = (B,.tun (.passed d p)) := by
  unfold crossing at h
  split at h
  · obtain ⟨k,-,heq⟩ := Option.map_eq_some_iff.mp h
    simp at heq
  · rename_i k d packet
    obtain ⟨j,hroute,heq⟩ := Option.bind_eq_some_iff.mp h
    simp only [Option.ite_none_right_eq_some,Option.some.injEq,ChannelObs.get.injEq,
      Prod.mk.injEq] at heq
    obtain ⟨hj,⟨rfl,rfl⟩,rfl⟩ := heq
    exact ⟨hj,hroute,d,rfl⟩
  · simp at h

variable {s : K → Process K} {tr : List (K × ProcessObs K)}

/-- However the tasks run and whatever becomes of the connections, what happens at the devices of
the honest nodes is what channels between them could do. -/
theorem devices_refine_channels (run : NetRun (onDevices honest (exactNet honest).allows)
    (fun k => Process.main k (ipv4Addr k) (routeTable k)) s tr) :
    ∃ channels, ChannelRun channels (tr.filterMap (crossing honest ipv4Addr routeTable)) := by
  induction run with
  | nil => exact ⟨_,.nil⟩
  | @snoc s tr k a run _ _ hen _ ih =>
    obtain ⟨channels,hrun⟩ := ih
    change ∃ channels, ChannelRun channels ((tr ++ ((s k).shows a).map (Prod.mk k)).filterMap _)
    rw [List.filterMap_append]
    rcases crossing_shows honest ipv4Addr routeTable k (s k) a with hnone | ⟨o,ho,hone⟩
    · rw [hnone,List.append_nil]
      exact ⟨channels,hrun⟩
    · rw [hone]
      cases hx : crossing honest ipv4Addr routeTable (k,o) with
      | none => exact ⟨channels,by simpa using hrun⟩
      | some x =>
        cases x with
        | put i p => exact hrun.put i p
        | get i p =>
          obtain ⟨A,B⟩ := i
          obtain ⟨hA,hsrc,d,heq⟩ := crossing_get hx
          simp only [Prod.mk.injEq] at heq
          obtain ⟨rfl,rfl⟩ := heq
          obtain ⟨hnew,⟨d',hread⟩,hacc⟩ := passed_once run hA hen ho hsrc
          refine hrun.get ?_
          have hget : (tr.filterMap (crossing honest ipv4Addr routeTable)).count
              (.get (A,k) p) = 0 := by
            rw [List.count_eq_zero]
            intro hmem
            obtain ⟨y,hy,hcross⟩ := List.mem_filterMap.mp hmem
            obtain ⟨-,-,e,rfl⟩ := crossing_get hcross
            exact hnew e hy
          have hput : 0 < (tr.filterMap (crossing honest ipv4Addr routeTable)).count
              (.put (A,k) p) := by
            rw [List.count_pos_iff]
            exact List.mem_filterMap.mpr ⟨_,hread,by simp [crossing,hacc]⟩
          omega

/-- Node 2 reads a ping from its device, and node 1 passes it to its own. -/
theorem devices_refine_channels_ping :
    let ping : List UInt8 := [0x45,0,0,20,0,0,0,0,64,0,0,0,10,67,1,2,10,67,1,1]
    let ipv4Addr : Nat → Ipv4Addr := fun k => if k = 1 then ⟨10,67,1,1⟩ else ⟨10,67,1,2⟩
    let routeTable : Nat → RouteTable Nat := fun k =>
      if k = 1 then AList.insert ⟨10,67,1,2⟩ 2 ∅ else AList.insert ⟨10,67,1,1⟩ 1 ∅
    ∃ (s : Nat → Process Nat) (tr : List (Nat × ProcessObs Nat)),
      NetRun (onDevices (fun k => k = 1 ∨ k = 2) (exactNet fun k => k = 1 ∨ k = 2).allows)
        (fun k => Process.main k (ipv4Addr k) (routeTable k)) s tr ∧
      tr.filterMap (crossing (fun k => k = 1 ∨ k = 2) ipv4Addr routeTable) =
        [.put (2,1) ⟨0,ping⟩,.get (2,1) ⟨0,ping⟩] ∧
      ∃ channels, ChannelRun channels
        (tr.filterMap (crossing (fun k => k = 1 ∨ k = 2) ipv4Addr routeTable)) := by
  let ping : List UInt8 := [0x45,0,0,20,0,0,0,0,64,0,0,0,10,67,1,2,10,67,1,1]
  let ipv4Addr : Nat → Ipv4Addr := fun k => if k = 1 then ⟨10,67,1,1⟩ else ⟨10,67,1,2⟩
  let routeTable : Nat → RouteTable Nat := fun k =>
    if k = 1 then AList.insert ⟨10,67,1,2⟩ 2 ∅ else AList.insert ⟨10,67,1,1⟩ 1 ∅
  let near : Connection Nat := ⟨7,2,false⟩
  let far : Connection Nat := ⟨7,1,true⟩
  obtain ⟨s,tr,run,h⟩ := @netExec_reaches _ _ _ _ _
    (onDevices (fun k => k = 1 ∨ k = 2) (exactNet (K := Nat) fun k => k = 1 ∨ k = 2).allows)
    _ _ _ _ (fun k => Process.main k (ipv4Addr k) (routeTable k))
    [(1,.tun .create),(2,.tun .create),(1,.node (.manager .effect)),(2,.node (.manager .effect)),
      (2,.node (.manager (.attempt ⟨0,1,false,none⟩ 7))),(1,.node (.manager (.accepted near))),
      (2,.node (.manager (.dialed ⟨0,1,false,none⟩ 7))),
      (1,.node (.manager (.reportAccept near))),
      (2,.node (.manager (.reportDial ⟨0,1,false,some far⟩))),(1,.node (.manager .recvTask)),
      (1,.node (.manager .effect)),(1,.node (.manager .effect)),(2,.node (.manager .recvTask)),
      (2,.node (.manager .effect)),(2,.node (.manager .effect)),(2,.node .coordIroh),
      (2,.tun (.read ⟨1,false⟩ (.ok ⟨0,ping⟩))),(2,.node .coordTun),(2,.node .coordAction),
      (2,.node .managerCore),(2,.node (.manager .effect)),
      (2,.node (.manager (.sendDatagram ⟨1,far,false,false,true,[⟨0,ping⟩]⟩ .sent))),
      (1,.node (.manager (.readDatagram ⟨0,near,false,false,true,[]⟩ ⟨0,ping⟩))),
      (1,.node .coordIroh),(1,.node .coordIroh),(1,.node .coordAction),
      (1,.tun (.recv ⟨1,false,.receiving⟩)),
      (1,.tun (.write ⟨1,false,.holding ⟨0,ping⟩⟩ ⟨0,ping⟩))]
    (fun r => decide (r.2.filterMap (crossing (fun k => k = 1 ∨ k = 2) ipv4Addr routeTable) =
      [.put (2,1) ⟨0,ping⟩,.get (2,1) ⟨0,ping⟩])) (by decide)
  exact ⟨s,tr,run,of_decide_eq_true h,devices_refine_channels run⟩

end Crossing
end Network
end MeshNetwork
