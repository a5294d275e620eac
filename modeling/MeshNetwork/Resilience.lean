import Mathlib.Data.Fintype.EquivFin
import MeshNetwork.Authenticity
import MeshNetwork.Recovery

set_option autoImplicit false

namespace MeshNetwork
open Runs

variable {K : Type} [LinearOrder K]

structure Config.HasRoom (cfg : Config K) : Prop where
  manager : 0 < cfg.managerCapacity
  iroh : 0 < cfg.irohCapacity
  coord : 0 < cfg.coordCapacity
  fromTun : 0 < cfg.fromTunCapacity
  toTun : 0 < cfg.toTunCapacity

/-- The honest nodes of a network run this program, over a transport that delivers on each
connection what was sent on it and makes up no connection between two of them. -/
def vpnNet (honest : K → Prop) : Net K (Node K) (NodeAct K) (NodeObs K) where
  system := Node.system
  member := honest
  ok := fun _ => anyStep
  allows := fun tr k o =>
    match o with
    | .manager x => transportAllows honest (managerTrace tr) k x
    | _ => True

section Decide
variable (honest : K → Prop) [DecidablePred honest]

instance : DecidablePred (vpnNet honest).member := inferInstanceAs (DecidablePred honest)

instance (k : K) (n : Node K) (a : NodeAct K) : Decidable ((vpnNet honest).ok k n a) :=
  inferInstanceAs (Decidable True)

instance (n : Node K) (a : NodeAct K) : Decidable ((vpnNet honest).system.enabled n a) :=
  inferInstanceAs (Decidable (n.enabled a))

instance (tr : List (K × NodeObs K)) (k : K) (o : NodeObs K) :
    Decidable ((vpnNet honest).allows tr k o) :=
  match o with
  | .manager x => inferInstanceAs (Decidable (transportAllows honest (managerTrace tr) k x))
  | .processed _ | .accepted _ _ | .evicted _ _ | .issued _ _ | .irohFull _ _ | .wroteTun _ =>
    inferInstanceAs (Decidable True)

end Decide

omit [LinearOrder K] in
theorem managerTrace_of_mem {tr : List (K × NodeObs K)} {k : K} {o : Obs K Packet}
    (h : (k,.manager o) ∈ tr) : (k,o) ∈ managerTrace tr :=
  List.mem_filterMap.mpr ⟨(k,.manager o),h,rfl⟩

theorem sentOn_of_mem {tr : List (K × NodeObs K)} {k : K} {conn : Connection K} {p : Packet}
    (h : (k,.manager (.sent conn p)) ∈ tr) : p ∈ sentOn (managerTrace tr) k conn :=
  List.mem_filterMap.mpr ⟨(k,.sent conn p),managerTrace_of_mem h,by simp⟩

def Obs.serial {B : Type} : Obs K B → Option Nat
  | .attempted _ serial => some serial
  | .dialed conn => some conn.serial
  | .accepted conn => some conn.serial
  | _ => none

omit [LinearOrder K] in
theorem fresh_serial (tr : List (K × NodeObs K)) :
    ∃ serial, ∀ k o, (k,o) ∈ managerTrace tr → o.serial ≠ some serial := by
  obtain ⟨serial,hfresh⟩ := Infinite.exists_notMem_finset
    ((managerTrace tr).filterMap fun x => x.2.serial).toFinset
  refine ⟨serial,fun k o hmem hs => hfresh ?_⟩
  rw [List.mem_toFinset]
  exact List.mem_filterMap.mpr ⟨(k,o),hmem,hs⟩

def NodeAct.isRead : NodeAct K → Bool
  | .tunRead _ => true
  | _ => false

/-- What two nodes can bring about from `s` while all others stand still and nothing is read. -/
def Onward (honest : K → Prop) (X Y : K) (s : K → Node K) (tr : List (K × NodeObs K))
    (s' : K → Node K) (tr' : List (K × NodeObs K)) : Prop :=
  NetPath ((vpnNet honest).among fun k a => (k = X ∨ k = Y) ∧ a.isRead = false) s tr s' tr'

namespace Onward
variable {honest : K → Prop} {X Y : K} {s s' : K → Node K} {tr tr' : List (K × NodeObs K)}

theorem path (h : Onward honest X Y s tr s' tr') : NetPath (vpnNet honest) s tr s' tr' :=
  NetPath.all h

theorem symm (h : Onward honest X Y s tr s' tr') : Onward honest Y X s tr s' tr' :=
  NetPath.widen (fun _ _ hk => ⟨hk.1.symm,hk.2⟩) h

theorem trans {s'' : K → Node K} {tr'' : List (K × NodeObs K)} (h : Onward honest X Y s tr s' tr')
    (h' : Onward honest X Y s' tr' s'' tr'') : Onward honest X Y s tr s'' tr'' :=
  NetPath.trans h h'

theorem of_update {k : K} {t : Node K} {os : List (NodeObs K)}
    (path : Onward honest X Y s tr (Function.update s' k t) (tr' ++ os.map (Prod.mk k))) :
    ∃ s'', Onward honest X Y s tr s'' (tr' ++ os.map (Prod.mk k)) ∧ s'' k = t ∧
      ∀ j, j ≠ k → s'' j = s' j :=
  ⟨_,path,Function.update_self k t s',fun _ hj => Function.update_of_ne hj t s'⟩

theorem alone (h : Onward honest X Y s tr s' tr') {k : K} (hk : k = X ∨ k = Y) (hh : honest k)
    {t : Node K} {os : List (NodeObs K)} (own : Run Node.system Node.Free (s' k) t os) :
    ∃ s'', Onward honest X Y s tr s'' (tr' ++ os.map (Prod.mk k)) ∧ s'' k = t ∧
      ∀ j, j ≠ k → s'' j = s' j := by
  refine of_update (NetPath.then_member h hh (fun n a free hen => ⟨⟨trivial,hk,?_⟩,fun o ho u => ?_⟩) own)
  · cases a with
    | tunRead data => exact absurd free id
    | _ => rfl
  cases Node.shown ho with
  | @manager act x own =>
    cases Manager.shown own with
    | attempted d serial => exact absurd free id
    | dialed d serial => exact absurd free id
    | accepted conn => exact absurd free id
    | received x p => exact absurd free id
    | _ => trivial
  | _ => trivial

theorem step (h : Onward honest X Y s tr s' tr') {k : K} (hk : k = X ∨ k = Y) (hh : honest k)
    {act : Act K Packet} (hen : (s' k).enabled (.manager act))
    (hall : ∀ o ∈ (s' k).manager.shows act, transportAllows honest (managerTrace tr') k o) :
    ∃ s'', Onward honest X Y s tr s''
        (tr' ++ ((s' k).shows (.manager act)).map (Prod.mk k)) ∧
      s'' k = (s' k).next (.manager act) ∧ ∀ j, j ≠ k → s'' j = s' j := by
  have hobs : ∀ o ∈ (vpnNet honest).system.shows (s' k) (.manager act),
      (vpnNet honest).allows tr' k o := by
    intro o ho
    obtain ⟨x,hx,rfl⟩ := List.mem_map.mp ho
    exact hall x hx
  exact of_update (NetPath.snoc k (NodeAct.manager act) h hh ⟨trivial,hk,rfl⟩ hen hobs)

end Onward

section Pair
variable {honest : K → Prop} {cfg : K → Config K} {s : K → Node K} {tr : List (K × NodeObs K)}

theorem member_run (run : NetRun (vpnNet honest) (fun k => Node.start (cfg k)) s tr) (k : K) :
    Run Node.system anyStep (Node.start (cfg k)) (s k) (view k tr) := run.project k

theorem both_rest (run : NetRun (vpnNet honest) (fun k => Node.start (cfg k)) s tr) {X Y : K}
    (hX : honest X) (hY : honest Y) (hne : X ≠ Y) (roomX : (cfg X).HasRoom)
    (roomY : (cfg Y).HasRoom) :
    ∃ s' u, Onward honest X Y s tr s' (tr ++ u) ∧ (s' X).Quiet ∧ (s' Y).Quiet := by
  obtain ⟨t,os,own,ht⟩ := Node.can_rest (member_run run X) roomX.manager roomX.coord
  have start : Onward honest X Y s tr s tr := NetPath.nil
  obtain ⟨s₁,on₁,hs₁,same₁⟩ := start.alone (.inl rfl) hX (own.mono fun _ _ h => h.free)
  obtain ⟨t',os',own',ht'⟩ := Node.can_rest (member_run (run.along on₁.path) Y) roomY.manager
    roomY.coord
  obtain ⟨s₂,on₂,hs₂,same₂⟩ := on₁.alone (.inr rfl) hY (own'.mono fun _ _ h => h.free)
  rw [List.append_assoc] at on₂
  refine ⟨s₂,_,on₂,?_,by rw [hs₂]; exact ht'⟩
  rw [same₂ X hne,hs₁]
  exact ht

/-- Two nodes at rest are on the two ends of one connection. -/
structure Joined (X Y : K) (a b : Node K) (c : Connection K) : Prop where
  quiet : a.Quiet
  quiet' : b.Quiet
  near : ∃ t, a.manager.iroh.stateTable.lookup Y = some (.connected t c)
  far : ∃ t, b.manager.iroh.stateTable.lookup X = some (.connected t (otherEnd X c))

theorem Joined.symm {X Y : K} {a b : Node K} {c : Connection K} (h : Joined X Y a b c)
    (named : c.remoteId = Y) : Joined Y X b a (otherEnd X c) := by
  have back : otherEnd Y (otherEnd X c) = c := by
    have hc : c = ⟨c.serial,Y,c.outgoing⟩ := by rw [← named]
    rw [hc]
    simp [otherEnd]
  refine ⟨h.quiet',h.quiet,h.far,?_⟩
  rw [back]
  exact h.near

omit [LinearOrder K] in
theorem mem_managerTrace_concat {u : List (K × NodeObs K)} {k j : K} {o x : Obs K Packet}
    (h : (k,o) ∈ managerTrace (u ++ [(j,.manager x)])) : (k,o) ∈ managerTrace u ∨ o = x := by
  rcases List.mem_append.mp (mem_managerTrace h) with hold | hnew
  · exact .inl (managerTrace_of_mem hold)
  · rw [List.mem_singleton] at hnew
    simp only [Prod.mk.injEq,NodeObs.manager.injEq] at hnew
    exact .inr hnew.2

theorem next_attempt (n : Node K) (d : Dial K) (serial : Nat) :
    n.next (.manager (.attempt d serial)) = n := by
  simp [Node.next,Manager.next,Node.posts]

/-- The greater of two nodes at rest dials, and the smaller one accepts. Their connections with
others stay as they are. -/
theorem joins (run : NetRun (vpnNet honest) (fun k => Node.start (cfg k)) s tr) {G L : K}
    (hG : honest G) (hL : honest L) (idG : (cfg G).id = G) (idL : (cfg L).id = L) (hlt : L < G)
    (listsL : L ∈ (cfg G).peers) (listsG : G ∈ (cfg L).peers) (roomG : (cfg G).HasRoom)
    (roomL : (cfg L).HasRoom) (qG₁ : (s G).Quiet) (qL₁ : (s L).Quiet) :
    ∃ s' u c, Onward honest G L s tr s' (tr ++ u) ∧ Joined G L (s' G) (s' L) c ∧
      Node.KeepsOthers L (s G) (s' G) ∧ Node.KeepsOthers G (s L) (s' L) := by
  have start : Onward honest G L s tr s tr := NetPath.nil
  obtain ⟨t,os,own,qt,keeps,d,hd,hpeer⟩ := qG₁.redials (member_run run G) roomG.manager roomG.coord
    listsL (by rw [idG]; exact hlt)
  obtain ⟨s₂,on₂,hs₂,same₂⟩ := start.alone (.inl rfl) hG own
  have run₂ := run.along on₂.path
  have atL₂ : s₂ L = s L := same₂ L hlt.ne
  have qL₂ : (s₂ L).Quiet := by
    rw [atL₂]
    exact qL₁
  rw [← hs₂] at hd qt keeps
  obtain ⟨serial,hfresh⟩ := fresh_serial (tr ++ os.map (Prod.mk G))
  let near : Connection K := ⟨serial,L,true⟩
  let far : Connection K := ⟨serial,G,false⟩
  have e₃ : (s₂ G).enabled (.manager (.attempt d serial)) :=
    ⟨⟨hd,(qt.manager.dials d hd).1⟩,trivial⟩
  obtain ⟨s₃,on₃,hs₃,same₃⟩ := on₂.step (.inl rfl) hG e₃ (fun o ho => by
    rw [List.mem_singleton.mp ho]
    exact fun hmem => hfresh _ _ hmem rfl)
  rw [next_attempt] at hs₃
  have e₄ : (s₃ G).enabled (.manager (.dialed d serial)) := by
    rw [hs₃]
    exact e₃
  obtain ⟨s₄,on₄,hs₄,same₄⟩ := on₃.step (.inl rfl) hG e₄ (fun o ho => by
    rw [List.mem_singleton.mp ho]
    refine ⟨managerTrace_of_mem (List.mem_append_right _ List.mem_cons_self),fun hmem => ?_⟩
    rcases mem_managerTrace_concat hmem with hold | heq
    · exact hfresh _ _ hold rfl
    · simp at heq)
  have e₅ : (s₄ L).enabled (.manager (.accepted far)) := ⟨rfl,trivial⟩
  obtain ⟨s₅,on₅,hs₅,same₅⟩ := on₄.step (.inr rfl) hL e₅ (fun o ho => by
    rw [List.mem_singleton.mp ho]
    refine ⟨fun hmem => ?_,fun _ => managerTrace_of_mem (List.mem_append_left _
      (List.mem_append_right _ ?_))⟩
    · rcases mem_managerTrace_concat hmem with hold | heq
      · rcases mem_managerTrace_concat hold with hold | heq
        · exact hfresh _ _ hold rfl
        · simp at heq
      · simp at heq
    · change (G,NodeObs.manager (.attempted L serial)) ∈
        [(G,NodeObs.manager (.attempted d.peer serial))]
      rw [hpeer]
      exact List.mem_cons_self)
  -- both managers handle their end of the connection
  obtain ⟨a,osG,ownG,qG,keepsG,hG'⟩ := qt.dial_answered (member_run run₂ G) roomG.manager roomG.coord
    hd serial
  have atG : s₅ G = (s₂ G).next (.manager (.dialed d serial)) := by
    rw [same₅ G hlt.ne',hs₄,hs₃]
  rw [← atG] at ownG
  obtain ⟨s₆,on₆,hs₆,same₆⟩ := on₅.alone (.inl rfl) hG ownG
  obtain ⟨b,osL,ownL,qL,keepsL,hL'⟩ := qL₂.accepts_peer (member_run run₂ L) roomL.manager roomL.coord
    (c := far) listsG (by rw [idL]; exact hlt) rfl
  have atL : s₆ L = (s₂ L).next (.manager (.accepted far)) := by
    rw [same₆ L hlt.ne,hs₅,same₄ L hlt.ne,same₃ L hlt.ne]
  rw [← atL] at ownL
  obtain ⟨s₇,on₇,hs₇,same₇⟩ := on₆.alone (.inr rfl) hL ownL
  have atG' : s₇ G = a := (same₇ G hlt.ne').trans hs₆
  simp only [List.append_assoc] at on₇
  refine ⟨s₇,_,near,on₇,?_,?_,?_⟩
  · rw [atG',hs₇]
    rw [hpeer] at hG'
    exact ⟨qG,qL,hG',hL'⟩
  · rw [atG']
    rw [hpeer] at keepsG
    exact fun k hk => (keepsG k hk).trans (keeps k hk)
  · rw [hs₇,← atL₂]
    exact keepsL

theorem meet_at_rest (run : NetRun (vpnNet honest) (fun k => Node.start (cfg k)) s tr) {X Y : K}
    (hX : honest X) (hY : honest Y) (hne : X ≠ Y) (idX : (cfg X).id = X) (idY : (cfg Y).id = Y)
    (listsY : Y ∈ (cfg X).peers) (listsX : X ∈ (cfg Y).peers) (roomX : (cfg X).HasRoom)
    (roomY : (cfg Y).HasRoom) (qX : (s X).Quiet) (qY : (s Y).Quiet) :
    ∃ s' u c, Onward honest X Y s tr s' (tr ++ u) ∧ Joined X Y (s' X) (s' Y) c ∧
      Node.KeepsOthers Y (s X) (s' X) ∧ Node.KeepsOthers X (s Y) (s' Y) := by
  rcases lt_or_gt_of_ne hne with hlt | hgt
  · obtain ⟨s',u,c,on,hj,keepsY,keepsX⟩ := joins run hY hX idY idX hlt listsX listsY roomY roomX qY qX
    obtain ⟨t,hl⟩ := hj.near
    have hpeer := (Node.dialsBelow (member_run (run.along on.path) Y)).wired.named X t c hl
    exact ⟨s',u,otherEnd Y c,on.symm,hj.symm hpeer,keepsX,keepsY⟩
  · exact joins run hX hY idX idY hgt listsY listsX roomX roomY qX qY

/-- Two nodes at rest whose connections are whole do not disagree: either core has the other
side as connected, or none has. -/
theorem cores_agree_at_rest (run : NetRun (vpnNet honest) (fun k => Node.start (cfg k)) s tr)
    {X Y : K} (listsY : Y ∈ (cfg X).peers) (listsX : X ∈ (cfg Y).peers) (qX : (s X).Quiet)
    (qY : (s Y).Quiet) (linkX : Linked X Y (s X).manager (s Y).manager)
    (linkY : Linked Y X (s Y).manager (s X).manager) :
    ∃ flag, (s X).core.isConnectOpen Y = some flag ∧ (s Y).core.isConnectOpen X = some flag := by
  have runX := member_run run X
  have runY := member_run run Y
  have wX := (Node.dialsBelow runX).wired
  have wY := (Node.dialsBelow runY).wired
  refine ⟨_,qX.core_open runX listsY,?_⟩
  rw [qY.core_open runY listsX,Option.some.injEq,Bool.eq_iff_iff]
  constructor
  · intro hc
    obtain ⟨t,c,hl⟩ := Iroh.isConnected_iff.mp hc
    obtain ⟨t',hl'⟩ := qY.manager.other_connected qX.manager wY wX linkY linkX hl
    exact Iroh.isConnected_of_lookup hl'
  · intro hc
    obtain ⟨t,c,hl⟩ := Iroh.isConnected_iff.mp hc
    obtain ⟨t',hl'⟩ := qX.manager.other_connected qY.manager wX wY linkX linkY hl
    exact Iroh.isConnected_of_lookup hl'

def settledWith [DecidableEq K] (n : Node K) (x : Session K Packet) : Bool :=
  (n.hand.isEmpty && n.toIroh.isEmpty && n.toCoord.isEmpty && n.fromTun.isEmpty &&
      n.toTun.isEmpty) &&
    (n.manager.pc.isEmpty && n.manager.rxFromTasks.isEmpty && n.manager.accepts.isEmpty &&
      n.manager.dials.isEmpty && n.manager.closed.isEmpty) &&
    decide (n.manager.sessions = [x])

theorem settledWith_spec {n : Node K} {x : Session K Packet} (h : settledWith n x = true)
    (well : x.failing = false ∧ x.txOpen = true ∧ x.packetChannel = [])
    (kept : x.aborted = false) :
    n.Quiet ∧ n.manager.sessions = [x] ∧ n.manager.OpenAt x.connection := by
  simp only [settledWith,Bool.and_eq_true,List.isEmpty_iff,decide_eq_true_eq] at h
  obtain ⟨⟨⟨⟨⟨⟨h₁,h₂⟩,h₃⟩,h₄⟩,h₅⟩,⟨⟨⟨p,q⟩,ha⟩,hd⟩,hc⟩,hs⟩ := h
  refine ⟨⟨h₁,h₂,h₃,h₄,h₅,⟨p,q,ha,by simp [hd],by simp [hs,kept]⟩,fun y hy => ?_⟩,hs,
    .inr (.inl ⟨x,by rw [hs]; exact List.mem_cons_self,rfl⟩),by simp [hc]⟩
  rw [hs,List.mem_singleton] at hy
  rw [hy]
  exact well

/-- Both cores have heard of the one connection between two nodes. -/
theorem cores_agree_at_rest_connected :
    let cfg : Nat → Config Nat := fun k =>
      if k = 1 then .main 1 ⟨10,67,1,1⟩ (AList.insert ⟨10,67,1,2⟩ 2 ∅)
      else .main 2 ⟨10,67,1,2⟩ (AList.insert ⟨10,67,1,1⟩ 1 ∅)
    ∃ (s : Nat → Node Nat) (tr : List (Nat × NodeObs Nat)),
      NetRun (vpnNet fun k => k = 1 ∨ k = 2) (fun k => Node.start (cfg k)) s tr ∧
      (s 1).core.isConnectOpen 2 = some true ∧
      ∃ flag, (s 1).core.isConnectOpen 2 = some flag ∧ (s 2).core.isConnectOpen 1 = some flag := by
  let cfg : Nat → Config Nat := fun k =>
    if k = 1 then .main 1 ⟨10,67,1,1⟩ (AList.insert ⟨10,67,1,2⟩ 2 ∅)
    else .main 2 ⟨10,67,1,2⟩ (AList.insert ⟨10,67,1,1⟩ 1 ∅)
  let near : Session Nat Packet := ⟨0,⟨7,2,false⟩,false,false,true,[]⟩
  let far : Session Nat Packet := ⟨1,⟨7,1,true⟩,false,false,true,[]⟩
  obtain ⟨s,tr,run,h⟩ := @netExec_reaches _ _ _ _ _ (vpnNet (K := Nat) fun k => k = 1 ∨ k = 2)
    _ _ _ _ (fun k => Node.start (cfg k))
    [(1,.manager .effect),(2,.manager .effect),(2,.manager (.attempt ⟨0,1,false,none⟩ 7)),
      (1,.manager (.accepted ⟨7,2,false⟩)),(2,.manager (.dialed ⟨0,1,false,none⟩ 7)),
      (1,.manager (.reportAccept ⟨7,2,false⟩)),
      (2,.manager (.reportDial ⟨0,1,false,some ⟨7,1,true⟩⟩)),(2,.manager .recvTask),
      (2,.manager .effect),(2,.manager .effect),(1,.manager .recvTask),(1,.manager .effect),
      (1,.manager .effect),(1,.coordIroh),(2,.coordIroh)]
    (fun r => decide ((r.1 1).core.isConnectOpen 2 = some true) &&
      (settledWith (r.1 1) near && settledWith (r.1 2) far)) (by decide)
  simp only [Bool.and_eq_true,decide_eq_true_eq] at h
  obtain ⟨hopen,h₁,h₂⟩ := h
  obtain ⟨quiet₁,sessions₁,openNear⟩ := settledWith_spec h₁ ⟨rfl,rfl,rfl⟩ rfl
  obtain ⟨quiet₂,sessions₂,openFar⟩ := settledWith_spec h₂ ⟨rfl,rfl,rfl⟩ rfl
  refine ⟨s,tr,run,hopen,cores_agree_at_rest run (by decide) (by decide) quiet₁ quiet₂
    (fun x hx _ => ?_) (fun x hx _ => ?_)⟩
  · rw [sessions₁,List.mem_singleton] at hx
    rw [hx]
    exact ⟨rfl,openNear,openFar⟩
  · rw [sessions₂,List.mem_singleton] at hx
    rw [hx]
    exact ⟨rfl,openFar,openNear⟩

theorem Joined.carries {X Y : K} {c : Connection K} (h : Joined X Y (s X) (s Y) c)
    (run : NetRun (vpnNet honest) (fun k => Node.start (cfg k)) s tr) (hX : honest X)
    (hY : honest Y) (hne : X ≠ Y) (roomX : (cfg X).HasRoom) (roomY : (cfg Y).HasRoom)
    (listsY : Y ∈ (cfg X).peers) {data : List UInt8}
    (accepted : (s X).core.acceptedFor (⟨(s X).reads,data⟩ : Packet) = some Y)
    (checked : (s Y).core.RecvOk (⟨(s X).reads,data⟩ : Packet) X) :
    ∃ s' u, Onward honest X Y (Function.update s X ((s X).next (.tunRead data))) tr s' (tr ++ u) ∧
      (Y,.wroteTun ⟨(s X).reads,data⟩) ∈ u ∧ (s' Y).toTun = [⟨(s X).reads,data⟩] := by
  obtain ⟨t,hl⟩ := h.near
  obtain ⟨t',hl'⟩ := h.far
  have runX := member_run run X
  obtain ⟨x,hx,rfl,rfl,hpeer⟩ := h.quiet.has_session runX hl
  obtain ⟨y,hy,-,hyc,-⟩ := h.quiet'.has_session (member_run run Y) hl'
  let p : Packet := ⟨(s X).reads,data⟩
  obtain ⟨os₁,own₁⟩ := h.quiet.issues_packet runX roomX.iroh listsY
    (Iroh.isConnected_of_lookup hl) accepted ((s X).reads + 1)
  have hcapacity := (Manager.served_run (Node.manager_run runX)).capacity
  obtain ⟨n,os₂,own₂,hsent⟩ := Node.passes_packet
    (n := { (s X) with reads := (s X).reads + 1, toIroh := [.sendPacketTo p Y] }) (p := p)
    (Node.dialsBelow runX).wired h.quiet.manager.idle rfl hl hx (h.quiet.sessions x hx).1
    (h.quiet.sessions x hx).2.2 (by
      change 0 < (s X).manager.channelCapacity
      rw [hcapacity]
      exact roomX.manager)
  let s₀ : K → Node K := Function.update s X ((s X).next (.tunRead data))
  have atX : s₀ X = { (s X) with reads := (s X).reads + 1, fromTun := [p] } := by
    rw [← h.quiet.reads_packet runX roomX.fromTun data]
    exact Function.update_self X _ s
  have start : Onward honest X Y s₀ tr s₀ tr := NetPath.nil
  obtain ⟨s₁,on₁,hs₁,same₁⟩ := start.alone (.inl rfl) hX (by
    rw [atX]
    exact own₁.trans own₂)
  have atY : s₁ Y = s Y := (same₁ Y (Ne.symm hne)).trans (Function.update_of_ne (Ne.symm hne) _ s)
  have e₂ : (s₁ Y).enabled (.manager (.readDatagram y p)) := by
    rw [atY]
    exact ⟨⟨hy,(h.quiet'.sessions y hy).1⟩,trivial⟩
  have back : otherEnd Y (otherEnd X x.connection) = x.connection := by
    have hc : x.connection = ⟨x.connection.serial,Y,x.connection.outgoing⟩ := by rw [← hpeer]
    rw [hc]
    simp [otherEnd]
  obtain ⟨s₂,on₂,hs₂,same₂⟩ := on₁.step (.inr rfl) hY e₂ (fun o ho => by
    rw [List.mem_singleton.mp ho]
    intro _
    refine ⟨p,?_,rfl⟩
    rw [hyc,back]
    exact sentOn_of_mem (List.mem_append_right _
      (List.mem_map_of_mem (List.mem_append_right _ hsent))))
  have hok : (s Y).core.RecvOk p y.connection.remoteId := by
    rw [hyc]
    exact checked
  obtain ⟨m,os₃,own₃,hwrote,htun⟩ := h.quiet'.writes_packet (member_run run Y) roomY.coord
    roomY.toTun hok
  rw [← atY,← hs₂] at own₃
  obtain ⟨s₃,on₃,hs₃,-⟩ := on₂.alone (.inr rfl) hY own₃
  simp only [List.append_assoc] at on₃
  exact ⟨s₃,_,on₃,List.mem_append_right _ (List.mem_append_right _ (List.mem_map_of_mem hwrote)),
    by rw [hs₃]; exact htun⟩

theorem CoreInvariant.acceptedFor {ipv4Addr : Ipv4Addr} {routeTable : RouteTable K}
    {maxPacketSize : Nat} {core : VpnCore K Packet}
    (h : CoreInvariant ipv4Addr routeTable maxPacketSize core) {p : Packet} {pk : K} :
    core.acceptedFor p = some pk ↔
      (VpnCore.new ipv4Addr routeTable maxPacketSize).acceptedFor p = some pk := by
  have hnew := VpnCore.new_invariant (B := Packet) ipv4Addr routeTable maxPacketSize
  rw [VpnCore.acceptedFor_eq_some,VpnCore.acceptedFor_eq_some,h.routes,hnew.routes]
  refine and_congr_left fun _ => ⟨fun ok => ?_,fun ok => ?_⟩
  · exact ⟨ok.long,ok.version,by rw [hnew.size,← h.size]; exact ok.size,ok.total,ok.ttl,
      by rw [hnew.addr,← h.addr]; exact ok.src,by rw [hnew.routes,← h.routes]; exact ok.dest⟩
  · exact ⟨ok.long,ok.version,by rw [h.size,← hnew.size]; exact ok.size,ok.total,ok.ttl,
      by rw [h.addr,← hnew.addr]; exact ok.src,by rw [h.routes,← hnew.routes]; exact ok.dest⟩

theorem Node.accepted_start {ok : Node K → NodeAct K → Prop} {cfg : Config K} {n : Node K}
    {tr : List (NodeObs K)} (run : Run system ok (start cfg) n tr) {pk : K} {p : Packet}
    (hp : p ∈ accepted pk tr) : (start cfg).core.acceptedFor p = some pk := by
  induction run with
  | nil => simp [accepted] at hp
  | @snoc n tr a run _ hen ih =>
    rw [accepted_append] at hp
    rcases List.mem_append.mp hp with hold | hnew
    · exact ih hold
    · cases shown (mem_accepted hnew) with
      | accepted hacc => exact (coreKept_run run).core.acceptedFor.mp hacc

structure Mutual (X Y : K) (a b : Config K) : Prop where
  near : a.id = X
  far : b.id = Y
  route : a.routeTable.lookup b.ipv4Addr = some Y
  back : b.routeTable.lookup a.ipv4Addr = some X
  size : a.maxPacketSize ≤ b.maxPacketSize

omit [LinearOrder K] in
theorem Mutual.lists {X Y : K} {a b : Config K} (h : Mutual X Y a b) :
    Y ∈ a.peers ∧ X ∈ b.peers :=
  ⟨(a.peers_iff Y).mpr ⟨_,h.route⟩,(b.peers_iff X).mpr ⟨_,h.back⟩⟩

theorem Mutual.checked {X Y : K} {a b : Config K} (h : Mutual X Y a b) {core : VpnCore K Packet}
    (kept : CoreInvariant b.ipv4Addr b.routeTable b.maxPacketSize core) {data : List UInt8}
    (accepted : (Node.start a).core.acceptedFor (⟨0,data⟩ : Packet) = some Y)
    (dest : (Ipv4Packet.header (⟨0,data⟩ : Packet)).destIp = b.ipv4Addr) (ticket : Nat) :
    core.RecvOk (⟨ticket,data⟩ : Packet) X := by
  obtain ⟨ok,-⟩ := VpnCore.acceptedFor_eq_some.mp accepted
  have hnew := VpnCore.new_invariant (B := Packet) a.ipv4Addr a.routeTable a.maxPacketSize
  have hsize : len (⟨0,data⟩ : Packet) ≤ a.maxPacketSize := by
    rw [← hnew.size]
    exact ok.size
  have hsrc : (Ipv4Packet.header (⟨0,data⟩ : Packet)).srcIp = a.ipv4Addr := by
    rw [← hnew.addr]
    exact ok.src
  refine ⟨ok.long,ok.version,?_,ok.total,?_,?_⟩
  · rw [kept.size]
    exact hsize.trans h.size
  · rw [kept.routes]
    change b.routeTable.lookup (Ipv4Packet.header (⟨0,data⟩ : Packet)).srcIp = some X
    rw [hsrc]
    exact h.back
  · rw [kept.addr]
    exact dest

/-- Two nodes that list each other can get to be on the two ends of one connection. -/
theorem Mutual.meet {X Y : K} (known : Mutual X Y (cfg X) (cfg Y))
    (run : NetRun (vpnNet honest) (fun k => Node.start (cfg k)) s tr) (hX : honest X)
    (hY : honest Y) (hne : X ≠ Y) (roomX : (cfg X).HasRoom) (roomY : (cfg Y).HasRoom) :
    ∃ s' u c, Onward honest X Y s tr s' (tr ++ u) ∧ Joined X Y (s' X) (s' Y) c := by
  obtain ⟨listsY,listsX⟩ := known.lists
  obtain ⟨s₁,u₁,on₁,qX,qY⟩ := both_rest run hX hY hne roomX roomY
  obtain ⟨s₂,u₂,c,on₂,hj,-⟩ := meet_at_rest (run.along on₁.path) hX hY hne known.near known.far
    listsY listsX roomX roomY qX qY
  have on := on₁.trans on₂
  rw [List.append_assoc] at on
  exact ⟨s₂,_,c,on,hj⟩

theorem Mutual.passes {X Y : K} (known : Mutual X Y (cfg X) (cfg Y))
    (run : NetRun (vpnNet honest) (fun k => Node.start (cfg k)) s tr) {data : List UInt8}
    (accepted : (Node.start (cfg X)).core.acceptedFor (⟨0,data⟩ : Packet) = some Y)
    (dest : (Ipv4Packet.header (⟨0,data⟩ : Packet)).destIp = (cfg Y).ipv4Addr) (ticket : Nat) :
    (s X).core.acceptedFor (⟨ticket,data⟩ : Packet) = some Y ∧
      (s Y).core.RecvOk (⟨ticket,data⟩ : Packet) X := by
  have keptX := (Node.coreKept_run (member_run run X)).core
  have keptY := (Node.coreKept_run (member_run run Y)).core
  exact ⟨keptX.acceptedFor.mpr accepted,known.checked keptY accepted dest ticket⟩

/-- Whatever has happened in the network, two nodes that list each other can go on so that a
packet which the one accepts for the other is written to the TUN there. No other node has
to do anything for it. -/
theorem always_deliverable (run : NetRun (vpnNet honest) (fun k => Node.start (cfg k)) s tr)
    {X Y : K} (hX : honest X) (hY : honest Y) (hne : X ≠ Y) (known : Mutual X Y (cfg X) (cfg Y))
    (roomX : (cfg X).HasRoom) (roomY : (cfg Y).HasRoom) {data : List UInt8}
    (accepted : (Node.start (cfg X)).core.acceptedFor (⟨0,data⟩ : Packet) = some Y)
    (dest : (Ipv4Packet.header (⟨0,data⟩ : Packet)).destIp = (cfg Y).ipv4Addr) :
    ∃ s' u p, NetPath ((vpnNet honest).among fun k _ => k = X ∨ k = Y) s tr s' (tr ++ u) ∧
      p.data = data ∧ (Y,.wroteTun p) ∈ u := by
  obtain ⟨s₁,u₁,c,on₁,joined⟩ := known.meet run hX hY hne roomX roomY
  have run₁ := run.along on₁.path
  obtain ⟨haccepted,hchecked⟩ := known.passes run₁ accepted dest (s₁ X).reads
  obtain ⟨s₂,u₂,on₂,hwrote,-⟩ := joined.carries run₁ hX hY hne roomX roomY known.lists.1 haccepted
    hchecked
  have met : NetPath ((vpnNet honest).among fun k _ => k = X ∨ k = Y) s tr s₁ (tr ++ u₁) :=
    NetPath.widen (fun _ _ h => h.1) on₁
  have reads := met.snoc X (NodeAct.tunRead data) hX ⟨trivial,.inl rfl⟩ trivial
    (by simp [Net.among,vpnNet,Node.system,Node.shows])
  have path := reads.trans (by
    simp only [Net.among,vpnNet,Node.system,Node.shows,List.map_nil,List.append_nil]
    exact NetPath.widen (fun _ _ h => h.1) on₂)
  rw [List.append_assoc] at path
  exact ⟨s₂,_,_,path,rfl,List.mem_append_right _ hwrote⟩

/-- Node 2 believes to be connected, node 1 has yet to hear of it: a ping of node 1 can still
reach node 2. -/
theorem always_deliverable_half_open :
    let ping : List UInt8 := [0x45,0,0,20,0,0,0,0,64,0,0,0,10,67,1,1,10,67,1,2]
    let cfg : Nat → Config Nat := fun k =>
      if k = 1 then .main 1 ⟨10,67,1,1⟩ (AList.insert ⟨10,67,1,2⟩ 2 ∅)
      else .main 2 ⟨10,67,1,2⟩ (AList.insert ⟨10,67,1,1⟩ 1 ∅)
    let honest : Nat → Prop := fun k => k = 1 ∨ k = 2
    ∃ (s : Nat → Node Nat) (tr : List (Nat × NodeObs Nat)),
      NetRun (vpnNet honest) (fun k => Node.start (cfg k)) s tr ∧
      (s 2).manager.iroh.isConnected 1 = true ∧ (s 1).manager.iroh.isConnected 2 = false ∧
      ∃ s' u p, NetPath ((vpnNet honest).among fun k _ => k = 1 ∨ k = 2) s tr s' (tr ++ u) ∧
        p.data = ping ∧ (2,.wroteTun p) ∈ u := by
  let cfg : Nat → Config Nat := fun k =>
    if k = 1 then .main 1 ⟨10,67,1,1⟩ (AList.insert ⟨10,67,1,2⟩ 2 ∅)
    else .main 2 ⟨10,67,1,2⟩ (AList.insert ⟨10,67,1,1⟩ 1 ∅)
  obtain ⟨s,tr,run,h⟩ := @netExec_reaches _ _ _ _ _ (vpnNet (K := Nat) fun k => k = 1 ∨ k = 2)
    _ _ _ _ (fun k => Node.start (cfg k))
    [(1,.manager .effect),(2,.manager .effect),(2,.manager (.attempt ⟨0,1,false,none⟩ 7)),
      (2,.manager (.dialed ⟨0,1,false,none⟩ 7)),
      (2,.manager (.reportDial ⟨0,1,false,some ⟨7,1,true⟩⟩)),(2,.manager .recvTask),
      (2,.manager .effect),(2,.manager .effect)]
    (fun r => decide ((r.1 2).manager.iroh.isConnected 1 = true ∧
      (r.1 1).manager.iroh.isConnected 2 = false)) (by decide)
  obtain ⟨h₂,h₁⟩ := of_decide_eq_true h
  have room : ∀ k, (cfg k).HasRoom := fun k => by
    simp only [cfg]
    split <;> exact ⟨by decide,by decide,by decide,by decide,by decide⟩
  exact ⟨s,tr,run,h₂,h₁,always_deliverable run (.inl rfl) (.inr rfl) (by decide)
    ⟨rfl,rfl,by decide,by decide,Nat.le_refl _⟩ (room 1) (room 2) (by decide) (by decide)⟩

end Pair
end MeshNetwork
