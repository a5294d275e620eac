import MeshNetwork.Process
import MeshNetwork.Rest
import MeshNetwork.Simulation
import MeshNetwork.TunSteps

set_option autoImplicit false

namespace MeshNetwork
open Runs

namespace Tun
variable {P : Type}

structure OnlyTakes (t t' : Tun P) : Prop where
  capacity : t'.capacity = t.capacity
  coordOpen : t'.coordOpen = t.coordOpen
  toCoord : t'.toCoord = t.toCoord
  fromCoord : ∃ k, t'.fromCoord = t.fromCoord.drop k

theorem OnlyTakes.same {t t' : Tun P} (capacity : t'.capacity = t.capacity)
    (coordOpen : t'.coordOpen = t.coordOpen) (toCoord : t'.toCoord = t.toCoord)
    (fromCoord : t'.fromCoord = t.fromCoord) : OnlyTakes t t' :=
  ⟨capacity,coordOpen,toCoord,0,fromCoord⟩

theorem OnlyTakes.dropRx (t : Tun P) : OnlyTakes t t.dropRx :=
  ⟨rfl,rfl,rfl,t.fromCoord.length,by simp [Tun.dropRx]⟩

theorem OnlyTakes.trans {t t' t'' : Tun P} (h : OnlyTakes t t') (h' : OnlyTakes t' t'') :
    OnlyTakes t t'' := by
  obtain ⟨k,hk⟩ := h.fromCoord
  obtain ⟨j,hj⟩ := h'.fromCoord
  refine ⟨h'.capacity.trans h.capacity,h'.coordOpen.trans h.coordOpen,h'.toCoord.trans h.toCoord,
    k + j,?_⟩
  rw [hj,hk,List.drop_drop]

theorem leave_onlyTakes (t : Tun P) (phase : TunPhase) : OnlyTakes t (t.leave phase) :=
  ⟨rfl,rfl,rfl,0,rfl⟩

theorem returns_onlyTakes (t : Tun P) : OnlyTakes t t.returns := by
  have left := t.leave_onlyTakes .returned
  unfold returns
  split
  · exact left.trans (.dropRx _)
  · exact left.trans (.dropRx _)
  · exact left
  · exact left

theorem finish_onlyTakes (t : Tun P) (event : TunEvent) : OnlyTakes t (t.finish event) := by
  unfold finish
  split
  · exact t.leave_onlyTakes .creating
  · exact t.returns_onlyTakes

variable [DecidableEq P]

theorem writerEnds_onlyTakes (t : Tun P) (w : Writer P) (event : TunEvent) :
    OnlyTakes t (t.writerEnds w event) := by
  unfold writerEnds
  simp only
  split
  · exact .same rfl rfl rfl rfl
  · refine .trans ?_ (.dropRx _)
    exact .same rfl rfl rfl rfl

variable [Buf P]

def receives (t : Tun P) : TunAct P → List P
  | .read _ (.ok packet) =>
    if len packet = 0 then [] else if t.toCoord.length < t.capacity then [packet] else []
  | _ => []

theorem next_read {t : Tun P} {r : Reader} {packet : P} (running : t.coordOpen = true) :
    OnlyTakes { t with toCoord := t.toCoord ++ t.receives (.read r (.ok packet)) }
      (t.next (.read r (.ok packet))) := by
  by_cases hzero : len packet = 0
  · simp only [next,readEnds,receives,hzero,if_true]
    exact .same rfl rfl (by simp [readerEnds]) rfl
  · have goesOn : t.readEnds (.ok packet) = none := by simp [readEnds,hzero,running]
    simp only [next,goesOn,receives,hzero,if_false]
    split
    · exact .same rfl rfl rfl rfl
    · exact .same rfl rfl (by simp) rfl

theorem next_onlyTakes {t : Tun P} {l : TunAct P} (running : t.coordOpen = true)
    (own : l.own = true) :
    OnlyTakes { t with toCoord := t.toCoord ++ t.receives l } (t.next l) := by
  have same : ∀ {t'}, t.receives l = [] → OnlyTakes t t' →
      OnlyTakes { t with toCoord := t.toCoord ++ t.receives l } t' := by
    intro t' hnil h
    rw [hnil]
    exact ⟨h.capacity,h.coordOpen,by simp [h.toCoord],h.fromCoord⟩
  cases l with
  | create => exact same rfl (.same rfl rfl rfl rfl)
  | createFails => exact same rfl (.same rfl rfl rfl rfl)
  | noticeReader =>
    refine same rfl ?_
    simp only [next]
    split
    · exact .same rfl rfl rfl rfl
    · exact t.returns_onlyTakes
    · exact t.returns_onlyTakes
  | noticeWriter =>
    refine same rfl ?_
    simp only [next]
    split
    · exact .same rfl rfl rfl rfl
    · exact t.returns_onlyTakes
    · exact t.returns_onlyTakes
  | writerBack event =>
    refine same rfl ?_
    simp only [next]
    split
    · refine .trans ?_ (finish_onlyTakes _ event)
      exact .same rfl rfl rfl rfl
    · exact t.returns_onlyTakes
    · exact t.returns_onlyTakes
  | readerBack event =>
    refine same rfl ?_
    simp only [next]
    split
    · exact t.finish_onlyTakes event
    · exact t.returns_onlyTakes
    · exact t.returns_onlyTakes
  | stopReader r => exact same rfl (.same rfl rfl rfl rfl)
  | read r result =>
    cases result with
    | ok packet => exact next_read running
    | error kind =>
      refine same rfl ?_
      simp only [next]
      split <;> exact .same rfl rfl rfl rfl
  | readerReturns device => exact same rfl (.same rfl rfl rfl rfl)
  | stopWriter w => exact same rfl (t.writerEnds_onlyTakes w _)
  | recv w =>
    refine same rfl ?_
    simp only [next]
    split
    · rename_i packet rest hq
      exact ⟨rfl,rfl,rfl,1,by simp [setWriter,hq]⟩
    · exact t.writerEnds_onlyTakes w _
  | write w packet => exact same rfl (.same rfl rfl rfl rfl)
  | written w packet result =>
    refine same rfl ?_
    cases result with
    | ok n => exact .same rfl rfl rfl rfl
    | error kind =>
      simp only [next]
      split
      · exact t.writerEnds_onlyTakes w _
      · exact .same rfl rfl rfl rfl
  | writerReturns device => exact same rfl (.same rfl rfl rfl rfl)
  | coordSends packet | coordReceives | coordEnds => simp [TunAct.own] at own

end Tun

namespace Node
variable {K : Type} [LinearOrder K]

theorem takes_packets (n : Node K) (k : Nat) :
    Run system anyStep n { n with toTun := n.toTun.drop k } [] := by
  induction k with
  | zero => exact .nil
  | succ k ih =>
    by_cases h : n.toTun.drop k = []
    · have hdrop : n.toTun.drop (k + 1) = n.toTun.drop k := by
        rw [← List.tail_drop,h]
        rfl
      rw [hdrop]
      exact ih
    · have hstep := Run.snoc (S := system) NodeAct.tunWrite ih trivial h
      simp only [system,next,shows,List.tail_drop,List.append_nil] at hstep
      exact hstep

end Node

namespace Process
variable {K : Type} [LinearOrder K]

structure Assembled (cfg : Config K) (p : Process K) : Prop where
  sameCfg : p.cfg = cfg
  paired : cfg.fromTunCapacity = cfg.toTunCapacity
  capacity : p.tun.capacity = cfg.toTunCapacity
  running : p.tun.coordOpen = true

def nodeObs : ProcessObs K → Option (NodeObs K)
  | .node o => some o
  | _ => none

def tunObs : ProcessObs K → Option (TunObs Packet)
  | .tun o => some o
  | _ => none

def sent? : NodeObs K → Option (TunObs Packet)
  | .wroteTun packet => some (.sent packet)
  | _ => none

section Views
variable (p : Process K)

omit [LinearOrder K] in
theorem nodeObs_tun (act : TunAct Packet) (os : List (TunObs Packet)) :
    (readShows (K := K) act ++ os.map ProcessObs.tun).filterMap nodeObs = [] := by
  rw [List.filterMap_eq_nil_iff]
  intro o ho
  rcases List.mem_append.mp ho with hr | ht
  · unfold readShows at hr
    split at hr
    · rw [List.mem_singleton.mp hr]
      rfl
    · simp at hr
  · obtain ⟨x,-,rfl⟩ := List.mem_map.mp ht
    rfl

omit [LinearOrder K] in
theorem tunObs_tun (act : TunAct Packet) (os : List (TunObs Packet)) :
    (readShows (K := K) act ++ os.map ProcessObs.tun).filterMap tunObs = os := by
  have hread : (readShows (K := K) act).filterMap tunObs = [] := by
    unfold readShows
    split <;> rfl
  rw [List.filterMap_append,hread,List.nil_append,List.filterMap_map]
  exact List.filterMap_some

omit [LinearOrder K] in
theorem nodeObs_node (os : List (NodeObs K)) :
    (os.map ProcessObs.node ++ os.filterMap sends).filterMap nodeObs = os := by
  have hsends : (os.filterMap sends).filterMap nodeObs = ([] : List (NodeObs K)) := by
    rw [List.filterMap_eq_nil_iff]
    intro o ho
    obtain ⟨x,-,hx⟩ := List.mem_filterMap.mp ho
    cases x <;> simp [sends] at hx
    rw [← hx]
    rfl
  rw [List.filterMap_append,hsends,List.append_nil,List.filterMap_map]
  exact List.filterMap_some

omit [LinearOrder K] in
theorem tunObs_node (os : List (NodeObs K)) :
    (os.map ProcessObs.node ++ os.filterMap sends).filterMap tunObs = os.filterMap sent? := by
  have hmap : (os.map (ProcessObs.node (K := K))).filterMap tunObs = [] := by
    rw [List.filterMap_eq_nil_iff]
    intro o ho
    obtain ⟨x,-,rfl⟩ := List.mem_map.mp ho
    rfl
  rw [List.filterMap_append,hmap,List.nil_append,List.filterMap_filterMap]
  congr 1
  funext o
  cases o <;> rfl

end Views

variable {cfg : Config K} {p : Process K}

theorem main_assembled (id : K) (ipv4Addr : Ipv4Addr) (routeTable : RouteTable K) :
    Assembled (.main id ipv4Addr routeTable) (main id ipv4Addr routeTable) := ⟨rfl,rfl,rfl,rfl⟩

theorem Assembled.next (h : Assembled cfg p) {a : ProcessAct K} (hen : p.enabled a) :
    Assembled cfg (p.next a) := by
  cases a with
  | tun act =>
    have takes := Tun.next_onlyTakes h.running hen.2.1
    exact ⟨h.sameCfg,h.paired,takes.capacity.trans h.capacity,takes.coordOpen.trans h.running⟩
  | _ => exact ⟨h.sameCfg,h.paired,h.capacity,h.running⟩

def tunWritten (n : Node K) : NodeAct K → List Packet
  | .coordAction =>
    match n.hand with
    | action :: _ => n.tunSends action
    | [] => []
  | _ => []

theorem sent_shows (n : Node K) (a : NodeAct K) :
    (n.shows a).filterMap sent? = (tunWritten n a).map .sent := by
  by_cases h : a = .coordAction
  · subst h
    simp only [Node.shows,tunWritten]
    cases n.hand with
    | nil => rfl
    | cons action rest =>
      cases action with
      | writeToTun packet | sendPacketTo packet pubKey =>
        simp only [Node.actionShows,Node.tunSends]
        split <;> rfl
      | _ => rfl
  · have hnone : tunWritten n a = [] := by cases a <;> first | rfl | exact absurd rfl h
    rw [hnone,List.map_nil,List.filterMap_eq_nil_iff]
    intro o ho
    cases Node.shown ho with
    | wroteTun hand => exact absurd rfl h
    | _ => rfl

omit [LinearOrder K] in
theorem tunSends_cases (n : Node K) (action : Action K Packet) :
    n.tunSends action = [] ∨ ∃ packet, action = .writeToTun packet ∧
      n.toTun.length < n.cfg.toTunCapacity ∧ n.tunSends action = [packet] := by
  cases action with
  | writeToTun packet =>
    by_cases hroom : n.toTun.length < n.cfg.toTunCapacity
    · exact .inr ⟨packet,rfl,hroom,by simp [Node.tunSends,hroom]⟩
    · exact .inl (by simp [Node.tunSends,hroom])
  | _ => exact .inl rfl

/-- The coordinator sends to the TUN what it writes to it, and receives what is read there. -/
theorem node_step_of_tun (h : Assembled cfg p) {act : NodeAct K} (hen : p.enabled (.node act)) :
    Matched Tun.system anyStep p.tun (p.next (.node act)).tun
      ((p.node.shows act).filterMap sent?) := by
  obtain ⟨-,own,hnode,hrx⟩ := hen
  have hm := Node.moved hnode
  have state : (p.next (.node act)).tun = { p.tun with
      toCoord := (p.node.next act).fromTun
      fromCoord := (p.node.next act).toTun } := rfl
  rw [state,sent_shows]
  generalize p.node.next act = n at hm
  generalize p.node.shows act = os at hm
  cases hm with
  | tunRead data => simp [NodeAct.own] at own
  | tunWrite => simp [NodeAct.own] at own
  | coordTun free queue answer =>
    rename_i packet rest core actions
    have hq : p.tun.toCoord = packet :: rest := queue
    have hen : Tun.system.enabled p.tun .coordReceives := ⟨h.running,by simp [hq]⟩
    have hone : Matched Tun.system anyStep p.tun (Tun.system.next p.tun .coordReceives)
        (Tun.system.shows p.tun .coordReceives) := Matched.one TunAct.coordReceives trivial hen
    simp only [Tun.system,Tun.next,Tun.shows,hq,List.tail_cons] at hone
    exact hone
  | coordAction hand =>
    rename_i action rest
    have hw : tunWritten p.node .coordAction = p.node.tunSends action := by simp [tunWritten,hand]
    rw [hw,Node.handleAction_eq]
    rcases tunSends_cases p.node action with hnone | ⟨packet,rfl,hroom,hone⟩
    · rw [hnone]
      have hsame : ({ p.node with hand := rest } : Node K).tunSends action = [] := hnone
      rw [hsame]
      simp only [List.append_nil]
      exact .still p.tun
    · have hwriting : p.writing = some packet := by
        simp only [writing]
        rw [show p.hand = _ from hand]
      have hen : Tun.system.enabled p.tun (.coordSends packet) :=
        ⟨h.running,hrx rfl (by simp [hwriting]),by rw [h.capacity,← h.sameCfg]; exact hroom⟩
      rw [hone]
      have hsame : ({ p.node with hand := rest } : Node K).tunSends (.writeToTun packet) = [packet] :=
        hone
      rw [hsame]
      exact Matched.one (T := Tun.system) _ trivial hen
  | _ => exact .still p.tun

theorem tun_view (cfg : Config K) :
    Projects system Tun.system anyStep anyStep (Assembled cfg) Process.tun tunObs where
  keeps _ _ h _ hen := h.next hen
  step p a h _ hen := by
    cases a with
    | tun act =>
      change Matched _ _ _ _
        ((readShows act ++ (p.tun.shows act).map ProcessObs.tun).filterMap tunObs)
      rw [tunObs_tun]
      exact .one act trivial hen.2.2.1
    | node act =>
      change Matched _ _ _ _
        (((p.node.shows act).map ProcessObs.node ++ (p.node.shows act).filterMap sends).filterMap
          tunObs)
      rw [tunObs_node]
      exact node_step_of_tun h hen
    | _ => exact .still p.tun

theorem next_cfg (n : Node K) {a : NodeAct K} (hen : n.enabled a) : (n.next a).cfg = n.cfg := by
  have hm := Node.moved hen
  generalize n.next a = n' at hm
  generalize n.shows a = os at hm
  cases hm with
  | coordAction hand => rw [Node.handleAction_eq]
  | _ => rfl

theorem next_node {act : NodeAct K} (hen : p.node.enabled act) :
    (p.next (.node act)).node = p.node.next act := by
  have hcfg := next_cfg p.node hen
  change { p.node.next act with cfg := p.cfg } = p.node.next act
  rw [show p.cfg = (p.node.next act).cfg from hcfg.symm]

omit [LinearOrder K] in
theorem read_cases (t : Tun Packet) (act : TunAct Packet) :
    (t.receives act = [] ∧ readsOf act = 0) ∨
      ∃ r packet, act = .read r (.ok packet) ∧ len packet ≠ 0 := by
  cases act with
  | read r result =>
    cases result with
    | error kind => exact .inl ⟨rfl,rfl⟩
    | ok packet =>
      by_cases hzero : len packet = 0
      · exact .inl ⟨by simp [Tun.receives,hzero],by simp [readsOf,hzero]⟩
      · exact .inr ⟨r,packet,rfl,hzero⟩
  | _ => exact .inl ⟨rfl,rfl⟩

/-- What a step of a worker is to the node: a read, or packets taken from the channel. -/
theorem tun_step_of_node (h : Assembled cfg p) {act : TunAct Packet}
    (hen : p.enabled (.tun act)) :
    Run Node.system anyStep p.node (p.next (.tun act)).node [] := by
  obtain ⟨-,own,htun,number⟩ := hen
  have takes := Tun.next_onlyTakes h.running own
  obtain ⟨k,hk⟩ := takes.fromCoord
  have state : (p.next (.tun act)).node = { p.node with
      fromTun := p.tun.toCoord ++ p.tun.receives act
      toTun := p.tun.fromCoord.drop k
      reads := p.reads + readsOf act } := by
    simp only [next,node,takes.toCoord,hk]
  rw [state]
  have silent : Run Node.system anyStep p.node { p.node with
      fromTun := p.tun.toCoord ++ p.tun.receives act
      reads := p.reads + readsOf act } [] := by
    rcases read_cases p.tun act with ⟨hnone,hzero⟩ | ⟨r,packet,rfl,hlen⟩
    · rw [hnone,hzero,List.append_nil]
      exact .nil
    · have hpacket : (⟨p.reads,packet.data⟩ : Packet) = packet := by
        have hticket : packet.ticket = p.reads := number
        rw [← hticket]
      have hread : Run Node.system anyStep p.node (p.node.next (.tunRead packet.data)) [] :=
        Run.single (S := Node.system) (NodeAct.tunRead packet.data) trivial trivial
      have hcap : p.cfg.fromTunCapacity = p.tun.capacity := by
        rw [h.sameCfg,h.paired,h.capacity]
      have hnext : p.node.next (.tunRead packet.data) = { p.node with
          fromTun := p.tun.toCoord ++ p.tun.receives (.read r (.ok packet))
          reads := p.reads + readsOf (.read r (.ok packet)) } := by
        simp only [Node.next,node,hcap,Tun.receives,readsOf,hlen,if_false,hpacket]
        split <;> simp
      rw [← hnext]
      exact hread
  exact silent.trans (Node.takes_packets _ k)

theorem node_view (cfg : Config K) :
    Projects system Node.system anyStep anyStep (Assembled cfg) Process.node nodeObs where
  keeps _ _ h _ hen := h.next hen
  step p a h _ hen := by
    cases a with
    | tun act =>
      change Matched _ _ _ _
        ((readShows act ++ (p.tun.shows act).map ProcessObs.tun).filterMap nodeObs)
      rw [nodeObs_tun]
      exact .silent (tun_step_of_node h hen)
    | node act =>
      change Matched _ _ _ _
        (((p.node.shows act).map ProcessObs.node ++ (p.node.shows act).filterMap sends).filterMap
          nodeObs)
      rw [nodeObs_node]
      change Matched _ _ _ (p.next (.node act)).node _
      rw [next_node hen.2.2.1]
      exact .one act trivial hen.2.2.1
    | _ => exact .still p.node

variable {tr : List (ProcessObs K)} {id : K} {ipv4Addr : Ipv4Addr} {routeTable : RouteTable K}

omit [LinearOrder K] in
theorem mem_tunObs {o : TunObs Packet} : o ∈ tr.filterMap tunObs ↔ .tun o ∈ tr := by
  simp only [List.mem_filterMap]
  constructor
  · rintro ⟨x,hx,ho⟩
    cases x <;> simp [tunObs] at ho
    rw [← ho]
    exact hx
  · intro h
    exact ⟨_,h,rfl⟩

theorem tun_shown {a : ProcessAct K} {o : TunObs Packet} (h : .tun o ∈ p.shows a) :
    (∃ act, a = .tun act ∧ o ∈ p.tun.shows act) ∨
      ∃ act packet, a = .node act ∧ o = .sent packet ∧ .wroteTun packet ∈ p.node.shows act := by
  cases a with
  | tun act =>
    rcases List.mem_append.mp h with hread | htun
    · unfold readShows at hread
      split at hread <;> simp at hread
    · obtain ⟨x,hx,heq⟩ := List.mem_map.mp htun
      simp only [ProcessObs.tun.injEq] at heq
      rw [heq] at hx
      exact .inl ⟨act,rfl,hx⟩
  | node act =>
    rcases List.mem_append.mp h with hnode | hsent
    · obtain ⟨x,-,hx⟩ := List.mem_map.mp hnode
      simp at hx
    · obtain ⟨x,hx,heq⟩ := List.mem_filterMap.mp hsent
      cases x <;> simp [sends] at heq
      exact .inr ⟨act,_,rfl,heq.symm,hx⟩
  | _ => simp [shows] at h

theorem views (run : Run system anyStep (main id ipv4Addr routeTable) p tr) :
    Assembled (.main id ipv4Addr routeTable) p ∧
      Run Node.system anyStep (.start (.main id ipv4Addr routeTable)) p.node
        (tr.filterMap nodeObs) ∧
      Run Tun.system anyStep (.new 8192) p.tun (tr.filterMap tunObs) := by
  have h := main_assembled id ipv4Addr routeTable
  obtain ⟨assembled,node⟩ := (node_view _).run h run
  obtain ⟨-,tun⟩ := (tun_view _).run h run
  exact ⟨assembled,node,tun⟩

end Process
end MeshNetwork
