import MeshNetwork.Node

set_option autoImplicit false

namespace MeshNetwork

def NodeObs.manager? {K : Type} : NodeObs K → Option (Obs K Packet)
  | .manager o => some o
  | _ => none

def managerView {K : Type} (tr : List (NodeObs K)) : List (Obs K Packet) :=
  tr.filterMap NodeObs.manager?

namespace Node
variable {K : Type} [LinearOrder K]

inductive Moved (n : Node K) : NodeAct K → Node K → List (NodeObs K) → Prop where
  | tunRead (data : List UInt8) : Moved n (.tunRead data) (n.next (.tunRead data)) []
  | tunWrite : Moved n .tunWrite { n with toTun := n.toTun.tail } []
  | coordIroh {event : IrohEvent K Packet} {rest : List (IrohEvent K Packet)}
      {core : VpnCore K Packet} {actions : List (Action K Packet)} (free : n.hand = [])
      (queue : n.toCoord = event :: rest)
      (answer : n.core.process (mapIrohEventToCoreEvent event) = some (core,actions)) :
      Moved n .coordIroh { n with toCoord := rest, core := core, hand := actions }
        (.processed event :: n.issues (mapIrohEventToCoreEvent event))
  | coordTun {packet : Packet} {rest : List Packet} {core : VpnCore K Packet}
      {actions : List (Action K Packet)} (free : n.hand = []) (queue : n.fromTun = packet :: rest)
      (answer : n.core.process (.packetFromTun packet) = some (core,actions)) :
      Moved n .coordTun { n with fromTun := rest, core := core, hand := actions }
        (n.takes packet ++ n.issues (.packetFromTun packet))
  | coordAction {action : Action K Packet} {rest : List (Action K Packet)}
      (hand : n.hand = action :: rest) :
      Moved n .coordAction (({ n with hand := rest } : Node K).handleAction action)
        (n.actionShows action)
  | managerCore {action : CoreAction K Packet} {rest : List (CoreAction K Packet)}
      (idle : n.manager.pc = []) (queue : n.toIroh = action :: rest) :
      Moved n .managerCore
        { n with toIroh := rest, manager := n.manager.next (.recvCore action) } []
  | manager {act : Act K Packet} (hen : n.manager.enabled act)
      (own : ∀ action, act ≠ .recvCore action) :
      Moved n (.manager act)
        { n with manager := n.manager.next act, toCoord := n.toCoord ++ n.posts act }
        ((n.manager.shows act).map .manager)

theorem moved {n : Node K} {a : NodeAct K} (hen : n.enabled a) :
    Moved n a (n.next a) (n.shows a) := by
  cases a with
  | tunRead data => exact .tunRead data
  | tunWrite => exact .tunWrite
  | coordIroh =>
    obtain ⟨free,e,he,hans⟩ := hen
    cases hq : n.toCoord with
    | nil => simp [hq] at he
    | cons event rest =>
      simp only [hq,List.head?_cons,Option.mem_some_iff] at he
      subst he
      obtain ⟨⟨core,actions⟩,hp⟩ := Option.isSome_iff_exists.mp hans
      simp only [next,shows,hq,handle,hp]
      exact .coordIroh free hq hp
  | coordTun =>
    obtain ⟨free,p,hp,hans⟩ := hen
    cases hq : n.fromTun with
    | nil => simp [hq] at hp
    | cons packet rest =>
      simp only [hq,List.head?_cons,Option.mem_some_iff] at hp
      subst hp
      obtain ⟨⟨core,actions⟩,hc⟩ := Option.isSome_iff_exists.mp hans
      simp only [next,shows,hq,handle,hc]
      exact .coordTun free hq hc
  | coordAction =>
    obtain ⟨action,ha,-⟩ := hen
    cases hh : n.hand with
    | nil => simp [hh] at ha
    | cons first rest =>
      simp only [next,shows,hh]
      exact .coordAction hh
  | managerCore =>
    obtain ⟨idle,hne⟩ := hen
    cases hq : n.toIroh with
    | nil => exact absurd hq hne
    | cons action rest =>
      simp only [next,shows,hq]
      exact .managerCore idle hq
  | manager act =>
    refine .manager hen.1 fun action hact => ?_
    have htake := hen.2
    rw [hact] at htake
    exact htake

omit [LinearOrder K] in
theorem managerView_append (tr tr' : List (NodeObs K)) :
    managerView (tr ++ tr') = managerView tr ++ managerView tr' := List.filterMap_append

omit [LinearOrder K] in
theorem managerView_map (os : List (Obs K Packet)) : managerView (os.map .manager) = os := by
  rw [managerView,List.filterMap_map]
  exact List.filterMap_some

omit [LinearOrder K] in
theorem managerView_eq_nil {os : List (NodeObs K)} (h : ∀ o ∈ os, o.manager? = none) :
    managerView os = [] := List.filterMap_eq_nil_iff.mpr h

omit [LinearOrder K] in
theorem mem_managerView {tr : List (NodeObs K)} {o : Obs K Packet} :
    o ∈ managerView tr ↔ .manager o ∈ tr := by
  simp only [managerView,List.mem_filterMap]
  constructor
  · rintro ⟨x,hx,ho⟩
    cases x <;> simp_all [NodeObs.manager?]
  · intro h
    exact ⟨_,h,rfl⟩

inductive Shown (n : Node K) : NodeAct K → NodeObs K → Prop where
  | processed (event : IrohEvent K Packet) : Shown n .coordIroh (.processed event)
  | issued (a : NodeAct K) (packet : Packet) (pubKey : K) : Shown n a (.issued packet pubKey)
  | accepted {packet : Packet} {pubKey : K} (route : n.core.acceptedFor packet = some pubKey) :
      Shown n .coordTun (.accepted packet pubKey)
  | evicted (packet : Packet) (pubKey : K) : Shown n .coordTun (.evicted packet pubKey)
  | irohFull (packet : Packet) (pubKey : K) : Shown n .coordAction (.irohFull packet pubKey)
  | wroteTun {packet : Packet} (hand : .writeToTun packet ∈ n.hand) :
      Shown n .coordAction (.wroteTun packet)
  | manager {act : Act K Packet} {o : Obs K Packet} (own : o ∈ n.manager.shows act) :
      Shown n (.manager act) (.manager o)

theorem mem_issues {n : Node K} {event : Event K Packet} {o : NodeObs K}
    (ho : o ∈ n.issues event) : ∃ packet pubKey, o = .issued packet pubKey := by
  unfold issues at ho
  split at ho
  · obtain ⟨a,-,ha⟩ := List.mem_filterMap.mp ho
    split at ha <;> simp only [Option.some.injEq,reduceCtorEq] at ha
    exact ⟨_,_,ha.symm⟩
  · simp at ho

theorem mem_takes {n : Node K} {packet : Packet} {o : NodeObs K} (ho : o ∈ n.takes packet) :
    (∃ pubKey, n.core.acceptedFor packet = some pubKey ∧ o = .accepted packet pubKey) ∨
      ∃ old pubKey, o = .evicted old pubKey := by
  unfold takes at ho
  split at ho
  · rename_i pubKey hacc
    rcases List.mem_cons.mp ho with rfl | hev
    · exact .inl ⟨pubKey,hacc,rfl⟩
    · unfold evicts at hev
      repeat' split at hev
      · obtain ⟨old,-,rfl⟩ := List.mem_map.mp hev
        exact .inr ⟨old,pubKey,rfl⟩
      all_goals simp at hev
  · simp at ho

theorem shown {n : Node K} {a : NodeAct K} {o : NodeObs K} (ho : o ∈ n.shows a) :
    Shown n a o := by
  cases a with
  | coordIroh =>
    simp only [shows] at ho
    split at ho
    · rcases List.mem_cons.mp ho with rfl | hiss
      · exact .processed _
      · obtain ⟨packet,pubKey,rfl⟩ := mem_issues hiss
        exact .issued _ packet pubKey
    · simp at ho
  | coordTun =>
    simp only [shows] at ho
    split at ho
    · rcases List.mem_append.mp ho with htake | hiss
      · rcases mem_takes htake with ⟨pubKey,hacc,rfl⟩ | ⟨old,pubKey,rfl⟩
        · exact .accepted hacc
        · exact .evicted old pubKey
      · obtain ⟨packet,pubKey,rfl⟩ := mem_issues hiss
        exact .issued _ packet pubKey
    · simp at ho
  | coordAction =>
    simp only [shows] at ho
    split at ho
    · rename_i action rest hhand
      cases action with
      | sendPacketTo packet pubKey =>
        simp only [actionShows] at ho
        split at ho
        · simp at ho
        · rw [List.mem_singleton.mp ho]
          exact .irohFull packet pubKey
      | writeToTun packet =>
        simp only [actionShows] at ho
        split at ho
        · rw [List.mem_singleton.mp ho]
          exact .wroteTun (by rw [hhand]; exact List.mem_cons_self)
        · simp at ho
      | _ => simp [actionShows] at ho
    · simp at ho
  | manager act =>
    obtain ⟨x,hx,rfl⟩ := List.mem_map.mp ho
    exact .manager hx
  | _ => simp [shows] at ho

def irohSends (n : Node K) : Action K Packet → List (CoreAction K Packet)
  | .disconnectFromPeer pubKey => [.disconnectFromPeer pubKey]
  | .sendPacketTo packet pubKey =>
    if n.toIroh.length < n.cfg.irohCapacity then [.sendPacketTo packet pubKey] else []
  | _ => []

def tunSends (n : Node K) : Action K Packet → List Packet
  | .writeToTun packet => if n.toTun.length < n.cfg.toTunCapacity then [packet] else []
  | _ => []

omit [LinearOrder K] in
theorem handleAction_eq (n : Node K) (action : Action K Packet) : n.handleAction action =
    { n with toIroh := n.toIroh ++ n.irohSends action, toTun := n.toTun ++ n.tunSends action } := by
  cases action with
  | connectToPeer pubKey => simp [handleAction,irohSends,tunSends]
  | disconnectFromPeer pubKey => simp [handleAction,irohSends,tunSends]
  | sendPacketTo packet pubKey =>
    simp only [handleAction,irohSends,tunSends]
    split <;> simp
  | writeToTun packet =>
    simp only [handleAction,irohSends,tunSends]
    split <;> simp
  | noAction log => simp [handleAction,irohSends,tunSends]

theorem managerView_shows (n : Node K) {a : NodeAct K} (h : ∀ act, a ≠ .manager act) :
    managerView (n.shows a) = [] := by
  refine managerView_eq_nil fun o ho => ?_
  cases shown ho with
  | manager own => exact absurd rfl (h _)
  | _ => rfl

theorem manager_run {ok : Node K → NodeAct K → Prop} {n₀ n : Node K} {tr : List (NodeObs K)}
    (run : Runs.Run system ok n₀ n tr) :
    Runs.Run Manager.system Runs.anyStep n₀.manager n.manager (managerView tr) := by
  induction run with
  | nil => exact .nil
  | @snoc n tr a run hok hen ih =>
    have hview := n.managerView_shows (a := a)
    have hm := moved hen
    change Runs.Run _ _ _ (n.next a).manager (managerView (tr ++ n.shows a))
    generalize n.next a = n' at hm
    generalize n.shows a = os at hm hview
    rw [managerView_append]
    cases hm with
    | managerCore idle queue =>
      rename_i action rest
      have hcore : Manager.system.enabled n.manager (.recvCore action) := idle
      exact Runs.Run.snoc (.recvCore action) ih trivial hcore
    | manager hact own =>
      rw [managerView_map]
      exact .snoc _ ih trivial hact
    | coordAction hand =>
      rw [hview (by simp),List.append_nil,handleAction_eq]
      exact ih
    | _ =>
      rw [hview (by simp),List.append_nil]
      exact ih

structure CoreKept (cfg : Config K) (n : Node K) : Prop where
  sameCfg : n.cfg = cfg
  core : CoreInvariant cfg.ipv4Addr cfg.routeTable cfg.maxPacketSize n.core

theorem CoreKept.next {cfg : Config K} {n : Node K} (h : CoreKept cfg n) {a : NodeAct K}
    (hen : n.enabled a) : CoreKept cfg (n.next a) := by
  have answer : ∀ {event core actions}, n.core.process event = some (core,actions) →
      CoreInvariant cfg.ipv4Addr cfg.routeTable cfg.maxPacketSize core := by
    intro event core actions hp
    obtain ⟨core',actions',hp',hinv,-⟩ := h.core.process event
    rw [hp'] at hp
    simp only [Option.some.injEq,Prod.mk.injEq] at hp
    rw [← hp.1]
    exact hinv
  have hm := moved hen
  generalize n.next a = n' at hm
  generalize n.shows a = os at hm
  cases hm with
  | tunRead data => exact ⟨h.sameCfg,h.core⟩
  | tunWrite => exact ⟨h.sameCfg,h.core⟩
  | coordIroh free queue hp => exact ⟨h.sameCfg,answer hp⟩
  | coordTun free queue hp => exact ⟨h.sameCfg,answer hp⟩
  | coordAction hand =>
    rw [handleAction_eq]
    exact ⟨h.sameCfg,h.core⟩
  | managerCore idle queue => exact ⟨h.sameCfg,h.core⟩
  | manager hact own => exact ⟨h.sameCfg,h.core⟩

theorem start_coreKept (cfg : Config K) : CoreKept cfg (start cfg) :=
  ⟨rfl,VpnCore.new_invariant cfg.ipv4Addr cfg.routeTable cfg.maxPacketSize⟩

theorem coreKept_run {cfg : Config K} {ok : Node K → NodeAct K → Prop} {n : Node K}
    {tr : List (NodeObs K)} (run : Runs.Run system ok (start cfg) n tr) : CoreKept cfg n :=
  run.invariant (fun n _ => CoreKept cfg n) (start_coreKept cfg) fun _ _ _ h _ hen => h.next hen

end Node
end MeshNetwork
