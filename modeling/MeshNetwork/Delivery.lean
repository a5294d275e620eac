import MeshNetwork.Agreement
import MeshNetwork.PacketChannels

set_option autoImplicit false

namespace MeshNetwork

namespace Manager
variable {K B : Type} [LinearOrder K]

/-- A `DisconnectedFromPeer` of `pk` is about to be sent, or a queued `Disconnected` event
will still find the entry connected. -/
def Due (pk : K) (m : Manager K B) : Prop :=
  .send (.disconnectedFromPeer pk) ∈ m.pc ∨ m.iroh.isConnected pk = true ∧
    (∃ q ∈ m.rxFromTasks, q.event = .disconnected pk) ∧ ∀ e ∈ m.pc, e.link pk ≠ some false

theorem reaction_keeps {iroh : Iroh K} {ev : ConnectionEvent K} {effects : List (Effect K B)}
    (h : iroh.Reaction ev effects) {pk : K} (hev : ev ≠ .disconnected pk) :
    ∀ e ∈ effects, e.link pk ≠ some false := by
  intro e he
  rcases h.effect_cases he with ⟨task,rfl⟩ | ⟨conn,rfl⟩ | ⟨k,rfl⟩ | ⟨conn,rfl⟩ | ⟨k,rfl,hlost⟩
  · simp [Effect.link]
  · simp [Effect.link]
  · simp [Effect.link]
  · simp [Effect.link]
  · have hne : k ≠ pk := by
      rintro rfl
      exact hev rfl
    rcases hlost with rfl | rfl | rfl <;> simp [Effect.link,hne]

theorem coreReaction_keeps {iroh : Iroh K} {action : CoreAction K B} {effects : List (Effect K B)}
    (h : iroh.CoreReaction action effects) {pk : K} (hc : iroh.isConnected pk = true) :
    .send (.disconnectedFromPeer pk) ∈ effects ∨ ∀ e ∈ effects, e.link pk ≠ some false := by
  obtain ⟨task,conn,hl⟩ := Iroh.isConnected_iff.mp hc
  have other : ∀ pubKey, (∀ t c, iroh.stateTable.lookup pubKey ≠ some (.connected t c)) →
      pubKey ≠ pk := by
    rintro pubKey hno rfl
    exact hno task conn hl
  cases h with
  | restarted pubKey hdis =>
    have hne := other pubKey (by simp [hdis])
    rcases iroh.initNewConnection_eq (B := B) pubKey with ⟨-,hnew⟩ | ⟨-,hnew⟩
    all_goals
      rw [hnew]
      exact .inr (by simp [Effect.link,hne])
  | closed pubKey old oldConn hcon =>
    by_cases hk : pubKey = pk
    · exact .inl (by simp [hk])
    · exact .inr (by simp [Effect.link,hk])
  | cancelled pubKey old hcon =>
    have hne := other pubKey (by simp [hcon])
    exact .inr (by simp [Effect.link,hne])
  | cleared pubKey hno =>
    have hne : pubKey ≠ pk := by
      rintro rfl
      simp [hc] at hno
    exact .inr (by simp [Effect.link,hne])
  | _ => exact .inr (by simp [Effect.link])

theorem Due.next {pk : K} {m : Manager K B} (h : Due pk m) {l : Act K B} (hen : m.enabled l) :
    Due pk (m.next l) ∨ .emitted (.disconnectedFromPeer pk) ∈ m.shows l := by
  have hm := moved hen
  generalize hnext : m.next l = m' at hm
  cases hm with
  | handle idle queue reaction =>
    rename_i q rest effects
    left
    rcases h with hsend | ⟨hc,⟨x,hx,hxe⟩,-⟩
    · simp [idle] at hsend
    · by_cases hq : q.event = .disconnected pk
      · left
        rw [hq] at reaction
        cases reaction with
        | replaced conn old task hev hl => simp at hev
        | refused conn hev hno => simp at hev
        | lost pubKey hc' => exact List.mem_cons_self
        | ignored pubKey hno => simp [hc] at hno
      · refine .inr ⟨hc,⟨x,?_,hxe⟩,reaction_keeps reaction hq⟩
        rw [queue] at hx
        rcases List.mem_cons.mp hx with rfl | hrest
        · exact absurd hxe hq
        · exact hrest
  | core idle reaction =>
    left
    rcases h with hsend | ⟨hc,hx,-⟩
    · simp [idle] at hsend
    · rcases coreReaction_keeps reaction hc with hnow | hkeep
      · exact .inl hnow
      · exact .inr ⟨hc,hx,hkeep⟩
  | effect hpc =>
    rename_i e rest
    rcases h with hsend | ⟨hc,hx,hkeep⟩
    · rw [hpc] at hsend
      rcases List.mem_cons.mp hsend with rfl | hrest
      · right
        simp [shows,hpc,performShows]
      · exact .inl (.inl hrest)
    · left
      right
      rw [hpc] at hkeep
      refine ⟨?_,?_,fun e' he' => hkeep e' (List.mem_cons_of_mem _ he')⟩
      · change (m.perform e).iroh.isConnected pk = true
        rw [perform_isConnected,hc]
        have hfirst := hkeep e List.mem_cons_self
        cases hl : e.link pk with
        | none => rfl
        | some b =>
          rw [hl] at hfirst
          cases b with
          | true => rfl
          | false => exact absurd rfl hfirst
      · change ∃ q ∈ (m.perform e).rxFromTasks, _
        rw [perform_rxFromTasks]
        exact hx
  | task own =>
    left
    rw [← hnext]
    unfold Due
    rw [task_pc m own,task_iroh m own,task_rxFromTasks m own]
    rcases h with hsend | ⟨hc,⟨x,hx,hxe⟩,hkeep⟩
    · exact .inl hsend
    · exact .inr ⟨hc,⟨x,List.mem_append_left _ hx,hxe⟩,hkeep⟩

theorem due_run {pk : K} {ok : Manager K B → Act K B → Prop} {m m' : Manager K B}
    {tr : List (Obs K B)} (run : Runs.Run system ok m m' tr) (h : Due pk m) :
    Due pk m' ∨ .emitted (.disconnectedFromPeer pk) ∈ tr := by
  refine run.invariant (fun m tr => Due pk m ∨ .emitted (.disconnectedFromPeer pk) ∈ tr) (.inl h)
    fun m tr l ih _ hen => ?_
  rcases ih with hdue | hshown
  · rcases hdue.next hen with hnext | hnow
    · exact .inl hnext
    · exact .inr (List.mem_append_right _ hnow)
  · exact .inr (List.mem_append_left _ hshown)

/-- A packet finds its peer not connected only after the manager has said so, or with the
report of the end of its session still queued. -/
theorem notConnected_cause {m : Manager K B} {tr : List (Obs K B)} (hw : m.Wired)
    (ho : OnePacket m) (hr : Reported m tr) {p : B} {pk : K} {l : Act K B}
    (hshow : Shown m l (.notConnected p pk)) : p ∈ m.pc.filterMap (Effect.packetFor pk) ∧
      (latest (IrohEvent.link pk) false (emitted tr) = false ∨
        (∃ q ∈ m.rxFromTasks, q.event = .disconnected pk) ∧ Due pk m) := by
  cases hshow with
  | @ended t _ _ rest hpc hnone =>
    obtain ⟨hall,c,hl⟩ := ho.trySend t p pk (by rw [hpc]; exact List.mem_cons_self)
    refine ⟨by simp [hall,Effect.packetFor],.inr ?_⟩
    have hwait : (⟨.disconnected pk,some t⟩ : Queued K) ∈ m.rxFromTasks := by
      rcases hw.backed pk t c hl with hre | ⟨x,hx,ht,-⟩ | hq
      · obtain ⟨e,he,hwr⟩ := hre
        rw [hall,List.mem_singleton] at he
        subst he
        simp [Effect.writes] at hwr
      · have hnot := List.find?_eq_none.mp hnone x hx
        simp [ht] at hnot
      · exact hq
    refine ⟨⟨_,hwait,rfl⟩,.inr ⟨Iroh.isConnected_of_lookup hl,⟨_,hwait,rfl⟩,fun e he => ?_⟩⟩
    rw [hall,List.mem_singleton] at he
    rw [he]
    simp [Effect.link]
  | dropped hpc =>
    obtain ⟨hall,hc⟩ := ho.dropPacket p pk (by rw [hpc]; exact List.mem_cons_self)
    refine ⟨by simp [hall,Effect.packetFor],.inl ?_⟩
    have ha := hr.agrees pk
    rw [hall,hc] at ha
    change latest (IrohEvent.link pk) false (emitted tr ++ []) = false at ha
    rwa [List.append_nil] at ha

end Manager

section Emission
variable {K B : Type} [DecidableEq K] [Buf B] {ipv4Addr : Ipv4Addr} {routeTable : RouteTable K}
variable {maxPacketSize : Nat} {core next : VpnCore K B}

/-- The core sends to a peer only while its flag is set, the answer that sets it included. -/
theorem CoreInvariant.sends_open (h : CoreInvariant ipv4Addr routeTable maxPacketSize core)
    {ev : Event K B} {actions : List (Action K B)} (hp : core.process ev = some (next,actions))
    {p : B} {pk : K} (hmem : .sendPacketTo p pk ∈ actions) :
    next.isConnectOpen pk = some true := by
  cases ht : core.target ev with
  | none =>
    rw [VpnCore.process_reply ht] at hp
    simp only [Option.some.injEq,Prod.mk.injEq] at hp
    obtain ⟨rfl,rfl⟩ := hp
    simp only [List.mem_singleton] at hmem
    exact absurd hmem.symm (core.reply_ne_send ev p pk)
  | some r =>
    obtain ⟨k,input⟩ := r
    obtain ⟨s,hs⟩ := h.target_known ht
    rw [VpnCore.process_target ht hs] at hp
    simp only [Option.some.injEq,Prod.mk.injEq] at hp
    obtain ⟨rfl,rfl⟩ := hp
    obtain ⟨rfl,-⟩ := PeerState.mem_actions hmem
    refine isConnectOpen_iff.mpr ⟨_,core.setPeer_lookup pk _,?_⟩
    cases input with
    | opened =>
      simp only [PeerState.step]
      split <;> simp_all
    | closed =>
      simp only [PeerState.actions] at hmem
      split at hmem <;> simp at hmem
    | arrived q =>
      cases hc : s.isConnected with
      | true => simp [PeerState.step,hc]
      | false =>
        simp only [PeerState.actions,hc,Bool.false_eq_true,if_false] at hmem
        split at hmem <;> simp at hmem

end Emission

namespace Node
variable {K : Type} [LinearOrder K]

def inFlight (n : Node K) (pk : K) : List Packet :=
  n.manager.pc.filterMap (Effect.packetFor pk) ++ n.toIroh.filterMap (CoreAction.packetFor pk) ++
    sendsTo pk n.hand

def IssuedOpen (pk : K) (n : Node K) (tr : List (NodeObs K)) : Prop :=
  ∀ p ∈ n.inFlight pk, ∃ u v, tr = u ++ .issued p pk :: v ∧
    (processedLinks pk u).getLast?.getD false = true

theorem IssuedOpen.weaken {pk : K} {n n' : Node K} {tr os : List (NodeObs K)}
    (h : IssuedOpen pk n tr) (hsub : ∀ p ∈ n'.inFlight pk, p ∈ n.inFlight pk) :
    IssuedOpen pk n' (tr ++ os) := by
  intro p hp
  obtain ⟨u,v,rfl,hu⟩ := h p (hsub p hp)
  exact ⟨u,v ++ os,by simp,hu⟩

omit [LinearOrder K] in
theorem mem_sendsTo [DecidableEq K] {pk : K} {actions : List (Action K Packet)} {p : Packet}
    (h : p ∈ sendsTo pk actions) : .sendPacketTo p pk ∈ actions := by
  obtain ⟨a,ha,hp⟩ := List.mem_filterMap.mp h
  cases a with
  | sendPacketTo q k =>
    simp only [Option.ite_none_right_eq_some,Option.some.injEq] at hp
    obtain ⟨rfl,rfl⟩ := hp
    exact ha
  | _ => simp at hp

theorem IssuedOpen.process {cfg : Config K} {n n' : Node K} {tr : List (NodeObs K)}
    (kept : CoreKept cfg n) {pk : K} (h : IssuedOpen pk n tr)
    {event : Event K Packet} {core : VpnCore K Packet} {actions : List (Action K Packet)}
    (answer : n.core.process event = some (core,actions)) {os : List (NodeObs K)}
    (hflag : core.isConnectOpen pk =
      some ((processedLinks pk (tr ++ os)).getLast?.getD false))
    (hn : n'.hand = actions ∧ n'.manager = n.manager ∧ n'.toIroh = n.toIroh) :
    IssuedOpen pk n' (tr ++ (os ++ n.issues event)) := by
  obtain ⟨hh,hm,hi⟩ := hn
  intro p hp
  rcases List.mem_append.mp hp with hold | hnew
  · refine h.weaken (fun q hq => hq) p ?_
    rw [hm,hi] at hold
    exact List.mem_append_left _ hold
  · rw [hh] at hnew
    have hsend := mem_sendsTo hnew
    have hopen := kept.core.sends_open answer hsend
    rw [hflag,Option.some.injEq] at hopen
    have hiss : .issued p pk ∈ n.issues event := by
      simp only [issues,answer]
      exact List.mem_filterMap.mpr ⟨_,hsend,rfl⟩
    obtain ⟨before,after,hsplit⟩ := List.append_of_mem hiss
    have hnone := n.issues_unprocessed event pk
    rw [hsplit,processedLinks_append] at hnone
    refine ⟨tr ++ os ++ before,after,by simp [hsplit],?_⟩
    rw [processedLinks_append,(List.append_eq_nil_iff.mp hnone).1,List.append_nil]
    exact hopen

theorem inFlight_next {n : Node K} {a : NodeAct K} (hen : n.enabled a) (pk : K)
    (hi : a ≠ .coordIroh) (ht : a ≠ .coordTun) :
    ∀ p ∈ (n.next a).inFlight pk, p ∈ n.inFlight pk := by
  intro p hp
  have hm := moved hen
  generalize hnext : n.next a = n' at hm hp
  generalize n.shows a = os at hm
  cases hm with
  | coordIroh free queue answer => exact absurd rfl hi
  | coordTun free queue answer => exact absurd rfl ht
  | tunRead data => exact hp
  | tunWrite => exact hp
  | coordAction hand =>
    rename_i action rest
    rw [handleAction_eq] at hp
    change p ∈ _ ++ (n.toIroh ++ n.irohSends action).filterMap _ ++ sendsTo pk rest at hp
    unfold inFlight
    rw [hand,sendsTo_cons,← n.irohSends_flow action pk]
    simp only [List.filterMap_append,List.mem_append] at hp ⊢
    tauto
  | managerCore idle queue =>
    rename_i action rest
    have hreact := Manager.coreReaction_packetFor (Iroh.coreReaction n.manager.iroh action) pk
    change p ∈ (n.manager.iroh.handleCoreEvent action).filterMap _ ++ rest.filterMap _ ++ _ at hp
    rw [hreact] at hp
    unfold inFlight
    rw [idle,queue]
    cases hc : action.packetFor pk <;> simpa [hc] using hp
  | manager hact own =>
    rename_i act
    have hmm := Manager.moved hact
    generalize n.manager.next act = m' at hmm hp
    cases hmm with
    | handle idle queue reaction =>
      rename_i effects
      have hnone : effects.filterMap (Effect.packetFor pk) = [] :=
        List.filterMap_eq_nil_iff.mpr fun e he => Manager.reaction_packetFor reaction he pk
      change p ∈ effects.filterMap _ ++ _ ++ _ at hp
      rw [hnone] at hp
      unfold inFlight
      rw [idle]
      exact hp
    | core idle reaction => exact absurd rfl (own _)
    | effect hpc =>
      rename_i e rest
      change p ∈ rest.filterMap _ ++ _ ++ _ at hp
      unfold inFlight
      rw [hpc]
      cases hc : e.packetFor pk with
      | none => simpa [hc] using hp
      | some q =>
        simp only [List.filterMap_cons,hc]
        exact List.mem_cons_of_mem _ hp
    | task ownTask =>
      change p ∈ (n.manager.next act).pc.filterMap _ ++ _ ++ _ at hp
      rw [Manager.task_pc n.manager ownTask] at hp
      exact hp

theorem IssuedOpen.next {cfg : Config K} {n : Node K} {tr : List (NodeObs K)} {pk : K}
    (hpk : pk ∈ cfg.peers) (hord : LinksInOrder cfg n tr) (h : IssuedOpen pk n tr)
    {a : NodeAct K} (hen : n.enabled a) : IssuedOpen pk (n.next a) (tr ++ n.shows a) := by
  have hflag := (hord.next hen).flag pk hpk
  have hkeep := inFlight_next hen pk
  have hm := moved hen
  generalize n.next a = n' at hm hflag hkeep
  generalize n.shows a = os at hm hflag
  cases hm with
  | coordIroh free queue answer =>
    rename_i event rest core actions
    have hnone := n.issues_unprocessed (mapIrohEventToCoreEvent event) pk
    rw [← List.singleton_append] at hflag ⊢
    rw [← List.append_assoc,processedLinks_append,hnone,List.append_nil] at hflag
    exact h.process hord.kept answer hflag ⟨rfl,rfl,rfl⟩
  | coordTun free queue answer =>
    rename_i packet rest core actions
    have hnone := n.issues_unprocessed (.packetFromTun packet) pk
    rw [← List.append_assoc,processedLinks_append,hnone,List.append_nil] at hflag
    exact h.process hord.kept answer hflag ⟨rfl,rfl,rfl⟩
  | _ => exact h.weaken (hkeep (by simp) (by simp))

theorem issuedOpen_run {cfg : Config K} {ok : Node K → NodeAct K → Prop} {n : Node K}
    {tr : List (NodeObs K)} (run : Runs.Run system ok (start cfg) n tr) {pk : K}
    (hpk : pk ∈ cfg.peers) : IssuedOpen pk n tr := by
  induction run with
  | nil =>
    intro p hp
    have hnone := start_onTheWay cfg pk
    unfold onTheWay at hnone
    have hway : (start cfg).inFlight pk = [] := (List.append_eq_nil_iff.mp hnone).1
    simp [hway] at hp
  | snoc a run hok hen ih => exact ih.next hpk (linksInOrder_run run) hen

def Unprocessed (pk : K) (u tr : List (NodeObs K)) : Prop :=
  ∃ later, linkEvents pk tr = processedLinks pk u ++ later ∧ false ∈ later

/-- A `Disconnected` event of `pk` is queued, and the manager will have emitted a
`DisconnectedFromPeer` as soon as it has handled all it has of them. -/
def DisconnectPending (pk : K) (n : Node K) : Prop :=
  (∃ q ∈ n.manager.rxFromTasks, q.event = .disconnected pk) ∧
    ∀ n' w, Runs.Run system Runs.anyStep n n' w → n'.manager.pc = [] →
      (∀ q ∈ n'.manager.rxFromTasks, q.event ≠ .disconnected pk) →
      .manager (.emitted (.disconnectedFromPeer pk)) ∈ w

structure Delivery (cfg : Config K) (pk : K) (n : Node K) (tr : List (NodeObs K)) : Prop where
  order : (handed pk tr).Sublist (accepted pk tr)
  once : (accepted pk tr).Pairwise fun p q => p.ticket < q.ticket
  own : ∀ p ∈ accepted pk tr, (Ipv4Packet.header p).srcIp = cfg.ipv4Addr ∧
    cfg.routeTable.lookup (Ipv4Packet.header p).destIp = some pk
  fates : (accepted pk tr).Perm
    (handed pk tr ++ (losses pk tr).map Prod.snd ++ n.onTheWay pk)
  oneLoss : ∀ p ∈ accepted pk tr, p ∉ handed pk tr → p ∉ n.onTheWay pk →
    ∃! loss, (loss,p) ∈ losses pk tr
  channels : ∀ a, n.enabled a → n.ChannelStep a
  justified : ∀ a, n.enabled a → ∀ loss ∈ losses pk (n.shows a), n.Justified pk loss.2 loss.1
  cause : ∀ a p, n.enabled a → .manager (.notConnected p pk) ∈ n.shows a →
    ∃ u v, tr = u ++ .issued p pk :: v ∧ (Unprocessed pk u tr ∨ DisconnectPending pk n)

theorem due_pending {pk : K} {n : Node K}
    (hq : ∃ q ∈ n.manager.rxFromTasks, q.event = .disconnected pk)
    (hdue : Manager.Due pk n.manager) : DisconnectPending pk n := by
  refine ⟨hq,fun n' w run idle hnone => ?_⟩
  rcases Manager.due_run (manager_run run) hdue with hlate | hshown
  · rcases hlate with hsend | ⟨-,⟨q,hmem,hev⟩,-⟩
    · simp [idle] at hsend
    · exact absurd hev (hnone q hmem)
  · exact mem_managerView.mp hshown

theorem unprocessed_of_last {pk : K} {u v tr : List (NodeObs K)} {rest : List Bool}
    (hall : linkEvents pk tr = processedLinks pk (u ++ v) ++ rest)
    (hthen : (processedLinks pk u).getLast?.getD false = true)
    (hnow : (linkEvents pk tr).getLast?.getD false = false) : Unprocessed pk u tr := by
  rw [processedLinks_append,List.append_assoc] at hall
  refine ⟨_,hall,?_⟩
  rw [hall,List.getLast?_append] at hnow
  cases hl : (processedLinks pk v ++ rest).getLast? with
  | none =>
    rw [hl,Option.none_or,hthen] at hnow
    simp at hnow
  | some b =>
    rw [hl,Option.some_or,Option.getD_some] at hnow
    rw [← hnow]
    exact List.mem_of_getLast? hl

theorem notConnected_known {cfg : Config K} {n : Node K} {tr : List (NodeObs K)}
    (run : Runs.Run system Runs.anyStep (start cfg) n tr) {pk : K} (hpk : pk ∈ cfg.peers)
    {a : NodeAct K} {p : Packet} (hshow : .manager (.notConnected p pk) ∈ n.shows a) :
    ∃ u v, tr = u ++ .issued p pk :: v ∧ (Unprocessed pk u tr ∨ DisconnectPending pk n) := by
  have hm := manager_run run
  have hord := linksInOrder_run run
  cases shown hshow with
  | manager own =>
    obtain ⟨hpc,hcause⟩ := Manager.notConnected_cause (Manager.wired_run hm)
      (Manager.onePacket_run hm) (Manager.reported_run hm) (Manager.shown own)
    have hway : p ∈ n.inFlight pk := List.mem_append_left _ (List.mem_append_left _ hpc)
    obtain ⟨u,v,htr,hthen⟩ := issuedOpen_run run hpk p hway
    refine ⟨u,v,htr,?_⟩
    rcases hcause with hnow | ⟨hq,hdue⟩
    · left
      have hall := hord.queued pk
      rw [htr] at hall
      rw [htr] at hnow ⊢
      exact unprocessed_of_last hall hthen hnow
    · exact .inr (due_pending hq hdue)

/-- Packets are neither misrouted nor duplicated nor reordered, and every loss has a cause. -/
theorem tun_packets_delivered {cfg : Config K} {n : Node K} {tr : List (NodeObs K)}
    (run : Runs.Run system Runs.anyStep (start cfg) n tr) {pk : K} (hpk : pk ∈ cfg.peers) :
    Delivery cfg pk n tr := by
  have hcar := carried_run run pk
  have hnum := numbered_run run pk
  have hperm : (accepted pk tr).Perm _ := hcar.counted
  have honce := List.Pairwise.sublist (List.sublist_append_left _ _) hnum.order
  have hwired := Manager.wired_run (manager_run run)
  refine ⟨?_,honce,fun p hp => accepted_own run hp,hperm,fun p hp hh hw => ?_,
    fun _ hen => channelStep hwired hen,
    fun _ _ _ hloss => justified hwired (Manager.onePacket_run (manager_run run)) hloss,
    fun a p _ hshow => notConnected_known run hpk hshow⟩
  · exact (List.sublist_append_left _ _).trans hcar.order
  · have hnodup : (accepted pk tr).Nodup := honce.imp fun hlt heq => by
      rw [heq] at hlt
      exact Nat.lt_irrefl _ hlt
    have hlost : ((losses pk tr).map Prod.snd).Nodup :=
      ((hperm.nodup_iff.mp hnodup).sublist (List.sublist_append_left _ _)).sublist
        (List.sublist_append_right _ _)
    have hmem := hperm.subset hp
    rcases List.mem_append.mp hmem with hmem | hway
    · rcases List.mem_append.mp hmem with hhand | hloss
      · exact absurd hhand hh
      · obtain ⟨⟨loss,q⟩,hl,rfl⟩ := List.mem_map.mp hloss
        refine ⟨loss,hl,fun loss' hl' => ?_⟩
        have heq := List.inj_on_of_nodup_map hlost hl' hl rfl
        exact congrArg Prod.fst heq
    · exact absurd hway hw

/-- One ping goes to a session; the session ends, and the next ping finds it gone. -/
theorem tun_packets_delivered_ping :
    let ping : List UInt8 := [0x45,0,0,20,0,0,0,0,64,0,0,0,10,67,1,1,10,67,1,2]
    ∃ (n : Node Nat) (tr : List (NodeObs Nat)), Runs.Run system Runs.anyStep
      (start (.main 1 ⟨10,67,1,1⟩ (AList.insert ⟨10,67,1,2⟩ 2 ∅))) n tr ∧
      handed 2 tr = [⟨0,ping⟩] ∧ losses 2 tr = [(.notConnected,⟨1,ping⟩)] ∧
      Delivery (.main 1 ⟨10,67,1,1⟩ (AList.insert ⟨10,67,1,2⟩ 2 ∅)) 2 n tr := by
  let ping : List UInt8 := [0x45,0,0,20,0,0,0,0,64,0,0,0,10,67,1,1,10,67,1,2]
  let conn : Connection Nat := ⟨7,2,false⟩
  let session (failing : Bool) (queue : List Packet) : Session Nat Packet :=
    ⟨0,conn,false,failing,true,queue⟩
  obtain ⟨n,tr,run,h⟩ := @Runs.exec_reaches _ _ _ (system (K := Nat)) Runs.anyStep _ _
    (start (.main 1 ⟨10,67,1,1⟩ (AList.insert ⟨10,67,1,2⟩ 2 ∅)))
    [.manager .effect,.manager (.accepted conn),.manager (.reportAccept conn),
      .manager .recvTask,.manager .effect,.manager .effect,.coordIroh,.tunRead ping,
      .tunRead ping,.coordTun,.coordAction,.coordTun,.coordAction,.managerCore,
      .manager .effect,.manager (.readFails (session false [⟨0,ping⟩])),
      .manager (.reportSession (session true [⟨0,ping⟩])),.managerCore,.manager .effect]
    (fun r => decide (handed 2 r.2 = [⟨0,ping⟩] ∧ losses 2 r.2 = [(.notConnected,⟨1,ping⟩)]))
    (by decide)
  obtain ⟨hh,hl⟩ := of_decide_eq_true h
  exact ⟨n,tr,run,hh,hl,tun_packets_delivered run (by decide)⟩

end Node
end MeshNetwork
