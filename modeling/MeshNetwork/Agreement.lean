import MeshNetwork.Histories
import MeshNetwork.LinkChecks
import MeshNetwork.NodeSteps

set_option autoImplicit false

namespace MeshNetwork

section Links
variable {K B : Type} [DecidableEq K]

/-- What an event tells the core about the connection to `pk`. -/
def Event.link (pk : K) : Event K B → Option Bool
  | .peerConnected k => if k = pk then some true else none
  | .peerDisconnected k => if k = pk then some false else none
  | _ => none

def IrohEvent.link (pk : K) (event : IrohEvent K B) : Option Bool :=
  (mapIrohEventToCoreEvent event).link pk

def Effect.link (pk : K) : Effect K B → Option Bool
  | .spawnSession conn => if conn.remoteId = pk then some true else none
  | .spawnDial k => if k = pk then some false else none
  | .insertWaiting k => if k = pk then some false else none
  | .insertDisconnected k => if k = pk then some false else none
  | _ => none

def Effect.sent : Effect K B → Option (IrohEvent K B)
  | .send event => some event
  | _ => none

def sends (pc : List (Effect K B)) : List (IrohEvent K B) := pc.filterMap Effect.sent

def emitted (tr : List (Obs K B)) : List (IrohEvent K B) :=
  tr.filterMap fun
    | .emitted event => some event
    | _ => none

omit [DecidableEq K] in
theorem emitted_append (tr tr' : List (Obs K B)) : emitted (tr ++ tr') = emitted tr ++ emitted tr' :=
  List.filterMap_append

end Links

section Core
variable {K B : Type} [DecidableEq K] [Buf B] {ipv4Addr : Ipv4Addr} {routeTable : RouteTable K}
variable {maxPacketSize : Nat} {core next : VpnCore K B}

omit [Buf B] in
theorem isConnectOpen_iff {pk : K} {b : Bool} : core.isConnectOpen pk = some b ↔
    ∃ s, core.peers.lookup pk = some s ∧ s.isConnected = b := by
  simp [VpnCore.isConnectOpen]

theorem link_of_no_target {ev : Event K B} {pk : K} (hn : core.isNeighbour pk = true)
    (ht : core.target ev = none) : ev.link pk = none := by
  cases ev with
  | peerConnected k =>
    have hk : k ≠ pk := by
      rintro rfl
      simp [VpnCore.target,hn] at ht
    simp [Event.link,hk]
  | peerDisconnected k =>
    have hk : k ≠ pk := by
      rintro rfl
      simp [VpnCore.target,hn] at ht
    simp [Event.link,hk]
  | _ => rfl

theorem link_of_other_target {ev : Event K B} {k pk : K} {x : Signal B}
    (ht : core.target ev = some (k,x)) (hk : k ≠ pk) : ev.link pk = none := by
  cases ev with
  | peerConnected k' =>
    simp only [VpnCore.target,Option.ite_none_right_eq_some,Option.some.injEq,Prod.mk.injEq] at ht
    obtain ⟨-,rfl,-⟩ := ht
    simp [Event.link,hk]
  | peerDisconnected k' =>
    simp only [VpnCore.target,Option.ite_none_right_eq_some,Option.some.injEq,Prod.mk.injEq] at ht
    obtain ⟨-,rfl,-⟩ := ht
    simp [Event.link,hk]
  | _ => rfl

theorem step_isConnected {ev : Event K B} {pk : K} {x : Signal B}
    (ht : core.target ev = some (pk,x)) (s : PeerState B) :
    (s.step x).isConnected = (ev.link pk).getD s.isConnected := by
  cases ev with
  | peerConnected k =>
    simp only [VpnCore.target,Option.ite_none_right_eq_some,Option.some.injEq,Prod.mk.injEq] at ht
    obtain ⟨-,rfl,rfl⟩ := ht
    simp only [PeerState.step,Event.link,if_true,Option.getD_some]
    split <;> simp_all
  | peerDisconnected k =>
    simp only [VpnCore.target,Option.ite_none_right_eq_some,Option.some.injEq,Prod.mk.injEq] at ht
    obtain ⟨-,rfl,rfl⟩ := ht
    simp only [PeerState.step,Event.link,if_true,Option.getD_some]
    split <;> simp_all
  | packetFromTun p =>
    simp only [VpnCore.target,Option.map_eq_some_iff,Prod.mk.injEq] at ht
    obtain ⟨k,-,-,rfl⟩ := ht
    simp only [PeerState.step,Event.link,Option.getD_none]
    repeat' split
    all_goals simp_all
  | packetFromIroh p source => simp [VpnCore.target] at ht

theorem CoreInvariant.process_open (h : CoreInvariant ipv4Addr routeTable maxPacketSize core)
    {ev : Event K B} {actions : List (Action K B)} (hp : core.process ev = some (next,actions))
    {pk : K} {b : Bool} (hb : core.isConnectOpen pk = some b) :
    next.isConnectOpen pk = some ((ev.link pk).getD b) := by
  obtain ⟨s,hs,rfl⟩ := isConnectOpen_iff.mp hb
  cases ht : core.target ev with
  | none =>
    rw [VpnCore.process_reply ht] at hp
    simp only [Option.some.injEq,Prod.mk.injEq] at hp
    obtain ⟨rfl,-⟩ := hp
    rw [link_of_no_target (VpnCore.isNeighbour_iff.mpr ⟨s,hs⟩) ht,hb]
    rfl
  | some r =>
    obtain ⟨k,x⟩ := r
    obtain ⟨t,hl⟩ := h.target_known ht
    rw [VpnCore.process_target ht hl] at hp
    simp only [Option.some.injEq,Prod.mk.injEq] at hp
    obtain ⟨rfl,-⟩ := hp
    by_cases hk : k = pk
    · subst hk
      rw [hs,Option.some.injEq] at hl
      subst hl
      exact isConnectOpen_iff.mpr ⟨_,core.setPeer_lookup k _,step_isConnected ht s⟩
    · rw [link_of_other_target ht hk]
      exact isConnectOpen_iff.mpr ⟨s,(core.setPeer_lookup_ne _ (Ne.symm hk)).trans hs,rfl⟩

theorem CoreInvariant.run_open (h : CoreInvariant ipv4Addr routeTable maxPacketSize core)
    (evs : List (Event K B)) {pk : K} {b : Bool} (hb : core.isConnectOpen pk = some b) :
    ∃ last outs, core.run evs = some (last,outs) ∧
      last.isConnectOpen pk = some (latest (Event.link pk) b evs) := by
  induction evs generalizing core b with
  | nil => exact ⟨core,[],rfl,hb⟩
  | cons ev evs ih =>
    obtain ⟨mid,actions,hp,hmid,-⟩ := h.process ev
    obtain ⟨last,outs,hr,hl⟩ := ih hmid (h.process_open hp hb)
    rw [latest_cons]
    exact ⟨last,actions :: outs,by simp [VpnCore.run,hp,hr],hl⟩

end Core

namespace Manager
variable {K B : Type} [LinearOrder K]

theorem perform_isConnected (m : Manager K B) (e : Effect K B) (pk : K) :
    (m.perform e).iroh.isConnected pk = (e.link pk).getD (m.iroh.isConnected pk) := by
  by_cases hw : e.writes = some pk
  · have hl := perform_lookup_written m e hw
    unfold Iroh.isConnected
    rw [hl]
    cases e with
    | spawnSession conn =>
      simp only [Effect.writes,Option.some.injEq] at hw
      simp [Effect.entry,Effect.link,hw]
    | spawnDial k =>
      simp only [Effect.writes,Option.some.injEq] at hw
      simp [Effect.entry,Effect.link,hw]
    | insertWaiting k =>
      simp only [Effect.writes,Option.some.injEq] at hw
      simp [Effect.entry,Effect.link,hw]
    | insertDisconnected k =>
      simp only [Effect.writes,Option.some.injEq] at hw
      simp [Effect.entry,Effect.link,hw]
    | _ => simp [Effect.writes] at hw
  · have hlink : e.link pk = none := by
      cases e <;> simp_all [Effect.writes,Effect.link]
    rw [hlink,Option.getD_none]
    unfold Iroh.isConnected
    rw [perform_lookup_ne m e hw]

/-- The events a handler sends say the same about `pk` as the entries it writes. -/
def Truthful (iroh : Iroh K) (effects : List (Effect K B)) : Prop :=
  ∀ pk, latest (IrohEvent.link pk) (iroh.isConnected pk) (sends effects) =
    latest (Effect.link pk) (iroh.isConnected pk) effects

def SendsOnce (iroh : Iroh K) (effects : List (Effect K B)) : Prop :=
  sends effects = [] ∨ (∃ k, sends effects = [.connectedToPeer k]) ∨
    ∃ k, sends effects = [.disconnectedFromPeer k] ∧ iroh.isConnected k = true

theorem initNewConnection_link (iroh : Iroh K) (pubKey pk : K) (b : Bool) :
    sends (iroh.initNewConnection (B := B) pubKey) = [] ∧
      latest (Effect.link pk) b (iroh.initNewConnection (B := B) pubKey) =
        if pubKey = pk then false else b := by
  rcases iroh.initNewConnection_eq (B := B) pubKey with ⟨-,he⟩ | ⟨-,he⟩
  all_goals
    rw [he,latest_singleton]
    refine ⟨rfl,?_⟩
    by_cases hk : pubKey = pk <;> simp [Effect.link,hk]

theorem reaction_truthful {iroh : Iroh K} {ev : ConnectionEvent K} {effects : List (Effect K B)}
    (h : iroh.Reaction ev effects) : Truthful iroh effects ∧ SendsOnce iroh effects := by
  have ready : ∀ conn : Connection K, ∀ pk b,
      latest (IrohEvent.link pk) b (sends (Iroh.initReadyConnection (B := B) conn)) =
        latest (Effect.link pk) b (Iroh.initReadyConnection (B := B) conn) := by
    intro conn pk b
    change latest (IrohEvent.link (B := B) pk) b [.connectedToPeer conn.remoteId] =
      latest (Effect.link pk) b [.send (.connectedToPeer conn.remoteId),.spawnSession conn]
    simp only [latest_cons,latest_nil,IrohEvent.link,mapIrohEventToCoreEvent,Event.link,
      Effect.link,Option.getD_none]
  cases h with
  | dialed conn hc => exact ⟨fun pk => ready conn pk _,.inr (.inl ⟨conn.remoteId,rfl⟩)⟩
  | joined conn hl => exact ⟨fun pk => ready conn pk _,.inr (.inl ⟨conn.remoteId,rfl⟩)⟩
  | replaced conn old task hev hl =>
    refine ⟨fun pk => ?_,.inr (.inl ⟨conn.remoteId,rfl⟩)⟩
    exact ready conn pk _
  | refused conn hev hc => exact ⟨fun pk => rfl,.inl rfl⟩
  | lost pubKey hc =>
    have hsend : sends (.send (.disconnectedFromPeer pubKey) ::
        iroh.initNewConnection (B := B) pubKey) = [.disconnectedFromPeer pubKey] := by
      have hnone := (initNewConnection_link (B := B) iroh pubKey pubKey true).1
      simp only [sends,List.filterMap_cons,Effect.sent] at hnone ⊢
      rw [hnone]
    refine ⟨fun pk => ?_,.inr (.inr ⟨pubKey,hsend,hc⟩)⟩
    rw [hsend,latest_singleton,latest_cons,(initNewConnection_link iroh pubKey pk _).2]
    by_cases hk : pubKey = pk <;>
      simp [IrohEvent.link,Event.link,Effect.link,mapIrohEventToCoreEvent,hk]
  | ignored pubKey hc => exact ⟨fun pk => rfl,.inl rfl⟩

theorem coreReaction_truthful {iroh : Iroh K} {action : CoreAction K B}
    {effects : List (Effect K B)} (h : iroh.CoreReaction action effects) :
    Truthful iroh effects ∧ SendsOnce iroh effects := by
  cases h with
  | passed packet pubKey task conn hl => exact ⟨fun pk => rfl,.inl rfl⟩
  | dropped packet pubKey hc => exact ⟨fun pk => rfl,.inl rfl⟩
  | restarted pubKey hl =>
    refine ⟨fun pk => ?_,.inl (initNewConnection_link iroh pubKey pubKey true).1⟩
    rw [(initNewConnection_link iroh pubKey pk true).1,(initNewConnection_link iroh pubKey pk _).2]
    by_cases hk : pubKey = pk
    · subst hk
      simp [Iroh.isConnected,hl]
    · simp [hk]
  | ignored pubKey => exact ⟨fun pk => rfl,.inl rfl⟩
  | closed pubKey task conn hl =>
    refine ⟨fun pk => ?_,.inr (.inr ⟨pubKey,rfl,Iroh.isConnected_of_lookup hl⟩)⟩
    change latest (IrohEvent.link (B := B) pk) _ [.disconnectedFromPeer pubKey] =
      latest (Effect.link pk) _ [.abort task,.close conn,.send (.disconnectedFromPeer pubKey),
        .insertDisconnected pubKey]
    simp only [latest_cons,latest_nil,IrohEvent.link,mapIrohEventToCoreEvent,Event.link,
      Effect.link,Option.getD_none]
  | cancelled pubKey task hl =>
    refine ⟨fun pk => ?_,.inl rfl⟩
    change iroh.isConnected pk = latest (Effect.link (B := B) pk) _
      [.abort task,.insertDisconnected pubKey]
    simp only [latest_cons,latest_nil,Effect.link,Option.getD_none]
    by_cases hk : pubKey = pk
    · subst hk
      simp [Iroh.isConnected,hl]
    · simp [hk]
  | cleared pubKey hc =>
    refine ⟨fun pk => ?_,.inl rfl⟩
    change iroh.isConnected pk = latest (Effect.link (B := B) pk) _ [.insertDisconnected pubKey]
    simp only [latest_cons,latest_nil,Effect.link]
    by_cases hk : pubKey = pk
    · subst hk
      simp [hc]
    · simp [hk]

/-- In a list of what is said about one connection, `false` only comes right after `true`. -/
def Alternates (l : List Bool) : Prop := ∀ u v, l = u ++ false :: v → ∃ u', u = u' ++ [true]

theorem alternates_true {l : List Bool} (h : Alternates l) : Alternates (l ++ [true]) := by
  intro u v heq
  rcases List.eq_nil_or_concat v with rfl | ⟨v',b,rfl⟩
  · have hlast := (List.append_inj' heq rfl).2
    simp at hlast
  · rw [List.concat_eq_append,← List.cons_append,← List.append_assoc] at heq
    exact h u v' (List.append_inj' heq rfl).1

theorem alternates_false {l : List Bool} (h : Alternates l) {b : Bool}
    (hl : l.getLast?.getD b = true) (hb : b = false) : Alternates (l ++ [false]) := by
  intro u v heq
  rcases List.eq_nil_or_concat v with rfl | ⟨v',b',rfl⟩
  · rw [← (List.append_inj' heq rfl).1]
    rcases List.eq_nil_or_concat l with rfl | ⟨l',x,rfl⟩
    · rw [hb] at hl
      simp at hl
    · rw [List.concat_eq_append] at hl ⊢
      simp only [List.getLast?_append,List.getLast?_singleton,Option.some_or,
        Option.getD_some] at hl
      rw [hl]
      exact ⟨l',rfl⟩
  · rw [List.concat_eq_append,← List.cons_append,← List.append_assoc] at heq
    exact h u v' (List.append_inj' heq rfl).1

/-- What a manager has emitted, with what its handler has yet to send, tells the truth
about its table and alternates for each peer. -/
structure Reported (m : Manager K B) (tr : List (Obs K B)) : Prop where
  agrees : ∀ pk, latest (IrohEvent.link pk) false (emitted tr ++ sends m.pc) =
    latest (Effect.link pk) (m.iroh.isConnected pk) m.pc
  alternates : ∀ pk, Alternates ((emitted tr ++ sends m.pc).filterMap (IrohEvent.link pk))

theorem Reported.idle {m : Manager K B} {tr : List (Obs K B)} (h : Reported m tr)
    (idle : m.pc = []) (pk : K) :
    latest (IrohEvent.link pk) false (emitted tr) = m.iroh.isConnected pk := by
  have ha := h.agrees pk
  simpa [idle,sends] using ha

theorem Reported.begin {m m' : Manager K B} {tr : List (Obs K B)} (h : Reported m tr)
    (idle : m.pc = []) (hi : m'.iroh = m.iroh) (ht : Truthful m.iroh m'.pc)
    (ho : SendsOnce m.iroh m'.pc) : Reported m' tr where
  agrees pk := by
    rw [latest_append,h.idle idle pk,hi]
    exact ht pk
  alternates pk := by
    have hold := h.alternates pk
    have hlast := h.idle idle
    simp only [idle,sends,List.filterMap_nil,List.append_nil] at hold
    rw [List.filterMap_append]
    rcases ho with hs | ⟨k,hs⟩ | ⟨k,hs,hc⟩
    · rw [hs]
      simpa using hold
    · rw [hs]
      by_cases hk : k = pk
      · simpa [IrohEvent.link,mapIrohEventToCoreEvent,Event.link,hk] using alternates_true hold
      · simpa [IrohEvent.link,mapIrohEventToCoreEvent,Event.link,hk] using hold
    · rw [hs]
      by_cases hk : k = pk
      · subst hk
        have hl := (hlast k).trans hc
        simpa [IrohEvent.link,mapIrohEventToCoreEvent,Event.link] using
          alternates_false hold hl rfl
      · simpa [IrohEvent.link,mapIrohEventToCoreEvent,Event.link,hk] using hold

omit [LinearOrder K] in
theorem performShows_emitted (m : Manager K B) (e : Effect K B) :
    emitted (m.performShows e) = e.sent.toList := by
  cases e with
  | trySend task packet pubKey =>
    simp only [performShows]
    repeat' split
    all_goals rfl
  | _ => rfl

omit [LinearOrder K] in
theorem task_emitted (m : Manager K B) {l : Act K B} (own : l.byTask = true) :
    emitted (m.shows l) = [] := by
  cases l with
  | recvTask => simp [Act.byTask] at own
  | recvCore action => simp [Act.byTask] at own
  | effect => simp [Act.byTask] at own
  | sendDatagram s outcome =>
    cases outcome with
    | sent => cases hc : s.packetChannel <;> simp [shows,emitted,hc]
    | tooLarge => rfl
    | failed => rfl
  | _ => rfl

theorem Reported.next {m : Manager K B} {tr : List (Obs K B)} (h : Reported m tr) {l : Act K B}
    (hen : m.enabled l) : Reported (m.next l) (tr ++ m.shows l) := by
  have hm := moved hen
  generalize hn : m.next l = m' at hm
  cases hm with
  | handle idle queue reaction =>
    obtain ⟨ht,ho⟩ := reaction_truthful reaction
    have hs : m.shows .recvTask = [] := rfl
    rw [hs,List.append_nil]
    exact h.begin idle rfl ht ho
  | core idle reaction =>
    obtain ⟨ht,ho⟩ := coreReaction_truthful reaction
    rename_i action effects
    have hs : m.shows (.recvCore action) = [] := rfl
    rw [hs,List.append_nil]
    exact h.begin idle rfl ht ho
  | effect hpc =>
    rename_i e rest
    have hsame : emitted (tr ++ m.shows .effect) ++ sends rest = emitted tr ++ sends m.pc := by
      simp only [shows,hpc]
      rw [emitted_append,performShows_emitted,List.append_assoc]
      cases hs : e.sent <;> simp [sends,hs]
    refine ⟨fun pk => ?_,fun pk => ?_⟩
    · change latest _ false (emitted (tr ++ m.shows .effect) ++ sends rest) =
        latest _ ((m.perform e).iroh.isConnected pk) rest
      rw [hsame,h.agrees pk,perform_isConnected,hpc,latest_cons]
    · change Alternates ((emitted (tr ++ m.shows .effect) ++ sends rest).filterMap _)
      rw [hsame]
      exact h.alternates pk
  | task own =>
    have hsame : emitted (tr ++ m.shows l) = emitted tr := by
      rw [emitted_append,task_emitted m own,List.append_nil]
    refine ⟨fun pk => ?_,fun pk => ?_⟩
    · rw [hsame,task_pc m own,task_iroh m own]
      exact h.agrees pk
    · rw [hsame,task_pc m own]
      exact h.alternates pk

theorem start_reported (id : K) (peers : KeySet K) (channelCapacity : Nat) :
    Reported (start id peers channelCapacity : Manager K B) [] := by
  have hs : sends (start id peers channelCapacity : Manager K B).pc = [] := by
    refine List.filterMap_eq_nil_iff.mpr fun e he => ?_
    obtain ⟨k,-,⟨-,rfl⟩ | ⟨-,rfl⟩⟩ := Iroh.mem_init he <;> rfl
  have hl : ∀ pk, (start id peers channelCapacity : Manager K B).iroh.isConnected pk = false := by
    refine fun pk => Bool.eq_false_iff.mpr fun hconn => ?_
    obtain ⟨t,c,hlookup⟩ := Iroh.isConnected_iff.mp hconn
    have hs := (start_lookup.mp hlookup).2
    simp at hs
  refine ⟨fun pk => ?_,fun pk => ?_⟩
  · rw [hs,hl pk]
    have hpc : ∀ b ∈ ((start id peers channelCapacity : Manager K B).pc).filterMap (Effect.link pk),
        b = false := by
      intro b hb
      obtain ⟨e,he,hlink⟩ := List.mem_filterMap.mp hb
      obtain ⟨k,-,⟨-,rfl⟩ | ⟨-,rfl⟩⟩ := Iroh.mem_init he
      all_goals
        simp only [Effect.link,Option.ite_none_right_eq_some,Option.some.injEq] at hlink
        exact hlink.2.symm
    rw [latest,latest]
    cases hlast : (((start id peers channelCapacity : Manager K B).pc).filterMap
        (Effect.link pk)).getLast? with
    | none => rfl
    | some b =>
      rw [hpc b (List.mem_of_getLast? hlast)]
      rfl
  · rw [hs]
    intro u v heq
    simp [emitted] at heq

theorem reported_run {ok : Manager K B → Act K B → Prop} {id : K} {peers : KeySet K}
    {channelCapacity : Nat} {m : Manager K B} {tr : List (Obs K B)}
    (run : Runs.Run system ok (start id peers channelCapacity) m tr) : Reported m tr :=
  run.invariant Reported (start_reported id peers channelCapacity) fun _ _ _ h _ hen => h.next hen

end Manager

namespace Node
variable {K : Type} [LinearOrder K]

/-- The manager's `ConnectedToPeer` (`true`) and `DisconnectedFromPeer` (`false`) events
of `pk`, in order. -/
def linkEvents (pk : K) (tr : List (NodeObs K)) : List Bool :=
  (emitted (managerView tr)).filterMap (IrohEvent.link pk)

def processedLinks (pk : K) (tr : List (NodeObs K)) : List Bool :=
  tr.filterMap fun
    | .processed event => event.link pk
    | _ => none

theorem linkEvents_append (pk : K) (tr tr' : List (NodeObs K)) :
    linkEvents pk (tr ++ tr') = linkEvents pk tr ++ linkEvents pk tr' := by
  rw [linkEvents,managerView_append,emitted_append,List.filterMap_append]
  rfl

theorem processedLinks_append (pk : K) (tr tr' : List (NodeObs K)) :
    processedLinks pk (tr ++ tr') = processedLinks pk tr ++ processedLinks pk tr' :=
  List.filterMap_append

/-- The core knows what it has processed, and what the manager has emitted since is queued. -/
structure LinksInOrder (cfg : Config K) (n : Node K) (tr : List (NodeObs K)) : Prop where
  kept : CoreKept cfg n
  queued : ∀ pk, linkEvents pk tr = processedLinks pk tr ++ n.toCoord.filterMap (IrohEvent.link pk)
  flag : ∀ pk ∈ cfg.peers,
    n.core.isConnectOpen pk = some ((processedLinks pk tr).getLast?.getD false)

theorem issues_unprocessed (n : Node K) (event : Event K Packet) (pk : K) :
    processedLinks pk (n.issues event) = [] := by
  refine List.filterMap_eq_nil_iff.mpr fun o ho => ?_
  obtain ⟨packet,pubKey,rfl⟩ := mem_issues ho
  rfl

theorem shows_unprocessed (n : Node K) {a : NodeAct K} (h : a ≠ .coordIroh) (pk : K) :
    processedLinks pk (n.shows a) = [] := by
  refine List.filterMap_eq_nil_iff.mpr fun o ho => ?_
  cases shown ho with
  | processed event => exact absurd rfl h
  | _ => rfl

/-- What a manager step posts and what it emits say the same. -/
theorem posts_link (n : Node K) {act : Act K Packet} (hen : n.manager.enabled act)
    (own : ∀ action, act ≠ .recvCore action) (pk : K) :
    (emitted (n.manager.shows act)).filterMap (IrohEvent.link pk) =
      (n.posts act).filterMap (IrohEvent.link pk) := by
  cases act with
  | recvTask => rfl
  | recvCore action => exact absurd rfl (own action)
  | effect =>
    cases hpc : n.manager.pc with
    | nil => exact absurd hpc hen
    | cons e rest =>
      simp only [posts,Manager.shows,hpc,Manager.performShows_emitted]
      cases e <;> rfl
  | readDatagram s packet =>
    simp only [posts]
    split <;> rfl
  | sendDatagram s outcome =>
    rw [Manager.task_emitted n.manager rfl]
    rfl
  | _ => rfl

/-- An event that the core processes adds what it says to what was processed. -/
theorem LinksInOrder.flag_next {cfg : Config K} {n : Node K} {tr : List (NodeObs K)}
    (h : LinksInOrder cfg n tr) {event : Event K Packet} {core : VpnCore K Packet}
    {actions : List (Action K Packet)} (answer : n.core.process event = some (core,actions))
    {pk : K} (hpk : pk ∈ cfg.peers) : core.isConnectOpen pk =
      some ((processedLinks pk tr ++ (event.link pk).toList).getLast?.getD false) := by
  rw [h.kept.core.process_open answer (h.flag pk hpk),List.getLast?_append]
  cases event.link pk <;> simp

theorem LinksInOrder.next {cfg : Config K} {n : Node K} {tr : List (NodeObs K)}
    (h : LinksInOrder cfg n tr) {a : NodeAct K} (hen : n.enabled a) :
    LinksInOrder cfg (n.next a) (tr ++ n.shows a) := by
  have hkept := h.kept.next hen
  have hview := n.managerView_shows (a := a)
  have hnone := n.shows_unprocessed (a := a)
  have hm := moved hen
  generalize n.next a = n' at hm hkept
  generalize n.shows a = os at hm hview hnone
  have hlinks : (∀ act, a ≠ .manager act) → ∀ pk, linkEvents pk (tr ++ os) = linkEvents pk tr := by
    intro hne pk
    rw [linkEvents_append,linkEvents,linkEvents,hview hne]
    exact List.append_nil _
  have quiet : (∀ act, a ≠ .manager act) → a ≠ .coordIroh → n'.toCoord = n.toCoord →
      n'.core = n.core → LinksInOrder cfg n' (tr ++ os) := by
    intro hne hi hcoord hcore
    refine ⟨hkept,fun pk => ?_,fun pk hpk => ?_⟩
    · rw [hlinks hne,processedLinks_append,hnone hi,List.append_nil,hcoord]
      exact h.queued pk
    · rw [processedLinks_append,hnone hi,List.append_nil,hcore]
      exact h.flag pk hpk
  cases hm with
  | coordIroh free queue answer =>
    rename_i event rest core actions
    have hproc : ∀ pk, processedLinks pk (.processed event ::
        n.issues (mapIrohEventToCoreEvent event)) = (event.link pk).toList := by
      intro pk
      have hiss := n.issues_unprocessed (mapIrohEventToCoreEvent event) pk
      rw [← List.singleton_append,processedLinks_append,hiss,List.append_nil]
      cases hl : event.link pk <;> simp [processedLinks,hl]
    refine ⟨hkept,fun pk => ?_,fun pk hpk => ?_⟩
    · rw [hlinks (by simp),processedLinks_append,hproc,h.queued pk,queue]
      cases hl : event.link pk <;> simp [hl]
    · rw [processedLinks_append,hproc]
      exact h.flag_next answer hpk
  | coordTun free queue answer =>
    refine ⟨hkept,fun pk => ?_,fun pk hpk => ?_⟩
    · rw [hlinks (by simp),processedLinks_append,hnone (by simp),List.append_nil]
      exact h.queued pk
    · rw [processedLinks_append,hnone (by simp)]
      exact h.flag_next answer hpk
  | coordAction hand =>
    refine quiet (by simp) (by simp) ?_ ?_
    · rw [handleAction_eq]
    · rw [handleAction_eq]
  | manager hact own =>
    refine ⟨hkept,fun pk => ?_,fun pk hpk => ?_⟩
    · rw [linkEvents_append,processedLinks_append,hnone (by simp),List.append_nil,
        h.queued pk,List.filterMap_append,← n.posts_link hact own pk,List.append_assoc]
      rw [linkEvents,managerView_map]
    · rw [processedLinks_append,hnone (by simp),List.append_nil]
      exact h.flag pk hpk
  | _ => exact quiet (by simp) (by simp) rfl rfl

theorem linksInOrder_run {cfg : Config K} {ok : Node K → NodeAct K → Prop} {n : Node K}
    {tr : List (NodeObs K)} (run : Runs.Run system ok (start cfg) n tr) :
    LinksInOrder cfg n tr := by
  refine run.invariant (LinksInOrder cfg) ⟨start_coreKept cfg,fun pk => rfl,fun pk hpk => ?_⟩
    fun _ _ _ h _ hen => h.next hen
  refine isConnectOpen_iff.mpr ⟨⟨false,[]⟩,?_,rfl⟩
  exact (VpnCore.new_lookup cfg.ipv4Addr cfg.routeTable cfg.maxPacketSize pk _).mpr
    ⟨(cfg.peers_iff pk).mp hpk,rfl⟩

/-- Between two handlers: once the core has processed all that is pending, its flag is
the state of the manager's entry; and what the manager emits for a peer alternates. -/
theorem core_agrees_with_manager {cfg : Config K} {n : Node K} {tr : List (NodeObs K)}
    (run : Runs.Run system Runs.anyStep (start cfg) n tr) {pk : K} (hpk : pk ∈ cfg.peers) :
    (n.manager.pc = [] → ∃ core outs,
      n.core.run (n.toCoord.map mapIrohEventToCoreEvent) = some (core,outs) ∧
        core.isConnectOpen pk = some (n.manager.iroh.isConnected pk)) ∧
    ∀ u v, linkEvents pk tr = u ++ false :: v → ∃ u', u = u' ++ [true] := by
  have hrep := Manager.reported_run (manager_run run)
  have hord := linksInOrder_run run
  refine ⟨fun idle => ?_,fun u v heq => ?_⟩
  · obtain ⟨core,outs,hr,ho⟩ :=
      hord.kept.core.run_open (n.toCoord.map mapIrohEventToCoreEvent) (hord.flag pk hpk)
    refine ⟨core,outs,hr,?_⟩
    have hall : latest (IrohEvent.link pk) ((processedLinks pk tr).getLast?.getD false) n.toCoord =
        (linkEvents pk tr).getLast?.getD false := by
      rw [hord.queued pk,latest,List.getLast?_append]
      cases (n.toCoord.filterMap (IrohEvent.link pk)).getLast? <;> rfl
    rw [ho,latest_map,← hrep.idle idle pk]
    exact congrArg some hall
  · refine hrep.alternates pk u (v ++ (sends n.manager.pc).filterMap (IrohEvent.link pk)) ?_
    rw [List.filterMap_append]
    change linkEvents pk tr ++ _ = _
    rw [heq,List.append_assoc]
    rfl

/-- The manager has installed a session, and the core has yet to hear of it. -/
theorem core_agrees_with_manager_pending : ∃ (n : Node Nat) (tr : List (NodeObs Nat)),
    Runs.Run system Runs.anyStep
      (start (.main 1 ⟨10,67,1,1⟩ (AList.insert ⟨10,67,1,2⟩ 2 ∅))) n tr ∧
      n.toCoord = [.connectedToPeer 2] ∧ n.core.isConnectOpen 2 = some false ∧
      ∃ core outs, n.core.run (n.toCoord.map mapIrohEventToCoreEvent) = some (core,outs) ∧
        core.isConnectOpen 2 = some (n.manager.iroh.isConnected 2) := by
  let conn : Connection Nat := ⟨7,2,false⟩
  obtain ⟨n,tr,run,h⟩ := @Runs.exec_reaches _ _ _ (system (K := Nat)) Runs.anyStep _ _
    (start (.main 1 ⟨10,67,1,1⟩ (AList.insert ⟨10,67,1,2⟩ 2 ∅)))
    [.manager .effect,.manager (.accepted conn),.manager (.reportAccept conn),
      .manager .recvTask,.manager .effect,.manager .effect]
    (fun r => decide (r.1.manager.pc = [] ∧ r.1.toCoord = [.connectedToPeer 2] ∧
      r.1.core.isConnectOpen 2 = some false)) (by decide)
  obtain ⟨idle,hq,hc⟩ := of_decide_eq_true h
  exact ⟨n,tr,run,hq,hc,(core_agrees_with_manager run (by decide)).1 idle⟩

end Node
end MeshNetwork
