import MeshNetwork.Flow

/-!
What the steps of a node do to the packet channels of its sessions, and what there is to the
losses that they show.
-/

set_option autoImplicit false

namespace MeshNetwork

namespace Session
variable {K B : Type}

structure SameChannel (x y : Session K B) : Prop where
  task : x.task = y.task
  connection : x.connection = y.connection
  packetChannel : x.packetChannel = y.packetChannel

theorem SameChannel.refl (x : Session K B) : SameChannel x x := ⟨rfl,rfl,rfl⟩

theorem abort_sameChannel (task : TaskId) (x : Session K B) : SameChannel (x.abort task) x := by
  unfold abort
  split <;> exact ⟨rfl,rfl,rfl⟩

theorem closeChannel_sameChannel (task : TaskId) (x : Session K B) :
    SameChannel (x.closeChannel task) x := by
  unfold closeChannel
  split <;> exact ⟨rfl,rfl,rfl⟩

theorem fail_sameChannel (task : TaskId) (x : Session K B) : SameChannel (x.fail task) x := by
  unfold fail
  split <;> exact ⟨rfl,rfl,rfl⟩

theorem map_push {before after : List (Session K B)} {x : Session K B}
    (distinct : ((before ++ x :: after).map Session.task).Nodup) (packet : B) :
    (before ++ x :: after).map (push x.task packet) =
      before ++ { x with packetChannel := x.packetChannel ++ [packet] } :: after := by
  rw [List.map_append,List.map_cons,List.nodup_append,List.nodup_cons] at distinct
  obtain ⟨-,⟨hafter,-⟩,hapart⟩ := distinct
  have hb : ∀ y ∈ before, y.task ≠ x.task := fun y hy =>
    hapart _ (List.mem_map_of_mem hy) _ List.mem_cons_self
  have ha : ∀ y ∈ after, y.task ≠ x.task := fun y hy heq =>
    hafter (heq ▸ List.mem_map_of_mem hy)
  rw [List.map_append,List.map_cons,map_push_absent hb,map_push_absent ha]
  simp [push]

end Session

def Act.endsSession {K B : Type} (l : Act K B) (x : Session K B) : Prop :=
  l = .reportSession x ∨ l = .channelClosed x ∨ l = .cancelSession x

namespace Manager
variable {K B : Type} [LinearOrder K]

/-- A packet that is handed over stands at the end of the channel of one session. -/
theorem Wired.puts {m : Manager K B} (h : m.Wired) {l : Act K B} {c : Connection K} {p : B}
    (hshow : .handed c p ∈ m.shows l) : ∃ before x after, m.sessions = before ++ x :: after ∧
      x.connection = c ∧ (m.next l).sessions =
        before ++ { x with packetChannel := x.packetChannel ++ [p] } :: after := by
  cases shown hshow with
  | @handed task _ pubKey rest s hpc found =>
    have htask : s.task = task := by simpa using List.find?_some found
    have room : s.packetChannel.length < m.channelCapacity := by
      simp only [shows,hpc,performShows,found] at hshow
      split at hshow
      · rename_i room
        exact room
      · simp at hshow
    obtain ⟨before,after,hsplit⟩ := List.append_of_mem (List.mem_of_find?_eq_some found)
    refine ⟨before,s,after,hsplit,rfl,?_⟩
    have hnext : (m.next .effect).sessions = m.sessions.map (Session.push s.task p) := by
      simp only [Manager.next,hpc,perform,found,room,if_true,setPc,htask]
    have hsingle := h.single
    rw [hsplit] at hsingle
    rw [hnext,hsplit,Session.map_push hsingle]

/-- Where the packets of `x'` come from in a step that hands none over and in which only the
sessions that `takes` names take one. -/
inductive ChannelFrom (m : Manager K B) (takes : Session K B → Prop) (x' : Session K B) :
    Prop where
  | new (empty : x'.packetChannel = []) (fresh : ∀ x ∈ m.sessions, x.task ≠ x'.task)
  | same {x : Session K B} (mem : x ∈ m.sessions) (same : x'.SameChannel x)
  | first {x : Session K B} (mem : x ∈ m.sessions) (taken : takes x) (task : x'.task = x.task)
      (connection : x'.connection = x.connection)
      (packetChannel : x'.packetChannel = x.packetChannel.tail)

omit [LinearOrder K] in
theorem ChannelFrom.map {m m' : Manager K B} {takes : Session K B → Prop}
    {f : Session K B → Session K B} (hs : m'.sessions = m.sessions.map f)
    (hf : ∀ x, (f x).SameChannel x) :
    ∀ x' ∈ m'.sessions, m.ChannelFrom takes x' := by
  intro x' hx'
  rw [hs] at hx'
  obtain ⟨x,hx,rfl⟩ := List.mem_map.mp hx'
  exact .same hx (hf x)

omit [LinearOrder K] in
theorem ChannelFrom.unchanged {m m' : Manager K B} {takes : Session K B → Prop}
    (hs : m'.sessions = m.sessions) :
    ∀ x' ∈ m'.sessions, m.ChannelFrom takes x' :=
  .map (f := id) (by simpa using hs) .refl

theorem closing_sameChannel {m : Manager K B} {k : K} {x' : Session K B} (h : x' ∈ m.closing k) :
    ∃ x ∈ m.sessions, x'.SameChannel x := by
  unfold closing at h
  split at h
  · obtain ⟨x,hx,rfl⟩ := List.mem_map.mp h
    exact ⟨x,hx,x.closeChannel_sameChannel _⟩
  · exact ⟨x',h,.refl x'⟩

theorem Wired.channel_written {m : Manager K B} (h : m.Wired) {takes : Session K B → Prop}
    {e : Effect K B} {k : K} (hw : e.writes = some k) :
    ∀ x' ∈ (m.perform e).sessions, m.ChannelFrom takes x' := by
  intro x' hx'
  obtain ⟨state,new,w⟩ := perform_written (m := m) hw
  rcases w.session_cases hx' with hnew | hold
  · obtain ⟨c,-,hx,-,htask,-⟩ := w.mem_new hnew
    refine .new (by rw [hx]) fun x hx heq => ?_
    exact absurd (heq.trans htask) (h.started x hx).ne
  · obtain ⟨x,hx,hsame⟩ := closing_sameChannel hold
    exact .same hx hsame

theorem Wired.channel_effect {m : Manager K B} (h : m.Wired) {takes : Session K B → Prop}
    {e : Effect K B} (hnone : ∀ c p, .handed c p ∉ m.performShows e) :
    ∀ x' ∈ (m.perform e).sessions, m.ChannelFrom takes x' := by
  cases e with
  | spawnSession conn => exact h.channel_written rfl
  | spawnDial pubKey => exact h.channel_written rfl
  | insertWaiting pubKey => exact h.channel_written rfl
  | insertDisconnected pubKey => exact h.channel_written rfl
  | abort task => exact .map rfl (Session.abort_sameChannel task)
  | trySend task packet pubKey =>
    refine .unchanged ?_
    simp only [performShows] at hnone
    simp only [perform]
    split
    · rename_i s hf
      simp only [hf] at hnone
      split
      · rename_i room
        simp [room] at hnone
      · rfl
    · rfl
  | _ => exact .unchanged rfl

theorem Wired.channelFrom {m : Manager K B} (h : m.Wired) {l : Act K B} (hen : m.enabled l)
    (hnone : ∀ c p, .handed c p ∉ m.shows l) : ∀ x' ∈ (m.next l).sessions,
      m.ChannelFrom (fun x => ∃ outcome, l = .sendDatagram x outcome) x' := by
  cases l with
  | recvTask =>
    refine .unchanged ?_
    simp only [Manager.next]
    repeat' split
    all_goals rfl
  | effect =>
    cases hpc : m.pc with
    | nil => exact absurd hpc hen
    | cons e rest =>
      simp only [shows,hpc] at hnone
      simp only [Manager.next,hpc]
      exact h.channel_effect hnone
  | readFails s => exact .map rfl (Session.fail_sameChannel s.task)
  | sendDatagram s outcome =>
    let takes : Session K B → Prop := fun x => ∃ o, Act.sendDatagram s outcome = .sendDatagram x o
    have pops : ∀ x ∈ m.sessions, m.ChannelFrom takes (x.pop s.task) := by
      intro x hx
      by_cases ht : x.task = s.task
      · rw [h.eq_of_task hx hen.1 ht]
        exact .first hen.1 ⟨outcome,rfl⟩ (by simp [Session.pop]) (by simp [Session.pop])
          (by simp [Session.pop])
      · exact .same hx (by simp only [Session.pop,ht,if_false]; exact .refl x)
    have fails : ∀ x', m.ChannelFrom takes x' → m.ChannelFrom takes (x'.fail s.task) := by
      intro x' hx'
      have hf := x'.fail_sameChannel s.task
      cases hx' with
      | new empty fresh =>
        exact .new (hf.packetChannel.trans empty) fun x hx => by rw [hf.task]; exact fresh x hx
      | same mem same =>
        exact .same mem ⟨hf.task.trans same.task,hf.connection.trans same.connection,
          hf.packetChannel.trans same.packetChannel⟩
      | first mem taken task connection packetChannel =>
        exact .first mem taken (hf.task.trans task) (hf.connection.trans connection)
          (hf.packetChannel.trans packetChannel)
    intro x' hx'
    cases outcome with
    | failed =>
      obtain ⟨y,hy,rfl⟩ := List.mem_map.mp hx'
      obtain ⟨x,hx,rfl⟩ := List.mem_map.mp hy
      exact fails _ (pops x hx)
    | sent | tooLarge =>
      obtain ⟨x,hx,rfl⟩ := List.mem_map.mp hx'
      exact pops x hx
  | reportSession s | channelClosed s | cancelSession s =>
    exact fun x' hx' => .same (List.mem_of_mem_filter hx') (.refl x')
  | _ => exact .unchanged rfl

theorem perform_stays (m : Manager K B) (e : Effect K B) {x : Session K B} (hx : x ∈ m.sessions) :
    ∃ x' ∈ (m.perform e).sessions, x'.task = x.task := by
  have written : ∀ {k : K}, e.writes = some k →
      ∃ x' ∈ (m.perform e).sessions, x'.task = x.task := by
    intro k hw
    obtain ⟨state,new,w⟩ := perform_written (m := m) hw
    have hmem : x.task ∈ (m.closing k).map Session.task := by
      rw [closing_task]
      exact List.mem_map_of_mem hx
    obtain ⟨x',hx',ht⟩ := List.mem_map.mp hmem
    exact ⟨x',by rw [w.sessions]; exact List.mem_append_right _ hx',ht⟩
  cases e with
  | spawnSession conn => exact written rfl
  | spawnDial pubKey => exact written rfl
  | insertWaiting pubKey => exact written rfl
  | insertDisconnected pubKey => exact written rfl
  | abort task => exact ⟨x.abort task,List.mem_map_of_mem hx,x.abort_task task⟩
  | trySend task packet pubKey =>
    obtain ⟨f,hs,hf⟩ := trySend_sessions m task packet pubKey
    exact ⟨f x,by rw [hs]; exact List.mem_map_of_mem hx,(hf x).task⟩
  | _ => exact ⟨x,hx,rfl⟩

theorem Wired.stays {m : Manager K B} (h : m.Wired) {l : Act K B} (hen : m.enabled l)
    {x : Session K B} (hx : x ∈ m.sessions) :
    (∃ x' ∈ (m.next l).sessions, x'.task = x.task) ∨ l.endsSession x := by
  have stay : ∀ {f : Session K B → Session K B}, (m.next l).sessions = m.sessions.map f →
      (∀ y, (f y).task = y.task) → ∃ x' ∈ (m.next l).sessions, x'.task = x.task := by
    intro f hs hf
    rw [hs]
    exact ⟨f x,List.mem_map_of_mem hx,hf x⟩
  have unchanged : (m.next l).sessions = m.sessions →
      ∃ x' ∈ (m.next l).sessions, x'.task = x.task := fun hs =>
    stay (f := id) (by simpa using hs) fun _ => rfl
  cases l with
  | recvTask =>
    refine .inl (unchanged ?_)
    simp only [Manager.next]
    repeat' split
    all_goals rfl
  | effect =>
    left
    cases hpc : m.pc with
    | nil => exact absurd hpc hen
    | cons e rest =>
      simp only [Manager.next,hpc]
      exact m.perform_stays e hx
  | readFails s => exact .inl (stay rfl fun y => (y.fail_sameChannel s.task).task)
  | sendDatagram s outcome =>
    left
    have hpop := fun y : Session K B => (y.pop_sameLink s.task).task
    cases outcome with
    | failed =>
      refine stay (f := Session.fail s.task ∘ Session.pop s.task) (by simp [Manager.next])
        fun y => ?_
      exact (((y.pop s.task).fail_sameChannel s.task).task).trans (hpop y)
    | sent | tooLarge => exact stay rfl hpop
  | reportSession s | channelClosed s | cancelSession s =>
    by_cases ht : x.task = s.task
    · right
      rw [h.eq_of_task hx hen.1 ht]
      simp [Act.endsSession]
    · exact .inl ⟨x,List.mem_filter.mpr ⟨hx,by simpa using ht⟩,rfl⟩
  | _ => exact .inl (unchanged rfl)

/-- The session of a peer whose channel is said to be full is one to that peer, and it is. -/
theorem Wired.channel_full {m : Manager K B} (h : m.Wired) (ho : OnePacket m) {l : Act K B} {p : B}
    {pk : K} (hshow : .channelFull p pk ∈ m.shows l) : ∃ x ∈ m.sessions,
      x.connection.remoteId = pk ∧ m.channelCapacity ≤ x.packetChannel.length := by
  cases shown hshow with
  | @channelFull task _ _ rest hpc =>
    obtain ⟨-,c,hl⟩ := ho.trySend task p pk (by rw [hpc]; exact List.mem_cons_self)
    simp only [shows,hpc,performShows] at hshow
    split at hshow
    · rename_i x found
      split at hshow
      · simp at hshow
      · rename_i full
        have hx := List.mem_of_find?_eq_some found
        have htask : x.task = task := by simpa using List.find?_some found
        refine ⟨x,hx,?_,not_lt.mp full⟩
        rw [h.owned pk task c hl x hx htask,h.named pk task c hl]
    · simp at hshow

theorem OnePacket.not_connected {m : Manager K B} (ho : OnePacket m) {l : Act K B} {p : B} {pk : K}
    (hshow : .notConnected p pk ∈ m.shows l) {task : TaskId} {c : Connection K}
    (hl : m.iroh.stateTable.lookup pk = some (.connected task c)) :
    ∀ x ∈ m.sessions, x.task ≠ task := by
  cases shown hshow with
  | @ended t _ _ rest hpc hnone =>
    obtain ⟨-,c',hl'⟩ := ho.trySend t p pk (by rw [hpc]; exact List.mem_cons_self)
    rw [hl,Option.some.injEq,ConnectionState.connected.injEq] at hl'
    intro x hx
    rw [hl'.1]
    simpa using List.find?_eq_none.mp hnone x hx
  | dropped hpc =>
    obtain ⟨-,hc⟩ := ho.dropPacket p pk (by rw [hpc]; exact List.mem_cons_self)
    rw [Iroh.isConnected_of_lookup hl] at hc
    simp at hc

end Manager

section Loss
variable {K : Type} [DecidableEq K]

theorem NodeObs.lossFor_cases {o : NodeObs K} {pk : K} {loss : Loss} {p : Packet}
    (h : o.lossFor pk = some (loss,p)) :
    o = .evicted p pk ∧ loss = .evicted ∨ o = .irohFull p pk ∧ loss = .channelFull ∨
      o = .manager (.channelFull p pk) ∧ loss = .channelFull ∨
      o = .manager (.notConnected p pk) ∧ loss = .notConnected := by
  cases o with
  | evicted packet k =>
    simp only [NodeObs.lossFor,Option.ite_none_right_eq_some,Option.some.injEq,Prod.mk.injEq] at h
    simp [h]
  | irohFull packet k =>
    simp only [NodeObs.lossFor,Option.ite_none_right_eq_some,Option.some.injEq,Prod.mk.injEq] at h
    simp [h]
  | manager obs =>
    cases obs with
    | channelFull packet k | notConnected packet k =>
      simp only [NodeObs.lossFor,Option.ite_none_right_eq_some,Option.some.injEq,Prod.mk.injEq] at h
      simp [h]
    | _ => simp [NodeObs.lossFor] at h
  | _ => simp [NodeObs.lossFor] at h

end Loss

namespace Node
variable {K : Type} [LinearOrder K]

/-- A step of the node as the packet channels see it: a packet that is handed over comes to
the end of one of them, and otherwise they only lose what a session takes to send it. -/
structure ChannelStep (n : Node K) (a : NodeAct K) : Prop where
  put : ∀ c p, .manager (.handed c p) ∈ n.shows a → ∃ before x after,
    n.manager.sessions = before ++ x :: after ∧ x.connection = c ∧ (n.next a).manager.sessions =
      before ++ { x with packetChannel := x.packetChannel ++ [p] } :: after
  kept : (∀ c p, .manager (.handed c p) ∉ n.shows a) → ∀ x' ∈ (n.next a).manager.sessions,
    n.manager.ChannelFrom (fun x => ∃ outcome, a = .manager (.sendDatagram x outcome)) x'
  stays : ∀ x ∈ n.manager.sessions, (∃ x' ∈ (n.next a).manager.sessions, x'.task = x.task) ∨
    ∃ l : Act K Packet, a = .manager l ∧ l.endsSession x

theorem next_sessions {n : Node K} {a : NodeAct K} (hen : n.enabled a)
    (h : ∀ act, a ≠ .manager act) : (n.next a).manager.sessions = n.manager.sessions := by
  have hm := moved hen
  generalize hn : n.next a = n' at hm
  generalize n.shows a = os at hm
  cases hm with
  | manager hact own => exact absurd rfl (h _)
  | coordAction hand => rw [handleAction_eq]
  | _ => rfl

theorem ChannelStep.unchanged {n : Node K} {a : NodeAct K}
    (hs : (n.next a).manager.sessions = n.manager.sessions) (h : ∀ act, a ≠ .manager act) :
    n.ChannelStep a where
  put c p hshow := by
    cases shown hshow with
    | manager own => exact absurd rfl (h _)
  kept _ := .unchanged hs
  stays x hx := .inl ⟨x,by rw [hs]; exact hx,rfl⟩

theorem channelStep {n : Node K} (wired : n.manager.Wired) {a : NodeAct K} (hen : n.enabled a) :
    n.ChannelStep a := by
  cases a with
  | manager act =>
    have mem : ∀ c p, .manager (.handed c p) ∈ n.shows (.manager act) ↔
        .handed c p ∈ n.manager.shows act := by simp [shows]
    refine ⟨fun c p hshow => wired.puts ((mem c p).mp hshow),fun hnone x' hx' => ?_,fun x hx => ?_⟩
    · have hfrom := wired.channelFrom hen.1 (fun c p hc => hnone c p ((mem c p).mpr hc)) x' hx'
      simpa using hfrom
    · exact (wired.stays hen.1 hx).imp_right fun hends => ⟨act,rfl,hends⟩
  | _ => exact .unchanged (next_sessions hen (by simp)) (by simp)

inductive Justified (pk : K) (n : Node K) (p : Packet) : Loss → Prop where
  | evicted (oldest : (n.core.queue pk).head? = some p)
      (full : maxPacketsInQueue ≤ (n.core.queue pk).length) : Justified pk n p .evicted
  | irohFull (full : n.cfg.irohCapacity ≤ n.toIroh.length) : Justified pk n p .channelFull
  | channelFull {x : Session K Packet} (mem : x ∈ n.manager.sessions)
      (remote : x.connection.remoteId = pk)
      (full : n.manager.channelCapacity ≤ x.packetChannel.length) : Justified pk n p .channelFull
  | notConnected (ended : ∀ task c, n.manager.iroh.stateTable.lookup pk =
      some (.connected task c) → ∀ x ∈ n.manager.sessions, x.task ≠ task) :
      Justified pk n p .notConnected

theorem evicted_full {n : Node K} {a : NodeAct K} {p : Packet} {pk : K}
    (hshow : .evicted p pk ∈ n.shows a) : (n.core.queue pk).head? = some p ∧
      maxPacketsInQueue ≤ (n.core.queue pk).length := by
  cases shown hshow with
  | evicted =>
    simp only [shows] at hshow
    split at hshow
    · rename_i packet rest hq
      rcases List.mem_append.mp hshow with htakes | hissues
      · simp only [takes] at htakes
        split at htakes
        · rename_i k hacc
          simp only [List.mem_cons,reduceCtorEq,false_or,evicts] at htakes
          split at htakes
          · rename_i peer hpeer
            split at htakes
            · rename_i hfull
              simp only [List.mem_map,Option.mem_toList,NodeObs.evicted.injEq] at htakes
              obtain ⟨old,hold,rfl,rfl⟩ := htakes
              rw [VpnCore.queue_of_lookup hpeer]
              exact ⟨hold,hfull.2⟩
            · simp at htakes
          · simp at htakes
        · simp at htakes
      · obtain ⟨_,_,hi⟩ := mem_issues hissues
        simp at hi
    · simp at hshow

theorem irohFull_full {n : Node K} {a : NodeAct K} {p : Packet} {pk : K}
    (hshow : .irohFull p pk ∈ n.shows a) : n.cfg.irohCapacity ≤ n.toIroh.length := by
  cases shown hshow with
  | irohFull =>
    simp only [shows] at hshow
    split at hshow
    · rename_i action rest hhand
      cases action with
      | sendPacketTo packet pubKey =>
        simp only [actionShows] at hshow
        split at hshow
        · simp at hshow
        · rename_i full
          exact not_lt.mp full
      | writeToTun packet =>
        simp only [actionShows] at hshow
        split at hshow <;> simp at hshow
      | _ => simp [actionShows] at hshow
    · simp at hshow

theorem justified {n : Node K} (wired : n.manager.Wired) (one : n.manager.OnePacket) {a : NodeAct K}
    {pk : K} {loss : Loss} {p : Packet} (h : (loss,p) ∈ losses pk (n.shows a)) :
    n.Justified pk p loss := by
  obtain ⟨o,ho,hloss⟩ := List.mem_filterMap.mp h
  rcases NodeObs.lossFor_cases hloss with ⟨rfl,rfl⟩ | ⟨rfl,rfl⟩ | ⟨rfl,rfl⟩ | ⟨rfl,rfl⟩
  · exact .evicted (evicted_full ho).1 (evicted_full ho).2
  · exact .irohFull (irohFull_full ho)
  · cases shown ho with
    | manager own =>
      obtain ⟨x,hx,hr,full⟩ := wired.channel_full one own
      exact .channelFull hx hr full
  · cases shown ho with
    | manager own => exact .notConnected fun task c hl => one.not_connected own hl

end Node
end MeshNetwork
