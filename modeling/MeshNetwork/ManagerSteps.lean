import MeshNetwork.Handlers
import MeshNetwork.Manager

set_option autoImplicit false

namespace MeshNetwork

def Act.byTask {K B : Type} : Act K B → Bool
  | .recvTask => false
  | .recvCore _ => false
  | .effect => false
  | _ => true

namespace Manager
variable {K B : Type} [LinearOrder K]

@[simp] theorem insertState_lookup (m : Manager K B) (pubKey : K) (state : ConnectionState K) :
    (m.insertState pubKey state).iroh.stateTable.lookup pubKey = some state := by
  simp [insertState]

theorem insertState_lookup_ne (m : Manager K B) {pubKey k : K} (state : ConnectionState K)
    (h : k ≠ pubKey) : (m.insertState pubKey state).iroh.stateTable.lookup k =
      m.iroh.stateTable.lookup k := by
  simp [insertState,Finmap.lookup_insert_of_ne _ h]

section Frame
variable (m : Manager K B) (e : Effect K B)

@[simp] theorem perform_rxFromTasks : (m.perform e).rxFromTasks = m.rxFromTasks := by
  cases e <;> simp only [perform,insertState]
  repeat' split
  all_goals rfl

@[simp] theorem perform_accepts : (m.perform e).accepts = m.accepts := by
  cases e <;> simp only [perform,insertState]
  repeat' split
  all_goals rfl

@[simp] theorem perform_id : (m.perform e).iroh.id = m.iroh.id := by
  cases e <;> simp only [perform,insertState]
  repeat' split
  all_goals rfl

@[simp] theorem perform_peers : (m.perform e).iroh.peers = m.iroh.peers := by
  cases e <;> simp only [perform,insertState]
  repeat' split
  all_goals rfl

theorem perform_lookup_ne {k : K} (h : e.writes ≠ some k) :
    (m.perform e).iroh.stateTable.lookup k = m.iroh.stateTable.lookup k := by
  cases e with
  | spawnSession conn =>
    exact insertState_lookup_ne m _ fun hk => h (by rw [hk]; rfl)
  | spawnDial pubKey =>
    exact insertState_lookup_ne m _ fun hk => h (by rw [hk]; rfl)
  | insertWaiting pubKey =>
    exact insertState_lookup_ne m _ fun hk => h (by rw [hk]; rfl)
  | insertDisconnected pubKey =>
    exact insertState_lookup_ne m _ fun hk => h (by rw [hk]; rfl)
  | trySend task packet pubKey =>
    simp only [perform]
    repeat' split
    all_goals rfl
  | _ => rfl

theorem perform_lookup_written {k : K} (h : e.writes = some k) :
    (m.perform e).iroh.stateTable.lookup k = some (e.entry m.nextTask) := by
  cases e with
  | spawnSession conn =>
    simp only [Effect.writes,Option.some.injEq] at h
    subst h
    exact insertState_lookup m conn.remoteId (.connected m.nextTask conn)
  | spawnDial pubKey =>
    simp only [Effect.writes,Option.some.injEq] at h
    subst h
    exact insertState_lookup m pubKey (.connecting m.nextTask)
  | insertWaiting pubKey =>
    simp only [Effect.writes,Option.some.injEq] at h
    subst h
    exact insertState_lookup m pubKey .waitingIncomingConnection
  | insertDisconnected pubKey =>
    simp only [Effect.writes,Option.some.injEq] at h
    subst h
    exact insertState_lookup m pubKey .disconnected
  | _ => simp [Effect.writes] at h

end Frame

def carryOut (m : Manager K B) (effects : List (Effect K B)) : Manager K B :=
  (effects.foldl perform m).setPc []

theorem carryOut_lookup_ne {k : K} {effects : List (Effect K B)}
    (h : ∀ e ∈ effects, e.writes ≠ some k) (m : Manager K B) :
    (m.carryOut effects).iroh.stateTable.lookup k = m.iroh.stateTable.lookup k := by
  change (effects.foldl Manager.perform m).iroh.stateTable.lookup k = _
  induction effects generalizing m with
  | nil => rfl
  | cons e rest ih =>
    rw [List.foldl_cons,ih fun x hx => h x (List.mem_cons_of_mem _ hx)]
    exact perform_lookup_ne m e (h e List.mem_cons_self)

inductive Moved (m : Manager K B) : Act K B → Manager K B → Prop where
  | handle {q : Queued K} {rest : List (Queued K)} {effects : List (Effect K B)}
      (idle : m.pc = []) (queue : m.rxFromTasks = q :: rest)
      (reaction : m.iroh.Reaction q.event effects) :
      Moved m .recvTask { m with rxFromTasks := rest, pc := effects }
  | core {action : CoreAction K B} {effects : List (Effect K B)} (idle : m.pc = [])
      (reaction : m.iroh.CoreReaction action effects) :
      Moved m (.recvCore action) { m with pc := effects }
  | effect {e : Effect K B} {rest : List (Effect K B)} (pc : m.pc = e :: rest) :
      Moved m .effect ((m.perform e).setPc rest)
  | task {l : Act K B} (own : l.byTask = true) : Moved m l (m.next l)

theorem moved {m : Manager K B} {l : Act K B} (hen : m.enabled l) : Moved m l (m.next l) := by
  cases l with
  | recvTask =>
    obtain ⟨hpc,q,hq,hok⟩ := hen
    cases hrx : m.rxFromTasks with
    | nil => simp [hrx] at hq
    | cons head rest =>
      simp only [hrx,List.head?_cons,Option.mem_some_iff] at hq
      subst hq
      cases hh : m.iroh.handleConnEvent (B := B) head.event with
      | error e => simp [hh,Except.isOk,Except.toBool] at hok
      | ok effects =>
        simp only [next,hrx,hh]
        exact .handle hpc hrx (Iroh.reaction hh)
  | recvCore action => exact .core hen (Iroh.coreReaction m.iroh action)
  | effect =>
    cases hpc : m.pc with
    | nil => exact absurd hpc hen
    | cons e rest =>
      simp only [next,hpc]
      exact .effect hpc
  | _ => exact .task rfl

inductive Shown (m : Manager K B) : Act K B → Obs K B → Prop where
  | emitted {event : IrohEvent K B} {rest : List (Effect K B)} (pc : m.pc = .send event :: rest) :
      Shown m .effect (.emitted event)
  | dialSpawned {pubKey : K} {rest : List (Effect K B)} (pc : m.pc = .spawnDial pubKey :: rest) :
      Shown m .effect (.dialSpawned pubKey)
  | installed {conn : Connection K} {rest : List (Effect K B)}
      (pc : m.pc = .spawnSession conn :: rest) : Shown m .effect (.installed conn)
  | handed {task : TaskId} {packet : B} {pubKey : K} {rest : List (Effect K B)} {s : Session K B}
      (pc : m.pc = .trySend task packet pubKey :: rest)
      (found : (m.sessions.find? fun s => s.task = task) = some s) :
      Shown m .effect (.handed s.connection packet)
  | channelFull {task : TaskId} {packet : B} {pubKey : K} {rest : List (Effect K B)}
      (pc : m.pc = .trySend task packet pubKey :: rest) :
      Shown m .effect (.channelFull packet pubKey)
  | ended {task : TaskId} {packet : B} {pubKey : K} {rest : List (Effect K B)}
      (pc : m.pc = .trySend task packet pubKey :: rest)
      (none : (m.sessions.find? fun s => s.task = task) = none) :
      Shown m .effect (.notConnected packet pubKey)
  | dropped {packet : B} {pubKey : K} {rest : List (Effect K B)}
      (pc : m.pc = .dropPacket packet pubKey :: rest) :
      Shown m .effect (.notConnected packet pubKey)
  | attempted (d : Dial K) (serial : Nat) : Shown m (.attempt d serial) (.attempted d.peer serial)
  | dialed (d : Dial K) (serial : Nat) : Shown m (.dialed d serial) (.dialed ⟨serial,d.peer,true⟩)
  | accepted (conn : Connection K) : Shown m (.accepted conn) (.accepted conn)
  | received (s : Session K B) (packet : B) :
      Shown m (.readDatagram s packet) (.received s.connection packet)
  | sent {s : Session K B} {packet : B} (queued : packet ∈ s.packetChannel) :
      Shown m (.sendDatagram s .sent) (.sent s.connection packet)

omit [LinearOrder K] in
theorem shown {m : Manager K B} {l : Act K B} {o : Obs K B} (ho : o ∈ m.shows l) : Shown m l o := by
  cases l with
  | effect =>
    cases hpc : m.pc with
    | nil => simp [shows,hpc] at ho
    | cons e rest =>
      simp only [shows,hpc] at ho
      cases e with
      | trySend task packet pubKey =>
        simp only [performShows] at ho
        split at ho
        · rename_i s hf
          split at ho
          · rw [List.mem_singleton.mp ho]
            exact .handed hpc hf
          · rw [List.mem_singleton.mp ho]
            exact .channelFull hpc
        · rename_i hf
          rw [List.mem_singleton.mp ho]
          exact .ended hpc hf
      | send event =>
        rw [List.mem_singleton.mp ho]
        exact .emitted hpc
      | dropPacket packet pubKey =>
        rw [List.mem_singleton.mp ho]
        exact .dropped hpc
      | spawnSession conn =>
        rw [List.mem_singleton.mp ho]
        exact .installed hpc
      | spawnDial pubKey =>
        rw [List.mem_singleton.mp ho]
        exact .dialSpawned hpc
      | _ => simp [performShows] at ho
  | attempt d serial =>
    rw [List.mem_singleton.mp ho]
    exact .attempted d serial
  | dialed d serial =>
    rw [List.mem_singleton.mp ho]
    exact .dialed d serial
  | accepted conn =>
    rw [List.mem_singleton.mp ho]
    exact .accepted conn
  | readDatagram s packet =>
    rw [List.mem_singleton.mp ho]
    exact .received s packet
  | sendDatagram s outcome =>
    cases outcome with
    | sent =>
      obtain ⟨p,hp,rfl⟩ := List.mem_map.mp ho
      exact .sent (List.mem_of_mem_head? (by simpa using hp))
    | tooLarge => simp [shows] at ho
    | failed => simp [shows] at ho
  | _ => simp [shows] at ho

section Task
variable (m : Manager K B) {l : Act K B}

theorem task_iroh (h : l.byTask = true) : (m.next l).iroh = m.iroh := by
  cases l with
  | recvTask => simp [Act.byTask] at h
  | recvCore action => simp [Act.byTask] at h
  | effect => simp [Act.byTask] at h
  | _ => rfl

theorem task_pc (h : l.byTask = true) : (m.next l).pc = m.pc := by
  cases l with
  | recvTask => simp [Act.byTask] at h
  | recvCore action => simp [Act.byTask] at h
  | effect => simp [Act.byTask] at h
  | _ => rfl

theorem task_nextTask (h : l.byTask = true) : (m.next l).nextTask = m.nextTask := by
  cases l with
  | recvTask => simp [Act.byTask] at h
  | recvCore action => simp [Act.byTask] at h
  | effect => simp [Act.byTask] at h
  | _ => rfl

def reports : Act K B → List (Queued K)
  | .reportDial d => (d.ready.map fun c => ⟨.outgoingConnection c,some d.task⟩).toList
  | .reportAccept c => [⟨.incomingConnection c,none⟩]
  | .reportSession s => [⟨.disconnected s.connection.remoteId,some s.task⟩]
  | _ => []

theorem task_rxFromTasks (h : l.byTask = true) :
    (m.next l).rxFromTasks = m.rxFromTasks ++ reports l := by
  cases l with
  | recvTask => simp [Act.byTask] at h
  | recvCore action => simp [Act.byTask] at h
  | effect => simp [Act.byTask] at h
  | _ => simp [next,reports]

end Task

def Rewriting (m : Manager K B) (k : K) : Prop := ∃ e ∈ m.pc, e.writes = some k

instance (m : Manager K B) (k : K) : Decidable (m.Rewriting k) :=
  inferInstanceAs (Decidable (∃ e ∈ m.pc, e.writes = some k))

omit [LinearOrder K] in
theorem not_rewriting_idle {m : Manager K B} (h : m.pc = []) (k : K) : ¬ m.Rewriting k := by
  simp [Rewriting,h]

theorem perform_connected {m : Manager K B} {e : Effect K B} {k : K} (hw : e.writes = some k)
    {task : TaskId} {c : Connection K}
    (h : (m.perform e).iroh.stateTable.lookup k = some (.connected task c)) :
    e = .spawnSession c ∧ c.remoteId = k ∧ task = m.nextTask := by
  rw [perform_lookup_written m e hw,Option.some.injEq] at h
  cases e with
  | spawnSession conn =>
    simp only [Effect.entry,ConnectionState.connected.injEq] at h
    simp only [Effect.writes,Option.some.injEq] at hw
    obtain ⟨rfl,rfl⟩ := h
    exact ⟨rfl,hw,rfl⟩
  | _ => simp [Effect.entry] at h

theorem perform_waiting {m : Manager K B} {e : Effect K B} {k : K} (hw : e.writes = some k)
    (h : (m.perform e).iroh.stateTable.lookup k = some .waitingIncomingConnection) :
    e = .insertWaiting k := by
  rw [perform_lookup_written m e hw,Option.some.injEq] at h
  cases e with
  | insertWaiting pubKey =>
    simp only [Effect.writes,Option.some.injEq] at hw
    rw [hw]
  | _ => simp_all [Effect.entry,Effect.writes]

theorem perform_disconnected {m : Manager K B} {e : Effect K B} {k : K} (hw : e.writes = some k)
    (h : (m.perform e).iroh.stateTable.lookup k = some .disconnected) :
    e = .insertDisconnected k := by
  rw [perform_lookup_written m e hw,Option.some.injEq] at h
  cases e with
  | insertDisconnected pubKey =>
    simp only [Effect.writes,Option.some.injEq] at hw
    rw [hw]
  | _ => simp_all [Effect.entry,Effect.writes]

theorem perform_isConnecting {m : Manager K B} {e : Effect K B} {k : K}
    (hw : e.writes = some k) : (m.perform e).iroh.isConnecting k = true ↔ e = .spawnDial k := by
  unfold Iroh.isConnecting
  rw [perform_lookup_written m e hw]
  cases e with
  | spawnDial pubKey =>
    simp only [Effect.writes,Option.some.injEq] at hw
    simp [Effect.entry,hw]
  | _ => simp [Effect.entry]

omit [LinearOrder K] in
theorem initNewConnection_writes [LinearOrder K] (iroh : Iroh K) (pubKey : K) :
    ∃ e : Effect K B, iroh.initNewConnection pubKey = [e] ∧ e.writes = some pubKey := by
  rcases iroh.initNewConnection_eq (B := B) pubKey with ⟨-,h⟩ | ⟨-,h⟩
  · exact ⟨_,h,rfl⟩
  · exact ⟨_,h,rfl⟩

theorem start_lookup {id : K} {peers : KeySet K} {channelCapacity : Nat} {k : K}
    {s : ConnectionState K} :
    (start id peers channelCapacity : Manager K B).iroh.stateTable.lookup k = some s ↔
      k ∈ peers ∧ s = .disconnected := by
  simp only [start,Iroh.new_lookup,Option.ite_none_right_eq_some,Option.some.injEq]
  exact and_congr_right fun _ => eq_comm

end Manager
end MeshNetwork
