import MeshNetwork.Iroh

set_option autoImplicit false

namespace MeshNetwork

def Effect.writes {K B : Type} : Effect K B → Option K
  | .spawnSession conn => some conn.remoteId
  | .spawnDial pubKey => some pubKey
  | .insertWaiting pubKey => some pubKey
  | .insertDisconnected pubKey => some pubKey
  | _ => none

/-- The entry it leaves there, when `next` is the next task to be spawned. -/
def Effect.entry {K B : Type} (next : TaskId) : Effect K B → ConnectionState K
  | .spawnSession conn => .connected next conn
  | .spawnDial _ => .connecting next
  | .insertWaiting _ => .waitingIncomingConnection
  | _ => .disconnected

def ConnectionState.task {K : Type} : ConnectionState K → Option TaskId
  | .connected task _ => some task
  | .connecting task => some task
  | _ => none

namespace Iroh
variable {K B : Type} [LinearOrder K]

def isConnected (self : Iroh K) (pubKey : K) : Bool :=
  match self.stateTable.lookup pubKey with
  | some (.connected _ _) => true
  | _ => false

def isConnecting (self : Iroh K) (pubKey : K) : Bool :=
  match self.stateTable.lookup pubKey with
  | some (.connecting _) => true
  | _ => false

theorem isConnected_iff {self : Iroh K} {pubKey : K} : self.isConnected pubKey = true ↔
    ∃ task conn, self.stateTable.lookup pubKey = some (.connected task conn) := by
  unfold isConnected
  split
  · rename_i task conn h
    simp [h]
  · rename_i h
    simp only [Bool.false_eq_true,false_iff,not_exists]
    exact fun task conn hl => h task conn hl

theorem isConnecting_iff {self : Iroh K} {pubKey : K} : self.isConnecting pubKey = true ↔
    ∃ task, self.stateTable.lookup pubKey = some (.connecting task) := by
  unfold isConnecting
  split
  · rename_i task h
    simp [h]
  · rename_i h
    simp only [Bool.false_eq_true,false_iff,not_exists]
    exact fun task hl => h task hl

theorem isConnected_of_lookup {self : Iroh K} {pubKey : K} {task : TaskId} {conn : Connection K}
    (h : self.stateTable.lookup pubKey = some (.connected task conn)) :
    self.isConnected pubKey = true := isConnected_iff.mpr ⟨task,conn,h⟩

theorem isConnecting_of_lookup {self : Iroh K} {pubKey : K} {task : TaskId}
    (h : self.stateTable.lookup pubKey = some (.connecting task)) :
    self.isConnecting pubKey = true := isConnecting_iff.mpr ⟨task,h⟩

theorem not_connecting_of_connected {self : Iroh K} {pubKey : K}
    (h : self.isConnected pubKey = true) : self.isConnecting pubKey = false := by
  obtain ⟨task,conn,hl⟩ := isConnected_iff.mp h
  simp [isConnecting,hl]

theorem mem_of_connected {self : Iroh K} {pubKey : K} (h : self.isConnected pubKey = true) :
    pubKey ∈ self.stateTable := by
  obtain ⟨task,conn,hl⟩ := isConnected_iff.mp h
  exact Finmap.mem_iff.mpr ⟨_,hl⟩

theorem mem_of_connecting {self : Iroh K} {pubKey : K} (h : self.isConnecting pubKey = true) :
    pubKey ∈ self.stateTable := by
  obtain ⟨task,hl⟩ := isConnecting_iff.mp h
  exact Finmap.mem_iff.mpr ⟨_,hl⟩

theorem initNewConnection_eq (self : Iroh K) (pubKey : K) :
    (self.id < pubKey ∧
      self.initNewConnection (B := B) pubKey = [.insertWaiting pubKey]) ∨
    (pubKey ≤ self.id ∧ self.initNewConnection (B := B) pubKey = [.spawnDial pubKey]) := by
  unfold initNewConnection
  split
  · rename_i h
    exact .inl ⟨h,rfl⟩
  · rename_i h
    exact .inr ⟨not_lt.mp h,rfl⟩

inductive Reaction (self : Iroh K) : ConnectionEvent K → List (Effect K B) → Prop where
  | dialed (conn : Connection K) : self.isConnecting conn.remoteId = true →
      Reaction self (.outgoingConnection conn) (initReadyConnection conn)
  | joined (conn : Connection K) :
      self.stateTable.lookup conn.remoteId = some .waitingIncomingConnection →
      Reaction self (.incomingConnection conn) (initReadyConnection conn)
  | replaced {ev : ConnectionEvent K} (conn old : Connection K) (task : TaskId) :
      ev = .outgoingConnection conn ∨ ev = .incomingConnection conn →
      self.stateTable.lookup conn.remoteId = some (.connected task old) →
      Reaction self ev ([.abort task,.close old] ++ initReadyConnection conn)
  | refused {ev : ConnectionEvent K} (conn : Connection K) :
      ev = .outgoingConnection conn ∧ self.isConnecting conn.remoteId = false ∨
        ev = .incomingConnection conn →
      self.isConnected conn.remoteId = false → Reaction self ev [.close conn]
  | lost (pubKey : K) : self.isConnected pubKey = true →
      Reaction self (.disconnected pubKey)
        (.send (.disconnectedFromPeer pubKey) :: self.initNewConnection pubKey)
  | ignored (pubKey : K) : self.isConnected pubKey = false →
      Reaction self (.disconnected pubKey) []

theorem Reaction.effect_cases {self : Iroh K} {ev : ConnectionEvent K} {effects : List (Effect K B)}
    (h : self.Reaction ev effects) {e : Effect K B} (he : e ∈ effects) :
    (∃ task, e = .abort task) ∨ (∃ conn, e = .close conn) ∨
      (∃ pubKey, e = .send (.connectedToPeer pubKey)) ∨ (∃ conn, e = .spawnSession conn) ∨
      ∃ pubKey, ev = .disconnected pubKey ∧ (e = .send (.disconnectedFromPeer pubKey) ∨
        e = .insertWaiting pubKey ∨ e = .spawnDial pubKey) := by
  have ready : ∀ conn : Connection K, e ∈ initReadyConnection (B := B) conn →
      (∃ pubKey, e = .send (.connectedToPeer pubKey)) ∨ ∃ conn, e = .spawnSession conn := by
    intro conn hmem
    simp only [initReadyConnection,List.mem_cons,List.not_mem_nil,or_false] at hmem
    rcases hmem with rfl | rfl
    · exact .inl ⟨_,rfl⟩
    · exact .inr ⟨_,rfl⟩
  cases h with
  | dialed conn hc =>
    rcases ready conn he with hsend | hspawn
    · exact .inr (.inr (.inl hsend))
    · exact .inr (.inr (.inr (.inl hspawn)))
  | joined conn hl =>
    rcases ready conn he with hsend | hspawn
    · exact .inr (.inr (.inl hsend))
    · exact .inr (.inr (.inr (.inl hspawn)))
  | replaced conn old task hev hl =>
    rcases List.mem_append.mp he with hold | hready
    · simp only [List.mem_cons,List.not_mem_nil,or_false] at hold
      rcases hold with rfl | rfl
      · exact .inl ⟨_,rfl⟩
      · exact .inr (.inl ⟨_,rfl⟩)
    · rcases ready conn hready with hsend | hspawn
      · exact .inr (.inr (.inl hsend))
      · exact .inr (.inr (.inr (.inl hspawn)))
  | refused conn hev hc => exact .inr (.inl ⟨conn,List.mem_singleton.mp he⟩)
  | lost pubKey hc =>
    refine .inr (.inr (.inr (.inr ⟨pubKey,rfl,?_⟩)))
    rcases List.mem_cons.mp he with rfl | hnew
    · exact .inl rfl
    · rcases self.initNewConnection_eq (B := B) pubKey with ⟨-,heq⟩ | ⟨-,heq⟩
      · exact .inr (.inl (by rw [heq] at hnew; exact List.mem_singleton.mp hnew))
      · exact .inr (.inr (by rw [heq] at hnew; exact List.mem_singleton.mp hnew))
  | ignored pubKey hc => simp at he

/-- Only a `Disconnected` of a connected peer is passed on to the core. -/
theorem Reaction.disconnects_iff {self : Iroh K} {ev : ConnectionEvent K}
    {effects : List (Effect K B)} (h : self.Reaction ev effects) (pubKey : K) :
    .send (.disconnectedFromPeer pubKey) ∈ effects ↔
      ev = .disconnected pubKey ∧ self.isConnected pubKey = true := by
  cases h with
  | dialed conn hc => simp [initReadyConnection]
  | joined conn hl => simp [initReadyConnection]
  | replaced conn old task hev hl => rcases hev with rfl | rfl <;> simp [initReadyConnection]
  | refused conn hev hc => rcases hev with ⟨rfl,-⟩ | rfl <;> simp
  | lost lostKey hc =>
    have hnew : Effect.send (.disconnectedFromPeer pubKey) ∉
        self.initNewConnection (B := B) lostKey := by
      rcases self.initNewConnection_eq (B := B) lostKey with ⟨-,heq⟩ | ⟨-,heq⟩ <;> simp [heq]
    rw [List.mem_cons,or_iff_left hnew]
    simp only [Effect.send.injEq,IrohEvent.disconnectedFromPeer.injEq,
      ConnectionEvent.disconnected.injEq]
    constructor
    · rintro rfl
      exact ⟨rfl,hc⟩
    · exact fun h => h.1.symm
  | ignored lostKey hc =>
    simp only [List.not_mem_nil,ConnectionEvent.disconnected.injEq,false_iff,not_and]
    rintro rfl
    simp [hc]

theorem reaction {self : Iroh K} {ev : ConnectionEvent K} {effects : List (Effect K B)}
    (h : self.handleConnEvent ev = .ok effects) : Reaction self ev effects := by
  cases ev with
  | outgoingConnection conn =>
    simp only [handleConnEvent,Except.ok.injEq] at h
    subst h
    cases hl : self.stateTable.lookup conn.remoteId with
    | none =>
      exact .refused conn (.inl ⟨rfl,by simp [isConnecting,hl]⟩) (by simp [isConnected,hl])
    | some state =>
      cases state with
      | connected task old => exact .replaced conn old task (.inl rfl) hl
      | connecting task => exact .dialed conn (isConnecting_of_lookup hl)
      | waitingIncomingConnection =>
        exact .refused conn (.inl ⟨rfl,by simp [isConnecting,hl]⟩) (by simp [isConnected,hl])
      | disconnected =>
        exact .refused conn (.inl ⟨rfl,by simp [isConnecting,hl]⟩) (by simp [isConnected,hl])
  | incomingConnection conn =>
    simp only [handleConnEvent,Except.ok.injEq] at h
    subst h
    cases hl : self.stateTable.lookup conn.remoteId with
    | none => exact .refused conn (.inr rfl) (by simp [isConnected,hl])
    | some state =>
      cases state with
      | connected task old => exact .replaced conn old task (.inr rfl) hl
      | connecting task => exact .refused conn (.inr rfl) (by simp [isConnected,hl])
      | waitingIncomingConnection => exact .joined conn hl
      | disconnected => exact .refused conn (.inr rfl) (by simp [isConnected,hl])
  | disconnected pubKey =>
    simp only [handleConnEvent,Except.ok.injEq] at h
    subst h
    cases hl : self.stateTable.lookup pubKey with
    | none => exact .ignored pubKey (by simp [isConnected,hl])
    | some state =>
      cases state with
      | connected task old => exact .lost pubKey (isConnected_of_lookup hl)
      | connecting task => exact .ignored pubKey (by simp [isConnected,hl])
      | waitingIncomingConnection => exact .ignored pubKey (by simp [isConnected,hl])
      | disconnected => exact .ignored pubKey (by simp [isConnected,hl])
  | internalError => simp [handleConnEvent] at h

inductive CoreReaction (self : Iroh K) : CoreAction K B → List (Effect K B) → Prop where
  | passed (packet : B) (pubKey : K) (task : TaskId) (conn : Connection K) :
      self.stateTable.lookup pubKey = some (.connected task conn) →
      CoreReaction self (.sendPacketTo packet pubKey) [.trySend task packet pubKey]
  | dropped (packet : B) (pubKey : K) : self.isConnected pubKey = false →
      CoreReaction self (.sendPacketTo packet pubKey) [.dropPacket packet pubKey]
  | restarted (pubKey : K) : self.stateTable.lookup pubKey = some .disconnected →
      CoreReaction self (.connectToPeer pubKey) (self.initNewConnection pubKey)
  | ignored (pubKey : K) : CoreReaction self (.connectToPeer pubKey) []
  | closed (pubKey : K) (task : TaskId) (conn : Connection K) :
      self.stateTable.lookup pubKey = some (.connected task conn) →
      CoreReaction self (.disconnectFromPeer pubKey)
        [.abort task,.close conn,.send (.disconnectedFromPeer pubKey),.insertDisconnected pubKey]
  | cancelled (pubKey : K) (task : TaskId) :
      self.stateTable.lookup pubKey = some (.connecting task) →
      CoreReaction self (.disconnectFromPeer pubKey) [.abort task,.insertDisconnected pubKey]
  | cleared (pubKey : K) : self.isConnected pubKey = false →
      CoreReaction self (.disconnectFromPeer pubKey) [.insertDisconnected pubKey]

theorem coreReaction (self : Iroh K) (action : CoreAction K B) :
    CoreReaction self action (self.handleCoreEvent action) := by
  cases action with
  | sendPacketTo packet pubKey =>
    simp only [handleCoreEvent]
    split
    · rename_i task conn hl
      exact .passed packet pubKey task conn hl
    · rename_i hl
      refine .dropped packet pubKey (Bool.eq_false_iff.mpr fun hc => ?_)
      obtain ⟨task,conn,h⟩ := isConnected_iff.mp hc
      exact hl task conn h
  | connectToPeer pubKey =>
    simp only [handleCoreEvent]
    split
    · rename_i hl
      exact .restarted pubKey hl
    all_goals exact .ignored pubKey
  | disconnectFromPeer pubKey =>
    simp only [handleCoreEvent]
    split
    · rename_i task conn hl
      exact .closed pubKey task conn hl
    · rename_i task hl
      exact .cancelled pubKey task hl
    · rename_i hl _
      refine .cleared pubKey (Bool.eq_false_iff.mpr fun hc => ?_)
      obtain ⟨task,conn,h⟩ := isConnected_iff.mp hc
      exact hl task conn h

theorem new_lookup (id : K) (peers : KeySet K) (k : K) :
    (new id peers).stateTable.lookup k =
      if k ∈ peers then some ConnectionState.disconnected else none := by
  have hfold : ∀ (l : List K) (t : Finmap fun _ : K => ConnectionState K),
      (l.foldl (fun t pubKey => t.insert pubKey .disconnected) t).lookup k =
        if k ∈ l then some ConnectionState.disconnected else t.lookup k := by
    intro l
    induction l with
    | nil => simp
    | cons pubKey l ih =>
      intro t
      rw [List.foldl_cons,ih]
      by_cases hl : k ∈ l
      · simp [hl]
      · by_cases hk : k = pubKey
        · subst k
          simp
        · simp [hl,hk,Finmap.lookup_insert_of_ne _ hk]
  have h := hfold peers.elems ∅
  rw [Finmap.lookup_empty] at h
  exact h

theorem mem_init {self : Iroh K} {e : Effect K B} (h : e ∈ self.init) :
    ∃ pubKey ∈ self.peers, (self.id < pubKey ∧ e = .insertWaiting pubKey) ∨
      (pubKey ≤ self.id ∧ e = .spawnDial pubKey) := by
  simp only [init,List.mem_flatMap] at h
  obtain ⟨pubKey,hmem,he⟩ := h
  refine ⟨pubKey,hmem,?_⟩
  split at he
  · rename_i hlt
    simp only [List.mem_singleton] at he
    exact .inl ⟨hlt,he⟩
  · rename_i hlt
    simp only [List.mem_singleton] at he
    exact .inr ⟨not_lt.mp hlt,he⟩

theorem init_writes (self : Iroh K) :
    (self.init (B := B)).filterMap Effect.writes = self.peers.elems := by
  simp only [init]
  induction self.peers.elems with
  | nil => rfl
  | cons pubKey l ih =>
    rw [List.flatMap_cons,List.filterMap_append,ih]
    split <;> rfl

end Iroh
end MeshNetwork
