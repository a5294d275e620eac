import MeshNetwork.ManagerSteps

/-!
The whitelist is the key set of the state table, and one handler widens it.
-/

set_option autoImplicit false

namespace MeshNetwork
open Runs

def Effect.admits {K B : Type} : Effect K B → Option K
  | .send (.connectedToPeer pubKey) => some pubKey
  | .spawnSession conn => some conn.remoteId
  | .spawnDial pubKey => some pubKey
  | .insertWaiting pubKey => some pubKey
  | .insertDisconnected pubKey => some pubKey
  | _ => none

def Obs.admits {K B : Type} : Obs K B → Option K
  | .emitted (.connectedToPeer pubKey) => some pubKey
  | .dialSpawned pubKey => some pubKey
  | .installed conn => some conn.remoteId
  | _ => none

namespace Manager
variable {K B : Type} [LinearOrder K]

def Listed (m : Manager K B) : Act K B → Prop
  | .recvCore (.disconnectFromPeer pubKey) => pubKey ∈ m.iroh.peers
  | _ => True

instance (m : Manager K B) (l : Act K B) : Decidable (m.Listed l) :=
  match l with
  | .recvCore (.disconnectFromPeer pubKey) => inferInstanceAs (Decidable (pubKey ∈ m.iroh.peers))
  | .recvCore (.sendPacketTo _ _) | .recvCore (.connectToPeer _) | .recvTask | .effect
  | .attempt _ _ | .dialed _ _ | .reportDial _ | .cancelDial _ | .accepted _ | .reportAccept _
  | .readDatagram _ _ | .readFails _ | .sendDatagram _ _ | .reportSession _ | .channelClosed _
  | .cancelSession _ => .isTrue trivial

structure WhitelistKept (peers : KeySet K) (m : Manager K B) (tr : List (Obs K B)) : Prop where
  whitelist : m.iroh.peers = peers
  table : ∀ k, k ∈ m.iroh.stateTable ↔ k ∈ peers
  pending : ∀ e ∈ m.pc, ∀ k, e.admits = some k → k ∈ peers
  shown : ∀ o ∈ tr, ∀ k, o.admits = some k → k ∈ peers

omit [LinearOrder K] in
theorem admits_of_writes {e : Effect K B} {k : K} (h : e.writes = some k) : e.admits = some k := by
  cases e <;> simp_all [Effect.writes,Effect.admits]

omit [LinearOrder K] in
theorem shown_admits {m : Manager K B} {l : Act K B} {o : Obs K B} {k : K} (h : Shown m l o)
    (hk : o.admits = some k) : ∃ e ∈ m.pc, e.admits = some k := by
  cases h with
  | @emitted event rest hpc =>
    refine ⟨.send event,by simp [hpc],?_⟩
    cases event with
    | connectedToPeer pubKey => simpa [Obs.admits,Effect.admits] using hk
    | disconnectedFromPeer pubKey => simp [Obs.admits] at hk
    | recvPacketFrom packet pubKey => simp [Obs.admits] at hk
  | @dialSpawned pubKey rest hpc => exact ⟨.spawnDial pubKey,by simp [hpc],hk⟩
  | @installed conn rest hpc => exact ⟨.spawnSession conn,by simp [hpc],hk⟩
  | _ => simp [Obs.admits] at hk

theorem initNewConnection_admits {iroh : Iroh K} {pubKey k : K} {e : Effect K B}
    (he : e ∈ iroh.initNewConnection pubKey) (hk : e.admits = some k) : k = pubKey := by
  rcases iroh.initNewConnection_eq (B := B) pubKey with ⟨-,h⟩ | ⟨-,h⟩
  all_goals
    rw [h,List.mem_singleton] at he
    subst he
    simpa [Effect.admits] using hk.symm

omit [LinearOrder K] in
theorem initReadyConnection_admits {conn : Connection K} {k : K} {e : Effect K B}
    (he : e ∈ (Iroh.initReadyConnection conn : List (Effect K B))) (hk : e.admits = some k) :
    k = conn.remoteId := by
  simp only [Iroh.initReadyConnection,List.mem_cons,List.not_mem_nil,or_false] at he
  rcases he with rfl | rfl <;> simpa [Effect.admits] using hk.symm

theorem reaction_admits {iroh : Iroh K} {ev : ConnectionEvent K} {effects : List (Effect K B)}
    (h : iroh.Reaction ev effects) {e : Effect K B} (he : e ∈ effects) {k : K}
    (hk : e.admits = some k) : k ∈ iroh.stateTable := by
  cases h with
  | dialed conn hc =>
    rw [initReadyConnection_admits he hk]
    exact Iroh.mem_of_connecting hc
  | joined conn hl =>
    rw [initReadyConnection_admits he hk]
    exact Finmap.mem_iff.mpr ⟨_,hl⟩
  | replaced conn old task hev hl =>
    rcases List.mem_append.mp he with hold | hready
    · simp only [List.mem_cons,List.not_mem_nil,or_false] at hold
      rcases hold with rfl | rfl <;> simp [Effect.admits] at hk
    · rw [initReadyConnection_admits hready hk]
      exact Finmap.mem_iff.mpr ⟨_,hl⟩
  | refused conn hev hc =>
    simp only [List.mem_singleton] at he
    subst he
    simp [Effect.admits] at hk
  | lost pubKey hc =>
    rcases List.mem_cons.mp he with rfl | hnew
    · simp [Effect.admits] at hk
    · rw [initNewConnection_admits hnew hk]
      exact Iroh.mem_of_connected hc
  | ignored pubKey hc => simp at he

/-- A core action lets in a key of the table, or the key of a `DisconnectFromPeer`. -/
theorem coreReaction_admits {iroh : Iroh K} {action : CoreAction K B}
    {effects : List (Effect K B)} (h : iroh.CoreReaction action effects) {e : Effect K B}
    (he : e ∈ effects) {k : K} (hk : e.admits = some k) :
    k ∈ iroh.stateTable ∨ action = .disconnectFromPeer k := by
  cases h with
  | restarted pubKey hl =>
    rw [initNewConnection_admits he hk]
    exact .inl (Finmap.mem_iff.mpr ⟨_,hl⟩)
  | closed pubKey task conn hl =>
    simp only [List.mem_cons,List.not_mem_nil,or_false] at he
    rcases he with rfl | rfl | rfl | rfl <;> simp_all [Effect.admits]
  | cancelled pubKey task hl =>
    simp only [List.mem_cons,List.not_mem_nil,or_false] at he
    rcases he with rfl | rfl <;> simp_all [Effect.admits]
  | _ => simp_all [Effect.admits]

theorem WhitelistKept.perform {peers : KeySet K} {m : Manager K B} {tr : List (Obs K B)}
    (h : WhitelistKept peers m tr) {e : Effect K B} {rest : List (Effect K B)}
    (hpc : m.pc = e :: rest) (k : K) : k ∈ (m.perform e).iroh.stateTable ↔ k ∈ peers := by
  rw [Finmap.mem_iff]
  by_cases hw : e.writes = some k
  · have hk : k ∈ peers := h.pending e (by simp [hpc]) k (admits_of_writes hw)
    exact ⟨fun _ => hk,fun _ => ⟨_,perform_lookup_written _ e hw⟩⟩
  · rw [perform_lookup_ne _ _ hw]
    exact Finmap.mem_iff.symm.trans (h.table k)

theorem WhitelistKept.next {peers : KeySet K} {m : Manager K B} {tr : List (Obs K B)}
    (h : WhitelistKept peers m tr) {l : Act K B} (hok : m.Listed l) (hen : m.enabled l) :
    WhitelistKept peers (m.next l) (tr ++ m.shows l) := by
  have hshown : ∀ o ∈ tr ++ m.shows l, ∀ k, o.admits = some k → k ∈ peers := by
    intro o ho k hk
    rcases List.mem_append.mp ho with hold | hnew
    · exact h.shown o hold k hk
    · obtain ⟨e,he,hek⟩ := shown_admits (Manager.shown hnew) hk
      exact h.pending e he k hek
  have hm := moved hen
  generalize hn : m.next l = m' at hm
  cases hm with
  | handle idle queue reaction =>
    refine ⟨h.whitelist,h.table,fun e he k hk => ?_,hshown⟩
    exact (h.table k).mp (reaction_admits reaction he hk)
  | core idle reaction =>
    refine ⟨h.whitelist,h.table,fun e he k hk => ?_,hshown⟩
    rcases coreReaction_admits reaction he hk with hmem | rfl
    · exact (h.table k).mp hmem
    · rw [← h.whitelist]
      exact hok
  | effect hpc =>
    refine ⟨(perform_peers m _).trans h.whitelist,h.perform hpc,fun e he => ?_,hshown⟩
    exact h.pending e (by rw [hpc]; exact List.mem_cons_of_mem _ he)
  | task own =>
    refine ⟨?_,?_,?_,hshown⟩
    · rw [task_iroh m own]
      exact h.whitelist
    · rw [task_iroh m own]
      exact h.table
    · rw [task_pc m own]
      exact h.pending

theorem start_whitelistKept (id : K) (peers : KeySet K) (channelCapacity : Nat) :
    WhitelistKept peers (start id peers channelCapacity : Manager K B) [] where
  whitelist := rfl
  table k := by
    rw [Finmap.mem_iff]
    simp only [start_lookup,exists_and_left,exists_eq,and_true]
  pending e he k hk := by
    obtain ⟨pubKey,hmem,⟨-,rfl⟩ | ⟨-,rfl⟩⟩ := Iroh.mem_init he
    all_goals
      simp only [Effect.admits,Option.some.injEq] at hk
      subst hk
      exact hmem
  shown o ho := by simp at ho

theorem whitelistKept_run {id : K} {peers : KeySet K} {channelCapacity : Nat} {m : Manager K B}
    {tr : List (Obs K B)} (run : Run system Listed (start id peers channelCapacity) m tr) :
    WhitelistKept peers m tr :=
  run.invariant (WhitelistKept peers) (start_whitelistKept id peers channelCapacity)
    fun _ _ _ h hok hen => h.next hok hen

/-- While every `DisconnectFromPeer` names a whitelisted key, the table lists the
whitelist and nobody else is dialed, connected or reported as connected. -/
theorem whitelist_kept {id : K} {peers : KeySet K} {channelCapacity : Nat} {m : Manager K B}
    {tr : List (Obs K B)} (run : Run system Listed (start id peers channelCapacity) m tr) :
    (∀ k, k ∈ m.iroh.stateTable ↔ k ∈ peers) ∧
      (∀ k, .dialSpawned k ∈ tr → k ∈ peers) ∧
      (∀ c, .installed c ∈ tr → c.remoteId ∈ peers) ∧
      (∀ k, .emitted (.connectedToPeer k) ∈ tr → k ∈ peers) := by
  have h := whitelistKept_run run
  exact ⟨h.table,fun k hk => h.shown _ hk k rfl,fun c hc => h.shown _ hc _ rfl,
    fun k hk => h.shown _ hk k rfl⟩

/-- After `DisconnectFromPeer` for an unknown key the core can have that key dialed. -/
theorem unknown_peer_is_dialed : ∃ (m : Manager Nat (List UInt8)) (tr : List _),
    Run system anyStep (start 1 ⟨[2],by decide⟩ 8192) m tr ∧
      0 ∈ m.iroh.stateTable ∧ .dialSpawned 0 ∈ tr := by
  obtain ⟨m,tr,run,h⟩ := @exec_reaches _ _ _ (system (K := Nat) (B := List UInt8)) anyStep _ _
    (start 1 ⟨[2],by decide⟩ 8192)
    [.effect,.recvCore (.disconnectFromPeer 0),.effect,.recvCore (.connectToPeer 0),.effect]
    (fun r => decide (0 ∈ r.1.iroh.stateTable ∧ .dialSpawned 0 ∈ r.2)) (by decide)
  exact ⟨m,tr,run,of_decide_eq_true h⟩

/-- A whitelisted key that is disconnected and connected again is dialed again. -/
theorem whitelist_kept_redial : ∃ (m : Manager Nat (List UInt8)) (tr : List _),
    Run system Listed (start 3 ⟨[2],by decide⟩ 8192) m tr ∧
      .dialSpawned 2 ∈ tr ∧ ∀ k, k ∈ m.iroh.stateTable ↔ k ∈ (⟨[2],by decide⟩ : KeySet Nat) := by
  obtain ⟨m,tr,run,h⟩ := @exec_reaches _ _ _ (system (K := Nat) (B := List UInt8)) Listed _ _
    (start 3 ⟨[2],by decide⟩ 8192)
    [.effect,.recvCore (.disconnectFromPeer 2),.effect,.effect,.recvCore (.connectToPeer 2),.effect]
    (fun r => decide (.dialSpawned 2 ∈ r.2)) (by decide)
  exact ⟨m,tr,run,of_decide_eq_true h,(whitelist_kept run).1⟩

end Manager
end MeshNetwork
