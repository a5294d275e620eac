import MeshNetwork.Resilience

set_option autoImplicit false

namespace MeshNetwork
open Runs

variable {K : Type} [LinearOrder K]

/-- All members are at rest, and any two that list each other are on the two ends of one
connection, which both cores have heard of. -/
structure Meshed (members : List K) (cfg : K → Config K) (s : K → Node K) : Prop where
  quiet : ∀ X ∈ members, (s X).Quiet
  joined : ∀ X ∈ members, ∀ Y ∈ members, X ≠ Y → Y ∈ (cfg X).peers → X ∈ (cfg Y).peers →
    ∃ c, Joined X Y (s X) (s Y) c
  heard : ∀ X ∈ members, ∀ Y ∈ members, X ≠ Y → Y ∈ (cfg X).peers → X ∈ (cfg Y).peers →
    (s X).core.isConnectOpen Y = some true

abbrev Together (honest : K → Prop) (members : List K) (s : K → Node K) (tr : List (K × NodeObs K))
    (s' : K → Node K) (tr' : List (K × NodeObs K)) : Prop :=
  NetPath ((vpnNet honest).among fun k a => k ∈ members ∧ a.isRead = false) s tr s' tr'

variable {honest : K → Prop} {cfg : K → Config K} {s : K → Node K} {tr : List (K × NodeObs K)}
variable {members : List K}

theorem Onward.together {X Y : K} {s' : K → Node K} {tr' : List (K × NodeObs K)}
    (h : Onward honest X Y s tr s' tr') (hX : X ∈ members) (hY : Y ∈ members) :
    Together honest members s tr s' tr' := by
  refine NetPath.widen (fun k a hk => ⟨?_,hk.2⟩) h
  rcases hk.1 with rfl | rfl
  · exact hX
  · exact hY

theorem all_rest (run : NetRun (vpnNet honest) (fun k => Node.start (cfg k)) s tr)
    (hh : ∀ X ∈ members, honest X) (room : ∀ X ∈ members, (cfg X).HasRoom) (todo : List K)
    (sub : todo ⊆ members) :
    ∃ s' u, Together honest members s tr s' (tr ++ u) ∧ ∀ X ∈ todo, (s' X).Quiet := by
  induction todo with
  | nil =>
    refine ⟨s,[],?_,by simp⟩
    rw [List.append_nil]
    exact .nil
  | cons X todo ih =>
    obtain ⟨s₁,u₁,on₁,quiet₁⟩ := ih fun Z hZ => sub (List.mem_cons_of_mem _ hZ)
    have hX : X ∈ members := sub List.mem_cons_self
    obtain ⟨t,os,own,ht⟩ := Node.can_rest (member_run (run.along on₁.all) X) (room X hX).manager
      (room X hX).coord
    have still : Onward honest X X s₁ (tr ++ u₁) s₁ (tr ++ u₁) := NetPath.nil
    obtain ⟨s₂,on₂,hs₂,same₂⟩ := still.alone (.inl rfl) (hh X hX) (own.mono fun _ _ h => h.free)
    have on := NetPath.trans on₁ (on₂.together hX hX)
    rw [List.append_assoc] at on
    refine ⟨s₂,_,on,fun Z hZ => ?_⟩
    by_cases hne : Z = X
    · rw [hne,hs₂]
      exact ht
    · rw [same₂ Z hne]
      exact quiet₁ Z ((List.mem_cons.mp hZ).resolve_left hne)

/-- Joining two of them leaves all other connections as they are. -/
theorem Joined.others {X Y : K} {s' : K → Node K} {tr' : List (K × NodeObs K)}
    (on : Onward honest X Y s tr s' tr') (keepsX : Node.KeepsOthers Y (s X) (s' X))
    (keepsY : Node.KeepsOthers X (s Y) (s' Y)) {A B : K} (hXY : ¬ (A = X ∧ B = Y))
    (hYX : ¬ (A = Y ∧ B = X)) : (s' A).manager.iroh.stateTable.lookup B =
      (s A).manager.iroh.stateTable.lookup B := by
  by_cases hX : A = X
  · subst hX
    exact keepsX B fun hB => hXY ⟨rfl,hB⟩
  · by_cases hY : A = Y
    · subst hY
      exact keepsY B fun hB => hYX ⟨rfl,hB⟩
    · rw [NetPath.still on fun l hl => hl.1.elim hX hY]

structure Listed (members : List K) (cfg : K → Config K) (X Y : K) : Prop where
  near : X ∈ members
  far : Y ∈ members
  differ : X ≠ Y
  lists : Y ∈ (cfg X).peers
  back : X ∈ (cfg Y).peers

theorem all_meet (run : NetRun (vpnNet honest) (fun k => Node.start (cfg k)) s tr)
    (hh : ∀ X ∈ members, honest X) (ids : ∀ X ∈ members, (cfg X).id = X)
    (room : ∀ X ∈ members, (cfg X).HasRoom) (quiet : ∀ X ∈ members, (s X).Quiet)
    (todo : List (K × K)) (listed : ∀ p ∈ todo, Listed members cfg p.1 p.2) :
    ∃ s' u, Together honest members s tr s' (tr ++ u) ∧ (∀ X ∈ members, (s' X).Quiet) ∧
      ∀ p ∈ todo, ∃ c, Joined p.1 p.2 (s' p.1) (s' p.2) c := by
  induction todo with
  | nil =>
    refine ⟨s,[],?_,quiet,by simp⟩
    rw [List.append_nil]
    exact .nil
  | cons p todo ih =>
    obtain ⟨X,Y⟩ := p
    obtain ⟨s₁,u₁,on₁,quiet₁,joined₁⟩ := ih fun q hq => listed q (List.mem_cons_of_mem _ hq)
    obtain ⟨hX,hY,hne,lists,back⟩ := listed (X,Y) List.mem_cons_self
    have run₁ := run.along on₁.all
    obtain ⟨s₂,u₂,c,on₂,hj,keepsX,keepsY⟩ := meet_at_rest run₁ (hh X hX) (hh Y hY) hne (ids X hX)
      (ids Y hY) lists back (room X hX) (room Y hY) (quiet₁ X hX) (quiet₁ Y hY)
    have quiet₂ : ∀ Z ∈ members, (s₂ Z).Quiet := by
      intro Z hZ
      by_cases hZX : Z = X
      · rw [hZX]
        exact hj.quiet
      · by_cases hZY : Z = Y
        · rw [hZY]
          exact hj.quiet'
        · rw [NetPath.still on₂ fun l hl => hl.1.elim hZX hZY]
          exact quiet₁ Z hZ
    have on := NetPath.trans on₁ (on₂.together hX hY)
    rw [List.append_assoc] at on
    refine ⟨s₂,_,on,quiet₂,fun q hq => ?_⟩
    obtain ⟨A,B⟩ := q
    by_cases hXY : A = X ∧ B = Y
    · obtain ⟨rfl,rfl⟩ := hXY
      exact ⟨c,hj⟩
    · by_cases hYX : A = Y ∧ B = X
      · obtain ⟨rfl,rfl⟩ := hYX
        obtain ⟨t,hl⟩ := hj.near
        exact ⟨_,hj.symm ((Node.dialsBelow (member_run (run₁.along on₂.path) _)).wired.named _ t c hl)⟩
      · have hold : (A,B) ∈ todo := by
          rcases List.mem_cons.mp hq with heq | hmem
          · simp only [Prod.mk.injEq] at heq
            exact absurd heq hXY
          · exact hmem
        obtain ⟨c',hj'⟩ := joined₁ _ hold
        obtain ⟨hA,hB,-,-,-⟩ := listed _ (List.mem_cons_of_mem _ hold)
        refine ⟨c',quiet₂ A hA,quiet₂ B hB,?_,?_⟩
        · rw [Joined.others on₂ keepsX keepsY hXY hYX]
          exact hj'.near
        · rw [Joined.others on₂ keepsX keepsY (fun h => hYX ⟨h.2,h.1⟩) fun h => hXY ⟨h.2,h.1⟩]
          exact hj'.far

/-- Whatever has happened in the network, honest nodes can go on so that any two of them that list
each other are connected, all at the same time. -/
theorem mesh_reconnects (run : NetRun (vpnNet honest) (fun k => Node.start (cfg k)) s tr)
    (members : List K) (hh : ∀ X ∈ members, honest X) (ids : ∀ X ∈ members, (cfg X).id = X)
    (room : ∀ X ∈ members, (cfg X).HasRoom) :
    ∃ s' u, Together honest members s tr s' (tr ++ u) ∧ Meshed members cfg s' := by
  obtain ⟨s₁,u₁,on₁,quiet₁⟩ := all_rest run hh room members (List.Subset.refl _)
  have run₁ := run.along on₁.all
  classical
  let pairs := (members.product members).filter fun p => decide (Listed members cfg p.1 p.2)
  obtain ⟨s₂,u₂,on₂,quiet₂,joined₂⟩ := all_meet run₁ hh ids room quiet₁ pairs
    fun p hp => of_decide_eq_true (List.mem_filter.mp hp).2
  have on := NetPath.trans on₁ on₂
  rw [List.append_assoc] at on
  have joined : ∀ X ∈ members, ∀ Y ∈ members, X ≠ Y → Y ∈ (cfg X).peers → X ∈ (cfg Y).peers →
      ∃ c, Joined X Y (s₂ X) (s₂ Y) c := fun X hX Y hY hne lists back =>
    joined₂ (X,Y) (List.mem_filter.mpr ⟨List.mem_product.mpr ⟨hX,hY⟩,
      decide_eq_true ⟨hX,hY,hne,lists,back⟩⟩)
  refine ⟨s₂,_,on,quiet₂,joined,fun X hX Y hY hne lists back => ?_⟩
  obtain ⟨c,hj⟩ := joined X hX Y hY hne lists back
  obtain ⟨t,hl⟩ := hj.near
  rw [hj.quiet.core_open (member_run (run.along on.all) X) lists,Iroh.isConnected_of_lookup hl]

/-- Node 2 believes to be connected to node 1, which has yet to hear of it, and node 3 has not been
started up: all three can still be connected to each other. -/
theorem mesh_reconnects_three :
    let routes : Nat → RouteTable Nat := fun k => [1,2,3].foldr (fun i t =>
      if i = k then t else AList.insert ⟨10,67,1,UInt8.ofNat i⟩ i t) ∅
    let cfg : Nat → Config Nat := fun k => .main k ⟨10,67,1,UInt8.ofNat k⟩ (routes k)
    ∃ (s : Nat → Node Nat) (tr : List (Nat × NodeObs Nat)),
      NetRun (vpnNet fun k => k ∈ [1,2,3]) (fun k => Node.start (cfg k)) s tr ∧
      (s 2).manager.iroh.isConnected 1 = true ∧ (s 1).manager.iroh.isConnected 2 = false ∧
      ∃ s' u, Together (fun k => k ∈ [1,2,3]) [1,2,3] s tr s' (tr ++ u) ∧
        ∀ X ∈ [1,2,3], ∀ Y ∈ [1,2,3], X ≠ Y → (s' X).core.isConnectOpen Y = some true := by
  intro routes cfg
  obtain ⟨s,tr,run,h⟩ := @netExec_reaches _ _ _ _ _ (vpnNet (K := Nat) fun k => k ∈ [1,2,3])
    _ _ _ _ (fun k => Node.start (cfg k))
    [(1,.manager .effect),(2,.manager .effect),(2,.manager .effect),
      (2,.manager (.attempt ⟨0,1,false,none⟩ 7)),
      (2,.manager (.dialed ⟨0,1,false,none⟩ 7)),
      (2,.manager (.reportDial ⟨0,1,false,some ⟨7,1,true⟩⟩)),(2,.manager .recvTask),
      (2,.manager .effect),(2,.manager .effect)]
    (fun r => decide ((r.1 2).manager.iroh.isConnected 1 = true ∧
      (r.1 1).manager.iroh.isConnected 2 = false)) (by decide)
  obtain ⟨h₂,h₁⟩ := of_decide_eq_true h
  have room : ∀ X ∈ [1,2,3], (cfg X).HasRoom := by
    simp only [List.forall_mem_cons]
    exact ⟨⟨by decide,by decide,by decide,by decide,by decide⟩,
      ⟨by decide,by decide,by decide,by decide,by decide⟩,
      ⟨by decide,by decide,by decide,by decide,by decide⟩,nofun⟩
  have full : ∀ X ∈ [1,2,3], ∀ Y ∈ [1,2,3], X ≠ Y → Y ∈ (cfg X).peers ∧ X ∈ (cfg Y).peers := by
    decide
  obtain ⟨s',u,on,hs'⟩ := mesh_reconnects run [1,2,3] (fun _ h => h) (fun _ _ => rfl) room
  exact ⟨s,tr,run,h₂,h₁,s',u,on,fun X hX Y hY hne =>
    hs'.heard X hX Y hY hne (full X hX Y hY hne).1 (full X hX Y hY hne).2⟩

end MeshNetwork
