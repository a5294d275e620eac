import MeshNetwork.DeviceAuthenticity
import MeshNetwork.ProcessEnds
import MeshNetwork.Resilience
import MeshNetwork.TunRecovery

set_option autoImplicit false

namespace MeshNetwork
open Runs

def ProcessObs.fatal {K : Type} : ProcessObs K → Bool
  | .read _ (.error kind) => decide (classifyTunError kind = .fatalError)
  | .tun (.written _ _ (.error kind)) => decide (classifyTunError kind = .fatalError)
  | _ => false

namespace Process
variable {K : Type} [LinearOrder K] {cfg : Config K} {p : Process K}

structure Ready (p : Process K) : Prop where
  ended : p.ended = none
  tun : p.tun.Serving

def readyReader (p : Process K) : Reader := ⟨p.tun.created,false⟩

def readyWriter (p : Process K) (phase : WriterPhase Packet) : Writer Packet :=
  ⟨p.tun.created,false,phase⟩

theorem Ready.node (h : p.Ready) {act : NodeAct K} (own : act.own = true)
    (hen : p.node.enabled act) : p.enabled (.node act) ∧ (p.next (.node act)).Ready :=
  ⟨⟨h.ended,own,hen,fun _ _ => by simp [h.tun.rx]⟩,h.ended,h.tun.phase,h.tun.readers,h.tun.writers,
    h.tun.rx⟩

theorem Ready.read (h : p.Ready) (assembled : Assembled cfg p) (data : List UInt8)
    (some : 0 < data.length) (fits : data.length ≤ 1 <<< 16) :
    p.enabled (.tun (.read p.readyReader (.ok ⟨p.reads,data⟩))) ∧
      (p.next (.tun (.read p.readyReader (.ok ⟨p.reads,data⟩)))).Ready ∧
      (p.next (.tun (.read p.readyReader (.ok ⟨p.reads,data⟩)))).node =
        p.node.next (.tunRead data) := by
  have hlen : len (⟨p.reads,data⟩ : Packet) ≠ 0 := Nat.ne_of_gt some
  have goesOn : p.tun.readEnds (.ok (⟨p.reads,data⟩ : Packet)) = none := by
    simp [Tun.readEnds,hlen,assembled.running]
  have hcap : p.cfg.fromTunCapacity = p.tun.capacity := by
    rw [assembled.sameCfg,assembled.paired,assembled.capacity]
  have hphase : (p.tun.next (.read p.readyReader (.ok ⟨p.reads,data⟩))).phase = .selecting := by
    simp only [Tun.next,goesOn]
    split <;> exact h.tun.phase
  refine ⟨⟨h.ended,rfl,⟨?_,?_⟩,rfl⟩,⟨?_,?_⟩,?_⟩
  · rw [h.tun.readers]
    exact List.mem_cons_self
  · intro packet hp
    simp only [Except.toOption,Option.mem_some_iff] at hp
    rw [← hp]
    exact fits
  · simp [next,hphase]
  · refine ⟨hphase,?_,?_,?_⟩ <;> simp only [next,Tun.next,goesOn] <;> split
    · exact h.tun.readers
    · exact h.tun.readers
    · exact h.tun.writers
    · exact h.tun.writers
    · exact h.tun.rx
    · exact h.tun.rx
  · simp only [next,Tun.next,goesOn,Process.node,Node.next,readsOf,hlen,if_false,hcap]
    split <;> rfl

theorem tun_step (ended : p.ended = none) (act : TunAct Packet) (own : act.own = true)
    (noRead : ∀ r result, act ≠ .read r result) (hen : p.tun.enabled act)
    (goesOn : (p.tun.next act).phase ≠ .returned) :
    p.enabled (.tun act) ∧ p.next (.tun act) = { p with tun := p.tun.next act } ∧
      p.shows (.tun act) = (p.tun.shows act).map .tun := by
  cases act with
  | read r result => exact absurd rfl (noRead r result)
  | _ => exact ⟨⟨ended,own,hen,trivial⟩,by simp [next,readsOf,goesOn,ended],by simp [shows,readShows]⟩

theorem Ready.write (h : p.Ready) {q : Packet} {rest : List Packet}
    (queue : p.tun.fromCoord = q :: rest) :
    p.enabled (.tun (.recv (p.readyWriter .receiving))) ∧
      ∃ p', Run system anyStep (p.next (.tun (.recv (p.readyWriter .receiving)))) p'
        [.tun (.passed p.tun.created q),.tun (.written p.tun.created q (.ok (len q)))] ∧
      p'.Ready ∧ p'.node = { p.node with toTun := rest } := by
  have hset : ∀ (t : Tun Packet) (w : Writer Packet) (phase : WriterPhase Packet),
      t.writers = [w] → t.setWriter w phase = { t with writers := [{ w with phase := phase }] } := by
    intro t w phase loop
    simp [Tun.setWriter,loop]
  let w := p.readyWriter
  let t₁ : Tun Packet := { p.tun with fromCoord := rest, writers := [w (.holding q)] }
  let t₂ : Tun Packet := { t₁ with writers := [w (.writing q)] }
  let t₃ : Tun Packet := { t₁ with writers := [w .receiving] }
  have loop : p.tun.writers = [w .receiving] := h.tun.writers
  have h₁ : p.tun.next (.recv (w .receiving)) = t₁ := by
    simp only [Tun.next,queue]
    exact hset { p.tun with fromCoord := rest } (w .receiving) (.holding q) loop
  have h₂ : t₁.next (.write (w (.holding q)) q) = t₂ := hset t₁ _ _ rfl
  have h₃ : t₂.next (.written (w (.writing q)) q (.ok (len q))) = t₃ := hset t₂ _ _ rfl
  have selecting : p.tun.phase ≠ .returned := by simp [h.tun.phase]
  obtain ⟨e₁,n₁,-⟩ := tun_step h.ended (.recv (w .receiving)) rfl (by simp)
    ⟨by rw [loop]; exact List.mem_cons_self,rfl,.inl (by simp [queue])⟩ (by rw [h₁]; exact selecting)
  obtain ⟨e₂,n₂,o₂⟩ := tun_step (p := { p with tun := t₁ }) h.ended
    (.write (w (.holding q)) q) rfl (by simp) ⟨List.mem_cons_self,rfl⟩
    (by rw [h₂]; exact selecting)
  obtain ⟨e₃,n₃,o₃⟩ := tun_step (p := { p with tun := t₂ }) h.ended
    (.written (w (.writing q)) q (.ok (len q))) rfl (by simp) ⟨List.mem_cons_self,rfl⟩
    (by rw [h₃]; exact selecting)
  refine ⟨e₁,{ p with tun := t₃ },?_,⟨h.ended,h.tun.phase,h.tun.readers,rfl,h.tun.rx⟩,rfl⟩
  rw [n₁,h₁]
  rw [h₂] at n₂
  rw [h₃] at n₃
  have step : ∀ {p p' : Process K} {a : ProcessAct K} {os : List (ProcessObs K)}, p.enabled a →
      p.next a = p' → p.shows a = os → Run system anyStep p p' os := by
    intro p p' a os hen hnext hshows
    rw [← hnext,← hshows]
    exact Run.single (S := system) a trivial hen
  exact (step e₂ n₂ o₂).trans (step e₃ n₃ o₃)

/-- A process that serves its device answers the steps of its node that read nothing. -/
theorem answers (cfg : Config K) {ok : Node K → NodeAct K → Prop}
    (noRead : ∀ n a, ok n a → a.isRead = false) :
    Answers system Node.system anyStep ok (fun p => Assembled cfg p ∧ p.Ready) Process.node
      nodeObs where
  step p a h hok hen := by
    have own : a ≠ .tunWrite → ∃ l t os, anyStep p l ∧ p.enabled l ∧
        (p.shows l).filterMap nodeObs = p.node.shows a ∧ Run system anyStep (p.next l) t os ∧
        os.filterMap nodeObs = [] ∧ (Assembled cfg t ∧ t.Ready) ∧ t.node = p.node.next a := by
      intro hne
      have hown : a.own = true := by
        cases a with
        | tunRead data => simpa [NodeAct.isRead] using noRead _ _ hok
        | tunWrite => exact absurd rfl hne
        | _ => rfl
      obtain ⟨hen',ready⟩ := h.2.node hown hen
      exact ⟨.node a,_,[],trivial,hen',nodeObs_node _,.nil,rfl,⟨h.1.next hen',ready⟩,next_node hen⟩
    by_cases hw : a = .tunWrite
    · subst hw
      obtain ⟨q,rest,queue⟩ := List.exists_cons_of_ne_nil hen
      obtain ⟨hen',p',run,ready,hnode⟩ := h.2.write queue
      have assembled := ((node_view cfg).run (h.1.next hen') run).1
      refine ⟨.tun (.recv (p.readyWriter .receiving)),p',_,trivial,hen',?_,run,rfl,
        ⟨assembled,ready⟩,?_⟩
      · exact nodeObs_tun _ _
      · rw [hnode]
        simp only [Node.system,Node.next,queue,List.tail_cons]
    · exact own hw

theorem carries_out (ended : p.ended = none) {t : Tun Packet} {os : List (TunObs Packet)}
    (own : Run Tun.system Tun.Mends p.tun t os) :
    Run system anyStep p { p with tun := t } (os.map .tun) := by
  induction own with
  | nil => exact .nil
  | @snoc t os act _ hmends hen run =>
    obtain ⟨hen',hnext,hshows⟩ := tun_step (p := { p with tun := t }) ended act hmends.own
      hmends.noRead hen hmends.goesOn
    have hstep := Run.snoc (S := system) (ProcessAct.tun act) run trivial hen'
    simp only [system,hnext,hshows] at hstep
    rw [List.map_append]
    exact hstep

section Recovery
variable {tr : List (ProcessObs K)} {id : K} {ipv4Addr : Ipv4Addr} {routeTable : RouteTable K}

/-- A process whose devices have not failed for good can get to serve one. -/
theorem recovers (run : Run system anyStep (main id ipv4Addr routeTable) p tr)
    (sound : ∀ o ∈ tr, o.fatal = false) : ∃ p' os, Run system anyStep p p' os ∧
      os.filterMap nodeObs = [] ∧ p'.Ready := by
  have blamed := blamed_run run
  have mendable : p.tun.Mendable := by
    refine Tun.mendable_run (views run).2.2 (fun d hd => ?_) fun d hd => ?_
    · obtain ⟨kind,hkind,hread⟩ := blamed.reader d (mem_tunObs.mp hd)
      have hf := sound _ hread
      simp [ProcessObs.fatal,hkind] at hf
    · obtain ⟨kind,packet,hkind,hwritten⟩ := blamed.writer d (mem_tunObs.mp hd)
      have hf := sound _ hwritten
      simp [ProcessObs.fatal,hkind] at hf
  have ended : p.ended = none := by
    rcases endedByTun_run run with ⟨hnone,-⟩ | ⟨-,hphase⟩
    · exact hnone
    · exact absurd hphase mendable.goesOn
  obtain ⟨t,os,own,serving⟩ := Tun.mends mendable (tun_supervised run).1
  refine ⟨_,_,carries_out ended own,?_,⟨ended,serving⟩⟩
  rw [List.filterMap_map,List.filterMap_eq_nil_iff]
  exact fun o _ => rfl

end Recovery

end Process
section Network
variable {K : Type} [LinearOrder K]

abbrev deviceNet (honest : K → Prop) : Net K (Process K) (ProcessAct K) (ProcessObs K) :=
  onDevices honest (vpnNet honest).allows

variable {honest : K → Prop} {ipv4Addr : K → Ipv4Addr} {routeTable : K → RouteTable K}
variable {s : K → Process K} {tr : List (K × ProcessObs K)}

theorem deviceNet_answers (X Y : K) :
    NetAnswers (deviceNet honest)
      ((vpnNet honest).among fun k a => (k = X ∨ k = Y) ∧ a.isRead = false)
      (fun k => k = X ∨ k = Y)
      (fun k p => Process.Assembled (.main k (ipv4Addr k) (routeTable k)) p ∧ p.Ready)
      Process.node Process.nodeObs where
  member _ h := h
  moving _ _ _ h := h.2.1
  steps k := Process.answers _ fun _ _ h => h.2.2
  allows tr k o h := by
    cases o with
    | node x => exact h x rfl
    | _ => trivial

def DeviceOnward (honest : K → Prop) (X Y : K) (s : K → Process K) (tr : List (K × ProcessObs K))
    (s' : K → Process K) (tr' : List (K × ProcessObs K)) : Prop :=
  NetPath ((deviceNet honest).among fun k _ => k = X ∨ k = Y) s tr s' tr'

theorem DeviceOnward.unseen {X Y k : K} {s' : K → Process K} {tr' : List (K × ProcessObs K)}
    (h : DeviceOnward honest X Y s tr s' tr') (hk : k = X ∨ k = Y) (hh : honest k) {t : Process K}
    {os : List (ProcessObs K)} (own : Run Process.system anyStep (s' k) t os)
    (hos : os.filterMap Process.nodeObs = []) :
    DeviceOnward honest X Y s tr (Function.update s' k t) (tr' ++ os.map (Prod.mk k)) := by
  have quiet : ∀ u j (o : ProcessObs K), Process.nodeObs o = none →
      ((deviceNet honest).among fun k _ => k = X ∨ k = Y).allows u j o := by
    intro u j o hnone
    cases o with
    | node x => simp [Process.nodeObs] at hnone
    | _ => trivial
  exact NetPath.unseen quiet h hh (own.mono fun _ _ _ => ⟨trivial,hk⟩) hos

theorem Config.main_hasRoom (id : K) (ipv4Addr : Ipv4Addr) (routeTable : RouteTable K) :
    (Config.main id ipv4Addr routeTable).HasRoom := by
  constructor <;> simp [Config.main]

theorem both_ready (run : NetRun (deviceNet honest)
    (fun k => Process.main k (ipv4Addr k) (routeTable k)) s tr) {X Y : K} (hX : honest X)
    (hY : honest Y) (hne : X ≠ Y) (soundX : ∀ o, (X,o) ∈ tr → o.fatal = false)
    (soundY : ∀ o, (Y,o) ∈ tr → o.fatal = false) :
    ∃ s' u, DeviceOnward honest X Y s tr s' (tr ++ u) ∧ (s' X).Ready ∧ (s' Y).Ready := by
  obtain ⟨p,os,own,hos,ready⟩ := Process.recovers (run.project X) fun o ho =>
    soundX o (mem_view.mp ho)
  obtain ⟨q,os',own',hos',ready'⟩ := Process.recovers (run.project Y) fun o ho =>
    soundY o (mem_view.mp ho)
  have start : DeviceOnward honest X Y s tr s tr := NetPath.nil
  have first := start.unseen (.inl rfl) hX own hos
  have second := first.unseen (k := Y) (.inr rfl) hY
    (by
      rw [Function.update_of_ne (Ne.symm hne)]
      exact own') hos'
  rw [List.append_assoc] at second
  refine ⟨_,_,second,?_,?_⟩
  · rw [Function.update_of_ne hne,Function.update_self]
    exact ready
  · rw [Function.update_self]
    exact ready'

/-- Two processes that serve their devices can go on so that a packet which the one reads, for the
other, is written there. -/
theorem ready_delivers (run : NetRun (deviceNet honest)
    (fun k => Process.main k (ipv4Addr k) (routeTable k)) s tr) {X Y : K} (hX : honest X)
    (hY : honest Y) (hne : X ≠ Y) (route : (routeTable X).lookup (ipv4Addr Y) = some Y)
    (back : (routeTable Y).lookup (ipv4Addr X) = some X) (readyX : (s X).Ready)
    (readyY : (s Y).Ready) {data : List UInt8}
    (accepted : (VpnCore.new (ipv4Addr X) (routeTable X) 1100).acceptedFor (⟨0,data⟩ : Packet) =
      some Y) (dest : (Ipv4Packet.header (⟨0,data⟩ : Packet)).destIp = ipv4Addr Y) :
    ∃ s' u p d e n, DeviceOnward honest X Y s tr s' (tr ++ u) ∧ p.data = data ∧
      (X,.read d (.ok p)) ∈ u ∧ (Y,.tun (.written e p (.ok n))) ∈ u := by
  let cfg : K → Config K := fun k => .main k (ipv4Addr k) (routeTable k)
  have known : Mutual X Y (cfg X) (cfg Y) := ⟨rfl,rfl,route,back,Nat.le_refl _⟩
  have room : ∀ k, (cfg k).HasRoom := fun k => Config.main_hasRoom _ _ _
  have both : ∀ {Q : K → Prop}, Q X → Q Y → ∀ k, k = X ∨ k = Y → Q k := by
    rintro Q hQX hQY k (rfl | rfl)
    · exact hQX
    · exact hQY
  obtain ⟨held₁,nodes₁⟩ := onDevices_run run
  -- first they connect
  obtain ⟨n₂,v₂,c,met,joined⟩ := known.meet nodes₁ hX hY hne (room X) (room Y)
  obtain ⟨s₂,u₂,on₂,hstate₂,held₂,hseen₂⟩ := (deviceNet_answers X Y).path
    (both (Q := fun k => Process.Assembled (cfg k) (s k) ∧ (s k).Ready) ⟨held₁ X,readyX⟩
      ⟨held₁ Y,readyY⟩) met
  obtain rfl : (fun k => (s₂ k).node) = n₂ := funext hstate₂
  have nodes₂ := nodes₁.along met.path
  obtain ⟨haccepted,hchecked⟩ := known.passes nodes₂ accepted dest (s₂ X).reads
  -- the packet is read
  obtain ⟨ok,-⟩ := VpnCore.acceptedFor_eq_some.mp accepted
  have long : 20 ≤ data.length := ok.long
  have short : data.length ≤ 1100 := ok.size
  obtain ⟨assembledX,readyX₂⟩ := held₂ X (.inl rfl)
  obtain ⟨hen,ready₃,hnode₃⟩ := readyX₂.read assembledX data (by omega) (by omega)
  let p : Packet := ⟨(s₂ X).reads,data⟩
  let act : TunAct Packet := .read (s₂ X).readyReader (.ok p)
  let s₃ : K → Process K := Function.update s₂ X ((s₂ X).next (.tun act))
  let os₃ : List (ProcessObs K) := (s₂ X).shows (.tun act)
  have hos₃ : os₃.filterMap Process.nodeObs = [] := Process.nodeObs_tun _ _
  have met₂ : DeviceOnward honest X Y s tr s₂ (tr ++ u₂) := on₂
  have on₃ : DeviceOnward honest X Y s tr s₃ (tr ++ u₂ ++ os₃.map (Prod.mk X)) :=
    met₂.unseen (.inl rfl) hX (Run.single (S := Process.system) (ProcessAct.tun act) trivial hen) hos₃
  have hread : (X,.read (s₂ X).tun.created (.ok p)) ∈ os₃.map (Prod.mk X) :=
    List.mem_map_of_mem (List.mem_append_left _ List.mem_cons_self)
  have hstate₃ : (fun k => (s₃ k).node) =
      Function.update (fun k => (s₂ k).node) X ((s₂ X).node.next (.tunRead data)) := by
    rw [← hnode₃]
    exact funext fun k => Function.apply_update (fun _ => Process.node) s₂ X _ k
  have hseen₃ : seenBy Process.nodeObs (tr ++ u₂ ++ os₃.map (Prod.mk X)) =
      seenBy Process.nodeObs tr ++ v₂ := by
    rw [seenBy_append,hseen₂,seenBy_map,hos₃,List.map_nil,List.append_nil]
  -- the nodes pass it on
  obtain ⟨n₄,v₄,passed,-,htun⟩ := joined.carries nodes₂ hX hY hne (room X) (room Y)
    known.lists.1 haccepted hchecked
  rw [← hstate₃,← hseen₃] at passed
  obtain ⟨held₃,-⟩ := onDevices_run (run.along on₃.all)
  have atX : s₃ X = (s₂ X).next (.tun act) := Function.update_self X _ s₂
  have atY : s₃ Y = s₂ Y := Function.update_of_ne (Ne.symm hne) _ s₂
  obtain ⟨s₄,u₄,on₄,hstate₄,held₄,-⟩ := (deviceNet_answers X Y).path
    (both (Q := fun k => Process.Assembled (cfg k) (s₃ k) ∧ (s₃ k).Ready)
      ⟨held₃ X,by rw [atX]; exact ready₃⟩
      ⟨held₃ Y,by rw [atY]; exact (held₂ Y (.inr rfl)).2⟩) passed
  -- the writer has it
  have queue : (s₄ Y).tun.fromCoord = [p] := by
    rw [← hstate₄ Y] at htun
    exact htun
  obtain ⟨hen₅,q,own,-,-⟩ := (held₄ Y (.inr rfl)).2.write queue
  have takes : Run Process.system anyStep (s₄ Y) _ _ :=
    Run.single (S := Process.system) (ProcessAct.tun (.recv ((s₄ Y).readyWriter .receiving))) trivial
      hen₅
  have met₄ : DeviceOnward honest X Y s tr s₄ _ := on₃.trans on₄
  have on₅ := met₄.unseen (.inr rfl) hY (takes.trans own) (by
    rw [List.filterMap_append]
    exact List.append_eq_nil_iff.mpr ⟨Process.nodeObs_tun _ _,rfl⟩)
  simp only [List.append_assoc] at on₅
  refine ⟨_,_,p,(s₂ X).tun.created,(s₄ Y).tun.created,len p,on₅,rfl,?_,?_⟩
  · exact List.mem_append_right _ (List.mem_append_left _ hread)
  · refine List.mem_append_right _ (List.mem_append_right _
      (List.mem_append_right _ (List.mem_map_of_mem (List.mem_append_right _ ?_))))
    exact List.mem_cons_of_mem _ List.mem_cons_self

/-- As long as the devices of two processes have not failed for good, they can go on so that a
packet which the one reads from its device, for the other, is written to the device there. -/
theorem device_deliverable (run : NetRun (deviceNet honest)
    (fun k => Process.main k (ipv4Addr k) (routeTable k)) s tr) {X Y : K} (hX : honest X)
    (hY : honest Y) (hne : X ≠ Y) (route : (routeTable X).lookup (ipv4Addr Y) = some Y)
    (back : (routeTable Y).lookup (ipv4Addr X) = some X)
    (soundX : ∀ o, (X,o) ∈ tr → o.fatal = false) (soundY : ∀ o, (Y,o) ∈ tr → o.fatal = false)
    {data : List UInt8}
    (accepted : (VpnCore.new (ipv4Addr X) (routeTable X) 1100).acceptedFor (⟨0,data⟩ : Packet) =
      some Y) (dest : (Ipv4Packet.header (⟨0,data⟩ : Packet)).destIp = ipv4Addr Y) :
    ∃ s' u p d e n, DeviceOnward honest X Y s tr s' (tr ++ u) ∧ p.data = data ∧
      (X,.read d (.ok p)) ∈ u ∧ (Y,.tun (.written e p (.ok n))) ∈ u := by
  obtain ⟨s₁,u₁,on₁,readyX,readyY⟩ := both_ready run hX hY hne soundX soundY
  obtain ⟨s₂,u₂,p,d,e,n,on₂,hdata,hread,hwritten⟩ := ready_delivers (run.along on₁.all) hX hY hne
    route back readyX readyY accepted dest
  have on : DeviceOnward honest X Y s tr s₂ _ := on₁.trans on₂
  rw [List.append_assoc] at on
  exact ⟨s₂,_,p,d,e,n,on,hdata,List.mem_append_right _ hread,List.mem_append_right _ hwritten⟩

/-- The device of node 1 has broken, and the nodes have yet to connect. -/
theorem device_deliverable_reconnect :
    let ping : List UInt8 := [0x45,0,0,20,0,0,0,0,64,0,0,0,10,67,1,1,10,67,1,2]
    let ipv4Addr : Nat → Ipv4Addr := fun k => if k = 1 then ⟨10,67,1,1⟩ else ⟨10,67,1,2⟩
    let routeTable : Nat → RouteTable Nat := fun k =>
      if k = 1 then AList.insert ⟨10,67,1,2⟩ 2 ∅ else AList.insert ⟨10,67,1,1⟩ 1 ∅
    let honest : Nat → Prop := fun k => k = 1 ∨ k = 2
    ∃ (s : Nat → Process Nat) (tr : List (Nat × ProcessObs Nat)),
      NetRun (deviceNet honest) (fun k => Process.main k (ipv4Addr k) (routeTable k)) s tr ∧
      (s 1).tun.readers = [] ∧ (s 1).manager.iroh.isConnected 2 = false ∧
      ∃ s' u p d e n, DeviceOnward honest 1 2 s tr s' (tr ++ u) ∧ p.data = ping ∧
        (1,.read d (.ok p)) ∈ u ∧ (2,.tun (.written e p (.ok n))) ∈ u := by
  let ipv4Addr : Nat → Ipv4Addr := fun k => if k = 1 then ⟨10,67,1,1⟩ else ⟨10,67,1,2⟩
  let routeTable : Nat → RouteTable Nat := fun k =>
    if k = 1 then AList.insert ⟨10,67,1,2⟩ 2 ∅ else AList.insert ⟨10,67,1,1⟩ 1 ∅
  obtain ⟨s,tr,run,h⟩ := @netExec_reaches _ _ _ _ _
    (deviceNet (K := Nat) fun k => k = 1 ∨ k = 2) _ _ _ _
    (fun k => Process.main k (ipv4Addr k) (routeTable k))
    [(1,.tun .create),(2,.tun .create),(1,.tun (.read ⟨1,false⟩ (.error .connectionReset)))]
    (fun r => decide (((r.1 1).tun.readers = [] ∧ (r.1 1).manager.iroh.isConnected 2 = false) ∧
      ∀ x ∈ r.2, x.2.fatal = false)) (by decide)
  obtain ⟨⟨hbroken,hconn⟩,hsound⟩ := of_decide_eq_true h
  exact ⟨s,tr,run,hbroken,hconn,device_deliverable run (.inl rfl) (.inr rfl) (by decide)
    (by decide) (by decide) (fun o ho => hsound _ ho) (fun o ho => hsound _ ho) (by decide)
    (by decide)⟩

end Network
end MeshNetwork
