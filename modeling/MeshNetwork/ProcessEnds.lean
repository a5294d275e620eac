import MeshNetwork.ProcessViews
import MeshNetwork.TunEnds

set_option autoImplicit false

namespace MeshNetwork
open Runs

theorem TunEvent.fatal_of_ends {event : TunEvent} (h : event.ends = some .fatalError) :
    event = .fatalError := by
  cases event <;> simp [ends] at h ⊢

namespace Tun
variable {P : Type} [Buf P]

theorem reader_fatal {t : Tun P} {l : TunAct P} (running : t.coordOpen = true) {d : Nat}
    (h : .readerEnds d .fatalError ∈ t.shows l) :
    ∃ r kind, l = .read r (.error kind) ∧ r.device = d ∧ classifyTunError kind = .fatalError := by
  cases l with
  | read r result =>
    simp only [shows,List.mem_map,Option.mem_toList,TunObs.readerEnds.injEq] at h
    obtain ⟨event,he,rfl,rfl⟩ := h
    cases result with
    | ok packet =>
      simp only [readEnds,running,if_true] at he
      split at he <;> simp at he
    | error kind => exact ⟨r,kind,rfl,rfl,TunEvent.fatal_of_ends he⟩
  | writerBack event | readerBack event | recv w =>
    simp only [shows] at h
    split at h <;> simp at h
  | written w packet result => cases result <;> simp [shows] at h
  | _ => simp [shows] at h

/-- A writer ends with a fatal error only when a write has failed with one, as long as the
coordinator is there. -/
theorem writer_fatal {t : Tun P} {l : TunAct P} (running : t.coordOpen = true) (hen : t.enabled l)
    {d : Nat} (h : .writerEnds d .fatalError ∈ t.shows l) :
    ∃ packet kind, .written d packet (.error kind) ∈ t.shows l ∧
      classifyTunError kind = .fatalError := by
  cases l with
  | recv w =>
    simp only [shows] at h
    split at h
    · simp at h
    · rename_i hnil
      rcases hen.2.2 with hne | hclosed
      · exact absurd hnil hne
      · simp [running] at hclosed
  | written w packet result =>
    cases result with
    | ok n => simp [shows] at h
    | error kind =>
      simp only [shows,List.mem_cons,reduceCtorEq,false_or,List.mem_map,Option.mem_toList,
        TunObs.writerEnds.injEq] at h
      obtain ⟨event,he,rfl,rfl⟩ := h
      exact ⟨packet,kind,List.mem_cons_self,TunEvent.fatal_of_ends he⟩
  | writerBack event | readerBack event =>
    simp only [shows] at h
    split at h <;> simp at h
  | _ => simp [shows] at h

omit [Buf P] in
theorem Supervised.dropped {t : Tun P} (h : t.Supervised) (rx : t.rxFromCoord = .dropped) :
    t.phase = .returned := by
  have writer : ∀ {waits : Prop}, WriterSide waits t → t.rxFromCoord ≠ .dropped := by
    intro waits side
    cases side with
    | running loop device pending hrx fresh => simp [hrx]
    | ended loop sent hrx own => simp [hrx]
  cases h with
  | creating phase readers writers hrx => simp [rx] at hrx
  | selecting phase reader w => exact absurd rx (writer w)
  | stoppingWriter phase own readers reader w => exact absurd rx (writer w)
  | stoppingReader phase own writers w hrx reader => simp [rx] at hrx
  | returned phase readers writers hrx => exact phase

end Tun

namespace Process
variable {K : Type} [LinearOrder K] {cfg : Config K} {p : Process K} {tr : List (ProcessObs K)}

structure Blamed (tr : List (ProcessObs K)) : Prop where
  reader : ∀ d, .tun (.readerEnds d .fatalError) ∈ tr →
    ∃ kind, classifyTunError kind = .fatalError ∧ .read d (.error kind) ∈ tr
  writer : ∀ d, .tun (.writerEnds d .fatalError) ∈ tr →
    ∃ kind packet, classifyTunError kind = .fatalError ∧
      .tun (.written d packet (.error kind)) ∈ tr

theorem Blamed.next (h : Blamed tr) (assembled : Assembled cfg p) {a : ProcessAct K}
    (hen : p.enabled a) : Blamed (tr ++ p.shows a) := by
  refine ⟨fun d hd => ?_,fun d hd => ?_⟩
  · rcases List.mem_append.mp hd with hold | hnew
    · obtain ⟨kind,hfatal,hread⟩ := h.reader d hold
      exact ⟨kind,hfatal,List.mem_append_left _ hread⟩
    · rcases tun_shown hnew with ⟨act,rfl,hshow⟩ | ⟨act,packet,-,hsent,-⟩
      · obtain ⟨r,kind,rfl,rfl,hfatal⟩ := Tun.reader_fatal assembled.running hshow
        exact ⟨kind,hfatal,List.mem_append_right _ (List.mem_append_left _ List.mem_cons_self)⟩
      · simp at hsent
  · rcases List.mem_append.mp hd with hold | hnew
    · obtain ⟨kind,packet,hfatal,hwritten⟩ := h.writer d hold
      exact ⟨kind,packet,hfatal,List.mem_append_left _ hwritten⟩
    · rcases tun_shown hnew with ⟨act,rfl,hshow⟩ | ⟨act,packet,-,hsent,-⟩
      · obtain ⟨packet,kind,hwritten,hfatal⟩ :=
          Tun.writer_fatal assembled.running hen.2.2.1 hshow
        exact ⟨kind,packet,hfatal,List.mem_append_right _
          (List.mem_append_right _ (List.mem_map_of_mem hwritten))⟩
      · simp at hsent

def EndedByTun (p : Process K) : Prop :=
  (p.ended = none ∧ p.tun.phase ≠ .returned) ∨ (p.ended = some .tun ∧ p.tun.phase = .returned)

variable {id : K} {ipv4Addr : Ipv4Addr} {routeTable : RouteTable K}

theorem not_panics (run : Run system anyStep (main id ipv4Addr routeTable) p tr) : ¬ p.panics := by
  obtain ⟨-,node,-⟩ := views run
  have kept := (Node.coreKept_run node).core
  have answers : ∀ event, p.node.coreAnswers event := fun event => by
    obtain ⟨core,actions,hp,-⟩ := kept.process event
    simp [Node.coreAnswers,hp]
  rintro ⟨-,⟨e,-,he⟩ | ⟨packet,-,hp⟩⟩
  · exact he (answers _)
  · exact hp (answers _)

theorem manager_serves (run : Run system anyStep (main id ipv4Addr routeTable) p tr) :
    ¬ p.enabled .managerFails := by
  rintro ⟨-,idle,q,hq,hfails⟩
  obtain ⟨-,node,-⟩ := views run
  have served := Manager.served_run (Node.manager_run node)
  obtain ⟨-,q',hq',hok⟩ := served.takes idle (by
    intro hnil
    rw [show p.manager.rxFromTasks = [] from hnil] at hq
    simp at hq)
  obtain rfl : q' = q := Option.mem_unique hq' hq
  have hok' : (p.manager.iroh.handleConnEvent (B := Packet) q'.event).isOk = true := hok
  rw [hfails] at hok'
  exact absurd hok' (by simp)

theorem tun_supervised (run : Run system anyStep (main id ipv4Addr routeTable) p tr) :
    p.tun.Supervised ∧ Tun.Logged p.tun (tr.filterMap tunObs) :=
  Tun.logged_run (views run).2.2

theorem tun_open (run : Run system anyStep (main id ipv4Addr routeTable) p tr)
    (phase : p.tun.phase ≠ .returned) : ¬ p.tunClosed := by
  rintro (⟨-,hrx⟩ | ⟨-,-,hreturned,-⟩)
  · exact phase ((tun_supervised run).1.dropped hrx)
  · exact phase hreturned

theorem endedByTun_run (run : Run system anyStep (main id ipv4Addr routeTable) p tr) :
    p.EndedByTun := by
  induction run with
  | nil => exact .inl ⟨rfl,by simp [main,Tun.new]⟩
  | @snoc p tr a run _ hen ih =>
    have going : p.ended = none → p.tun.phase ≠ .returned := fun hnone => by
      rcases ih with ⟨-,hphase⟩ | ⟨hended,-⟩
      · exact hphase
      · simp [hnone] at hended
    cases a with
    | tun act =>
      by_cases hret : (p.tun.next act).phase = .returned
      · exact .inr ⟨by simp [system,next,hret],hret⟩
      · exact .inl ⟨by simp [system,next,hret],hret⟩
    | node act => exact .inl ⟨hen.1,going hen.1⟩
    | coordPanics => exact absurd hen.2 (not_panics run)
    | coordTunClosed => exact absurd hen.2 (tun_open run (going hen.1))
    | managerFails => exact absurd hen (manager_serves run)

theorem blamed_run (run : Run system anyStep (main id ipv4Addr routeTable) p tr) : Blamed tr := by
  induction run with
  | nil => exact ⟨by simp,by simp⟩
  | snoc a run _ hen ih => exact ih.next (views run).1 hen

/-- The device of an iteration has failed for good, on the side that was noticed first. -/
def DeviceFailed (it : Iteration) (tr : List (ProcessObs K)) : Prop :=
  ∃ kind, classifyTunError kind = .fatalError ∧
    match it.first with
    | .reader => .read it.device (.error kind) ∈ tr
    | .writer => ∃ packet, .tun (.written it.device packet (.error kind)) ∈ tr

structure EndsWell (p : Process K) (tr : List (ProcessObs K)) : Prop where
  byTun : p.ended = none ∨ p.ended = some .tun
  returned : p.ended = some .tun ↔ p.tun.phase = .returned
  failed : p.ended = some .tun → ∃ it, (iterations (tr.filterMap tunObs)).getLast? = some it ∧
    it.noticed = .fatalError ∧ DeviceFailed it tr

/-- A process goes on until its TUN has returned, and that it does only after a read or a write
of the device has failed with an error that is classified as fatal. -/
theorem ends_with_its_device (run : Run system anyStep (main id ipv4Addr routeTable) p tr) :
    EndsWell p tr := by
  have hended := endedByTun_run run
  have returned : p.ended = some .tun ↔ p.tun.phase = .returned := by
    rcases hended with ⟨hnone,hphase⟩ | ⟨htun,hphase⟩
    · simp [hnone,hphase]
    · simp [htun,hphase]
  refine ⟨hended.imp And.left And.left,returned,fun h => ?_⟩
  obtain ⟨-,logged⟩ := tun_supervised run
  obtain ⟨it,hlast,hstop⟩ := Tun.last_leaves (views run).2.2 (returned.mp h)
  have hit := List.mem_of_getLast? hlast
  have hfatal := logged.fatal hit hstop
  have blamed := blamed_run run
  have past := (logged.past it hit).2
  refine ⟨it,hlast,hfatal,?_⟩
  unfold DeviceFailed
  cases hf : it.first with
  | reader =>
    have hreader : .fatalError = it.reader := by simpa [Iteration.noticed,hf] using hfatal.symm
    have hends := (logged.readers.only logged.distinct hit past _).mpr hreader
    exact blamed.reader _ (mem_tunObs.mp hends)
  | writer =>
    have hwriter : .fatalError = it.writer := by simpa [Iteration.noticed,hf] using hfatal.symm
    have hends := (logged.writers.only logged.distinct hit past _).mpr hwriter
    obtain ⟨kind,packet,hkind,hwritten⟩ := blamed.writer _ (mem_tunObs.mp hends)
    exact ⟨kind,hkind,packet,hwritten⟩

/-- The first device breaks, another one is created, and that one may not be read. -/
theorem ends_with_its_device_denied : ∃ (p : Process Nat) (tr : List (ProcessObs Nat)),
    Run system anyStep (main 1 ⟨10,67,1,1⟩ (AList.insert ⟨10,67,1,2⟩ 2 ∅)) p tr ∧
      p.ended = some .tun ∧ p.tun.created = 2 ∧ EndsWell p tr := by
  let reader (device : Nat) (stop : Bool) : Reader := ⟨device,stop⟩
  obtain ⟨p,tr,run,h⟩ := @exec_reaches _ _ _ (system (K := Nat)) anyStep _ _
    (main 1 ⟨10,67,1,1⟩ (AList.insert ⟨10,67,1,2⟩ 2 ∅))
    [.tun .create,.tun (.read (reader 1 false) (.error .brokenPipe)),.tun .noticeReader,
      .node (.manager .effect),.tun (.stopWriter ⟨1,true,.receiving⟩),
      .tun (.writerBack .reconnectRequired),.tun .create,
      .tun (.read (reader 2 false) (.error .permissionDenied)),.tun .noticeReader,
      .tun (.stopWriter ⟨2,true,.receiving⟩),.tun (.writerBack .fatalError)]
    (fun r => decide (r.1.ended = some .tun ∧ r.1.tun.created = 2)) (by decide)
  obtain ⟨hended,hcreated⟩ := of_decide_eq_true h
  exact ⟨p,tr,run,hended,hcreated,ends_with_its_device run⟩

end Process
end MeshNetwork
