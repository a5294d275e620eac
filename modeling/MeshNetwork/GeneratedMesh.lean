import MeshNetwork.DeviceDelivery
import MeshNetwork.FullMesh
import MeshNetwork.PeerEntries

set_option autoImplicit false

namespace MeshNetwork.ConfigFile
open Runs

section Mesh
variable {SK K TE KE : Type} (C : Crates SK K TE KE) (keys : Nat → SK)

def meshKey (i : Nat) : K := C.publicKey (keys i)

/-- Each node runs `main` with its file, the map of its peers in some iteration order. -/
structure Started (n : Nat) (d : Disk) (honest : K → Prop) (ipv4Addr : K → Ipv4Addr)
    (routeTable : K → RouteTable K) : Prop where
  node : ∀ i, 1 ≤ i → i ≤ n → ∃ generated cfg d',
    fromFile C generated (configPath i) d.healthy = (.ok cfg,d') ∧
      honest (C.publicKey cfg.secretKey) ∧ ipv4Addr (C.publicKey cfg.secretKey) = cfg.nodeIpv4 ∧
      (routeTable (C.publicKey cfg.secretKey)).toFinmap = cfg.peers

structure Between (src dst : Ipv4Addr) (data : List UInt8) : Prop where
  long : 20 ≤ data.length
  short : data.length ≤ 1100
  version : Ipv4Packet.byte (⟨0,data⟩ : Packet) 0 >>> 4 = 4
  total : (Ipv4Packet.header (⟨0,data⟩ : Packet)).totalLength ≤ data.length
  ttl : Ipv4Packet.byte (⟨0,data⟩ : Packet) 8 ≠ 0
  src : (Ipv4Packet.header (⟨0,data⟩ : Packet)).srcIp = src
  dest : (Ipv4Packet.header (⟨0,data⟩ : Packet)).destIp = dst

theorem Between.accepted [DecidableEq K] {src dst : Ipv4Addr} {data : List UInt8}
    (h : Between src dst data) {routes : RouteTable K} {k : K} (route : routes.lookup dst = some k) :
    (VpnCore.new src routes 1100).acceptedFor (⟨0,data⟩ : Packet) = some k := by
  have hnew := VpnCore.new_invariant (B := Packet) src routes 1100
  refine VpnCore.acceptedFor_eq_some.mpr ⟨⟨h.long,h.version,?_,h.total,h.ttl,?_,?_⟩,?_⟩
  · rw [hnew.size]
    exact h.short
  · rw [hnew.addr,h.src]
  · rw [hnew.routes,h.dest,route]
    simp
  · rw [hnew.routes,h.dest,route]

variable {honest : K → Prop} {ipv4Addr : K → Ipv4Addr} {routeTable : K → RouteTable K}

theorem Started.knows (laws : C.Lawful) {tmpExists : Bool} {n : Nat} {d d' : Disk}
    (gen : genConfigs C keys tmpExists n d = (.ok (),d')) (h2 : 2 ≤ n) (hn : n ≤ 255)
    (started : Started C n d' honest ipv4Addr routeTable) {i : Nat} (h1 : 1 ≤ i) (hi : i ≤ n) :
    honest (meshKey C keys i) ∧ ipv4Addr (meshKey C keys i) = nodeAddress i ∧
      ∀ j, 1 ≤ j → j ≤ n → j ≠ i →
        (routeTable (meshKey C keys i)).lookup (nodeAddress j) = some (meshKey C keys j) := by
  obtain ⟨generated,cfg,d'',hload,hhonest,haddr,hroutes⟩ := started.node i h1 hi
  obtain ⟨cfg',d₁,hload',loads⟩ := generated_loads C keys laws gen h2 hn h1 hi generated
  rw [hload] at hload'
  simp only [Prod.mk.injEq,Except.ok.injEq] at hload'
  obtain ⟨rfl,-⟩ := hload'
  rw [loads.secretKey] at hhonest haddr hroutes
  refine ⟨hhonest,haddr.trans loads.nodeIpv4,fun j hj hj' hne => ?_⟩
  rw [meshKey,lookup_of_toFinmap hroutes,loads.peers]
  exact ⟨j,hj,hj',hne,rfl,rfl⟩

/-- Whatever happens in the network, a packet can get from each node to each other, as long as
the devices of the two have not failed for good. -/
theorem generated_mesh_delivers [LinearOrder K] (laws : C.Lawful) {tmpExists : Bool} {n : Nat}
    {d d' : Disk} (gen : genConfigs C keys tmpExists n d = (.ok (),d')) (h2 : 2 ≤ n) (hn : n ≤ 255)
    (distinct : ∀ i j, 1 ≤ i → i ≤ n → 1 ≤ j → j ≤ n → meshKey C keys i = meshKey C keys j → i = j)
    (started : Started C n d' honest ipv4Addr routeTable) {s : K → Process K}
    {tr : List (K × ProcessObs K)} (run : NetRun (deviceNet honest)
      (fun k => Process.main k (ipv4Addr k) (routeTable k)) s tr) {i j : Nat} (hi : 1 ≤ i)
    (hi' : i ≤ n) (hj : 1 ≤ j) (hj' : j ≤ n) (hne : i ≠ j)
    (sound : ∀ k o, (k = meshKey C keys i ∨ k = meshKey C keys j) → (k,o) ∈ tr → o.fatal = false)
    {data : List UInt8} (between : Between (nodeAddress i) (nodeAddress j) data) :
    ∃ s' u p e e' m, DeviceOnward honest (meshKey C keys i) (meshKey C keys j) s tr s' (tr ++ u) ∧
      p.data = data ∧ (meshKey C keys i,.read e (.ok p)) ∈ u ∧
      (meshKey C keys j,.tun (.written e' p (.ok m))) ∈ u := by
  obtain ⟨honestI,addrI,routesI⟩ := started.knows C keys laws gen h2 hn hi hi'
  obtain ⟨honestJ,addrJ,routesJ⟩ := started.knows C keys laws gen h2 hn hj hj'
  have hkeys : meshKey C keys i ≠ meshKey C keys j := fun h => hne (distinct i j hi hi' hj hj' h)
  have route := routesI j hj hj' (Ne.symm hne)
  have back := routesJ i hi hi' hne
  obtain ⟨s₁,u₁,on₁,readyI,readyJ⟩ := both_ready run honestI honestJ hkeys
    (fun o => sound _ o (.inl rfl)) fun o => sound _ o (.inr rfl)
  obtain ⟨s₂,u₂,p,e,e',m,on₂,hdata,hread,hwritten⟩ := ready_delivers (run.along on₁.all) honestI
    honestJ hkeys (by rw [addrJ]; exact route) (by rw [addrI]; exact back) readyI readyJ
    (by rw [addrI]; exact between.accepted route) (by rw [addrJ]; exact between.dest)
  have on : DeviceOnward honest (meshKey C keys i) (meshKey C keys j) s tr s₂ _ := on₁.trans on₂
  rw [List.append_assoc] at on
  exact ⟨s₂,_,p,e,e',m,on,hdata,List.mem_append_right _ hread,List.mem_append_right _ hwritten⟩

end Mesh

instance linearOrderKey : LinearOrder (Vector UInt8 32) :=
  LinearOrder.lift' (fun k => k.toList.map UInt8.toNat) fun _ _ h =>
    Vector.toList_inj.mp (List.map_injective_iff.mpr (fun _ _ => UInt8.toNat_inj.mp) h)

def Reached {K : Type} [LinearOrder K] (honest : K → Prop) (ipv4Addr : K → Ipv4Addr)
    (routeTable : K → RouteTable K) (s : K → Process K) (tr : List (K × ProcessObs K)) : Prop :=
  NetRun (deviceNet honest) (fun k => Process.main k (ipv4Addr k) (routeTable k)) s tr

/-- The first device of a process is created, and a read of it finds the connection reset. -/
theorem reset_run {K : Type} [LinearOrder K] {honest : K → Prop} (ipv4Addr : K → Ipv4Addr)
    (routeTable : K → RouteTable K) {k : K} (hk : honest k) :
    ∃ s tr, Reached honest ipv4Addr routeTable s tr ∧ (s k).tun.readers = [] ∧
      ∀ x ∈ tr, x.2.fatal = false := by
  let p := Process.main k (ipv4Addr k) (routeTable k)
  let created := p.next (.tun .create)
  let reads : ProcessAct K := .tun (.read ⟨1,false⟩ (.error .connectionReset))
  have first : Run Process.system anyStep p created [.tun (.created 1)] :=
    Run.single (S := Process.system) (.tun .create) trivial ⟨rfl,rfl,rfl,trivial⟩
  have reset : created.enabled reads :=
    ⟨rfl,rfl,⟨List.mem_cons_self,by simp [Except.toOption]⟩,trivial⟩
  have second : Run Process.system anyStep created (created.next reads)
      [.read 1 (.error .connectionReset),.tun (.readerEnds 1 .reconnectRequired)] :=
    Run.single (S := Process.system) reads trivial reset
  have start : DeviceOnward honest k k (fun k => Process.main k (ipv4Addr k) (routeTable k)) []
    (fun k => Process.main k (ipv4Addr k) (routeTable k)) [] := NetPath.nil
  have on := start.unseen (.inl rfl) hk (first.trans second) rfl
  refine ⟨_,_,NetRun.nil.along on.all,?_,?_⟩
  · rw [Function.update_self]
    rfl
  · simp [ProcessObs.fatal,classifyTunError]

/-- The first node of a small mesh has lost its device. -/
theorem generated_mesh_delivers_pair :
    let ping : List UInt8 := [0x45,0,0,20,0,0,0,0,64,0,0,0,10,67,1,1,10,67,1,2]
    let first := meshKey lineCrates plainKeys 1
    let second := meshKey lineCrates plainKeys 2
    ∃ d' honest ipv4Addr routeTable,
      genConfigs lineCrates plainKeys false 2 emptyDisk = (.ok (),d') ∧
      Started lineCrates 2 d' honest ipv4Addr routeTable ∧
      ∃ s tr, Reached honest ipv4Addr routeTable s tr ∧
        (s first).tun.readers = [] ∧ ∃ s' u p e e' m,
          DeviceOnward honest first second s tr s' (tr ++ u) ∧ p.data = ping ∧
          (first,.read e (.ok p)) ∈ u ∧ (second,.tun (.written e' p (.ok m))) ∈ u := by
  let first := meshKey lineCrates plainKeys 1
  let second := meshKey lineCrates plainKeys 2
  obtain ⟨u,d',gen,-⟩ := genConfigs_finishes lineCrates plainKeys false 2 emptyDisk fun _ => rfl
  have loads : ∀ i, 1 ≤ i → i ≤ 2 → ∃ cfg d'' routes,
      fromFile lineCrates (plainKeys 0) (configPath i) d'.healthy = (.ok cfg,d'') ∧
        lineCrates.publicKey cfg.secretKey = meshKey lineCrates plainKeys i ∧
        cfg.nodeIpv4 = nodeAddress i ∧ AList.toFinmap routes = cfg.peers := by
    intro i h1 h2
    obtain ⟨cfg,d'',hload,hcfg⟩ := generated_loads lineCrates plainKeys lineCrates_lawful gen
      (by decide) (by decide) h1 h2 (plainKeys 0)
    obtain ⟨routes,hroutes⟩ := exists_routes cfg.peers
    exact ⟨cfg,d'',routes,hload,by rw [hcfg.secretKey]; rfl,hcfg.nodeIpv4,hroutes⟩
  obtain ⟨cfg₁,d₁,routes₁,load₁,key₁,addr₁,hroutes₁⟩ := loads 1 (by decide) (by decide)
  obtain ⟨cfg₂,d₂,routes₂,load₂,key₂,addr₂,hroutes₂⟩ := loads 2 (by decide) (by decide)
  have hne : second ≠ first := fun h => absurd
    (plainKeys_injective (i := 2) (j := 1) (by decide) (by decide) (by decide) (by decide) h)
    (by decide)
  have started : Started lineCrates 2 d' (fun _ => True)
      (fun k => if k = first then nodeAddress 1 else nodeAddress 2)
      (fun k => if k = first then routes₁ else routes₂) := by
    refine ⟨fun i h1 h2 => ?_⟩
    obtain rfl | rfl : i = 1 ∨ i = 2 := by omega
    · refine ⟨_,cfg₁,d₁,load₁,trivial,?_,?_⟩ <;> rw [key₁]
      · exact (if_pos rfl).trans addr₁.symm
      · exact (congrArg AList.toFinmap (if_pos rfl)).trans hroutes₁
    · refine ⟨_,cfg₂,d₂,load₂,trivial,?_,?_⟩ <;> rw [key₂]
      · exact (if_neg hne).trans addr₂.symm
      · exact (congrArg AList.toFinmap (if_neg hne)).trans hroutes₂
  obtain ⟨s,tr,run,lost,sound⟩ := @reset_run _ _ (fun _ => True)
    (fun k => if k = first then nodeAddress 1 else nodeAddress 2)
    (fun k => if k = first then routes₁ else routes₂) first trivial
  exact ⟨d',_,_,_,gen,started,s,tr,run,lost,generated_mesh_delivers lineCrates plainKeys
    lineCrates_lawful gen (by decide) (by decide) (fun i j h1 hi h1' hj h =>
      plainKeys_injective h1 (by omega) h1' (by omega) h) started run (by decide)
    (by decide) (by decide) (by decide) (by decide) (fun _ _ _ h => sound _ h)
    ⟨by decide,by decide,by decide,by decide,by decide,by decide,by decide⟩⟩

end MeshNetwork.ConfigFile
