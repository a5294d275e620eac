import MeshNetwork.ConfigText

set_option autoImplicit false

namespace MeshNetwork.ConfigFile
open TomlLines

section Loaded
variable {SK K TE KE : Type} (C : Crates SK K TE KE) (keys : Nat → SK)

theorem mem_others {n i : Nat} {node : NodeEntry} :
    node ∈ others ((List.range' 1 n).map (nodeEntry C keys)) i ↔
      ∃ j, 1 ≤ j ∧ j ≤ n ∧ j ≠ i ∧ node = nodeEntry C keys j := by
  simp only [others,List.mem_filter,List.mem_map,List.mem_range'_1,decide_eq_true_eq]
  constructor
  · rintro ⟨⟨j,hj,rfl⟩,hne⟩
    exact ⟨j,hj.1,by omega,fun h => hne h.symm,rfl⟩
  · rintro ⟨j,h1,hn,hne,rfl⟩
    exact ⟨⟨j,⟨h1,by omega⟩,rfl⟩,fun h => hne h.symm⟩

theorem others_plain (laws : C.Lawful) (n i : Nat) :
    ∀ node ∈ others ((List.range' 1 n).map (nodeEntry C keys)) i, PlainEntry node := by
  intro node hnode
  obtain ⟨j,-,-,-,rfl⟩ := (mem_others C keys).mp hnode
  exact nodeEntry_plain C keys laws j

structure Loads (n : Nat) (addr : Nat → Ipv4Addr) (i : Nat) (cfg : Config SK K) : Prop where
  secretKey : cfg.secretKey = keys i
  nodeIpv4 : cfg.nodeIpv4 = addr i
  inSubnet : cfg.nodeIpv4.InSubnet
  peers : ∀ ip k, cfg.peers.lookup ip = some k ↔
    ∃ j, 1 ≤ j ∧ j ≤ n ∧ j ≠ i ∧ ip = addr j ∧ k = C.publicKey (keys j)

def FullMesh (n : Nat) (d : Disk) : Prop :=
  ∃ addr : Nat → Ipv4Addr,
    (∀ i j, 1 ≤ i → i ≤ n → 1 ≤ j → j ≤ n → addr i = addr j → i = j) ∧
      ∀ i, 1 ≤ i → i ≤ n → ∀ generated, ∃ cfg d',
        fromFile C generated (configPath i) d.healthy = (.ok cfg,d') ∧ Loads C keys n addr i cfg

theorem generated_valid (laws : C.Lawful) {n : Nat} (hn : n ≤ 255) {i : Nat} (hi : i ≤ n) :
    (decoded (nodeEntry C keys i)
      (others ((List.range' 1 n).map (nodeEntry C keys)) i)).Valid C := by
  refine decoded_valid C (fromStr_nodeEntry C keys (by omega))
    (Ipv4Addr.inSubnet_iff.mpr ⟨rfl,rfl⟩) fun node hnode => ?_
  obtain ⟨j,-,hj,-,rfl⟩ := (mem_others C keys).mp hnode
  refine ⟨nodeAddress j,C.publicKey (keys j),?_,laws.keyFromStr_keyToString _⟩
  exact fromStr_nodeEntry C keys (by omega)

theorem lastKey_decoded (laws : C.Lawful) {n : Nat} (hn : n ≤ 255) (i : Nat) {ip : Ipv4Addr} {k : K} :
    lastKey C (decoded (nodeEntry C keys i)
      (others ((List.range' 1 n).map (nodeEntry C keys)) i)).peers ip = some k ↔
      ∃ j, 1 ≤ j ∧ j ≤ n ∧ j ≠ i ∧ ip = nodeAddress j ∧ k = C.publicKey (keys j) := by
  have keyFor : ∀ j, j ≤ n → Peer.keyFor C ip ⟨(nodeEntry C keys j).pubKey,(nodeEntry C keys j).ip⟩ =
      if nodeAddress j = ip then some (C.publicKey (keys j)) else none := by
    intro j hj
    have hip := fromStr_nodeEntry C keys (show j ≤ 255 by omega)
    have hkey : C.keyFromStr (nodeEntry C keys j).pubKey = .ok (C.publicKey (keys j)) :=
      laws.keyFromStr_keyToString _
    simp [Peer.keyFor,hip,hkey,Except.toOption]
  have only : ∀ {k'}, lastKey C (decoded (nodeEntry C keys i)
      (others ((List.range' 1 n).map (nodeEntry C keys)) i)).peers ip = some k' →
      ∃ j, 1 ≤ j ∧ j ≤ n ∧ j ≠ i ∧ ip = nodeAddress j ∧ k' = C.publicKey (keys j) := by
    intro k' h
    obtain ⟨peer,hp,hkey⟩ := List.mem_filterMap.mp (List.mem_of_getLast? h)
    obtain ⟨node,hnode,rfl⟩ := List.mem_map.mp hp
    obtain ⟨j,h1,hj,hne,rfl⟩ := (mem_others C keys).mp hnode
    rw [keyFor j hj,Option.ite_none_right_eq_some,Option.some.injEq] at hkey
    exact ⟨j,h1,hj,hne,hkey.1.symm,hkey.2.symm⟩
  refine ⟨only,?_⟩
  rintro ⟨j,h1,hj,hne,rfl,rfl⟩
  have hmem : nodeEntry C keys j ∈ others ((List.range' 1 n).map (nodeEntry C keys)) i :=
    (mem_others C keys).mpr ⟨j,h1,hj,hne,rfl⟩
  obtain ⟨k',hk'⟩ : ∃ k', lastKey C (decoded (nodeEntry C keys i)
      (others ((List.range' 1 n).map (nodeEntry C keys)) i)).peers (nodeAddress j) = some k' := by
    refine Option.isSome_iff_exists.mp (List.getLast?_isSome.mpr (List.ne_nil_of_mem
      (a := C.publicKey (keys j)) (List.mem_filterMap.mpr ⟨_,List.mem_map_of_mem hmem,?_⟩)))
    rw [keyFor j hj,if_pos rfl]
  obtain ⟨j',-,hj',-,hip,rfl⟩ := only hk'
  rw [hk',nodeAddress_injective (by omega) (by omega) hip]

theorem generated_loads (laws : C.Lawful) {tmpExists : Bool} {n : Nat} {d d' : Disk}
    (gen : genConfigs C keys tmpExists n d = (.ok (),d')) (h2 : 2 ≤ n) (hn : n ≤ 255) {i : Nat}
    (h1 : 1 ≤ i) (hi : i ≤ n) (generated : SK) : ∃ cfg d'',
      fromFile C generated (configPath i) d'.healthy = (.ok cfg,d'') ∧
        Loads C keys n nodeAddress i cfg := by
  obtain ⟨hsecret,hconfig⟩ := genConfigs_ok C keys gen (List.mem_range'_1.mpr ⟨h1,by omega⟩)
  have hpeers : others ((List.range' 1 n).map (nodeEntry C keys)) i ≠ [] := by
    by_cases hone : i = 1
    · exact List.ne_nil_of_mem ((mem_others C keys).mpr ⟨2,by omega,h2,by omega,rfl⟩)
    · exact List.ne_nil_of_mem ((mem_others C keys).mpr ⟨1,by omega,by omega,by omega,rfl⟩)
  rw [configText_eq] at hconfig
  obtain ⟨cfg,d'',hload,hcfg⟩ := fromFile_configLines C laws (nodeEntry_plain C keys laws i)
    (others_plain C keys laws n i) hpeers (generated_valid C keys laws hn hi) (d := d'.healthy)
    (fun _ => rfl) hconfig hsecret generated
  obtain ⟨-,hlookup,hip,hsk⟩ := fromToml_ok C hcfg
  have hnode : cfg.nodeIpv4 = nodeAddress i := by
    rw [show (decoded (nodeEntry C keys i) _).nodeIpv4 = (nodeEntry C keys i).ip from rfl,
      fromStr_nodeEntry C keys (by omega),Except.ok.injEq] at hip
    exact hip.symm
  refine ⟨cfg,d'',hload,hsk,hnode,?_,fun ip k => ?_⟩
  · rw [hnode]
    exact Ipv4Addr.inSubnet_iff.mpr ⟨rfl,rfl⟩
  · rw [hlookup ip]
    exact lastKey_decoded C keys laws hn i

/-- The file of a node on its own is rejected: the list of peers is missing. -/
theorem single_rejected (laws : C.Lawful) {tmpExists : Bool} {d d' : Disk}
    (gen : genConfigs C keys tmpExists 1 d = (.ok (),d')) {generated : SK} {cfg : Config SK K}
    {d'' : Disk} : fromFile C generated (configPath 1) d'.healthy ≠ (.ok cfg,d'') := by
  intro h
  obtain ⟨-,hconfig⟩ := genConfigs_ok C keys gen (i := 1) (by decide)
  obtain ⟨data,toml,secretKey,hdata,hdecoded,-,-⟩ := fromFile_ok C h
  have hindex : (nodeEntry C keys 1).index = 1 := rfl
  rw [Disk.healthy_files,hconfig,configText_eq,hindex,Option.some.injEq] at hdata
  have hothers : others ((List.range' 1 1).map (nodeEntry C keys)) 1 = [] := rfl
  have hslice := fromSlice_configLines C laws (nodeEntry_plain C keys laws 1)
    (others_plain C keys laws 1 1)
  rw [if_pos hothers,hdata,hdecoded] at hslice
  simp [Except.toOption] at hslice

/-- The first file is rejected once there is a node whose number has no address. -/
theorem large_rejected (laws : C.Lawful) {tmpExists : Bool} {n : Nat} {d d' : Disk}
    (gen : genConfigs C keys tmpExists n d = (.ok (),d')) (hn : 256 ≤ n) {generated : SK}
    {cfg : Config SK K} {d'' : Disk} :
    fromFile C generated (configPath 1) d'.healthy ≠ (.ok cfg,d'') := by
  intro h
  obtain ⟨-,hconfig⟩ := genConfigs_ok C keys gen (i := 1)
    (List.mem_range'_1.mpr ⟨by omega,by omega⟩)
  obtain ⟨data,toml,secretKey,hdata,hdecoded,-,htoml⟩ := fromFile_ok C h
  have hindex : (nodeEntry C keys 1).index = 1 := rfl
  rw [Disk.healthy_files,hconfig,configText_eq,hindex,Option.some.injEq] at hdata
  have hmem : nodeEntry C keys 256 ∈ others ((List.range' 1 n).map (nodeEntry C keys)) 1 :=
    (mem_others C keys).mpr ⟨256,by omega,hn,by omega,rfl⟩
  have hslice := fromSlice_configLines C laws (nodeEntry_plain C keys laws 1)
    (others_plain C keys laws n 1)
  rw [if_neg (List.ne_nil_of_mem hmem),hdata,hdecoded,Except.toOption,Option.some.injEq] at hslice
  obtain ⟨hvalid,-⟩ := fromToml_ok C htoml
  obtain ⟨ip,k,hip,-⟩ := hvalid.peers ⟨(nodeEntry C keys 256).pubKey,(nodeEntry C keys 256).ip⟩
    (by rw [hslice]; exact List.mem_map_of_mem hmem)
  have haddr := (fromStr_nodeIp 256).trans (if_neg (by omega))
  rw [show (nodeEntry C keys 256).ip = "10.67.1." ++ toString 256 from rfl,haddr] at hip
  simp at hip

theorem fullMesh_bounds (laws : C.Lawful) {tmpExists : Bool} {n : Nat} (h1 : 1 ≤ n)
    {d d' : Disk} (gen : genConfigs C keys tmpExists n d = (.ok (),d'))
    (mesh : FullMesh C keys n d') : 2 ≤ n ∧ n ≤ 255 := by
  obtain ⟨addr,-,hall⟩ := mesh
  obtain ⟨cfg,d'',hload,-⟩ := hall 1 (by omega) h1 (keys 0)
  by_contra hn
  have hn' : n = 1 ∨ 256 ≤ n := by omega
  rcases hn' with rfl | hlarge
  · exact single_rejected C keys laws gen hload
  · exact large_rejected C keys laws gen hlarge hload

/-- The files of the generator make up a full mesh for 2 to 255 nodes. -/
theorem generated_configs_full_mesh (laws : C.Lawful) {tmpExists : Bool} {n : Nat} (h1 : 1 ≤ n)
    {d d' : Disk} (gen : genConfigs C keys tmpExists n d = (.ok (),d')) :
    FullMesh C keys n d' ↔ 2 ≤ n ∧ n ≤ 255 := by
  constructor
  · exact fullMesh_bounds C keys laws h1 gen
  · rintro ⟨h2,hn⟩
    refine ⟨nodeAddress,fun i j _ hi _ hj h => nodeAddress_injective (by omega) (by omega) h,?_⟩
    intro i hi1 hi generated
    exact generated_loads C keys laws gen h2 hn hi1 hi generated

end Loaded

def emptyDisk : Disk := ⟨fun _ => none,fun _ => none,0⟩

theorem plainKeys_injective {i j : Nat} (h1 : 1 ≤ i) (hi : i ≤ 256) (h1' : 1 ≤ j) (hj : j ≤ 256)
    (h : plainKeys i = plainKeys j) : i = j := by
  have h0 := congrArg (fun v => v[0].toNat) h
  simp only [plainKeys,Vector.getElem_replicate,UInt8.toNat_ofNat'] at h0
  omega

theorem generated_configs_full_mesh_pair :
    ∃ d', genConfigs lineCrates plainKeys false 2 emptyDisk = (.ok (),d') ∧
      FullMesh lineCrates plainKeys 2 d' := by
  obtain ⟨u,d',gen,-⟩ := genConfigs_finishes lineCrates plainKeys false 2 emptyDisk fun _ => rfl
  exact ⟨d',gen,(generated_configs_full_mesh lineCrates plainKeys lineCrates_lawful
    (by decide) gen).mpr (by decide)⟩

theorem no_mesh {n : Nat} (h1 : 1 ≤ n) (hn : ¬ (2 ≤ n ∧ n ≤ 255)) :
    ∃ d', genConfigs lineCrates plainKeys false n emptyDisk = (.ok (),d') ∧
      ¬ FullMesh lineCrates plainKeys n d' := by
  obtain ⟨u,d',gen,-⟩ := genConfigs_finishes lineCrates plainKeys false n emptyDisk fun _ => rfl
  exact ⟨d',gen,fun mesh => hn (fullMesh_bounds lineCrates plainKeys lineCrates_lawful h1 gen mesh)⟩

/-- With one node, and with 256 nodes of different keys, the generator finishes and there is
no mesh. -/
theorem generated_configs_no_mesh :
    (∃ d', genConfigs lineCrates plainKeys false 1 emptyDisk = (.ok (),d') ∧
      ¬ FullMesh lineCrates plainKeys 1 d') ∧
    (∀ i j, 1 ≤ i → i ≤ 256 → 1 ≤ j → j ≤ 256 →
      lineCrates.publicKey (plainKeys i) = lineCrates.publicKey (plainKeys j) → i = j) ∧
    ∃ d', genConfigs lineCrates plainKeys false 256 emptyDisk = (.ok (),d') ∧
      ¬ FullMesh lineCrates plainKeys 256 d' := by
  refine ⟨no_mesh (by decide) (by decide),fun i j h1 hi h1' hj h => ?_,
    no_mesh (by decide) (by decide)⟩
  exact plainKeys_injective h1 hi h1' hj h

end MeshNetwork.ConfigFile
