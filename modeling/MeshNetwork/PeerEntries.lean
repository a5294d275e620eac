import MeshNetwork.ConfigText
import MeshNetwork.Node

set_option autoImplicit false

namespace MeshNetwork.ConfigFile
open TomlLines

section Entries
variable {SK K TE KE : Type} (C : Crates SK K TE KE)

def Says (d : Disk) (path : String) (configToml : ConfigToml) : Prop :=
  ∃ data, d.files path = some data ∧ C.fromSlice data = .ok configToml

variable {C} in
theorem Says.unique {d : Disk} {path : String} {configToml configToml' : ConfigToml}
    (h : Says C d path configToml) (h' : Says C d path configToml') : configToml = configToml' := by
  obtain ⟨data,hfile,hslice⟩ := h
  obtain ⟨data',hfile',hslice'⟩ := h'
  rw [hfile,Option.some.injEq] at hfile'
  subst hfile'
  rwa [hslice,Except.ok.injEq] at hslice'

theorem says_configLines (laws : C.Lawful) {node : NodeEntry} {peers : List NodeEntry}
    (h : PlainEntry node) (hpeers : ∀ peer ∈ peers, PlainEntry peer) (hne : peers ≠ []) {d : Disk}
    {path : String} (hfile : d.files path = some (encode (renderLines (configLines node peers))))
    {configToml : ConfigToml} : Says C d path configToml ↔ configToml = decoded node peers := by
  have hdecodes := fromSlice_decoded C laws h hpeers hne
  constructor
  · rintro ⟨data,hdata,hslice⟩
    rw [hfile,Option.some.injEq] at hdata
    rw [← hdata,hdecodes,Except.ok.injEq] at hslice
    exact hslice.symm
  · rintro rfl
    exact ⟨_,hfile,hdecodes⟩

theorem says_configDisk (laws : C.Lawful) {node : NodeEntry} {peers : List NodeEntry}
    (h : PlainEntry node) (hpeers : ∀ peer ∈ peers, PlainEntry peer) (hne : peers ≠ [])
    {secretKey : SK} {configToml : ConfigToml} :
    Says C (configDisk C node peers secretKey) "config.toml" configToml ↔
      configToml = decoded node peers :=
  says_configLines C laws h hpeers hne (by simp [configDisk])

def Peer.Lists (peer : Peer) (ip : Ipv4Addr) (k : K) : Prop :=
  Ipv4Addr.fromStr peer.ipv4 = .ok ip ∧ C.keyFromStr peer.pubKey = .ok k

def LastLists (entries : List Peer) (ip : Ipv4Addr) (k : K) : Prop :=
  ∃ before peer after, entries = before ++ peer :: after ∧ peer.Lists C ip k ∧
    ∀ later ∈ after, Ipv4Addr.fromStr later.ipv4 ≠ .ok ip

theorem lastLists_cons {peer : Peer} {rest : List Peer} {ip : Ipv4Addr} {k : K} :
    LastLists C (peer :: rest) ip k ↔ LastLists C rest ip k ∨
      (peer.Lists C ip k ∧ ∀ later ∈ rest, Ipv4Addr.fromStr later.ipv4 ≠ .ok ip) := by
  constructor
  · rintro ⟨before,p,after,heq,hp,hlater⟩
    cases before with
    | nil =>
      rw [List.nil_append,List.cons.injEq] at heq
      obtain ⟨rfl,rfl⟩ := heq
      exact .inr ⟨hp,hlater⟩
    | cons first before =>
      rw [List.cons_append,List.cons.injEq] at heq
      exact .inl ⟨before,p,after,heq.2,hp,hlater⟩
  · rintro (⟨before,p,after,rfl,hp,hlater⟩ | ⟨hp,hlater⟩)
    · exact ⟨peer :: before,p,after,rfl,hp,hlater⟩
    · exact ⟨[],peer,rest,rfl,hp,hlater⟩

theorem Peer.keyFor_eq_some {peer : Peer} {ip : Ipv4Addr} {k : K} :
    peer.keyFor C ip = some k ↔ peer.Lists C ip k := by
  rw [Peer.keyFor,Option.ite_none_right_eq_some]
  cases hk : C.keyFromStr peer.pubKey with
  | error e => simp [Peer.Lists,hk,Except.toOption]
  | ok k' => simp [Peer.Lists,hk,Except.toOption]

theorem lastKey_eq_some {entries : List Peer} (parses : ∀ peer ∈ entries, peer.Parses C)
    {ip : Ipv4Addr} {k : K} : lastKey C entries ip = some k ↔ LastLists C entries ip k := by
  induction entries with
  | nil =>
    constructor
    · intro h
      cases h
    · rintro ⟨before,peer,after,heq,-⟩
      simp at heq
  | cons peer rest ih =>
    have hrest : ∀ p ∈ rest, p.Parses C := fun p hp => parses p (List.mem_cons_of_mem _ hp)
    rw [lastKey_cons,lastLists_cons,← ih hrest,← Peer.keyFor_eq_some]
    by_cases hlast : ∃ k', lastKey C rest ip = some k'
    · obtain ⟨p,hp,hip⟩ := (lastKey_isSome C hrest).mp hlast
      obtain ⟨k',hk'⟩ := hlast
      have hfirst : ¬ (peer.keyFor C ip = some k ∧
          ∀ later ∈ rest, Ipv4Addr.fromStr later.ipv4 ≠ .ok ip) := fun h => h.2 p hp hip
      simp only [hk',Option.some_or,hfirst,or_false]
    · have hnone : lastKey C rest ip = none :=
        Option.eq_none_iff_forall_ne_some.mpr fun k' h => hlast ⟨k',h⟩
      have hlater : ∀ later ∈ rest, Ipv4Addr.fromStr later.ipv4 ≠ .ok ip := fun p hp hip =>
        hlast ((lastKey_isSome C hrest).mpr ⟨p,hp,hip⟩)
      simp only [hnone,Option.none_or,reduceCtorEq,false_or]
      exact ⟨fun h => ⟨h,hlater⟩,And.left⟩

/-- What `main` passes on, with the map of peers in some iteration order. -/
def assemble (cfg : Config SK K) [DecidableEq K] (routes : RouteTable K) : MeshNetwork.Config K :=
  .main (C.publicKey cfg.secretKey) cfg.nodeIpv4 routes

structure PeersOf [DecidableEq K] (entries : List Peer) (cfg : Config SK K) : Prop where
  parses : ∀ peer ∈ entries, peer.Parses C
  lookup : ∀ ip k, cfg.peers.lookup ip = some k ↔ LastLists C entries ip k
  /-- no entry is lost as long as no address has two keys -/
  complete : (∀ peer ∈ entries, ∀ other ∈ entries, ∀ ip k k',
    peer.Lists C ip k → other.Lists C ip k' → k = k') →
    ∀ peer ∈ entries, ∀ ip k, peer.Lists C ip k → cfg.peers.lookup ip = some k
  whitelist : ∀ routes : RouteTable K, routes.toFinmap = cfg.peers → ∀ k,
    k ∈ (assemble C cfg routes).peers ↔ ∃ ip, LastLists C entries ip k

theorem lookup_of_toFinmap {routes : RouteTable K} {peers : Finmap fun _ : Ipv4Addr => K}
    (h : routes.toFinmap = peers) (ip : Ipv4Addr) : routes.lookup ip = peers.lookup ip := by
  rw [← h,Finmap.lookup_toFinmap]

theorem exists_routes (peers : Finmap fun _ : Ipv4Addr => K) :
    ∃ routes : RouteTable K, routes.toFinmap = peers :=
  Finmap.induction_on peers fun routes => ⟨routes,rfl⟩

theorem fromToml_peersOf [DecidableEq K] {configToml : ConfigToml} {secretKey : SK}
    {cfg : Config SK K} (h : fromToml C configToml secretKey = .ok cfg) :
    PeersOf C configToml.peers cfg := by
  obtain ⟨valid,hlookup,-,-⟩ := fromToml_ok C h
  have lookup : ∀ ip k, cfg.peers.lookup ip = some k ↔ LastLists C configToml.peers ip k := by
    intro ip k
    rw [hlookup ip]
    exact lastKey_eq_some C valid.peers
  refine ⟨valid.peers,lookup,fun hone peer hp ip k hk => ?_,fun routes hroutes k => ?_⟩
  · obtain ⟨k',hk'⟩ := (lastKey_isSome C valid.peers).mpr ⟨peer,hp,hk.1⟩
    obtain ⟨before,other,after,heq,hother,-⟩ := (lastKey_eq_some C valid.peers).mp hk'
    have hmem : other ∈ configToml.peers := by
      rw [heq]
      exact List.mem_append_right _ List.mem_cons_self
    rw [hlookup ip,hk',hone peer hp other hmem ip k k' hk hother]
  · rw [(assemble C cfg routes).peers_iff]
    change (∃ ip, routes.lookup ip = some k) ↔ _
    simp only [lookup_of_toFinmap hroutes,lookup]

/-- Each address has the key of its last entry, the node's own address and key being no
exception, and a file that can be read, with its key, is accepted if its values parse. -/
theorem accepted_peer_entries [DecidableEq K] (generated : SK) (path : String) (d : Disk) :
    (∀ cfg d', fromFile C generated path d = (.ok cfg,d') →
      ∃ configToml, Says C d path configToml ∧ PeersOf C configToml.peers cfg) ∧
    ∀ data configToml secretKey d', Fs.read path d = (.ok data,d.tick) →
      C.fromSlice data = .ok configToml →
      getSecretKey C generated configToml.secretKeyPath d.tick = (.ok secretKey,d') →
      ((∃ cfg, fromFile C generated path d = (.ok cfg,d')) ↔ configToml.Valid C) := by
  refine ⟨fun cfg d' h => ?_,fun data configToml secretKey d' hread hdecodes hkey => ⟨?_,?_⟩⟩
  · obtain ⟨data,configToml,secretKey,hdata,hdecodes,-,htoml⟩ := fromFile_ok C h
    exact ⟨configToml,⟨data,hdata,hdecodes⟩,fromToml_peersOf C htoml⟩
  · rintro ⟨cfg,h⟩
    obtain ⟨data',configToml',secretKey',hdata,hdecodes',-,htoml⟩ := fromFile_ok C h
    have hsame : Says C d path configToml := ⟨data,(Fs.read_ok hread).1,hdecodes⟩
    rw [hsame.unique ⟨data',hdata,hdecodes'⟩]
    exact (fromToml_ok C htoml).1
  · intro valid
    obtain ⟨cfg,htoml⟩ := fromToml_total C valid secretKey
    exact ⟨cfg,fromFile_of C hread hdecodes hkey htoml⟩

end Entries

def clashingEntries : List NodeEntry :=
  [movedEntry lineCrates plainKeys 2 "10.67.1.2",movedEntry lineCrates plainKeys 3 "10.67.1.2",
    movedEntry lineCrates plainKeys 1 "10.67.1.1"]

theorem clashing_addresses : Ipv4Addr.fromStr "10.67.1.1" = .ok ⟨10,67,1,1⟩ ∧
    Ipv4Addr.fromStr "10.67.1.2" = .ok ⟨10,67,1,2⟩ := ⟨rfl,rfl⟩

theorem clashingEntries_listed : ∀ entry ∈ clashingEntries, PlainEntry entry ∧
    ∃ ip k, Ipv4Addr.fromStr entry.ip = .ok ip ∧ lineCrates.keyFromStr entry.pubKey = .ok k := by
  have plain : isPlainText "10.67.1.1" = true ∧ isPlainText "10.67.1.2" = true := by decide
  have key := fun i ip => keyFromStr_movedEntry lineCrates plainKeys lineCrates_lawful i ip
  obtain ⟨one,two⟩ := clashing_addresses
  intro entry hentry
  simp only [clashingEntries,List.mem_cons,List.not_mem_nil,or_false] at hentry
  rcases hentry with rfl | rfl | rfl
  · exact ⟨movedEntry_plain _ _ lineCrates_lawful 2 plain.2,⟨10,67,1,2⟩,_,two,key 2 _⟩
  · exact ⟨movedEntry_plain _ _ lineCrates_lawful 3 plain.2,⟨10,67,1,2⟩,_,two,key 3 _⟩
  · exact ⟨movedEntry_plain _ _ lineCrates_lawful 1 plain.1,⟨10,67,1,1⟩,_,one,key 1 _⟩

/-- The file is accepted: the first entry is lost, and the node has itself as a peer. -/
theorem clashing_entries_accepted :
    let node := nodeEntry lineCrates plainKeys 1
    let d := configDisk lineCrates node clashingEntries (plainKeys 1)
    plainKeys 2 ≠ plainKeys 3 ∧ Says lineCrates d "config.toml" (decoded node clashingEntries) ∧
      ∃ cfg d', fromFile lineCrates (plainKeys 0) "config.toml" d = (.ok cfg,d') ∧
        cfg.peers.lookup ⟨10,67,1,2⟩ = some (plainKeys 3) ∧
        cfg.peers.lookup cfg.nodeIpv4 = some (lineCrates.publicKey cfg.secretKey) := by
  have laws := lineCrates_lawful
  have key := fun i ip => keyFromStr_movedEntry lineCrates plainKeys laws i ip
  have hplain := nodeEntry_plain lineCrates plainKeys laws 1
  have hip := fromStr_nodeEntry lineCrates plainKeys (show 1 ≤ 255 by decide)
  obtain ⟨one,two⟩ := clashing_addresses
  have hne : clashingEntries ≠ [] := List.cons_ne_nil _ _
  have hentries : ∀ entry ∈ clashingEntries, PlainEntry entry :=
    fun entry h => (clashingEntries_listed entry h).1
  obtain ⟨cfg,d',hload,htoml⟩ := fromFile_configDisk lineCrates laws hplain hentries hne
    (decoded_valid _ hip (by decide) fun entry h => (clashingEntries_listed entry h).2)
    (secretPath_ne_config 1) (plainKeys 1) (plainKeys 0)
  have hpeers := fromToml_peersOf lineCrates htoml
  obtain ⟨-,-,hnode,hsk⟩ := fromToml_ok lineCrates htoml
  have hown : cfg.nodeIpv4 = ⟨10,67,1,1⟩ := by
    rw [show (decoded (nodeEntry lineCrates plainKeys 1) _).nodeIpv4 =
      (nodeEntry lineCrates plainKeys 1).ip from rfl,hip,Except.ok.injEq] at hnode
    exact hnode.symm
  refine ⟨by decide,(says_configDisk _ laws hplain hentries hne).mpr rfl,cfg,d',hload,?_,?_⟩
  · refine (hpeers.lookup _ _).mpr ⟨[_],_,[_],rfl,⟨two,key 3 "10.67.1.2"⟩,?_⟩
    intro later hlater
    rw [List.mem_singleton.mp hlater]
    exact fun h => absurd (one.symm.trans h) (by decide)
  · rw [hown,hsk]
    exact (hpeers.lookup _ _).mpr ⟨[_,_],_,[],rfl,⟨one,key 1 "10.67.1.1"⟩,by simp⟩

end MeshNetwork.ConfigFile
