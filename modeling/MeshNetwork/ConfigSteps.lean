import MeshNetwork.ConfigFile

set_option autoImplicit false

namespace MeshNetwork.ConfigFile

section Steps
variable {SK K TE KE : Type} (C : Crates SK K TE KE)

def Peer.Parses (peer : Peer) : Prop :=
  ∃ ip k, Ipv4Addr.fromStr peer.ipv4 = .ok ip ∧ C.keyFromStr peer.pubKey = .ok k

def Peer.keyFor (ip : Ipv4Addr) (peer : Peer) : Option K :=
  if Ipv4Addr.fromStr peer.ipv4 = .ok ip then (C.keyFromStr peer.pubKey).toOption else none

def lastKey (entries : List Peer) (ip : Ipv4Addr) : Option K :=
  (entries.filterMap (Peer.keyFor C ip)).getLast?

theorem lastKey_cons (peer : Peer) (rest : List Peer) (ip : Ipv4Addr) :
    lastKey C (peer :: rest) ip = (lastKey C rest ip).or (peer.keyFor C ip) := by
  unfold lastKey
  cases hk : peer.keyFor C ip with
  | none => rw [List.filterMap_cons_none hk,Option.or_none]
  | some k =>
    rw [List.filterMap_cons_some hk,List.getLast?_cons]
    cases (rest.filterMap (Peer.keyFor C ip)).getLast? <;> rfl

theorem lastKey_isSome {entries : List Peer} (parses : ∀ peer ∈ entries, peer.Parses C)
    {ip : Ipv4Addr} : (∃ k, lastKey C entries ip = some k) ↔
      ∃ peer ∈ entries, Ipv4Addr.fromStr peer.ipv4 = .ok ip := by
  constructor
  · rintro ⟨k,hk⟩
    obtain ⟨peer,hp,hkey⟩ := List.mem_filterMap.mp (List.mem_of_getLast? hk)
    simp only [Peer.keyFor,Option.ite_none_right_eq_some] at hkey
    exact ⟨peer,hp,hkey.1⟩
  · rintro ⟨peer,hp,hip⟩
    obtain ⟨-,k,-,hk⟩ := parses peer hp
    have hmem : k ∈ entries.filterMap (Peer.keyFor C ip) :=
      List.mem_filterMap.mpr ⟨peer,hp,by simp [Peer.keyFor,hip,hk,Except.toOption]⟩
    exact Option.isSome_iff_exists.mp (List.getLast?_isSome.mpr (List.ne_nil_of_mem hmem))

theorem insertPeers_cons {peer : Peer} {rest : List Peer} {peers m : Finmap fun _ : Ipv4Addr => K} :
    insertPeers C peers (peer :: rest) = .ok m ↔ ∃ ip k, Ipv4Addr.fromStr peer.ipv4 = .ok ip ∧
      C.keyFromStr peer.pubKey = .ok k ∧ insertPeers C (peers.insert ip k) rest = .ok m := by
  cases hip : Ipv4Addr.fromStr peer.ipv4 with
  | error e => simp [insertPeers,hip,bind,Except.bind]
  | ok ip =>
    cases hk : C.keyFromStr peer.pubKey with
    | error e => simp [insertPeers,hip,hk,bind,Except.bind]
    | ok k => simp [insertPeers,hip,hk,bind,Except.bind]

/-- Later entries replace earlier ones of the same address. -/
theorem insertPeers_ok {entries : List Peer} {peers m : Finmap fun _ : Ipv4Addr => K}
    (h : insertPeers C peers entries = .ok m) : (∀ peer ∈ entries, peer.Parses C) ∧
      ∀ ip, m.lookup ip = (lastKey C entries ip).or (peers.lookup ip) := by
  induction entries generalizing peers with
  | nil =>
    simp only [insertPeers,Except.ok.injEq] at h
    subst h
    exact ⟨by simp,fun ip => rfl⟩
  | cons peer rest ih =>
    obtain ⟨ip',k,hip,hk,hrest⟩ := (insertPeers_cons C).mp h
    obtain ⟨hparses,hlookup⟩ := ih hrest
    refine ⟨fun p hp => ?_,fun ip => ?_⟩
    · rcases List.mem_cons.mp hp with rfl | hmem
      · exact ⟨ip',k,hip,hk⟩
      · exact hparses p hmem
    · rw [hlookup ip,lastKey_cons,Option.or_assoc]
      congr 1
      by_cases heq : ip = ip'
      · subst heq
        rw [Finmap.lookup_insert]
        simp [Peer.keyFor,hip,hk,Except.toOption]
      · rw [Finmap.lookup_insert_of_ne _ heq]
        have hne : ¬ ip' = ip := fun h' => heq h'.symm
        simp [Peer.keyFor,hip,hne]

theorem insertPeers_total {entries : List Peer} (h : ∀ peer ∈ entries, peer.Parses C)
    (peers : Finmap fun _ : Ipv4Addr => K) : ∃ m, insertPeers C peers entries = .ok m := by
  induction entries generalizing peers with
  | nil => exact ⟨peers,rfl⟩
  | cons peer rest ih =>
    obtain ⟨ip,k,hip,hk⟩ := h peer List.mem_cons_self
    obtain ⟨m,hm⟩ := ih (fun p hp => h p (List.mem_cons_of_mem _ hp)) (peers.insert ip k)
    exact ⟨m,(insertPeers_cons C).mpr ⟨ip,k,hip,hk,hm⟩⟩

structure ConfigToml.Valid (configToml : ConfigToml) : Prop where
  peers : ∀ peer ∈ configToml.peers, peer.Parses C
  nodeIpv4 : ∃ ip, Ipv4Addr.fromStr configToml.nodeIpv4 = .ok ip ∧ ip.InSubnet
  logLevel : ∀ lvl ∈ configToml.logLevel, lvl ∈ logLevels

theorem fromToml_cases {configToml : ConfigToml} {secretKey : SK} {cfg : Config SK K}
    (h : fromToml C configToml secretKey = .ok cfg) :
    getPeers C configToml = .ok cfg.peers ∧
      Ipv4Addr.fromStr configToml.nodeIpv4 = .ok cfg.nodeIpv4 ∧ cfg.nodeIpv4.InSubnet ∧
      (∀ lvl ∈ configToml.logLevel, lvl ∈ logLevels) ∧ cfg.secretKey = secretKey := by
  cases hp : getPeers C configToml with
  | error e => simp [fromToml,hp,bind,Except.bind] at h
  | ok peers =>
    cases hip : Ipv4Addr.fromStr configToml.nodeIpv4 with
    | error e => simp [fromToml,hp,hip,bind,Except.bind] at h
    | ok ip =>
      by_cases hs : ip.InSubnet
      · have hs' : ip.and Ipv4Addr.netmask = Ipv4Addr.subnet := hs
        cases hl : configToml.logLevel with
        | none =>
          simp only [fromToml,hp,hip,hs',hl,bind,Except.bind,value_mapError,pure,Except.pure,
            ne_eq,not_true_eq_false,if_false,Except.ok.injEq] at h
          subst h
          exact ⟨rfl,rfl,hs,by simp,rfl⟩
        | some lvl =>
          by_cases hlvl : lvl ∈ logLevels
          · simp only [fromToml,hp,hip,hs',hl,hlvl,bind,Except.bind,value_mapError,pure,
              Except.pure,ne_eq,not_true_eq_false,if_false,if_true,Except.ok.injEq] at h
            subst h
            exact ⟨rfl,rfl,hs,by simpa using hlvl,rfl⟩
          · simp [fromToml,hp,hip,hs',hl,hlvl,bind,Except.bind,throw,throwThe,
              MonadExceptOf.throw] at h
      · have hs' : ¬ ip.and Ipv4Addr.netmask = Ipv4Addr.subnet := hs
        simp [fromToml,hp,hip,hs',bind,Except.bind,throw,throwThe,
          MonadExceptOf.throw] at h

theorem fromToml_total {configToml : ConfigToml} (h : configToml.Valid C) (secretKey : SK) :
    ∃ cfg, fromToml C configToml secretKey = .ok cfg := by
  obtain ⟨peers,hp⟩ := insertPeers_total C h.peers ∅
  obtain ⟨ip,hip,hs⟩ := h.nodeIpv4
  have hp' : getPeers C configToml = .ok peers := hp
  have hs' : ip.and Ipv4Addr.netmask = Ipv4Addr.subnet := hs
  cases hx : fromToml C configToml secretKey with
  | ok cfg => exact ⟨cfg,rfl⟩
  | error e =>
    cases hl : configToml.logLevel with
    | none =>
      simp [fromToml,hp',hip,hs',hl,bind,Except.bind,pure,Except.pure] at hx
    | some lvl =>
      have hlvl := h.logLevel lvl hl
      simp [fromToml,hp',hip,hs',hl,hlvl,bind,Except.bind,pure,Except.pure] at hx

/-- What an accepted configuration says, and what is made of it. -/
theorem fromToml_ok {configToml : ConfigToml} {secretKey : SK} {cfg : Config SK K}
    (h : fromToml C configToml secretKey = .ok cfg) : configToml.Valid C ∧
      (∀ ip, cfg.peers.lookup ip = lastKey C configToml.peers ip) ∧
      Ipv4Addr.fromStr configToml.nodeIpv4 = .ok cfg.nodeIpv4 ∧ cfg.secretKey = secretKey := by
  obtain ⟨hp,hip,hs,hl,hsk⟩ := fromToml_cases C h
  obtain ⟨hparses,hlookup⟩ := insertPeers_ok C hp
  refine ⟨⟨hparses,⟨cfg.nodeIpv4,hip,hs⟩,hl⟩,fun ip => ?_,hip,hsk⟩
  rw [hlookup ip,Finmap.lookup_empty,Option.or_none]

theorem lift_ok {ε α : Type} {x : Except ε α} {d d' : Disk} {a : α}
    (h : Fs.lift x d = (.ok a,d')) : x = .ok a ∧ d' = d := by
  simp only [Fs.lift,Prod.mk.injEq] at h
  exact ⟨h.1,h.2.symm⟩

theorem mapError_ok {ε ε' α : Type} {f : ε → ε'} {x : Except ε α} {a : α}
    (h : x.mapError f = .ok a) : x = .ok a := by
  cases x with
  | error e => simp at h
  | ok b => simpa using h

theorem fromFile_ok {generated : SK} {path : String} {d d' : Disk} {cfg : Config SK K}
    (h : fromFile C generated path d = (.ok cfg,d')) : ∃ data configToml secretKey,
      d.files path = some data ∧ C.fromSlice data = .ok configToml ∧
      getSecretKey C generated configToml.secretKeyPath d.tick = (.ok secretKey,d') ∧
      fromToml C configToml secretKey = .ok cfg := by
  obtain ⟨data,d₁,hread,hrest₁⟩ := Fs.bind_ok h
  obtain ⟨configToml,d₂,hslice,hrest₂⟩ := Fs.bind_ok hrest₁
  obtain ⟨secretKey,d₃,hkey,hrest₃⟩ := Fs.bind_ok hrest₂
  obtain ⟨hdata,rfl⟩ := Fs.read_ok (Fs.mapError_ok hread)
  obtain ⟨hdecoded,rfl⟩ := lift_ok hslice
  obtain ⟨hrest,rfl⟩ := lift_ok hrest₃
  exact ⟨data,configToml,secretKey,hdata,mapError_ok hdecoded,Fs.mapError_ok hkey,
    mapError_ok hrest⟩

section Decoded
variable {generated : SK} {path : String} {d d' : Disk} {data : List UInt8}
variable {configToml : ConfigToml}

theorem fromFile_decoded (read : Fs.read path d = (.ok data,d.tick))
    (decodes : C.fromSlice data = .ok configToml) : fromFile C generated path d =
      (((getSecretKey C generated configToml.secretKeyPath).mapError
        (Option.map .secretKeyError)) >>= fun secretKey =>
          Fs.lift ((fromToml C configToml secretKey).mapError some)) d.tick := by
  let wrap : TE → Option (ConfigError TE KE) := fun e => some (.formatParsingError e)
  have hslice : Fs.lift ((C.fromSlice data).mapError wrap) d.tick = (.ok configToml,d.tick) := by
    simp [Fs.lift,decodes]
  unfold fromFile
  rw [Fs.bind_of_ok (Fs.mapError_of_ok read),Fs.bind_of_ok hslice]

theorem fromFile_of_key {secretKey : SK} (read : Fs.read path d = (.ok data,d.tick))
    (decodes : C.fromSlice data = .ok configToml)
    (key : getSecretKey C generated configToml.secretKeyPath d.tick = (.ok secretKey,d')) :
    fromFile C generated path d = ((fromToml C configToml secretKey).mapError some,d') := by
  rw [fromFile_decoded C read decodes,Fs.bind_of_ok (Fs.mapError_of_ok key)]
  rfl

theorem fromFile_of_keyError {e : Option SecretKeyError}
    (read : Fs.read path d = (.ok data,d.tick)) (decodes : C.fromSlice data = .ok configToml)
    (key : getSecretKey C generated configToml.secretKeyPath d.tick = (.error e,d')) :
    fromFile C generated path d = (.error (e.map .secretKeyError),d') := by
  rw [fromFile_decoded C read decodes,Fs.bind_of_error (Fs.mapError_of_error key)]

theorem fromFile_of {secretKey : SK} {cfg : Config SK K}
    (read : Fs.read path d = (.ok data,d.tick)) (decodes : C.fromSlice data = .ok configToml)
    (key : getSecretKey C generated configToml.secretKeyPath d.tick = (.ok secretKey,d'))
    (rest : fromToml C configToml secretKey = .ok cfg) :
    fromFile C generated path d = (.ok cfg,d') := by
  rw [fromFile_of_key C read decodes key,rest]
  rfl

end Decoded
end Steps
end MeshNetwork.ConfigFile
