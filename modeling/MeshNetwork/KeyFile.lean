import MeshNetwork.PeerEntries

set_option autoImplicit false

namespace MeshNetwork.ConfigFile
open TomlLines

/-- A call of `from_file`: the disk it finds, with the faults it will meet, and the key that
`SecretKey::generate` would come up with. -/
structure Call (SK : Type) where
  disk : Disk
  path : String
  generated : SK

section Outcomes
variable {SK K TE KE : Type} (C : Crates SK K TE KE)

inductive KeyRead (generated : SK) (path : String) (d : Disk) :
    Except (Option SecretKeyError) SK → Disk → Prop where
  | loaded (bytes : Vector UInt8 32) (file : d.files path = some bytes.toList) :
      KeyRead generated path d (.ok (C.fromBytes bytes)) d.tick
  | incorrect (data : List UInt8) (file : d.files path = some data) (length : data.length ≠ 32) :
      KeyRead generated path d (.error (some .incorrectKey)) d.tick
  | unreadable (kind : ErrorKind) :
      KeyRead generated path d (.error (some (.getKeyError kind))) d.tick
  | generates (absent : d.files path = none) :
      KeyRead generated path d (.ok generated)
        (d.tick.tick.setFile path (C.toBytes generated).toList)
  | notWritten (kind : ErrorKind) (absent : d.files path = none) :
      KeyRead generated path d (.error (some (.getKeyError kind))) d.tick.tick
  | cutShort (kind : ErrorKind) (n : Nat) (absent : d.files path = none) :
      KeyRead generated path d (.error (some (.getKeyError kind)))
        (d.tick.tick.setFile path ((C.toBytes generated).toList.take n))

inductive FileLoad (generated : SK) (path : String) (d : Disk) :
    Except (Option (ConfigError TE KE)) (Config SK K) → Disk → Prop where
  | unreadable (kind : ErrorKind) :
      FileLoad generated path d (.error (some (.openFileError kind))) d.tick
  | undecodable (e : TE) (silent : ∀ configToml, ¬ Says C d path configToml) :
      FileLoad generated path d (.error (some (.formatParsingError e))) d.tick
  | keyFails {configToml : ConfigToml} {e : Option SecretKeyError} {d' : Disk}
      (decodes : Says C d path configToml)
      (key : KeyRead C generated configToml.secretKeyPath d.tick (.error e) d') :
      FileLoad generated path d (.error (e.map .secretKeyError)) d'
  | checked {configToml : ConfigToml} {secretKey : SK} {d' : Disk}
      (decodes : Says C d path configToml)
      (key : KeyRead C generated configToml.secretKeyPath d.tick (.ok secretKey) d') :
      FileLoad generated path d ((fromToml C configToml secretKey).mapError some) d'

theorem asArray_ok {data : List UInt8} (h : data.length = 32) :
    ∃ bytes : Vector UInt8 32, asArray data = some bytes ∧ bytes.toList = data := by
  refine ⟨⟨data.toArray,h⟩,?_,rfl⟩
  simp [asArray,h]

theorem genSecretKey_cases {generated : SK} {path : String} {d d' : Disk}
    {r : Except ErrorKind SK} (h : genSecretKey C generated path d = (r,d')) :
    (r = .ok generated ∧ d' = d.tick.setFile path (C.toBytes generated).toList) ∨
      ∃ kind, r = .error kind ∧ (d' = d.tick ∨
        ∃ n, d' = d.tick.setFile path ((C.toBytes generated).toList.take n)) := by
  cases hwrite : Fs.write path (C.toBytes generated).toList d with
  | mk w d₁ =>
    unfold genSecretKey at h
    rcases Fs.put_cases hwrite with ⟨rfl,hd⟩ | ⟨kind,rfl,hd⟩
    · rw [Fs.bind_of_ok hwrite,Prod.mk.injEq] at h
      exact .inl ⟨h.1.symm,h.2.symm.trans hd⟩
    · rw [Fs.bind_of_error hwrite,Prod.mk.injEq] at h
      obtain ⟨rfl,rfl⟩ := h
      exact .inr ⟨kind,rfl,hd⟩

theorem getSecretKey_cases {generated : SK} {path : String} {d d' : Disk}
    {r : Except (Option SecretKeyError) SK} (h : getSecretKey C generated path d = (r,d')) :
    KeyRead C generated path d r d' := by
  cases hread : Fs.read path d with
  | mk found d₁ =>
    have hd₁ : d₁ = d.tick := by rw [← Fs.read_disk path d,hread]
    subst hd₁
    unfold getSecretKey at h
    rw [hread] at h
    cases found with
    | ok data =>
      obtain ⟨hfile,-⟩ := Fs.read_ok hread
      by_cases hlen : data.length = 32
      · obtain ⟨bytes,harray,rfl⟩ := asArray_ok hlen
        simp only [hlen,ne_eq,not_true_eq_false,if_false,harray] at h
        change (Except.ok (C.fromBytes bytes),d.tick) = _ at h
        rw [Prod.mk.injEq] at h
        obtain ⟨rfl,rfl⟩ := h
        exact .loaded bytes hfile
      · simp only [ne_eq,hlen,not_false_eq_true,if_true,Prod.mk.injEq] at h
        obtain ⟨rfl,rfl⟩ := h
        exact .incorrect data hfile hlen
    | error kind =>
      by_cases hkind : kind = .notFound
      · subst hkind
        have absent := Fs.read_notFound hread
        simp only at h
        cases hgen : genSecretKey C generated path d.tick with
        | mk g d₂ =>
          rcases genSecretKey_cases C hgen with ⟨rfl,hd₂⟩ | ⟨kind,rfl,hd₂⟩
          · rw [Fs.mapError_of_ok hgen,Prod.mk.injEq] at h
            obtain ⟨rfl,rfl⟩ := h
            rw [hd₂]
            exact .generates absent
          · rw [Fs.mapError_of_error hgen,Prod.mk.injEq] at h
            obtain ⟨rfl,rfl⟩ := h
            rcases hd₂ with rfl | ⟨n,rfl⟩
            · exact .notWritten kind absent
            · exact .cutShort kind n absent
      · have hother : (.error (some (.getKeyError kind)),d.tick) = (r,d') := by
          cases kind <;> first | exact h | exact absurd rfl hkind
        rw [Prod.mk.injEq] at hother
        obtain ⟨rfl,rfl⟩ := hother
        exact .unreadable kind

theorem fromFile_cases {generated : SK} {path : String} {d d' : Disk}
    {r : Except (Option (ConfigError TE KE)) (Config SK K)}
    (h : fromFile C generated path d = (r,d')) : FileLoad C generated path d r d' := by
  cases hread : Fs.read path d with
  | mk found d₁ =>
    have hd₁ : d₁ = d.tick := by rw [← Fs.read_disk path d,hread]
    subst hd₁
    cases found with
    | error kind =>
      unfold fromFile at h
      rw [Fs.bind_of_error (Fs.mapError_of_error hread),Prod.mk.injEq] at h
      obtain ⟨rfl,rfl⟩ := h
      exact .unreadable kind
    | ok data =>
      obtain ⟨hfile,-⟩ := Fs.read_ok hread
      cases hslice : C.fromSlice data with
      | error e =>
        let wrap : TE → Option (ConfigError TE KE) := fun e => some (.formatParsingError e)
        have hlift : Fs.lift ((C.fromSlice data).mapError wrap) d.tick =
            (.error (some (.formatParsingError e)),d.tick) := by
          simp [Fs.lift,hslice,wrap]
        have hsilent : ∀ configToml, ¬ Says C d path configToml := by
          rintro configToml ⟨data',hfile',hslice'⟩
          rw [hfile,Option.some.injEq] at hfile'
          subst hfile'
          rw [hslice] at hslice'
          cases hslice'
        unfold fromFile at h
        rw [Fs.bind_of_ok (Fs.mapError_of_ok hread),Fs.bind_of_error hlift,Prod.mk.injEq] at h
        obtain ⟨rfl,rfl⟩ := h
        exact .undecodable e hsilent
      | ok configToml =>
        have decodes : Says C d path configToml := ⟨data,hfile,hslice⟩
        cases hkey : getSecretKey C generated configToml.secretKeyPath d.tick with
        | mk k d₂ =>
          cases k with
          | error e =>
            rw [fromFile_of_keyError C hread hslice hkey,Prod.mk.injEq] at h
            obtain ⟨rfl,rfl⟩ := h
            exact .keyFails decodes (getSecretKey_cases C hkey)
          | ok secretKey =>
            rw [fromFile_of_key C hread hslice hkey,Prod.mk.injEq] at h
            obtain ⟨rfl,rfl⟩ := h
            exact .checked decodes (getSecretKey_cases C hkey)

section Healthy
variable {path : String} {d : Disk} (healthy : ∀ n, d.faults n = none) (generated : SK)
include healthy

theorem getSecretKey_generates (absent : d.files path = none) : getSecretKey C generated path d =
    (.ok generated,d.tick.tick.setFile path (C.toBytes generated).toList) := by
  have hread : Fs.read path d = (.error .notFound,d.tick) := by
    simp [Fs.read,Disk.fault,healthy,absent]
  have hwrite : Fs.write path (C.toBytes generated).toList d.tick =
      (.ok (),d.tick.tick.setFile path (C.toBytes generated).toList) := by
    simp [Fs.write,Fs.put,Disk.fault,Disk.tick,healthy]
  have hgen : genSecretKey C generated path d.tick =
      (.ok generated,d.tick.tick.setFile path (C.toBytes generated).toList) := by
    unfold genSecretKey
    rw [Fs.bind_of_ok hwrite]
    rfl
  unfold getSecretKey
  rw [hread]
  exact Fs.mapError_of_ok hgen

theorem getSecretKey_incorrect {data : List UInt8} (hfile : d.files path = some data)
    (hlen : data.length ≠ 32) :
    getSecretKey C generated path d = (.error (some .incorrectKey),d.tick) := by
  unfold getSecretKey
  rw [Fs.read_healthy (healthy _) hfile]
  simp only [ne_eq,hlen,not_false_eq_true,if_true]

end Healthy

section Effects
variable {C} {generated : SK} {path : String} {d d' : Disk}

theorem KeyRead.files {r : Except (Option SecretKeyError) SK}
    (h : KeyRead C generated path d r d') : d'.files = d.files ∨
      (d.files path = none ∧ ∃ data, d'.files = Function.update d.files path (some data)) := by
  cases h with
  | loaded bytes file => exact .inl rfl
  | incorrect data file length => exact .inl rfl
  | unreadable kind => exact .inl rfl
  | generates absent => exact .inr ⟨absent,_,rfl⟩
  | notWritten kind absent => exact .inl rfl
  | cutShort kind n absent => exact .inr ⟨absent,_,rfl⟩

theorem KeyRead.elsewhere {r : Except (Option SecretKeyError) SK}
    (h : KeyRead C generated path d r d') {p : String} (hp : p ≠ path) :
    d'.files p = d.files p := by
  rcases h.files with hsame | ⟨-,data,hwritten⟩
  · rw [hsame]
  · rw [hwritten]
    exact Function.update_of_ne hp _ _

theorem KeyRead.existing {r : Except (Option SecretKeyError) SK}
    (h : KeyRead C generated path d r d') {data : List UInt8} (hfile : d.files path = some data) :
    d'.files = d.files := by
  rcases h.files with hsame | ⟨absent,-⟩
  · exact hsame
  · simp [absent] at hfile

theorem KeyRead.no_panic {e : Option SecretKeyError}
    (h : KeyRead C generated path d (.error e) d') : e ≠ none := by
  cases h <;> simp

theorem KeyRead.stored (undo : ∀ sk, C.fromBytes (C.toBytes sk) = sk) {secretKey : SK}
    (h : KeyRead C generated path d (.ok secretKey) d') :
    ∃ bytes : Vector UInt8 32, d'.files path = some bytes.toList ∧
      secretKey = C.fromBytes bytes := by
  cases h with
  | loaded bytes file => exact ⟨bytes,file,rfl⟩
  | generates absent => exact ⟨C.toBytes generated,by simp [Disk.setFile_files],(undo generated).symm⟩

/-- What a call does to the file at `keyPath`, if that is the file its configuration names. -/
structure KeyKept (keyPath : String) (d : Disk)
    (r : Except (Option (ConfigError TE KE)) (Config SK K)) (d' : Disk) : Prop where
  untouched : ∀ data, d.files keyPath = some data → d'.files keyPath = some data
  noPanic : r ≠ .error none
  stored : ∀ cfg, r = .ok cfg → ∃ bytes : Vector UInt8 32,
    d'.files keyPath = some bytes.toList ∧ cfg.secretKey = C.fromBytes bytes

theorem FileLoad.keyKept (undo : ∀ sk, C.fromBytes (C.toBytes sk) = sk)
    {r : Except (Option (ConfigError TE KE)) (Config SK K)} (h : FileLoad C generated path d r d')
    {keyPath : String}
    (names : ∀ configToml, Says C d path configToml → configToml.secretKeyPath = keyPath) :
    KeyKept (C := C) keyPath d r d' := by
  cases h with
  | unreadable kind => exact ⟨fun data hfile => hfile,by simp,by simp⟩
  | undecodable e silent => exact ⟨fun data hfile => hfile,by simp,by simp⟩
  | @keyFails configToml e _ decodes key =>
    obtain rfl := names configToml decodes
    refine ⟨fun data hfile => ?_,?_,by simp⟩
    · rw [key.existing hfile]
      exact hfile
    · cases e with
      | none => exact absurd rfl key.no_panic
      | some e => simp
  | @checked configToml secretKey _ decodes key =>
    obtain rfl := names configToml decodes
    refine ⟨fun data hfile => ?_,?_,fun cfg hcfg => ?_⟩
    · rw [key.existing hfile]
      exact hfile
    · cases fromToml C configToml secretKey <;> simp
    · obtain ⟨bytes,hfile,hbytes⟩ := key.stored undo
      obtain ⟨-,-,-,hsk⟩ := fromToml_ok C (mapError_ok hcfg)
      exact ⟨bytes,hfile,hsk.trans hbytes⟩

end Effects
end Outcomes

def freshDisk (node : NodeEntry) (peers : List NodeEntry) (faults : Nat → Option Fault) : Disk where
  files := Function.update (fun _ => none) "config.toml"
    (some (encode (renderLines (configLines node peers))))
  faults := faults
  ops := 0

theorem freshDisk_config (node : NodeEntry) (peers : List NodeEntry)
    (faults : Nat → Option Fault) : (freshDisk node peers faults).files "config.toml" =
      some (encode (renderLines (configLines node peers))) := by
  simp [freshDisk]

theorem freshDisk_absent (node : NodeEntry) (peers : List NodeEntry)
    (faults : Nat → Option Fault) {path : String} (h : path ≠ "config.toml") :
    (freshDisk node peers faults).files path = none := by
  simp [freshDisk,Function.update_of_ne h]

def strayNode : NodeEntry := movedEntry lineCrates plainKeys 1 "192.168.1.1"

def onePeer : List NodeEntry := [nodeEntry lineCrates plainKeys 2]

theorem strayNode_plain : PlainEntry strayNode :=
  movedEntry_plain lineCrates plainKeys lineCrates_lawful 1 (by decide)

theorem onePeer_plain : ∀ peer ∈ onePeer, PlainEntry peer := by
  intro peer hp
  rw [List.mem_singleton.mp hp]
  exact nodeEntry_plain lineCrates plainKeys lineCrates_lawful 2

theorem onePeer_listed : ∀ peer ∈ onePeer, ∃ ip k, Ipv4Addr.fromStr peer.ip = .ok ip ∧
    lineCrates.keyFromStr peer.pubKey = .ok k := by
  intro peer hp
  rw [List.mem_singleton.mp hp]
  exact ⟨nodeAddress 2,_,fromStr_nodeEntry lineCrates plainKeys (by decide),
    lineCrates_lawful.keyFromStr_keyToString _⟩

theorem fromToml_strayNode (secretKey : Vector UInt8 32) :
    fromToml lineCrates (decoded strayNode onePeer) secretKey = .error .ipv4NotInSubnet := by
  have hpeers : ∀ peer ∈ (decoded strayNode onePeer).peers, peer.Parses lineCrates := by
    intro peer hp
    obtain ⟨entry,hentry,rfl⟩ := List.mem_map.mp hp
    exact onePeer_listed entry hentry
  have htotal : ∃ m, (getPeers lineCrates (decoded strayNode onePeer) :
      Except (ConfigError Unit Unit) _) = .ok m := insertPeers_total lineCrates hpeers ∅
  obtain ⟨m,hm⟩ := htotal
  have hip : Ipv4Addr.fromStr (decoded strayNode onePeer).nodeIpv4 = .ok ⟨192,168,1,1⟩ := rfl
  have hs : ¬ (⟨192,168,1,1⟩ : Ipv4Addr).and Ipv4Addr.netmask = Ipv4Addr.subnet := by decide
  simp only [fromToml,hm,hip,hs,bind,Except.bind,value_mapError,throw,throwThe,
    MonadExceptOf.throw,ne_eq,not_false_eq_true,if_true]

def strayDisk : Disk := freshDisk strayNode onePeer fun _ => none

theorem says_strayDisk {configToml : ConfigToml} :
    Says lineCrates strayDisk "config.toml" configToml ↔
      configToml = decoded strayNode onePeer :=
  says_configLines _ lineCrates_lawful strayNode_plain onePeer_plain (List.cons_ne_nil _ _)
    (freshDisk_config _ _ _)

/-- The configuration is rejected after the secret key was generated. -/
theorem fromFile_strayDisk (generated : Vector UInt8 32) : ∃ d',
    fromFile lineCrates generated "config.toml" strayDisk =
      (.error (some .ipv4NotInSubnet),d') ∧
      d'.files strayNode.secretPath = some generated.toList := by
  have hslice := fromSlice_decoded lineCrates lineCrates_lawful strayNode_plain onePeer_plain
    (List.cons_ne_nil _ _)
  have hfile : strayDisk.files "config.toml" =
      some (encode (renderLines (configLines strayNode onePeer))) := freshDisk_config _ _ _
  have absent : strayDisk.tick.files strayNode.secretPath = none := by
    rw [Disk.tick_files]
    exact freshDisk_absent strayNode onePeer _ (secretPath_ne_config 1)
  have hkey := getSecretKey_generates lineCrates (d := strayDisk.tick) (fun _ => rfl) generated
    absent
  refine ⟨strayDisk.tick.tick.tick.setFile strayNode.secretPath generated.toList,?_,
    by simp [Disk.setFile_files]⟩
  rw [fromFile_of_key lineCrates (Fs.read_healthy rfl hfile) hslice hkey,fromToml_strayNode]
  rfl

end MeshNetwork.ConfigFile
