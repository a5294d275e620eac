import MeshNetwork.KeyFile

/-!
What a call of `from_file` that fails leaves behind. The secret key is loaded, or generated
and written, before the rest of the configuration is checked, and nothing is undone.
-/

set_option autoImplicit false

namespace MeshNetwork.ConfigFile
open TomlLines

/-- What the file of the secret key may contain after a call that failed, if it was absent
and the key made of `keyBytes`. -/
def ConfigError.Leaves {TE KE : Type} (keyBytes : List UInt8) :
    ConfigError TE KE → Option (List UInt8) → Prop
  | .openFileError _,after => after = none
  | .formatParsingError _,after => after = none
  | .secretKeyError .incorrectKey,after => after = none
  | .secretKeyError (.getKeyError _),after =>
    after = none ∨ ∃ n, after = some (keyBytes.take n)
  | .ipv4ParseError _,after => after = some keyBytes
  | .publicKeyParseError _,after => after = some keyBytes
  | .ipv4NotInSubnet,after => after = some keyBytes
  | .incorrectLogLevel,after => after = some keyBytes

section Failures
variable {SK K TE KE : Type} (C : Crates SK K TE KE)

theorem insertPeers_error {entries : List Peer} {peers : Finmap fun _ : Ipv4Addr => K}
    {e : ConfigError TE KE} (h : insertPeers C peers entries = .error e) (keyBytes : List UInt8) :
    e.Leaves keyBytes (some keyBytes) := by
  induction entries generalizing peers with
  | nil => cases h
  | cons peer rest ih =>
    cases hip : Ipv4Addr.fromStr peer.ipv4 with
    | error x =>
      simp only [insertPeers,hip,failure_mapError,bind,Except.bind,Except.error.injEq] at h
      subst h
      rfl
    | ok ip =>
      cases hk : C.keyFromStr peer.pubKey with
      | error x =>
        simp only [insertPeers,hip,hk,value_mapError,failure_mapError,bind,Except.bind,
          Except.error.injEq] at h
        subst h
        rfl
      | ok k =>
        simp only [insertPeers,hip,hk,value_mapError,bind,Except.bind] at h
        exact ih h

/-- The checks come after the key was written. -/
theorem fromToml_error {configToml : ConfigToml} {secretKey : SK} {e : ConfigError TE KE}
    (h : fromToml C configToml secretKey = .error e) (keyBytes : List UInt8) :
    e.Leaves keyBytes (some keyBytes) := by
  cases hp : getPeers C configToml with
  | error x =>
    simp only [fromToml,hp,bind,Except.bind,Except.error.injEq] at h
    subst h
    exact insertPeers_error C hp keyBytes
  | ok peers =>
    cases hip : Ipv4Addr.fromStr configToml.nodeIpv4 with
    | error x =>
      simp only [fromToml,hp,hip,failure_mapError,bind,Except.bind,Except.error.injEq] at h
      subst h
      rfl
    | ok ip =>
      by_cases hs : ip.and Ipv4Addr.netmask = Ipv4Addr.subnet
      · cases hl : configToml.logLevel with
        | none => simp [fromToml,hp,hip,hs,hl,bind,Except.bind,pure,Except.pure] at h
        | some lvl =>
          by_cases hlvl : lvl ∈ logLevels
          · simp [fromToml,hp,hip,hs,hl,hlvl,bind,Except.bind,pure,Except.pure] at h
          · simp only [fromToml,hp,hip,hs,hl,hlvl,bind,Except.bind,value_mapError,throw,throwThe,
              MonadExceptOf.throw,pure,Except.pure,ne_eq,not_true_eq_false,if_false,
              Except.error.injEq] at h
            subst h
            rfl
      · simp only [fromToml,hp,hip,hs,bind,Except.bind,value_mapError,throw,throwThe,
          MonadExceptOf.throw,ne_eq,not_false_eq_true,if_true,Except.error.injEq] at h
        subst h
        rfl

structure FailedLoad (generated : SK) (path : String) (d : Disk) (e : ConfigError TE KE)
    (d' : Disk) : Prop where
  undecodable : (∀ configToml, ¬ Says C d path configToml) → d'.files = d.files
  elsewhere : ∀ configToml, Says C d path configToml → ∀ p ≠ configToml.secretKeyPath,
    d'.files p = d.files p
  existing : ∀ configToml, Says C d path configToml →
    ∀ data, d.files configToml.secretKeyPath = some data → d'.files = d.files
  absent : ∀ configToml, Says C d path configToml → d.files configToml.secretKeyPath = none →
    e.Leaves (C.toBytes generated).toList (d'.files configToml.secretKeyPath)

variable {C}

theorem KeyRead.leaves {generated : SK} {path : String} {d d' : Disk} {x : SecretKeyError}
    (h : KeyRead C generated path d (.error (some x)) d') (absent : d.files path = none) :
    (ConfigError.secretKeyError x : ConfigError TE KE).Leaves (C.toBytes generated).toList
      (d'.files path) := by
  cases h with
  | incorrect data file length => simp [absent] at file
  | unreadable kind => exact .inl absent
  | notWritten kind _ => exact .inl absent
  | cutShort kind n _ => exact .inr ⟨n,by simp [Disk.setFile_files]⟩

theorem KeyRead.writes {generated secretKey : SK} {path : String} {d d' : Disk}
    (h : KeyRead C generated path d (.ok secretKey) d') (absent : d.files path = none) :
    d'.files path = some (C.toBytes generated).toList := by
  cases h with
  | loaded bytes file => simp [absent] at file
  | generates _ => simp [Disk.setFile_files]

theorem FailedLoad.of_key {generated : SK} {path : String} {d d' : Disk} {e : ConfigError TE KE}
    {configToml : ConfigToml} {r : Except (Option SecretKeyError) SK}
    (decodes : Says C d path configToml)
    (key : KeyRead C generated configToml.secretKeyPath d.tick r d')
    (leaves : d.files configToml.secretKeyPath = none →
      e.Leaves (C.toBytes generated).toList (d'.files configToml.secretKeyPath)) :
    FailedLoad C generated path d e d' := by
  refine ⟨fun silent => absurd decodes (silent configToml),?_,?_,?_⟩
  · intro configToml' decodes' p hp
    rw [decodes'.unique decodes] at hp
    exact key.elsewhere hp
  · intro configToml' decodes' data hfile
    rw [decodes'.unique decodes] at hfile
    exact key.existing hfile
  · intro configToml' decodes' absent
    rw [decodes'.unique decodes] at absent ⊢
    exact leaves absent

theorem FailedLoad.unchanged {generated : SK} {path : String} {d : Disk} {e : ConfigError TE KE}
    (h : e.Leaves (C.toBytes generated).toList none) : FailedLoad C generated path d e d.tick := by
  refine ⟨fun _ => rfl,fun _ _ _ _ => rfl,fun _ _ _ _ => rfl,fun configToml _ absent => ?_⟩
  rw [Disk.tick_files,absent]
  exact h

theorem FileLoad.failed {generated : SK} {path : String} {d d' : Disk}
    {r : Option (ConfigError TE KE)} (h : FileLoad C generated path d (.error r) d') :
    ∃ e, r = some e ∧ FailedLoad C generated path d e d' := by
  generalize hr : Except.error r = result at h
  cases h with
  | unreadable kind =>
    obtain rfl := Except.error.inj hr
    exact ⟨_,rfl,.unchanged rfl⟩
  | undecodable e silent =>
    obtain rfl := Except.error.inj hr
    exact ⟨_,rfl,.unchanged rfl⟩
  | @keyFails configToml e _ decodes key =>
    obtain rfl := Except.error.inj hr
    obtain ⟨x,rfl⟩ := Option.ne_none_iff_exists'.mp key.no_panic
    refine ⟨.secretKeyError x,rfl,.of_key decodes key fun absent => ?_⟩
    exact key.leaves absent
  | @checked configToml secretKey _ decodes key =>
    cases htoml : fromToml C configToml secretKey with
    | ok cfg => simp [htoml] at hr
    | error e =>
      rw [htoml,failure_mapError,Except.error.injEq] at hr
      subst hr
      refine ⟨e,rfl,.of_key decodes key fun absent => ?_⟩
      rw [key.writes absent]
      exact fromToml_error C htoml _

def undone (d : Disk) (keyPath : String) (before : Option (List UInt8)) : Disk :=
  { d with files := Function.update d.files keyPath before }

def SameLoad (C : Crates SK K TE KE) (path : String) (generated : SK) (d : Disk) (generated' : SK)
    (d' : Disk) : Prop :=
  (fromFile C generated path d).1 = (fromFile C generated' path d').1 ∧
    (fromFile C generated path d).2.files = (fromFile C generated' path d').2.files

/-- A call on a working disk whose configuration names the key file at `keyPath`. -/
structure LaterCall (C : Crates SK K TE KE) (keyPath : String) (later : Call SK) : Prop where
  healthy : ∀ n, later.disk.faults n = none
  elsewhere : later.path ≠ keyPath
  names : ∃ configToml, Says C later.disk later.path configToml ∧
    configToml.secretKeyPath = keyPath

/-- What a later call makes of the key file: a call that failed has taken it from `before` to
`after`. -/
structure LaterLoad (C : Crates SK K TE KE) (generated : SK) (keyPath : String)
    (before after : Option (List UInt8)) (later : Call SK) : Prop where
  unchanged : after = before → SameLoad C later.path later.generated later.disk later.generated
    (undone later.disk keyPath before)
  keyWritten : before = none → after = some (C.toBytes generated).toList →
    SameLoad C later.path later.generated later.disk generated
      (undone later.disk keyPath before)
  cutShort : ∀ n < 32, after = some ((C.toBytes generated).toList.take n) →
    (fromFile C later.generated later.path later.disk).1 =
      .error (some (.secretKeyError .incorrectKey))

theorem LaterCall.load (undo : ∀ sk, C.fromBytes (C.toBytes sk) = sk) {keyPath : String}
    {later : Call SK} (h : LaterCall C keyPath later) (generated : SK)
    (before : Option (List UInt8)) :
    LaterLoad C generated keyPath before (later.disk.files keyPath) later := by
  obtain ⟨configToml,⟨data,hfile,hslice⟩,rfl⟩ := h.names
  have hread := Fs.read_healthy (h.healthy _) hfile
  refine ⟨fun hsame => ?_,fun absent hafter => ?_,fun n hn hafter => ?_⟩
  · have heq : undone later.disk configToml.secretKeyPath before = later.disk := by
      rw [undone,← hsame,Function.update_eq_self]
    rw [heq]
    exact ⟨rfl,rfl⟩
  · subst absent
    have hfile' : (undone later.disk configToml.secretKeyPath none).files later.path =
        some data := by
      rw [← hfile]
      exact Function.update_of_ne h.elsewhere _ _
    have hread' := Fs.read_healthy (d := undone later.disk configToml.secretKeyPath none)
      (h.healthy _) hfile'
    have hkey := getSecretKey_healthy C (d := later.disk.tick) (h.healthy _) hafter later.generated
    rw [undo] at hkey
    have hkey' := getSecretKey_generates C
      (d := (undone later.disk configToml.secretKeyPath none).tick) h.healthy generated
      (Function.update_self _ _ _)
    rw [SameLoad,fromFile_of_key C hread hslice hkey,fromFile_of_key C hread' hslice hkey']
    refine ⟨rfl,?_⟩
    simp [undone,Disk.setFile_files,← hafter]
  · have hlen : ((C.toBytes generated).toList.take n).length ≠ 32 := by
      rw [List.length_take,Vector.length_toList]
      omega
    have hkey := getSecretKey_incorrect C (d := later.disk.tick) h.healthy later.generated hafter
      hlen
    rw [fromFile_of_keyError C hread hslice hkey]
    rfl

/-- A call that fails changes no file that exists, and creates none but that of the secret key;
what it leaves of it, and what later calls make of that. -/
theorem failed_load_leaves (undo : ∀ sk, C.fromBytes (C.toBytes sk) = sk) {generated : SK}
    {path : String} {d d' : Disk} {r : Option (ConfigError TE KE)}
    (failed : fromFile C generated path d = (.error r,d')) :
    ∃ e, r = some e ∧ FailedLoad C generated path d e d' ∧
      ∀ configToml, Says C d path configToml → ∀ later : Call SK,
        LaterCall C configToml.secretKeyPath later →
        later.disk.files configToml.secretKeyPath = d'.files configToml.secretKeyPath →
        LaterLoad C generated configToml.secretKeyPath (d.files configToml.secretKeyPath)
          (d'.files configToml.secretKeyPath) later := by
  obtain ⟨e,rfl,hfailed⟩ := (fromFile_cases C failed).failed
  refine ⟨e,rfl,hfailed,fun configToml _ later hlater hfound => ?_⟩
  rw [← hfound]
  exact hlater.load undo generated _

end Failures

/-- The rejected configuration is corrected, and the key stays what the rejected call made. -/
theorem failed_load_leaves_key :
    let node := nodeEntry lineCrates plainKeys 1
    let corrected := configDisk lineCrates node onePeer (plainKeys 5)
    ∃ d', fromFile lineCrates (plainKeys 5) "config.toml" strayDisk =
      (.error (some .ipv4NotInSubnet),d') ∧
      FailedLoad lineCrates (plainKeys 5) "config.toml" strayDisk .ipv4NotInSubnet d' ∧
      SameLoad lineCrates "config.toml" (plainKeys 6) corrected (plainKeys 5)
        (undone corrected node.secretPath none) := by
  intro node corrected
  obtain ⟨d',hload,hkey⟩ := fromFile_strayDisk (plainKeys 5)
  obtain ⟨e,he,hfailed,hlater⟩ := failed_load_leaves (fun _ => rfl) hload
  obtain rfl := Option.some.inj he
  have hdecoded : Says lineCrates corrected "config.toml" (decoded node onePeer) :=
    (says_configDisk _ lineCrates_lawful (nodeEntry_plain _ _ lineCrates_lawful 1) onePeer_plain
      (List.cons_ne_nil _ _)).mpr rfl
  have absent : strayDisk.files strayNode.secretPath = none :=
    freshDisk_absent strayNode onePeer _ (secretPath_ne_config 1)
  have hcorrected : corrected.files strayNode.secretPath = some (plainKeys 5).toList :=
    configDisk_key lineCrates node onePeer (plainKeys 5) (secretPath_ne_config 1)
  have hcall : LaterCall lineCrates (decoded strayNode onePeer).secretKeyPath
      ⟨corrected,"config.toml",plainKeys 6⟩ :=
    ⟨fun _ => rfl,(secretPath_ne_config 1).symm,decoded node onePeer,hdecoded,rfl⟩
  have hrest := hlater _ (says_strayDisk.mpr rfl) _ hcall (hcorrected.trans hkey.symm)
  exact ⟨d',hload,hfailed,hrest.keyWritten absent hkey⟩

def shortWrite (n : Nat) : Option Fault := if n = 2 then some ⟨.other,some 10⟩ else none

def shortDisk : Disk := freshDisk (nodeEntry lineCrates plainKeys 1) onePeer shortWrite

theorem fromFile_shortDisk : ∃ d', fromFile lineCrates (plainKeys 5) "config.toml" shortDisk =
      (.error (some (.secretKeyError (.getKeyError .other))),d') ∧
      d'.files (secretPath 1) = some ((plainKeys 5).toList.take 10) := by
  have hslice := fromSlice_decoded lineCrates lineCrates_lawful
    (nodeEntry_plain lineCrates plainKeys lineCrates_lawful 1) onePeer_plain (List.cons_ne_nil _ _)
  have hfile : shortDisk.files "config.toml" = some (encode (renderLines (configLines
    (nodeEntry lineCrates plainKeys 1) onePeer))) := freshDisk_config _ _ _
  have absent : shortDisk.files (secretPath 1) = none :=
    freshDisk_absent _ onePeer _ (secretPath_ne_config 1)
  have hread : Fs.read (secretPath 1) shortDisk.tick = (.error .notFound,shortDisk.tick.tick) := by
    unfold Fs.read
    rw [Disk.tick_files,absent]
    rfl
  have hwrite : Fs.write (secretPath 1) (plainKeys 5).toList shortDisk.tick.tick =
      (.error .other,shortDisk.tick.tick.tick.setFile (secretPath 1)
        ((plainKeys 5).toList.take 10)) := rfl
  have hgen : genSecretKey lineCrates (plainKeys 5) (secretPath 1) shortDisk.tick.tick = _ :=
    Fs.bind_of_error hwrite
  have hkey : getSecretKey lineCrates (plainKeys 5) (secretPath 1) shortDisk.tick =
      (.error (some (.getKeyError .other)),shortDisk.tick.tick.tick.setFile (secretPath 1)
        ((plainKeys 5).toList.take 10)) := by
    unfold getSecretKey
    rw [hread]
    exact Fs.mapError_of_error hgen
  exact ⟨_,fromFile_of_keyError lineCrates (Fs.read_healthy rfl hfile) hslice hkey,
    by simp [Disk.setFile_files]⟩

/-- The first call is rejected because of an address and leaves a key where there was none.
The second one fails while it writes the key, and no later call accepts what is left of it. -/
theorem failed_loads_create_key_file :
    (∃ d', fromFile lineCrates (plainKeys 5) "config.toml" strayDisk =
      (.error (some .ipv4NotInSubnet),d') ∧
      Says lineCrates strayDisk "config.toml" (decoded strayNode onePeer) ∧
      strayDisk.files (decoded strayNode onePeer).secretKeyPath = none ∧
      d'.files (decoded strayNode onePeer).secretKeyPath = some (plainKeys 5).toList) ∧
    ∃ d', fromFile lineCrates (plainKeys 5) "config.toml" shortDisk =
      (.error (some (.secretKeyError (.getKeyError .other))),d') ∧
      shortDisk.files (secretPath 1) = none ∧ d'.files (secretPath 1) ≠ none ∧
      (fromFile lineCrates (plainKeys 6) "config.toml" d'.healthy).1 =
        .error (some (.secretKeyError .incorrectKey)) := by
  have hplain := nodeEntry_plain lineCrates plainKeys lineCrates_lawful 1
  have says_iff : ∀ {d : Disk}, d.files "config.toml" = shortDisk.files "config.toml" →
      ∀ {configToml}, Says lineCrates d "config.toml" configToml ↔
        configToml = decoded (nodeEntry lineCrates plainKeys 1) onePeer := by
    intro d hfile
    rw [shortDisk,freshDisk_config] at hfile
    exact says_configLines lineCrates lineCrates_lawful hplain onePeer_plain
      (List.cons_ne_nil _ _) hfile
  obtain ⟨d₁,hstray,hkey₁⟩ := fromFile_strayDisk (plainKeys 5)
  obtain ⟨d₂,hshort,hkey₂⟩ := fromFile_shortDisk
  obtain ⟨e,-,hfailed⟩ := (fromFile_cases _ hshort).failed
  have hconfig : d₂.files "config.toml" = shortDisk.files "config.toml" :=
    hfailed.elsewhere _ ((says_iff rfl).mpr rfl) _ (secretPath_ne_config 1).symm
  have hcall : LaterCall lineCrates (secretPath 1) ⟨d₂.healthy,"config.toml",plainKeys 6⟩ :=
    ⟨fun _ => rfl,(secretPath_ne_config 1).symm,_,(says_iff hconfig).mpr rfl,rfl⟩
  have hlater := (hcall.load (fun _ => rfl) (plainKeys 5) none).cutShort 10 (by decide) hkey₂
  refine ⟨⟨d₁,hstray,says_strayDisk.mpr rfl,
    freshDisk_absent _ _ _ (secretPath_ne_config 1),hkey₁⟩,d₂,hshort,
    freshDisk_absent _ _ _ (secretPath_ne_config 1),?_,hlater⟩
  rw [hkey₂]
  exact Option.some_ne_none _

end MeshNetwork.ConfigFile
