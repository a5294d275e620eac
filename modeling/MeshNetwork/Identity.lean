import MeshNetwork.KeyFile
import MeshNetwork.LabelledRuns

set_option autoImplicit false

namespace MeshNetwork.ConfigFile
open Runs

/-- A call that was made, with the file of the secret key before and after it. -/
structure Load (SK K TE KE : Type) where
  before : Option (List UInt8)
  result : Except (Option (ConfigError TE KE)) (Config SK K)
  after : Option (List UInt8)

section Loads
variable {SK K TE KE : Type} (C : Crates SK K TE KE)

/-- Calls whose configurations name `keyPath`; the state is what that file contains. -/
def loads (keyPath : String) : System (Option (List UInt8)) (Call SK) (Load SK K TE KE) where
  enabled key call := call.disk.files keyPath = key ∧
    ∀ configToml, Says C call.disk call.path configToml → configToml.secretKeyPath = keyPath
  next _ call := (fromFile C call.generated call.path call.disk).2.files keyPath
  shows key call := [{
    before := key
    result := (fromFile C call.generated call.path call.disk).1
    after := (fromFile C call.generated call.path call.disk).2.files keyPath }]

structure StableIdentity (initial key : Option (List UInt8)) (tr : List (Load SK K TE KE)) :
    Prop where
  kept : ∀ data, initial = some data → key = some data
  untouched : ∀ load ∈ tr, ∀ data, load.before = some data → load.after = some data
  noPanic : ∀ load ∈ tr, load.result ≠ .error none
  stored : ∀ load ∈ tr, ∀ cfg, load.result = .ok cfg → ∃ bytes : Vector UInt8 32,
    load.after = some bytes.toList ∧ key = some bytes.toList ∧
      cfg.secretKey = C.fromBytes bytes ∧
      ((∀ bytes, C.toBytes (C.fromBytes bytes) = bytes) → C.toBytes cfg.secretKey = bytes)

theorem StableIdentity.load {initial key : Option (List UInt8)} {tr : List (Load SK K TE KE)}
    (undo : ∀ sk, C.fromBytes (C.toBytes sk) = sk) (h : StableIdentity C initial key tr)
    {keyPath : String} {call : Call SK} (hen : (loads C keyPath).enabled key call) :
    StableIdentity C initial ((loads C keyPath).next key call)
      (tr ++ (loads C keyPath).shows key call) := by
  obtain ⟨rfl,names⟩ := hen
  have hcases : FileLoad C call.generated call.path call.disk
      (fromFile C call.generated call.path call.disk).1
      (fromFile C call.generated call.path call.disk).2 := fromFile_cases C rfl
  have hload := hcases.keyKept undo names
  refine ⟨fun data hdata => ?_,?_,?_,?_⟩
  · exact hload.untouched data (h.kept data hdata)
  · intro load hmem data hdata
    rcases List.mem_append.mp hmem with hold | hnew
    · exact h.untouched load hold data hdata
    · rw [List.mem_singleton.mp hnew] at hdata ⊢
      exact hload.untouched data hdata
  · intro load hmem
    rcases List.mem_append.mp hmem with hold | hnew
    · exact h.noPanic load hold
    · rw [List.mem_singleton.mp hnew]
      exact hload.noPanic
  · intro load hmem cfg hcfg
    rcases List.mem_append.mp hmem with hold | hnew
    · obtain ⟨bytes,hafter,hkey,hrest⟩ := h.stored load hold cfg hcfg
      exact ⟨bytes,hafter,hload.untouched _ hkey,hrest⟩
    · rw [List.mem_singleton.mp hnew] at hcfg ⊢
      obtain ⟨bytes,hfile,hsk⟩ := hload.stored cfg hcfg
      exact ⟨bytes,hfile,hfile,hsk,fun redo => by rw [hsk,redo bytes]⟩

theorem run_load {keyPath : String} {initial key : Option (List UInt8)}
    {tr : List (Load SK K TE KE)} (run : Run (loads C keyPath) anyStep initial key tr) {d d' : Disk}
    {path : String} {generated : SK} {r : Except (Option (ConfigError TE KE)) (Config SK K)}
    (load : fromFile C generated path d = (r,d')) (found : d.files keyPath = key)
    (names : ∀ configToml, Says C d path configToml → configToml.secretKeyPath = keyPath) :
    Run (loads C keyPath) anyStep initial (d'.files keyPath)
      (tr ++ [⟨key,r,d'.files keyPath⟩]) := by
  have hrun := run.snoc ⟨d,path,generated⟩ trivial ⟨found,names⟩
  simpa only [loads,load] using hrun

theorem StableIdentity.agree {initial key : Option (List UInt8)} {tr : List (Load SK K TE KE)}
    (h : StableIdentity C initial key tr) {load load' : Load SK K TE KE} (hl : load ∈ tr)
    (hl' : load' ∈ tr) {cfg cfg' : Config SK K} (hcfg : load.result = .ok cfg)
    (hcfg' : load'.result = .ok cfg') : cfg.secretKey = cfg'.secretKey := by
  obtain ⟨bytes,-,hkey,hsk,-⟩ := h.stored load hl cfg hcfg
  obtain ⟨bytes',-,hkey',hsk',-⟩ := h.stored load' hl' cfg' hcfg'
  rw [hkey,Option.some.injEq] at hkey'
  rw [hsk,hsk',Vector.toList_inj.mp hkey']

theorem identity_is_stable (undo : ∀ sk, C.fromBytes (C.toBytes sk) = sk) (keyPath : String)
    {initial key : Option (List UInt8)} {tr : List (Load SK K TE KE)}
    (run : Run (loads C keyPath) anyStep initial key tr) : StableIdentity C initial key tr ∧
      ∀ load ∈ tr, ∀ load' ∈ tr, ∀ cfg cfg', load.result = .ok cfg → load'.result = .ok cfg' →
        cfg.secretKey = cfg'.secretKey := by
  have h : StableIdentity C initial key tr := by
    refine run.invariant (StableIdentity C initial) ?_ ?_
    · exact ⟨fun data h => h,by simp,by simp,by simp⟩
    · intro key tr call h _ hen
      exact h.load C undo hen
  exact ⟨h,fun load hl load' hl' cfg cfg' hcfg hcfg' => h.agree C hl hl' hcfg hcfg'⟩

end Loads

/-- The first start is rejected after it has generated a key, and the second one, with a
corrected configuration, loads a key. -/
theorem identity_is_stable_restart :
    ∃ key tr, StableIdentity lineCrates none key tr ∧ ∃ first second : Load _ _ Unit Unit,
      tr = [first,second] ∧ first.result = .error (some .ipv4NotInSubnet) ∧
        ∃ cfg, second.result = .ok cfg := by
  let node := nodeEntry lineCrates plainKeys 1
  have hplain := nodeEntry_plain lineCrates plainKeys lineCrates_lawful 1
  obtain ⟨d₁,hload₁,hkey₁⟩ := fromFile_strayDisk (plainKeys 5)
  have hip := fromStr_nodeEntry lineCrates plainKeys (show 1 ≤ 255 by decide)
  obtain ⟨cfg,d₂,hload₂,-⟩ := fromFile_configDisk lineCrates lineCrates_lawful hplain onePeer_plain
    (List.cons_ne_nil _ _) (decoded_valid _ hip (by decide) onePeer_listed)
    (secretPath_ne_config 1) (plainKeys 5) (plainKeys 6)
  have run₀ : Run (loads lineCrates node.secretPath) anyStep none none [] := .nil
  have absent := freshDisk_absent strayNode onePeer (fun _ => none) (secretPath_ne_config 1)
  have run₁ := run_load lineCrates run₀ hload₁ absent fun configToml h => by
    rw [says_strayDisk.mp h]
    rfl
  have hfound := configDisk_key lineCrates node onePeer (plainKeys 5) (secretPath_ne_config 1)
  have run₂ := run_load lineCrates run₁ hload₂ (hfound.trans hkey₁.symm) fun configToml h => by
    rw [(says_configDisk _ lineCrates_lawful hplain onePeer_plain (List.cons_ne_nil _ _)).mp h]
    rfl
  exact ⟨_,_,(identity_is_stable lineCrates (fun _ => rfl) _ run₂).1,_,_,rfl,rfl,cfg,rfl⟩

end MeshNetwork.ConfigFile
