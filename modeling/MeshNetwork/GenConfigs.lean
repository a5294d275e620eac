import MeshNetwork.ConfigCrates
import MeshNetwork.ConfigSteps

set_option autoImplicit false

namespace MeshNetwork.ConfigFile
open TomlLines

structure NodeEntry where
  index : Nat
  pubKey : String
  ip : String
  secretPath : String
  tunName : String

def configPath (i : Nat) : String := "tmp/node_" ++ toString i ++ ".toml"

def secretPath (i : Nat) : String := "tmp/secret" ++ toString i ++ ".key"

def createDirAll : Fs ErrorKind Unit := fun d =>
  match d.fault with
  | none => (.ok (),d.tick)
  | some f => (.error f.kind,d.tick)

def writelns (path : String) : List String → Fs ErrorKind Unit
  | [] => pure ()
  | s :: rest => do
    Fs.append path (encode (s.toList ++ ['\n']))
    writelns path rest

def header (node : NodeEntry) : List String :=
  ["# Path to the secret key",
    "secret_key_path = \"" ++ node.secretPath ++ "\"",
    "",
    "# Node IPv4 address",
    "node_ipv4 = \"" ++ node.ip ++ "\"",
    "",
    "# Port for incoming connections (0 means random available port)",
    "listen_port = 0",
    "",
    "tun_name = \"" ++ node.tunName ++ "\"",
    "",
    "log_level = \"debug\"",
    "",
    "# ==========================================",
    "# Adjacent nodes (Whitelist)",
    "# =========================================="]

def peerSection (node : NodeEntry) : List String :=
  ["[[peers]]",
    "pub_key = \"" ++ node.pubKey ++ "\"",
    "ipv4 = \"" ++ node.ip ++ "\"",
    ""]

def writePeers (path : String) (i : Nat) : List NodeEntry → Fs ErrorKind Unit
  | [] => pure ()
  | node :: rest => do
    if i = node.index then writePeers path i rest
    else
      writelns path (peerSection node)
      writePeers path i rest

def writeConfigs (nodes : List NodeEntry) : List NodeEntry → Fs ErrorKind Unit
  | [] => pure ()
  | node :: rest => do
    Fs.create (configPath node.index)
    writelns (configPath node.index) (header node)
    writePeers (configPath node.index) node.index nodes
    writeConfigs nodes rest

section Generate
variable {SK K TE KE : Type} (C : Crates SK K TE KE) (keys : Nat → SK)

def nodeEntry (i : Nat) : NodeEntry where
  index := i
  pubKey := C.keyToString (C.publicKey (keys i))
  ip := "10.67.1." ++ toString i
  secretPath := secretPath i
  tunName := "tun" ++ toString i

/-- `keys i` is the key that is generated in round `i`. -/
def genNodes : List Nat → Fs ErrorKind (List NodeEntry)
  | [] => return []
  | i :: rest => do
    Fs.write (secretPath i) (C.toBytes (keys i)).toList
    let nodes ← genNodes rest
    return nodeEntry C keys i :: nodes

/-- `main` for a number `n`; `tmpExists` is whether the directory is there. -/
def genConfigs (tmpExists : Bool) (n : Nat) : Fs ErrorKind Unit := do
  (if !tmpExists then createDirAll else pure ())
  let nodes ← genNodes C keys (List.range' 1 n)
  writeConfigs nodes nodes

end Generate

theorem toString_injective {i j : Nat} (h : toString i = toString j) : i = j := by
  have hl := congrArg String.toList h
  simp only [Nat.toString_eq_repr,Nat.toList_repr] at hl
  exact toDigits_injective hl

theorem configPath_injective {i j : Nat} (h : configPath i = configPath j) : i = j := by
  have hl := congrArg String.toList h
  simp only [configPath,String.toList_append,List.append_cancel_right_eq,
    List.append_cancel_left_eq] at hl
  exact toString_injective (String.toList_inj.mp hl)

theorem secretPath_injective {i j : Nat} (h : secretPath i = secretPath j) : i = j := by
  have hl := congrArg String.toList h
  simp only [secretPath,String.toList_append,List.append_cancel_right_eq,
    List.append_cancel_left_eq] at hl
  exact toString_injective (String.toList_inj.mp hl)

theorem secretPath_ne_configPath (i j : Nat) : secretPath i ≠ configPath j := by
  intro h
  have hl := congrArg String.toList h
  simp [secretPath,configPath] at hl

theorem secretPath_ne_config (i : Nat) : secretPath i ≠ "config.toml" := by
  intro h
  have hl := congrArg String.toList h
  simp [secretPath] at hl

def linesOf (ss : List String) : List Char := ss.flatMap fun s => s.toList ++ ['\n']

theorem writelns_ok {path : String} {ss : List String} {d d' : Disk} {old : List UInt8}
    (h : writelns path ss d = (.ok (),d')) (hold : d.files path = some old) :
    d'.files = Function.update d.files path (some (old ++ encode (linesOf ss))) := by
  induction ss generalizing d old with
  | nil =>
    simp only [writelns,pure,Prod.mk.injEq,true_and] at h
    subst h
    simp [linesOf,encode,← hold]
  | cons s rest ih =>
    obtain ⟨u,d₁,hs,hrest⟩ := Fs.bind_ok h
    have hd₁ := Fs.put_ok hs
    have hfile : d₁.files path = some (old ++ encode (s.toList ++ ['\n'])) := by
      rw [hd₁]
      simp [Disk.setFile_files,hold]
    rw [ih hrest hfile,hd₁]
    simp [Disk.setFile_files,linesOf,encode]

def others (nodes : List NodeEntry) (i : Nat) : List NodeEntry :=
  nodes.filter fun node => i ≠ node.index

theorem writePeers_ok {path : String} {i : Nat} {nodes : List NodeEntry} {d d' : Disk}
    {old : List UInt8} (h : writePeers path i nodes d = (.ok (),d'))
    (hold : d.files path = some old) : d'.files = Function.update d.files path
      (some (old ++ encode (linesOf ((others nodes i).flatMap peerSection)))) := by
  induction nodes generalizing d old with
  | nil =>
    simp only [writePeers,pure,Prod.mk.injEq,true_and] at h
    subst h
    simp [others,linesOf,encode,← hold]
  | cons node rest ih =>
    by_cases hi : i = node.index
    · simp only [writePeers,hi,if_true] at h
      rw [← hi] at h
      rw [ih h hold]
      simp [others,hi]
    · simp only [writePeers,hi,if_false] at h
      obtain ⟨u,d₁,hs,hrest⟩ := Fs.bind_ok h
      have hd₁ := writelns_ok hs hold
      have hfile : d₁.files path = some (old ++ encode (linesOf (peerSection node))) := by
        rw [hd₁]
        simp
      rw [ih hrest hfile,hd₁]
      simp [others,hi,linesOf,encode]

def configText (nodes : List NodeEntry) (node : NodeEntry) : List Char :=
  linesOf (header node ++ (others nodes node.index).flatMap peerSection)

structure ConfigsWritten (nodes written : List NodeEntry) (d d' : Disk) : Prop where
  files : ∀ node ∈ written, d'.files (configPath node.index) =
    some (encode (configText nodes node))
  others : ∀ path, (∀ node ∈ written, path ≠ configPath node.index) →
    d'.files path = d.files path

theorem writeConfigs_ok {nodes written : List NodeEntry} {d d' : Disk}
    (h : writeConfigs nodes written d = (.ok (),d'))
    (distinct : (written.map NodeEntry.index).Nodup) : ConfigsWritten nodes written d d' := by
  induction written generalizing d with
  | nil =>
    simp only [writeConfigs,pure,Prod.mk.injEq,true_and] at h
    subst h
    exact ⟨by simp,fun _ _ => rfl⟩
  | cons node rest ih =>
    obtain ⟨u₁,d₁,hcreate,hrest₁⟩ := Fs.bind_ok h
    obtain ⟨u₂,d₂,hheader,hrest₂⟩ := Fs.bind_ok hrest₁
    obtain ⟨u₃,d₃,hpeers,hrest₃⟩ := Fs.bind_ok hrest₂
    rw [List.map_cons,List.nodup_cons] at distinct
    have hd₁ := Fs.put_ok hcreate
    have hempty : d₁.files (configPath node.index) = some [] := by
      rw [hd₁]
      simp [Disk.setFile_files]
    have hd₂ := writelns_ok hheader hempty
    have hd₃ := writePeers_ok hpeers (by rw [hd₂]; exact Function.update_self _ _ _)
    have hfiles : d₃.files = Function.update d.files (configPath node.index)
        (some (encode (configText nodes node))) := by
      rw [hd₃,hd₂,hd₁]
      simp [Disk.setFile_files,configText,linesOf,encode]
    have hw := ih hrest₃ distinct.2
    refine ⟨fun x hx => ?_,fun path hpath => ?_⟩
    · rcases List.mem_cons.mp hx with rfl | hmem
      · rw [hw.others _ fun y hy heq => ?_,hfiles,Function.update_self]
        have hindex := configPath_injective heq
        exact distinct.1 (List.mem_map.mpr ⟨y,hy,hindex.symm⟩)
      · exact hw.files x hmem
    · rw [hw.others path fun y hy => hpath y (List.mem_cons_of_mem _ hy),hfiles,
        Function.update_of_ne (hpath node List.mem_cons_self)]

section Generated
variable {SK K TE KE : Type} (C : Crates SK K TE KE) (keys : Nat → SK)

theorem genNodes_ok {is : List Nat} {nodes : List NodeEntry} {d d' : Disk}
    (h : genNodes C keys is d = (.ok nodes,d')) (distinct : is.Nodup) :
    nodes = is.map (nodeEntry C keys) ∧
      (∀ i ∈ is, d'.files (secretPath i) = some (C.toBytes (keys i)).toList) ∧
      ∀ path, (∀ i ∈ is, path ≠ secretPath i) → d'.files path = d.files path := by
  induction is generalizing nodes d with
  | nil =>
    simp only [genNodes,pure,Prod.mk.injEq,Except.ok.injEq] at h
    obtain ⟨rfl,rfl⟩ := h
    exact ⟨rfl,by simp,fun _ _ => rfl⟩
  | cons i rest ih =>
    obtain ⟨u,d₁,hwrite,hrest₁⟩ := Fs.bind_ok h
    obtain ⟨tail,d₂,htail,hrest₂⟩ := Fs.bind_ok hrest₁
    simp only [pure,Prod.mk.injEq,Except.ok.injEq] at hrest₂
    obtain ⟨rfl,rfl⟩ := hrest₂
    rw [List.nodup_cons] at distinct
    obtain ⟨rfl,hfiles,hothers⟩ := ih htail distinct.2
    have hd₁ := Fs.put_ok hwrite
    refine ⟨rfl,fun j hj => ?_,fun path hpath => ?_⟩
    · rcases List.mem_cons.mp hj with rfl | hmem
      · rw [hothers _ fun y hy heq => ?_,hd₁]
        · simp [Disk.setFile_files]
        · rw [secretPath_injective heq] at distinct
          exact distinct.1 hy
      · exact hfiles j hmem
    · rw [hothers path fun y hy => hpath y (List.mem_cons_of_mem _ hy),hd₁]
      simp [Disk.setFile_files,Function.update_of_ne (hpath i List.mem_cons_self)]

theorem genConfigs_ok {tmpExists : Bool} {n : Nat} {d d' : Disk}
    (h : genConfigs C keys tmpExists n d = (.ok (),d')) {i : Nat} (hi : i ∈ List.range' 1 n) :
    d'.files (secretPath i) = some (C.toBytes (keys i)).toList ∧
      d'.files (configPath i) = some (encode (configText ((List.range' 1 n).map (nodeEntry C keys))
        (nodeEntry C keys i))) := by
  obtain ⟨u,d₁,-,hrest₁⟩ := Fs.bind_ok h
  obtain ⟨nodes,d₂,hnodes,hconfigs⟩ := Fs.bind_ok hrest₁
  obtain ⟨rfl,hsecrets,-⟩ := genNodes_ok C keys hnodes List.nodup_range'
  have hindex : ((List.range' 1 n).map (nodeEntry C keys)).map NodeEntry.index =
      List.range' 1 n := by
    simp [List.map_map,Function.comp_def,nodeEntry]
  have hdistinct : (((List.range' 1 n).map (nodeEntry C keys)).map NodeEntry.index).Nodup := by
    rw [hindex]
    exact List.nodup_range'
  have hw := writeConfigs_ok hconfigs hdistinct
  have hmem : nodeEntry C keys i ∈ (List.range' 1 n).map (nodeEntry C keys) :=
    List.mem_map_of_mem hi
  have hkept := hw.others (secretPath i) fun node _ => secretPath_ne_configPath i node.index
  exact ⟨hkept.trans (hsecrets i hi),hw.files (nodeEntry C keys i) hmem⟩

theorem writelns_finishes (path : String) (ss : List String) : (writelns path ss).Finishes := by
  induction ss with
  | nil => exact Fs.Finishes.pure ()
  | cons s rest ih => exact (Fs.append_finishes path _).bind fun _ => ih

theorem writePeers_finishes (path : String) (i : Nat) (nodes : List NodeEntry) :
    (writePeers path i nodes).Finishes := by
  induction nodes with
  | nil => exact Fs.Finishes.pure ()
  | cons node rest ih =>
    by_cases hi : i = node.index
    · simpa only [writePeers,hi,if_true] using ih
    · simp only [writePeers,hi,if_false]
      exact (writelns_finishes path _).bind fun _ => ih

theorem writeConfigs_finishes (nodes written : List NodeEntry) :
    (writeConfigs nodes written).Finishes := by
  induction written with
  | nil => exact Fs.Finishes.pure ()
  | cons node rest ih =>
    refine (Fs.put_finishes _ _ _).bind fun _ => ?_
    refine (writelns_finishes _ _).bind fun _ => ?_
    exact (writePeers_finishes _ _ _).bind fun _ => ih

theorem genNodes_finishes (is : List Nat) : (genNodes C keys is).Finishes := by
  induction is with
  | nil => exact Fs.Finishes.pure []
  | cons i rest ih =>
    refine (Fs.put_finishes _ _ _).bind fun _ => ?_
    exact ih.bind fun nodes => Fs.Finishes.pure _

theorem genConfigs_finishes (tmpExists : Bool) (n : Nat) :
    (genConfigs C keys tmpExists n).Finishes := by
  have hdir : Fs.Finishes (if !tmpExists then createDirAll else pure ()) := by
    cases tmpExists with
    | true => exact Fs.Finishes.pure ()
    | false => exact fun d healthy => ⟨(),d.tick,by simp [createDirAll,Disk.fault,healthy],rfl⟩
  refine hdir.bind fun _ => ?_
  exact (genNodes_finishes C keys _).bind fun nodes => writeConfigs_finishes nodes nodes

end Generated
end MeshNetwork.ConfigFile
