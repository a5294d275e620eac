import MeshNetwork.GenConfigs

set_option autoImplicit false

namespace MeshNetwork.ConfigFile
open TomlLines

section Written

def headerLines (node : NodeEntry) : List Line :=
  [.comment " Path to the secret key",.text "secret_key_path" node.secretPath,.blank,
    .comment " Node IPv4 address",.text "node_ipv4" node.ip,.blank,
    .comment " Port for incoming connections (0 means random available port)",
    .number "listen_port" 0,.blank,.text "tun_name" node.tunName,.blank,
    .text "log_level" "debug",.blank,.comment " ==========================================",
    .comment " Adjacent nodes (Whitelist)",.comment " =========================================="]

def peerLines (node : NodeEntry) : List Line :=
  [.table "peers",.text "pub_key" node.pubKey,.text "ipv4" node.ip,.blank]

def configLines (node : NodeEntry) (peers : List NodeEntry) : List Line :=
  headerLines node ++ peers.flatMap peerLines

theorem renderLines_append (lines lines' : List Line) :
    renderLines (lines ++ lines') = renderLines lines ++ renderLines lines' := List.flatMap_append

theorem renderLines_headerLines (node : NodeEntry) :
    renderLines (headerLines node) = linesOf (header node) := by
  have hstrings : (headerLines node).map Line.render = header node := rfl
  rw [← hstrings,linesOf,List.flatMap_map]
  rfl

theorem renderLines_peerLines (node : NodeEntry) :
    renderLines (peerLines node) = linesOf (peerSection node) := by
  have hstrings : (peerLines node).map Line.render = peerSection node := rfl
  rw [← hstrings,linesOf,List.flatMap_map]
  rfl

theorem configText_eq (nodes : List NodeEntry) (node : NodeEntry) :
    configText nodes node = renderLines (configLines node (others nodes node.index)) := by
  have hpeers : ∀ peers : List NodeEntry,
      linesOf (peers.flatMap peerSection) = renderLines (peers.flatMap peerLines) := by
    intro peers
    induction peers with
    | nil => rfl
    | cons peer rest ih =>
      rw [List.flatMap_cons,List.flatMap_cons,renderLines_append,← ih,renderLines_peerLines]
      exact List.flatMap_append
  rw [configLines,renderLines_append,renderLines_headerLines,← hpeers]
  exact List.flatMap_append

/-- Nothing that is filled in for a node needs an escape. -/
structure PlainEntry (node : NodeEntry) : Prop where
  pubKey : isPlainText node.pubKey = true
  ip : isPlainText node.ip = true
  secretPath : isPlainText node.secretPath = true
  tunName : isPlainText node.tunName = true

theorem configLines_clean {node : NodeEntry} {peers : List NodeEntry} (h : PlainEntry node)
    (hpeers : ∀ peer ∈ peers, PlainEntry peer) : ∀ l ∈ configLines node peers, l.isClean = true := by
  have bareKeys : ∀ key ∈ ["secret_key_path","node_ipv4","tun_name","pub_key","ipv4"],
      isBareKey key = true := by decide
  intro l hl
  rcases List.mem_append.mp hl with hheader | hpeer
  · have hall : (headerLines node).all Line.isClean = true := by
      have hfixed : (headerLines ⟨0,"","","",""⟩).all Line.isClean = true := by decide
      have hempty : isPlainText "" = true := rfl
      simp only [headerLines,List.all_cons,Line.isClean,Bool.and_eq_true,h.secretPath,h.ip,
        h.tunName,hempty] at hfixed ⊢
      exact hfixed
    exact List.all_eq_true.mp hall l hheader
  · obtain ⟨peer,hp,hmem⟩ := List.mem_flatMap.mp hpeer
    have hplain := hpeers peer hp
    simp only [peerLines,List.mem_cons,List.not_mem_nil,or_false] at hmem
    rcases hmem with rfl | rfl | rfl | rfl
    · decide
    · simp [Line.isClean,hplain.pubKey,bareKeys]
    · simp [Line.isClean,hplain.ip,bareKeys]
    · rfl

theorem document_configLines (node : NodeEntry) (peers : List NodeEntry) :
    document (configLines node peers) =
      ⟨[("secret_key_path",.text node.secretPath),("node_ipv4",.text node.ip),
          ("listen_port",.number 0),("tun_name",.text node.tunName),("log_level",.text "debug")],
        peers.map fun peer =>
          ("peers",[("pub_key",.text peer.pubKey),("ipv4",.text peer.ip)])⟩ := by
  have hpeers : document (peers.flatMap peerLines) = ⟨[],peers.map fun peer =>
      ("peers",[("pub_key",.text peer.pubKey),("ipv4",.text peer.ip)])⟩ := by
    induction peers with
    | nil => rfl
    | cons peer rest ih =>
      simp only [List.flatMap_cons,peerLines,List.cons_append,List.nil_append,document,ih,
        List.map_cons]
  simp only [configLines,headerLines,List.cons_append,List.nil_append,document,hpeers]

theorem plainDocument_configLines (node : NodeEntry) (peers : List NodeEntry) :
    PlainDocument (document (configLines node peers)) := by
  rw [document_configLines]
  refine ⟨by simp,by simp,fun table ht => ?_⟩
  obtain ⟨peer,-,rfl⟩ := List.mem_map.mp ht
  exact ⟨rfl,by simp⟩

def decoded (node : NodeEntry) (peers : List NodeEntry) : ConfigToml where
  secretKeyPath := node.secretPath
  nodeIpv4 := node.ip
  tunName := some node.tunName
  listenPort := some 0
  mtu := none
  logLevel := some "debug"
  logPath := none
  peers := peers.map fun peer => ⟨peer.pubKey,peer.ip⟩

theorem ofDocument_configLines (node : NodeEntry) (peers : List NodeEntry) :
    ConfigToml.ofDocument (document (configLines node peers)) =
      if peers = [] then none else some (decoded node peers) := by
  have htables : (peers.map fun peer =>
      ("peers",[("pub_key",Value.text peer.pubKey),("ipv4",.text peer.ip)])).mapM Peer.ofTable =
      some (peers.map fun peer => ⟨peer.pubKey,peer.ip⟩) := by
    induction peers with
    | nil => rfl
    | cons peer rest ih =>
      simp [Peer.ofTable,string,field,ih]
  have hempty : peers.map (fun peer =>
      ("peers",[("pub_key",Value.text peer.pubKey),("ipv4",.text peer.ip)])) = [] ↔ peers = [] :=
    List.map_eq_nil_iff
  rw [document_configLines]
  generalize peers.map (fun peer =>
    ("peers",[("pub_key",Value.text peer.pubKey),("ipv4",.text peer.ip)])) = tables at *
  by_cases hp : peers = []
  · simp [ConfigToml.ofDocument,string,optionalString,optionalU16,field,hempty,hp]
  · simp [ConfigToml.ofDocument,string,optionalString,optionalU16,field,hempty,hp,htables,decoded]

end Written

theorem isPlainText_append (s s' : String) :
    isPlainText (s ++ s') = (isPlainText s && isPlainText s') := by
  simp [isPlainText]

theorem isPlainText_toString (n : Nat) : isPlainText (toString n) = true := by
  have hdigit : ∀ c : Char, c.isDigit = true → printable c = true ∧ c ≠ '"' ∧ c ≠ '\\' := by
    intro c hc
    refine ⟨?_,?_,?_⟩
    · simp only [Char.isDigit,Bool.and_eq_true,decide_eq_true_eq,UInt32.le_iff_toNat_le] at hc
      have h0 : '0'.val.toNat = 48 := rfl
      have h9 : '9'.val.toNat = 57 := rfl
      have hval : c.toNat = c.val.toNat := rfl
      simp only [printable,Bool.and_eq_true,decide_eq_true_eq]
      omega
    · rintro rfl
      simp at hc
    · rintro rfl
      simp at hc
  refine List.all_eq_true.mpr fun c hc => ?_
  rw [Nat.toString_eq_repr,Nat.toList_repr] at hc
  obtain ⟨hp,hq,hb⟩ := hdigit c (isDigit_toDigits hc)
  simp [hp,hq,hb]

/-- The address of a node, as long as its number fits into the last part. -/
def nodeAddress (i : Nat) : Ipv4Addr := ⟨10,67,1,UInt8.ofNat i⟩

theorem fromStr_nodeIp (i : Nat) : Ipv4Addr.fromStr ("10.67.1." ++ toString i) =
    if i ≤ 255 then .ok (nodeAddress i) else .error .ipv4 := by
  have hdots : ∀ cs ∈ ["10".toList,"67".toList,"1".toList], '.' ∉ cs := by decide
  have hdigits : '.' ∉ Nat.toDigits 10 i := fun hc => by simpa using isDigit_toDigits hc
  have hsplit : ("10.67.1." ++ toString i).toList = ['.'].intercalate
      ["10".toList,"67".toList,"1".toList,Nat.toDigits 10 i] := by
    simp [List.intercalate]
  rw [Ipv4Addr.fromStr_dotted hsplit (hdots _ (by simp)) (hdots _ (by simp)) (hdots _ (by simp))
    hdigits,Ipv4Addr.readOctet_toDigits]
  by_cases hi : i ≤ 255
  · simp only [hi,if_true]
    rfl
  · simp only [hi,if_false]
    rfl

theorem nodeAddress_injective {i j : Nat} (hi : i ≤ 255) (hj : j ≤ 255)
    (h : nodeAddress i = nodeAddress j) : i = j := by
  simp only [nodeAddress,Ipv4Addr.mk.injEq,true_and] at h
  have hnat := congrArg UInt8.toNat h
  simp only [UInt8.toNat_ofNat'] at hnat
  omega

section Stored
variable {SK K TE KE : Type} (C : Crates SK K TE KE) (keys : Nat → SK)

theorem nodeEntry_plain (laws : C.Lawful) (i : Nat) : PlainEntry (nodeEntry C keys i) where
  pubKey := laws.keyToString_plain _
  ip := by
    have hfixed : isPlainText "10.67.1." = true := by decide
    rw [nodeEntry,isPlainText_append,hfixed,isPlainText_toString]
    rfl
  secretPath := by
    have hfixed : isPlainText "tmp/secret" = true ∧ isPlainText ".key" = true := by decide
    rw [nodeEntry,secretPath,isPlainText_append,isPlainText_append,hfixed.1,hfixed.2,
      isPlainText_toString]
    rfl
  tunName := by
    have hfixed : isPlainText "tun" = true := by decide
    rw [nodeEntry,isPlainText_append,hfixed,isPlainText_toString]
    rfl

theorem fromStr_nodeEntry {i : Nat} (hi : i ≤ 255) :
    Ipv4Addr.fromStr (nodeEntry C keys i).ip = .ok (nodeAddress i) :=
  (fromStr_nodeIp i).trans (if_pos hi)

def movedEntry (i : Nat) (ip : String) : NodeEntry := { nodeEntry C keys i with ip := ip }

theorem movedEntry_plain (laws : C.Lawful) (i : Nat) {ip : String} (hip : isPlainText ip = true) :
    PlainEntry (movedEntry C keys i ip) :=
  { nodeEntry_plain C keys laws i with ip := hip }

theorem keyFromStr_movedEntry (laws : C.Lawful) (i : Nat) (ip : String) :
    C.keyFromStr (movedEntry C keys i ip).pubKey = .ok (C.publicKey (keys i)) :=
  laws.keyFromStr_keyToString _

theorem decoded_valid {node : NodeEntry} {peers : List NodeEntry} {ip : Ipv4Addr}
    (hip : Ipv4Addr.fromStr node.ip = .ok ip) (hs : ip.InSubnet)
    (hpeers : ∀ peer ∈ peers, ∃ ip k, Ipv4Addr.fromStr peer.ip = .ok ip ∧
      C.keyFromStr peer.pubKey = .ok k) : (decoded node peers).Valid C := by
  refine ⟨fun peer hp => ?_,⟨ip,hip,hs⟩,by simp [decoded,logLevels]⟩
  obtain ⟨entry,hentry,rfl⟩ := List.mem_map.mp hp
  exact hpeers entry hentry

theorem fromSlice_configLines (laws : C.Lawful) {node : NodeEntry} {peers : List NodeEntry}
    (h : PlainEntry node) (hpeers : ∀ peer ∈ peers, PlainEntry peer) :
    (C.fromSlice (encode (renderLines (configLines node peers)))).toOption =
      if peers = [] then none else some (decoded node peers) := by
  rw [laws.decodes _ (configLines_clean h hpeers) (plainDocument_configLines _ _),
    ofDocument_configLines]

theorem fromSlice_decoded (laws : C.Lawful) {node : NodeEntry} {peers : List NodeEntry}
    (h : PlainEntry node) (hpeers : ∀ peer ∈ peers, PlainEntry peer) (hne : peers ≠ []) :
    C.fromSlice (encode (renderLines (configLines node peers))) = .ok (decoded node peers) := by
  have hslice := fromSlice_configLines C laws h hpeers
  rw [if_neg hne] at hslice
  cases hx : C.fromSlice (encode (renderLines (configLines node peers))) with
  | error e => simp [hx,Except.toOption] at hslice
  | ok toml => simpa [hx,Except.toOption] using hslice

theorem getSecretKey_healthy {d : Disk} (healthy : d.fault = none) {path : String}
    {key : Vector UInt8 32} (h : d.files path = some key.toList) (generated : SK) :
    getSecretKey C generated path d = (.ok (C.fromBytes key),d.tick) := by
  unfold getSecretKey
  rw [Fs.read_healthy healthy h]
  simp [asArray_toList,unwrap,bind,pure]

/-- A file of the generator is loaded once it has a peer and its contents are in order. -/
theorem fromFile_configLines (laws : C.Lawful) {node : NodeEntry} {peers : List NodeEntry}
    (h : PlainEntry node) (hpeers : ∀ peer ∈ peers, PlainEntry peer) (hne : peers ≠ [])
    (valid : (decoded node peers).Valid C) {d : Disk} (healthy : ∀ n, d.faults n = none)
    {path : String} (hfile : d.files path = some (encode (renderLines (configLines node peers))))
    {secretKey : SK} (hkey : d.files node.secretPath = some (C.toBytes secretKey).toList)
    (generated : SK) : ∃ cfg d', fromFile C generated path d = (.ok cfg,d') ∧
      fromToml C (decoded node peers) secretKey = .ok cfg := by
  obtain ⟨cfg,hcfg⟩ := fromToml_total C valid secretKey
  have hsecret := getSecretKey_healthy C (d := d.tick) (healthy _) hkey generated
  rw [laws.fromBytes_toBytes] at hsecret
  exact ⟨cfg,d.tick.tick,fromFile_of C (Fs.read_healthy (healthy _) hfile)
    (fromSlice_decoded C laws h hpeers hne) hsecret hcfg,hcfg⟩

def configDisk (node : NodeEntry) (peers : List NodeEntry) (secretKey : SK) : Disk where
  files := Function.update
    (Function.update (fun _ => none) node.secretPath (some (C.toBytes secretKey).toList))
    "config.toml" (some (encode (renderLines (configLines node peers))))
  faults _ := none
  ops := 0

theorem configDisk_key (node : NodeEntry) (peers : List NodeEntry) (secretKey : SK)
    (hpath : node.secretPath ≠ "config.toml") :
    (configDisk C node peers secretKey).files node.secretPath =
      some (C.toBytes secretKey).toList := by
  simp [configDisk,Function.update_of_ne hpath]

theorem fromFile_configDisk (laws : C.Lawful) {node : NodeEntry} {peers : List NodeEntry}
    (h : PlainEntry node) (hpeers : ∀ peer ∈ peers, PlainEntry peer) (hne : peers ≠ [])
    (valid : (decoded node peers).Valid C) (hpath : node.secretPath ≠ "config.toml")
    (secretKey generated : SK) : ∃ cfg d',
      fromFile C generated "config.toml" (configDisk C node peers secretKey) = (.ok cfg,d') ∧
        fromToml C (decoded node peers) secretKey = .ok cfg := by
  refine fromFile_configLines C laws h hpeers hne valid (fun _ => rfl) ?_ ?_ generated
  · simp [configDisk]
  · exact configDisk_key C node peers secretKey hpath

end Stored

def plainKeys (i : Nat) : Vector UInt8 32 := Vector.replicate 32 (UInt8.ofNat i)

end MeshNetwork.ConfigFile
