import Mathlib.Data.Finmap
import MeshNetwork.AddressText
import MeshNetwork.Io
import MeshNetwork.TomlLines

/-!
The configuration of `config.rs`. Decoding the file and the text of keys are the work of
other crates, whose functions the definitions take as a parameter. An error `none` is a
panic.
-/

set_option autoImplicit false

namespace MeshNetwork

def Ipv4Addr.subnet : Ipv4Addr := ⟨10,67,0,0⟩

def Ipv4Addr.netmask : Ipv4Addr := ⟨255,255,0,0⟩

def Ipv4Addr.InSubnet (ip : Ipv4Addr) : Prop := ip.and netmask = subnet

instance (ip : Ipv4Addr) : Decidable ip.InSubnet := inferInstanceAs (Decidable (_ = _))

theorem Ipv4Addr.inSubnet_iff {ip : Ipv4Addr} : ip.InSubnet ↔ ip.a = 10 ∧ ip.b = 67 := by
  have hall : ∀ x : UInt8, x &&& 255 = x := by
    intro x
    apply UInt8.toNat_inj.mp
    have hmod : x.toNat &&& 255 = x.toNat % 256 := Nat.and_two_pow_sub_one_eq_mod _ 8
    have hx := x.toNat_lt
    rw [UInt8.toNat_and]
    change x.toNat &&& 255 = x.toNat
    omega
  simp [InSubnet,Ipv4Addr.and,netmask,subnet,hall]

namespace ConfigFile

def defaultListenPort : UInt16 := 0

def defaultMtu : UInt16 := 1500

def defaultTunName : String := "iroh_vpn"

structure Config (SK K : Type) where
  secretKey : SK
  nodeIpv4 : Ipv4Addr
  netmask : Ipv4Addr
  tunName : String
  listenPort : UInt16
  mtu : UInt16
  logLevel : String
  logPath : Option String
  peers : Finmap fun _ : Ipv4Addr => K

structure Peer where
  pubKey : String
  ipv4 : String
  deriving DecidableEq

structure ConfigToml where
  secretKeyPath : String
  nodeIpv4 : String
  tunName : Option String
  listenPort : Option UInt16
  mtu : Option UInt16
  logLevel : Option String
  logPath : Option String
  peers : List Peer
  deriving DecidableEq

inductive SecretKeyError where
  | getKeyError (e : ErrorKind)
  | incorrectKey
  deriving DecidableEq

inductive ConfigError (TE KE : Type) where
  | openFileError (e : ErrorKind)
  | formatParsingError (e : TE)
  | secretKeyError (e : SecretKeyError)
  | ipv4ParseError (e : AddrParseError)
  | publicKeyParseError (e : KE)
  | ipv4NotInSubnet
  | incorrectLogLevel
  deriving DecidableEq

/-- What the program uses of `toml` and of the keys of `iroh`. -/
structure Crates (SK K TE KE : Type) where
  fromSlice : List UInt8 → Except TE ConfigToml
  keyFromStr : String → Except KE K
  keyToString : K → String
  fromBytes : Vector UInt8 32 → SK
  toBytes : SK → Vector UInt8 32
  publicKey : SK → K

def asArray (data : List UInt8) : Option (Vector UInt8 32) :=
  if h : data.length = 32 then some ⟨data.toArray,h⟩ else none

theorem asArray_toList (v : Vector UInt8 32) : asArray v.toList = some v := by
  simp [asArray,Vector.toList]

def unwrap {ε α : Type} : Option α → Fs (Option ε) α
  | some a => pure a
  | none => Fs.fail none

section Load
variable {SK K TE KE : Type} (C : Crates SK K TE KE)

def genSecretKey (generated : SK) (path : String) : Fs ErrorKind SK := do
  Fs.write path (C.toBytes generated).toList
  return generated

def getSecretKey (generated : SK) (path : String) : Fs (Option SecretKeyError) SK := fun d =>
  match Fs.read path d with
  | (.error .notFound,d) =>
    (genSecretKey C generated path).mapError (fun e => some (.getKeyError e)) d
  | (.error e,d) => (.error (some (.getKeyError e)),d)
  | (.ok data,d) =>
    if data.length ≠ 32 then (.error (some .incorrectKey),d)
    else (return C.fromBytes (← unwrap (asArray data)) : Fs (Option SecretKeyError) SK) d

def insertPeers (peers : Finmap fun _ : Ipv4Addr => K) :
    List Peer → Except (ConfigError TE KE) (Finmap fun _ : Ipv4Addr => K)
  | [] => .ok peers
  | peer :: rest => do
    let ipv4 ← (Ipv4Addr.fromStr peer.ipv4).mapError .ipv4ParseError
    let pubKey ← (C.keyFromStr peer.pubKey).mapError .publicKeyParseError
    insertPeers (peers.insert ipv4 pubKey) rest

def getPeers (cfg : ConfigToml) :
    Except (ConfigError TE KE) (Finmap fun _ : Ipv4Addr => K) := insertPeers C ∅ cfg.peers

def logLevels : List String := ["trace","debug","info","warn","error","off"]

/-- What `from_file` does once it has the secret key. -/
def fromToml (configToml : ConfigToml) (secretKey : SK) :
    Except (ConfigError TE KE) (Config SK K) := do
  let peers ← getPeers C configToml
  let nodeIpv4 ← (Ipv4Addr.fromStr configToml.nodeIpv4).mapError .ipv4ParseError
  if nodeIpv4.and Ipv4Addr.netmask ≠ Ipv4Addr.subnet then throw .ipv4NotInSubnet
  let logLevel ← match configToml.logLevel with
    | some lvl => if lvl ∈ logLevels then pure lvl else throw .incorrectLogLevel
    | none => pure "info"
  return {
    secretKey := secretKey
    nodeIpv4 := nodeIpv4
    netmask := Ipv4Addr.netmask
    tunName := configToml.tunName.getD defaultTunName
    listenPort := configToml.listenPort.getD defaultListenPort
    mtu := configToml.mtu.getD defaultMtu
    logLevel := logLevel
    logPath := configToml.logPath
    peers := peers }

/-- `generated` is the key that `SecretKey::generate` comes up with, should it be called. -/
def fromFile (generated : SK) (path : String) : Fs (Option (ConfigError TE KE)) (Config SK K) := do
  let data ← (Fs.read path).mapError fun e => some (.openFileError e)
  let configToml ← Fs.lift ((C.fromSlice data).mapError fun e => some (.formatParsingError e))
  let secretKey ← (getSecretKey C generated configToml.secretKeyPath).mapError
    (Option.map .secretKeyError)
  Fs.lift ((fromToml C configToml secretKey).mapError some)

end Load
end ConfigFile
end MeshNetwork
