import MeshNetwork.ConfigFile

/-!
What is known of the other crates: the derived decoder of `ConfigToml` on documents of
plain lines, and that keys survive being written down. Crates that do this much exist.
-/

set_option autoImplicit false

namespace MeshNetwork.ConfigFile
open TomlLines

section Decoder

def field (fields : List (String × Value)) (key : String) : Option Value :=
  (fields.find? fun f => f.1 = key).map Prod.snd

def string (fields : List (String × Value)) (key : String) : Option String :=
  match field fields key with
  | some (.text s) => some s
  | _ => none

/-- An optional field; the inner `none` is a field that is absent. -/
def optionalString (fields : List (String × Value)) (key : String) : Option (Option String) :=
  match field fields key with
  | none => some none
  | some (.text s) => some (some s)
  | some (.number _) => none

def optionalU16 (fields : List (String × Value)) (key : String) : Option (Option UInt16) :=
  match field fields key with
  | none => some none
  | some (.number n) => if n < 65536 then some (some (UInt16.ofNat n)) else none
  | some (.text _) => none

def Peer.ofTable (table : String × List (String × Value)) : Option Peer := do
  return ⟨← string table.2 "pub_key",← string table.2 "ipv4"⟩

/-- `#[derive(Deserialize)]`: the list of peers is required too. -/
def ConfigToml.ofDocument (doc : Document) : Option ConfigToml := do
  let secretKeyPath ← string doc.fields "secret_key_path"
  let nodeIpv4 ← string doc.fields "node_ipv4"
  let tunName ← optionalString doc.fields "tun_name"
  let listenPort ← optionalU16 doc.fields "listen_port"
  let mtu ← optionalU16 doc.fields "mtu"
  let logLevel ← optionalString doc.fields "log_level"
  let logPath ← optionalString doc.fields "log_path"
  if doc.tables = [] then none
  else
    let peers ← doc.tables.mapM Peer.ofTable
    return ⟨secretKeyPath,nodeIpv4,tunName,listenPort,mtu,logLevel,logPath,peers⟩

/-- No key occurs twice in a section, and the only tables are `[[peers]]`. -/
structure PlainDocument (doc : Document) : Prop where
  fields : (doc.fields.map Prod.fst).Nodup
  peers : "peers" ∉ doc.fields.map Prod.fst
  tables : ∀ table ∈ doc.tables, table.1 = "peers" ∧ (table.2.map Prod.fst).Nodup

end Decoder

section Lawful
variable {SK K TE KE : Type}

structure Crates.Lawful (C : Crates SK K TE KE) : Prop where
  decodes : ∀ lines, (∀ l ∈ lines, l.isClean = true) → PlainDocument (document lines) →
    (C.fromSlice (encode (renderLines lines))).toOption = ConfigToml.ofDocument (document lines)
  keyFromStr_keyToString : ∀ k, C.keyFromStr (C.keyToString k) = .ok k
  keyToString_plain : ∀ k, isPlainText (C.keyToString k) = true
  fromBytes_toBytes : ∀ sk, C.fromBytes (C.toBytes sk) = sk

end Lawful

section Hex

def hexDigit (n : Nat) : Char := if n < 10 then Char.ofNat (48 + n) else Char.ofNat (87 + n)

def hexValue (c : Char) : Option Nat :=
  if 48 ≤ c.toNat ∧ c.toNat < 58 then some (c.toNat - 48)
  else if 97 ≤ c.toNat ∧ c.toNat < 103 then some (c.toNat - 87)
  else none

def hexByte (b : UInt8) : List Char := [hexDigit (b.toNat / 16),hexDigit (b.toNat % 16)]

def readHex : List Char → Option (List UInt8)
  | [] => some []
  | [_] => none
  | c :: c' :: rest => do
    let high ← hexValue c
    let low ← hexValue c'
    let bytes ← readHex rest
    return UInt8.ofNat (16 * high + low) :: bytes

theorem hexValue_hexDigit : ∀ n < 16, hexValue (hexDigit n) = some n := by decide

theorem hexDigit_plain : ∀ n < 16, (printable (hexDigit n) && hexDigit n ≠ '"' &&
    hexDigit n ≠ '\\') = true := by decide

theorem readHex_hex (bytes : List UInt8) : readHex (bytes.flatMap hexByte) = some bytes := by
  induction bytes with
  | nil => rfl
  | cons b rest ih =>
    have hb := b.toNat_lt
    have hhigh := hexValue_hexDigit (b.toNat / 16) (by omega)
    have hlow := hexValue_hexDigit (b.toNat % 16) (by omega)
    have hsum : 16 * (b.toNat / 16) + b.toNat % 16 = b.toNat := by omega
    have hbyte : UInt8.ofNat b.toNat = b := UInt8.ofNat_toNat
    simp only [List.flatMap_cons,hexByte,List.cons_append,List.nil_append,readHex,hhigh,hlow,ih,
      Option.bind_eq_bind,Option.bind_some,Option.pure_def,hsum,hbyte]

/-- A `toml` that reads plain lines only, and keys in hexadecimal that are their own public
keys. -/
def lineCrates : Crates (Vector UInt8 32) (Vector UInt8 32) Unit Unit where
  fromSlice data :=
    match (readLines (readAscii data)).bind fun lines => ConfigToml.ofDocument (document lines) with
    | some configToml => .ok configToml
    | none => .error ()
  keyFromStr s :=
    match (readHex s.toList).bind asArray with
    | some k => .ok k
    | none => .error ()
  keyToString k := String.ofList (k.toList.flatMap hexByte)
  fromBytes bytes := bytes
  toBytes sk := sk
  publicKey sk := sk

theorem lineCrates_lawful : lineCrates.Lawful where
  decodes lines clean _ := by
    simp only [lineCrates,readLines_readAscii clean,Option.bind_some,document_append_blank]
    cases ConfigToml.ofDocument (document lines) <;> rfl
  keyFromStr_keyToString k := by
    simp [lineCrates,readHex_hex,asArray_toList]
  keyToString_plain k := by
    simp only [lineCrates,isPlainText,String.toList_ofList,List.all_flatMap,List.all_eq_true]
    intro b _ c hc
    have hb := b.toNat_lt
    simp only [hexByte,List.mem_cons,List.not_mem_nil,or_false] at hc
    rcases hc with rfl | rfl
    · exact hexDigit_plain (b.toNat / 16) (by omega)
    · exact hexDigit_plain (b.toNat % 16) (by omega)
  fromBytes_toBytes _ := rfl

end Hex
end MeshNetwork.ConfigFile
