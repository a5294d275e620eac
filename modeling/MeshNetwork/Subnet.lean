import MeshNetwork.Forwarding
import MeshNetwork.PeerEntries

set_option autoImplicit false

namespace MeshNetwork
open Ipv4Packet

section Isolation
variable {K B : Type} [DecidableEq K] [Buf B] {ipv4Addr : Ipv4Addr} {routeTable : RouteTable K}
variable {maxPacketSize : Nat}

/-- Whatever happens, both ends of what is passed on are in the subnet. -/
def VpnCore.Isolated (core : VpnCore K B) : Prop :=
  ∀ evs last outs, core.run evs = some (last,outs) → ∀ actions ∈ outs, ∀ action ∈ actions,
    ∀ packet, action.packet? = some packet → ∃ p, Ipv4Packet.new packet = some (.ok p) ∧
      p.srcIp.InSubnet ∧ p.destIp.InSubnet

omit [DecidableEq K] in
theorem EndsKnown.inSubnet {packet : B} (h : EndsKnown ipv4Addr routeTable packet)
    (own : ipv4Addr.InSubnet) (routes : ∀ ip pk, routeTable.lookup ip = some pk → ip.InSubnet) :
    (header packet).srcIp.InSubnet ∧ (header packet).destIp.InSubnet := by
  rcases h with ⟨hsrc,pk,hdest⟩ | ⟨hdest,pk,hsrc⟩
  · exact ⟨by rwa [hsrc],routes _ pk hdest⟩
  · exact ⟨routes _ pk hsrc,by rwa [hdest]⟩

theorem LengthsChecked.parses {packet : B} (h : LengthsChecked maxPacketSize packet) :
    Ipv4Packet.new packet = some (.ok (header packet)) := by
  rw [new_eq_parse,parse,if_neg (by have := h.long; omega),if_neg (by simpa using h.version)]

theorem CoreInvariant.isolated {core : VpnCore K B}
    (h : CoreInvariant ipv4Addr routeTable maxPacketSize core) (own : ipv4Addr.InSubnet)
    (routes : ∀ ip pk, routeTable.lookup ip = some pk → ip.InSubnet) : core.Isolated := by
  intro evs last outs hrun actions hact action ha packet hpacket
  obtain ⟨mid,ev,next,hp,hmid⟩ := h.run_actions hrun hact
  obtain ⟨hlengths,hends⟩ := hmid.passed hp ha hpacket
  exact ⟨header packet,hlengths.parses,hends.inSubnet own routes⟩

def headerOnly (src dest : Ipv4Addr) : List UInt8 :=
  [0x45,0,0,20,0,0,0,0,64,0,0,0,src.a,src.b,src.c,src.d,dest.a,dest.b,dest.c,dest.d]

theorem new_headerOnly (src dest : Ipv4Addr) : Ipv4Packet.new (headerOnly src dest) =
    some (.ok ⟨20,20,64,src,dest⟩) := rfl

theorem VpnCore.process_headerOnly {core : VpnCore K (List UInt8)} {ip : Ipv4Addr} {pk : K}
    (hsize : 20 ≤ core.maxPacketSize) (hroute : core.routeTable.lookup ip = some pk) :
    core.process (.packetFromIroh (headerOnly ip core.ipv4Addr) pk) =
      some (core,[.writeToTun (headerOnly ip core.ipv4Addr)]) := by
  have hlarge : ¬ core.maxPacketSize < 20 := by omega
  simp [VpnCore.process,VpnCore.recvPacket,VpnCore.verifyRecvPacket,new_headerOnly,
    VpnCore.isNeighbourIpv4,hroute,hlarge]

theorem VpnCore.Isolated.routes {core : VpnCore K (List UInt8)} (h : core.Isolated)
    (hsize : 20 ≤ core.maxPacketSize) {ip : Ipv4Addr} {pk : K}
    (hroute : core.routeTable.lookup ip = some pk) : ip.InSubnet := by
  have hp := VpnCore.process_headerOnly hsize hroute
  have hrun : core.run [.packetFromIroh (headerOnly ip core.ipv4Addr) pk] =
      some (core,[[.writeToTun (headerOnly ip core.ipv4Addr)]]) := by
    simp [VpnCore.run,hp]
  obtain ⟨p,hnew,hsrc,-⟩ := h _ core _ hrun _ List.mem_cons_self _ List.mem_cons_self _ rfl
  rw [new_headerOnly,Option.some.injEq,Except.ok.injEq] at hnew
  rwa [← hnew] at hsrc

end Isolation

namespace ConfigFile
open TomlLines

section Configured
variable {SK K TE KE : Type} [DecidableEq K] (C : Crates SK K TE KE)

/-- The core that `main` builds, for packets that are byte strings. -/
def mainCore (cfg : Config SK K) (routes : RouteTable K) : VpnCore K (List UInt8) :=
  .new (assemble C cfg routes).ipv4Addr (assemble C cfg routes).routeTable
    (assemble C cfg routes).maxPacketSize

def Peer.InSubnet (peer : Peer) : Prop :=
  ∀ ip, Ipv4Addr.fromStr peer.ipv4 = .ok ip → ip.InSubnet

omit [DecidableEq K] in
theorem routes_inSubnet {configToml : ConfigToml} {secretKey : SK} {cfg : Config SK K}
    (h : fromToml C configToml secretKey = .ok cfg) {routes : RouteTable K}
    (hroutes : routes.toFinmap = cfg.peers) :
    (∀ ip pk, routes.lookup ip = some pk → ip.InSubnet) ↔
      ∀ peer ∈ configToml.peers, peer.InSubnet := by
  obtain ⟨valid,hlookup,-,-⟩ := fromToml_ok C h
  constructor
  · intro hall peer hp ip hip
    obtain ⟨k,hk⟩ := (lastKey_isSome C valid.peers).mpr ⟨peer,hp,hip⟩
    rw [← hlookup ip,← lookup_of_toFinmap hroutes] at hk
    exact hall ip k hk
  · intro hall ip pk hpk
    rw [lookup_of_toFinmap hroutes,hlookup ip] at hpk
    obtain ⟨peer,hp,hip⟩ := (lastKey_isSome C valid.peers).mp ⟨pk,hpk⟩
    exact hall peer hp ip hip

/-- The own address is checked, so all depends on the addresses of the peers. -/
theorem mainCore_isolated_iff {configToml : ConfigToml} {secretKey : SK} {cfg : Config SK K}
    (h : fromToml C configToml secretKey = .ok cfg) {routes : RouteTable K}
    (hroutes : routes.toFinmap = cfg.peers) :
    (mainCore C cfg routes).Isolated ↔ ∀ peer ∈ configToml.peers, peer.InSubnet := by
  rw [← routes_inSubnet C h hroutes]
  constructor
  · intro hiso ip pk hpk
    exact VpnCore.Isolated.routes hiso (by decide : 20 ≤ 1100) hpk
  · intro hall
    obtain ⟨-,-,hown,-,-⟩ := fromToml_cases C h
    exact (VpnCore.new_invariant cfg.nodeIpv4 routes 1100).isolated hown hall

/-- Whatever the iteration order of the map of peers. -/
theorem subnet_isolation {generated : SK} {path : String} {d d' : Disk} {cfg : Config SK K}
    (accepted : fromFile C generated path d = (.ok cfg,d')) {routes : RouteTable K}
    (hroutes : routes.toFinmap = cfg.peers) : (mainCore C cfg routes).Isolated ↔
      ∀ configToml, Says C d path configToml → ∀ peer ∈ configToml.peers, peer.InSubnet := by
  obtain ⟨data,configToml,secretKey,hdata,hdecodes,-,htoml⟩ := fromFile_ok C accepted
  rw [mainCore_isolated_iff C htoml hroutes]
  constructor
  · intro hall configToml' h'
    rwa [h'.unique ⟨data,hdata,hdecodes⟩]
  · exact fun hall => hall configToml ⟨data,hdata,hdecodes⟩

end Configured

section Files

/-- A file for node 1 with a single peer is accepted, whatever address the peer has. -/
theorem single_peer_accepted {ip : String} {addr : Ipv4Addr} (hplain : isPlainText ip = true)
    (hip : Ipv4Addr.fromStr ip = .ok addr) :
    let node := nodeEntry lineCrates plainKeys 1
    let d := configDisk lineCrates node [movedEntry lineCrates plainKeys 2 ip] (plainKeys 1)
    (∃ cfg d', ∃ routes : RouteTable (Vector UInt8 32),
      fromFile lineCrates (plainKeys 0) "config.toml" d = (.ok cfg,d') ∧
        routes.toFinmap = cfg.peers) ∧
    ∀ configToml, Says lineCrates d "config.toml" configToml ↔
      configToml = decoded node [movedEntry lineCrates plainKeys 2 ip] := by
  have laws := lineCrates_lawful
  have hnode := nodeEntry_plain lineCrates plainKeys laws 1
  have hown := fromStr_nodeEntry lineCrates plainKeys (show 1 ≤ 255 by decide)
  have hpeers : ∀ peer ∈ [movedEntry lineCrates plainKeys 2 ip], PlainEntry peer := by
    intro peer hp
    rw [List.mem_singleton.mp hp]
    exact movedEntry_plain lineCrates plainKeys laws 2 hplain
  have hvalid : (decoded (nodeEntry lineCrates plainKeys 1)
      [movedEntry lineCrates plainKeys 2 ip]).Valid lineCrates :=
    decoded_valid lineCrates hown (by decide) fun peer hp => by
      rw [List.mem_singleton.mp hp]
      exact ⟨addr,_,hip,keyFromStr_movedEntry lineCrates plainKeys laws 2 ip⟩
  obtain ⟨cfg,d',hload,-⟩ := fromFile_configDisk lineCrates laws hnode hpeers
    (List.cons_ne_nil _ _) hvalid (secretPath_ne_config 1) (plainKeys 1) (plainKeys 0)
  obtain ⟨routes,hroutes⟩ := exists_routes cfg.peers
  exact ⟨⟨cfg,d',routes,hload,hroutes⟩,fun configToml =>
    says_configDisk lineCrates laws hnode hpeers (List.cons_ne_nil _ _)⟩

theorem subnet_isolation_single :
    let d := configDisk lineCrates (nodeEntry lineCrates plainKeys 1)
      [movedEntry lineCrates plainKeys 2 "10.67.1.2"] (plainKeys 1)
    ∃ cfg d', ∃ routes : RouteTable (Vector UInt8 32),
      fromFile lineCrates (plainKeys 0) "config.toml" d = (.ok cfg,d') ∧
      routes.toFinmap = cfg.peers ∧ (mainCore lineCrates cfg routes).Isolated := by
  have hplain : isPlainText "10.67.1.2" = true := by decide
  have hip : Ipv4Addr.fromStr "10.67.1.2" = .ok ⟨10,67,1,2⟩ := rfl
  obtain ⟨⟨cfg,d',routes,hload,hroutes⟩,honly⟩ := single_peer_accepted hplain hip
  refine ⟨cfg,d',routes,hload,hroutes,(subnet_isolation lineCrates hload hroutes).mpr ?_⟩
  intro configToml h peer hp ip hpeer
  rw [(honly configToml).mp h] at hp
  rw [List.mem_singleton.mp hp] at hpeer
  rw [← Except.ok.inj (hip.symm.trans hpeer)]
  decide

/-- A peer with an address of a local network: the file is accepted, and the core passes
packets of that address on. -/
theorem local_address_not_isolated :
    let d := configDisk lineCrates (nodeEntry lineCrates plainKeys 1)
      [movedEntry lineCrates plainKeys 2 "192.168.1.7"] (plainKeys 1)
    ∃ cfg d', ∃ routes : RouteTable (Vector UInt8 32),
      fromFile lineCrates (plainKeys 0) "config.toml" d = (.ok cfg,d') ∧
      routes.toFinmap = cfg.peers ∧ ¬ (mainCore lineCrates cfg routes).Isolated := by
  have hplain : isPlainText "192.168.1.7" = true := by decide
  have hip : Ipv4Addr.fromStr "192.168.1.7" = .ok ⟨192,168,1,7⟩ := rfl
  obtain ⟨⟨cfg,d',routes,hload,hroutes⟩,honly⟩ := single_peer_accepted hplain hip
  refine ⟨cfg,d',routes,hload,hroutes,fun h => ?_⟩
  obtain ⟨data,configToml,secretKey,hdata,hdecodes,-,htoml⟩ := fromFile_ok lineCrates hload
  have hall := (mainCore_isolated_iff lineCrates htoml hroutes).mp h
  rw [(honly configToml).mp ⟨data,hdata,hdecodes⟩] at hall
  exact absurd (hall _ List.mem_cons_self ⟨192,168,1,7⟩ hip) (by decide)

end Files
end ConfigFile
end MeshNetwork
