import MeshNetwork.Agreement
import MeshNetwork.CoreWindow
import MeshNetwork.StaleDisconnect
import MeshNetwork.TwoNodes
import MeshNetwork.Flow
import MeshNetwork.Authenticity
import MeshNetwork.Delivery
import MeshNetwork.CircularWait
import MeshNetwork.PeerIndependence
import MeshNetwork.KeyOrder
import MeshNetwork.DisconnectRequests
import MeshNetwork.Forwarding
import MeshNetwork.TunPackets
import MeshNetwork.TunDevices
import MeshNetwork.FullMesh
import MeshNetwork.Subnet
import MeshNetwork.RepeatedEvents
import MeshNetwork.Identity
import MeshNetwork.FailedLoads
import MeshNetwork.Rest
import MeshNetwork.Recovery
import MeshNetwork.Resilience
import MeshNetwork.Process
import MeshNetwork.ProcessViews
import MeshNetwork.ProcessEnds
import MeshNetwork.DeviceAuthenticity
import MeshNetwork.DatagramOrder
import MeshNetwork.TunRecovery
import MeshNetwork.DeviceDelivery
import MeshNetwork.GeneratedMesh
import MeshNetwork.Inbound
import MeshNetwork.LossyChannels
import MeshNetwork.DeviceChannels
import MeshNetwork.MeshRecovery
import MeshNetwork.SteadyLink
import MeshNetwork.SteadyDelivery
import MeshNetwork.TunStops
