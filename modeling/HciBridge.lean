import HciBridge.Framing
import HciBridge.H4
import HciBridge.H4Feed
import HciBridge.H4Stream
import HciBridge.Transport
import HciBridge.Runs
import HciBridge.Bridge
import HciBridge.BridgeSteps
import HciBridge.BridgeParking
import HciBridge.BridgeDescriptors
import HciBridge.BridgeCrossing
import HciBridge.BridgeToHost
import HciBridge.BridgeToController
import HciBridge.Auth
import HciBridge.Handshake
import HciBridge.Agreement
import HciBridge.Unclaim
import HciBridge.Ota
import HciBridge.Replay
import HciBridge.ReplayOnce
import HciBridge.Uploads
import HciBridge.Text
import HciBridge.AuthHex
import HciBridge.Config
import HciBridge.Settings
import HciBridge.Reload
import HciBridge.Discovery
import HciBridge.KeyProtocol
import HciBridge.KeyProtocolAgrees
import HciBridge.Separation
import HciBridge.HostClaim
import HciBridge.SavedClaim
import HciBridge.Claim
import HciBridge.FirstClaim
import HciBridge.Subnet
import HciBridge.Manager
import HciBridge.ManagerSteps
import HciBridge.Registry
import HciBridge.Revocation
import HciBridge.Admission
import HciBridge.Revoke
import HciBridge.PinnedKeys
import HciBridge.OtaUpload
import HciBridge.WifiForm
import HciBridge.HttpResponse
import HciBridge.RefusedClaim
import HciBridge.Quoted
import HciBridge.StatusJson
import HciBridge.Resolution
import HciBridge.DiscoveryCodec
import HciBridge.ConfigText
import HciBridge.H4Calls
import HciBridge.H4Bounds
import HciBridge.Wrapping
import HciBridge.ControllerWait
import HciBridge.ClaimBody
import HciBridge.Rollback
import HciBridge.Descent
import HciBridge.Session
import HciBridge.SessionEnd
import HciBridge.SessionStream
import HciBridge.SessionStop
import HciBridge.Link
import HciBridge.BridgeTakeover
import HciBridge.Attach
import HciBridge.Release
import HciBridge.ReleaseText
import HciBridge.ReleaseFetch
import HciBridge.Update
import HciBridge.UpdateSound
import HciBridge.UpdateBoards
import HciBridge.UpdateDelivered
import HciBridge.FixedWindow
import HciBridge.DiscoveryTask
import HciBridge.DiscoveryRate
import HciBridge.DiscoveryAnnounce
import HciBridge.Collect
import HciBridge.Ownership
import HciBridge.OwnershipSteps
import HciBridge.OwnershipFiles
import HciBridge.OwnershipKept
import HciBridge.Provisioning
import HciBridge.Simulator
