import Theyos.Models.MeshControl.Run.Revocation
import Theyos.Models.MeshControl.Run.Progress
import Theyos.Models.MeshControl.Sign.Fence
import Theyos.Models.MeshControl.Collect.Removal
import Theyos.Models.MeshControl.Collect.Simulation
import Theyos.Models.MeshSession.Active.Lockstep
import Theyos.Models.MeshSession.Active.Record
import Theyos.Models.MeshSession.Rekey.Permits
import Theyos.Models.MeshSession.Ceremony.Authentication
import Theyos.Models.MeshSession.Ceremony.Window
import Theyos.Models.Roster.Fork
import Theyos.Models.Roster.Store.Clock
import Theyos.Models.NonceLedger.SingleUse
import Theyos.Models.MeshRegistry.Progress
import Theyos.Models.OwnerEvents.Cursor
import Theyos.Models.ClawVpn.Isolation
import Theyos.Models.ClawInstall.Stores
import Theyos.Models.Capacity.Overcommit
import Theyos.Models.Instances.Accounts
import Theyos.Models.Instances.Finality
import Theyos.Models.Instances.Retries
import Theyos.Models.VmRunner.Quarantine
import Theyos.Models.ClawShare.SingleUse
import Theyos.Models.MeshLog.Durability
import Theyos.Models.OwnerAuth.Projection
import Theyos.Models.Household.Shamir
import Theyos.Models.PairMachine.Window
import Theyos.Models.TunnelWire.Canonical
import Theyos.Models.TunnelWire.Pump
