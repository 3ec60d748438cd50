import Husker.System.Fence
import Husker.System.Reboot
import Husker.Recovery.Progress
import Husker.Service.Interleaving
import Husker.Userdata.Ownership
import Husker.Address.Owners
import Husker.Locks.Order
import Husker.Session.Once
import Husker.Session.Alive
import Husker.Image.Overlay
import Husker.Vmm.Confirm
import Husker.Job.Canonical
import Husker.Lease.Catalog
import Husker.Vmm.SerialFollow
import Husker.Journal.Envelope
import Husker.System.Retention
import Husker.Snapshot.Catalogue
import Husker.Wire.Shell
import Husker.Image.Install
import Husker.Cli.WriteBack
import Husker.Fork.Source
import Husker.System.Cids
import Husker.Idle.Ttl
import Husker.Idle.Shield
import Husker.Image.Cache
import Husker.Net.AddForward
import Husker.Net.Isolation
import Husker.Net.Hosts
import Husker.Suspend.Anchor
import Husker.Api.Admission
import Husker.Job.Boot
import Husker.Vmm.Qmp
import Husker.Api.Policy
