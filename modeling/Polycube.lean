import Polycube.Lbrp.RoundTrip
import Polycube.Router.Filling
import Polycube.Dispatcher.Consistent
import Polycube.Dispatcher.Sessions
import Polycube.Iptables.AcceptEstablished
import Polycube.Iptables.Horus
import Polycube.Iptables.Unaltered
import Polycube.K8switch.Mirror
import Polycube.K8switch.RoundTrip
import Polycube.K8switch.Unshared
import Polycube.Natting.Sessions
import Polycube.Bridging.Restore
import Polycube.Capture.Dump
import Polycube.Capture.Modes
import Polycube.Dynmon.Whole
import Polycube.Firewall.Independence
import Polycube.Firewall.Retransmission
import Polycube.Natting.InStep
import Polycube.Polycubed.Recorded
import Polycube.Polycubed.Registries
import Polycube.Polycubed.Saving
import Polycube.Polycubed.BodyValidate
import Polycube.Polycubed.Controller
import Polycube.Polycubed.Redirection
import Polycube.Pbforwarder.Current
import Polycube.Lbdsr.Sticky
import Polycube.Ddosmitigator.Drops
import Polycube.Simplebridge.Learning
import Polycube.Policies.Lifetime
import Polycube.Policies.Relabelling
import Polycube.Polycubed.Rewritten
import Polycube.Firewall.Aligned
import Polycube.Iptables.Replace
import Polycube.Firewall.Slots
import Polycube.K8switch.Arrays
import Polycube.Polycubectl.Grammar
import Polycube.Polycubectl.Urls
import Polycube.Polycubectl.Bodies
import Polycube.Router.Queue
import Polycube.Policies.Numbered
import Polycube.Policies.Counts
import Polycube.Policies.PodEvents
import Polycube.Lbrp.Atomic
import Polycube.Router.Hops
import Polycube.Natting.Checksums
import Polycube.Bridging.Filtering
import Polycube.Polycubed.Placement
import Polycube.Polycubed.Restrictions
import Polycube.Polycubed.Decimals
import Polycube.Polycubed.VlanTags
import Polycube.Polycubed.XdpChecksums
import Polycube.Firewall.BitScan
import Polycube.Iptables.Attaching
import Polycube.Polycubed.Addresses
import Polycube.Polycubed.DebugString
import Polycube.Synflood.Stats
import Polycube.Polycubed.ProgramSlots
import Polycube.K8s.Isolation
