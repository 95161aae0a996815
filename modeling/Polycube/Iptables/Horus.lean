import Mathlib
import Polycube.Iptables.Interfaces
import Polycube.Firewall.Horus

/-!
# Horus before the chains

Here the program for the leading rules stands before `ChainSelector`: it is compiled from the rules
of `INPUT`, when `FORWARD` has none, and meets the packets of both chains.  Its declaration of the
packet record is packed and that of all other programs is not, so the ports it reads are not the
ones `Parser` wrote.
-/

namespace Polycube.Iptables

open Lib
open Polycube.Firewall (BitVector PacketHeaders Packet Verdict ConnStatus ConntrackstatusEnum
  HorusRule HorusValue HorusFields Numbered Plain)

/-- The table that is loaded when the chain `INPUT` is updated: none when there are forward rules
or no leading rules. -/
def horusTable (rules : ChainNameEnum → List ChainRule) : List (HorusRule × HorusValue) :=
  if rules .forward = [] then Firewall.horusFromRulesToMap (commonRules (rules .input)) else []

end Polycube.Iptables
