import HyperswarmRs.Discovery.Dht
import HyperswarmRs.Discovery.Mdns

namespace HyperswarmRs
open Async
set_option autoImplicit true

inductive CombinedEffect where
  | dht (e : DhtEffect)
  | mdns (e : MdnsEffect)
  deriving DecidableEq, Repr

structure CombinedDiscovery where
  dht : DhtDiscovery
  mdns : MdnsDiscovery
  deriving DecidableEq, Repr

namespace CombinedDiscovery

def bind (dht : Source HyperDhtEvent) (announcer : Source Unit)
    (locator : Source (List UInt8 × SocketAddr)) (announcePort : UInt16) : CombinedDiscovery :=
  { mdns := { announcer, locator }, dht := .bind dht announcePort }

def lookup (self : CombinedDiscovery) (topic : Topic) : Exec CombinedEffect CombinedDiscovery := do
  let mdns ← (self.mdns.lookup topic).embed .mdns
  let dht ← (self.dht.lookup topic).embed .dht
  return { dht, mdns }

def announce (self : CombinedDiscovery) (topic : Topic) :
    Exec CombinedEffect CombinedDiscovery := do
  let mdns ← (self.mdns.announce topic).embed .mdns
  let dht ← (self.dht.announce topic).embed .dht
  return { dht, mdns }

def pollNext (self : CombinedDiscovery) :
    Exec CombinedEffect (Poll (Option (IoResult PeerInfo)) × CombinedDiscovery) := do
  let (next, dht) ← self.dht.pollNext.embed .dht
  match next with
  | .ready item => return (.ready item, { self with dht })
  | .pending =>
    let (next, mdns) ← self.mdns.pollNext.embed .mdns
    match next with
    | .ready item => return (.ready item, { dht, mdns })
    | .pending => return (.pending, { dht, mdns })

instance : Discovery CombinedDiscovery CombinedEffect where
  pollNext := pollNext
  lookup := lookup
  announce := announce

end CombinedDiscovery

inductive CombinedInput where
  | dht (i : SourceInput HyperDhtEvent)
  | mdns (i : MdnsInput)
  deriving DecidableEq, Repr

instance : Environment CombinedDiscovery CombinedInput where
  act self
    | .dht i => { self with dht := Environment.act self.dht i }
    | .mdns i => { self with mdns := Environment.act self.mdns i }

end HyperswarmRs
