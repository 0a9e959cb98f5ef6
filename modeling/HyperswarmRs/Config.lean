import HyperswarmRs.Discovery.Dht
import HyperswarmRs.Discovery.Mdns

namespace HyperswarmRs
set_option autoImplicit true

structure Config (C : Type) where
  mdns : Option MdnsConfig := none
  dht : Option C := none
  localAddr : Option SocketAddr := none
  deriving DecidableEq, Repr

namespace Config

def new : Config C := {}

def all [Inhabited C] : Config C :=
  { mdns := some default, dht := some default, localAddr := none }

/-- The default that `or_else` is given has the type of the section's option. -/
def withDefaults (self : Config C) : Config C :=
  { self with
    mdns := self.mdns.orElse fun _ => (default : Option MdnsConfig)
    dht := self.dht.orElse fun _ => (default : Option C) }

def setDht (self : Config C) (config : C) : Config C := { self with dht := some config }

def setMdns (self : Config C) (config : MdnsConfig) : Config C := { self with mdns := some config }

def setLocalAddr (self : Config C) (address : SocketAddr) : Config C :=
  { self with localAddr := some address }

variable [DhtConfig C A]

def setBootstrapNodes (self : Config C) (addresses : A) : Config C :=
  { self with dht := some (DhtConfig.setBootstrapNodes (self.dht.getD default) addresses) }

def setEphemeral (self : Config C) (ephemeral : Bool) : Config C :=
  { self with dht := some (DhtConfig.setEphemeral (self.dht.getD default) ephemeral) }

/-- The configs that `CombinedDiscovery::bind` gives its two parts. -/
def sections (self : Config C) : MdnsConfig × C := (self.mdns.getD default, self.dht.getD default)

end Config

structure TopicConfig where
  announce : Bool := false
  lookup : Bool := false
  deriving DecidableEq, Repr

def TopicConfig.both : TopicConfig := { announce := true, lookup := true }

def TopicConfig.announceAndLookup : TopicConfig := .both

end HyperswarmRs
