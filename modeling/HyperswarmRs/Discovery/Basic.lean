import HyperswarmRs.Net
import HyperswarmRs.Async.Stream
import HyperswarmRs.Async.Run

namespace HyperswarmRs
open Async
set_option autoImplicit true

abbrev Topic : Type := { bytes : List UInt8 // bytes.length = 32 }

/-- `try_into` from bytes of any length. -/
def Topic.ofBytes? (bytes : List UInt8) : Option Topic :=
  if h : bytes.length = 32 then some ⟨bytes, h⟩ else none

inductive DiscoveryMethod where
  | mdns
  | dht
  deriving DecidableEq, Repr

structure PeerInfo where
  addr : SocketAddr
  topic : Option Topic
  discoveryMethod : DiscoveryMethod
  deriving DecidableEq, Repr

/-- The trait `Discovery`: a stream of peers that is told which topics to serve. -/
class Discovery (σ : Type) (ε : outParam Type) extends AsyncStream σ ε (IoResult PeerInfo) where
  lookup : σ → Topic → Exec ε σ
  announce : σ → Topic → Exec ε σ

inductive DiscoveryEvent (ι : Type) where
  | lookup (topic : Topic)
  | announce (topic : Topic)
  | poll
  | env (i : ι)
  deriving DecidableEq, Repr

abbrev DiscoveryObs (ε : Type) : Type := Obs ε (Poll (Option (IoResult PeerInfo)))

def Discovery.step [Discovery σ ε] [Environment σ ι] (s : σ) :
    DiscoveryEvent ι → Exec (DiscoveryObs ε) σ
  | .lookup topic => (Discovery.lookup s topic).embed .effect
  | .announce topic => (Discovery.announce s topic).embed .effect
  | .poll => observed (pollNext s)
  | .env i => pure (Environment.act s i)

end HyperswarmRs
