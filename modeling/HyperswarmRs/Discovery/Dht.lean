import HyperswarmRs.Discovery.Basic

namespace HyperswarmRs
open Async
set_option autoImplicit true

/-- The config of the `hyperswarm_dht` crate, of which the setters take what can be resolved to
addresses. -/
class DhtConfig (C : Type) (A : outParam Type) extends Inhabited C where
  setBootstrapNodes : C → A → C
  setEphemeral : C → Bool → C

structure QueryOpts where
  topic : Topic
  port : Option UInt32
  localAddr : Option SocketAddr
  deriving DecidableEq, Repr

structure Lookup where
  topic : Topic
  remotes : List SocketAddr
  deriving DecidableEq, Repr

inductive HyperDhtEvent where
  | bootstrapped
  | announceResult
  | lookupResult (lookup : Lookup)
  | unAnnounceResult
  | other
  deriving DecidableEq, Repr

inductive Command where
  | lookup (opts : QueryOpts)
  | announce (opts : QueryOpts)
  deriving DecidableEq, Repr

inductive DhtEffect where
  | lookup (opts : QueryOpts)
  | announce (opts : QueryOpts)
  | polled (r : Poll (Option HyperDhtEvent))
  deriving DecidableEq, Repr

structure DhtDiscovery where
  state : Source HyperDhtEvent
  bootstrapped : Bool
  announcePort : UInt16
  pendingCommands : List Command
  pendingEvents : List PeerInfo
  deriving DecidableEq, Repr

namespace DhtDiscovery

def bind (state : Source HyperDhtEvent) (announcePort : UInt16) : DhtDiscovery :=
  { state, announcePort, bootstrapped := false, pendingCommands := [], pendingEvents := [] }

def execute : Command → Exec DhtEffect Unit
  | .announce opts => Exec.emit (.announce opts)
  | .lookup opts => Exec.emit (.lookup opts)

def executeAll : List Command → Exec DhtEffect Unit
  | [] => pure ()
  | command :: rest => do
    execute command
    executeAll rest

def executePendingCommands (self : DhtDiscovery) : Exec DhtEffect DhtDiscovery := do
  executeAll self.pendingCommands
  return { self with pendingCommands := [] }

def opts (self : DhtDiscovery) (topic : Topic) : QueryOpts :=
  { topic, port := some self.announcePort.toUInt32, localAddr := none }

def lookup (self : DhtDiscovery) (topic : Topic) : Exec DhtEffect DhtDiscovery :=
  pure { self with pendingCommands := self.pendingCommands ++ [.lookup (self.opts topic)] }

def announce (self : DhtDiscovery) (topic : Topic) : Exec DhtEffect DhtDiscovery :=
  pure { self with pendingCommands := self.pendingCommands ++ [.announce (self.opts topic)] }

def onEvent (self : DhtDiscovery) : HyperDhtEvent → DhtDiscovery
  | .bootstrapped => { self with bootstrapped := true }
  | .announceResult => self
  | .lookupResult lookup =>
    let infos := lookup.remotes.map fun addr => ⟨addr, some lookup.topic, .dht⟩
    { self with pendingEvents := self.pendingEvents ++ infos }
  | .unAnnounceResult => self
  | .other => self

/-- The guarded call in the loop of `poll_next`. -/
def executeIfBootstrapped (self : DhtDiscovery) : Exec DhtEffect DhtDiscovery :=
  if self.bootstrapped then self.executePendingCommands else pure self

/-- The loop of `poll_next`; the end of the `HyperDht` stream is unwrapped. -/
def pollLoop : Nat → DhtDiscovery →
    Exec DhtEffect (Poll (Option (IoResult PeerInfo)) × DhtDiscovery)
  | 0, _ => .fail .outOfFuel
  | fuel + 1, self =>
    match self.pendingEvents with
    | event :: rest => return (.ready (some (.ok event)), { self with pendingEvents := rest })
    | [] => do
      let self ← self.executeIfBootstrapped
      let (event, state) ← (pollNext self.state).embed .polled
      match event with
      | .pending => return (.pending, { self with state })
      | .ready none => .fail .panicked
      | .ready (some event) => pollLoop fuel ({ self with state }.onEvent event)

/-- Each round of the loop but the last consumes a ready event. -/
def pollNext (self : DhtDiscovery) :
    Exec DhtEffect (Poll (Option (IoResult PeerInfo)) × DhtDiscovery) :=
  pollLoop (self.state.ready.length + 1) self

instance : Discovery DhtDiscovery DhtEffect where
  pollNext := pollNext
  lookup := lookup
  announce := announce

instance : Environment DhtDiscovery (SourceInput HyperDhtEvent) where
  act self i := { self with state := self.state.act i }

end DhtDiscovery

end HyperswarmRs
