import HyperswarmRs.Config
import HyperswarmRs.Discovery.Basic
import HyperswarmRs.Transport.Combined
import Mathlib.Data.Finmap

namespace HyperswarmRs
open Async
set_option autoImplicit true

abbrev ConfigureCommand : Type := Topic × TopicConfig

inductive Call where
  | lookup (topic : Topic)
  | announce (topic : Topic)
  deriving DecidableEq, Repr

def Call.run [Discovery D δ] (discovery : D) : Call → Exec δ D
  | .lookup topic => Discovery.lookup discovery topic
  | .announce topic => Discovery.announce discovery topic

inductive SwarmEffect (δ τ : Type) where
  | commands (r : Poll (Option ConfigureCommand))
  | called (call : Call)
  | discovery (r : Poll (Option (IoResult PeerInfo)))
  | connect (peerAddr : SocketAddr)
  | transport (r : Poll (Option Item))
  | ofDiscovery (e : δ)
  | ofTransport (e : τ)
  deriving DecidableEq, Repr

/-- The swarm over its two children; the channel carries the commands of the handles. -/
structure Hyperswarm (D T : Type) where
  topics : Finmap fun _ : Topic => TopicConfig
  discovery : D
  transport : T
  commands : Channel ConfigureCommand

/-- `SwarmHandle::configure`, on the channel that the handles share; the result is unwrapped. -/
def SwarmHandle.configure (commands : Channel ConfigureCommand) (topic : Topic)
    (config : TopicConfig) : Exec ε (Channel ConfigureCommand) :=
  match commands.trySend (topic, config) with
  | none => .fail .panicked
  | some commands => pure commands

namespace Hyperswarm

/-- What `bind` builds around the two bound children. -/
def bind (discovery : D) (transport : T) : Hyperswarm D T :=
  { topics := ∅, discovery, transport, commands := {} }

section Discovery

variable [Discovery D δ]

def callWhen (self : Hyperswarm D T) (cond : Bool) (call : Call) :
    Exec (SwarmEffect δ τ) (Hyperswarm D T) :=
  if cond then do
    Exec.emit (.called call)
    let discovery ← (call.run self.discovery).embed .ofDiscovery
    return { self with discovery }
  else pure self

/-- Only a flag that was off before makes a call. -/
def configure (self : Hyperswarm D T) (topic : Topic) (config : TopicConfig) :
    Exec (SwarmEffect δ τ) (Hyperswarm D T) := do
  let old := (self.topics.lookup topic).getD {}
  let self := { self with topics := self.topics.erase topic }
  let self ← self.callWhen (config.announce && !old.announce) (.announce topic)
  let self ← self.callWhen (config.lookup && !old.lookup) (.lookup topic)
  return { self with topics := self.topics.insert topic config }

def pollCommands : Nat → Hyperswarm D T → Exec (SwarmEffect δ τ) (Hyperswarm D T)
  | 0, _ => .fail .outOfFuel
  | fuel + 1, self => do
    let (next, commands) ← (Async.pollNext self.commands).embed .commands
    match next with
    | .ready (some (topic, config)) =>
      let self ← { self with commands }.configure topic config
      pollCommands fuel self
    | .ready none => return { self with commands }
    | .pending => return { self with commands }

end Discovery

def handleConfigure (self : Hyperswarm D T) (topic : Topic) (config : TopicConfig) :
    Exec ε (Hyperswarm D T) := do
  let commands ← SwarmHandle.configure self.commands topic config
  return { self with commands }

section Transport

variable [Transport T τ CombinedStream]

def dial (self : Hyperswarm D T) (peerAddr : SocketAddr) :
    Exec (SwarmEffect δ τ) (Hyperswarm D T) := do
  Exec.emit (.connect peerAddr)
  let transport ← (Transport.connect self.transport peerAddr).embed .ofTransport
  return { self with transport }

/-- The last part of `poll_next`: a transport error is only logged. -/
def pollConnections (self : Hyperswarm D T) :
    Exec (SwarmEffect δ τ) (Poll (Option Item) × Hyperswarm D T) := do
  let (res, transport) ← pollChild .ofTransport .transport self.transport
  match res with
  | .ready (some (.ok conn)) => return (.ready (some (.ok conn)), { self with transport })
  | .ready (some (.error _)) => return (.pending, { self with transport })
  | .ready none => return (.pending, { self with transport })
  | .pending => return (.pending, { self with transport })

end Transport

variable [Discovery D δ] [Transport T τ CombinedStream]

def pollNext (self : Hyperswarm D T) :
    Exec (SwarmEffect δ τ) (Poll (Option Item) × Hyperswarm D T) := do
  let self ← pollCommands (self.commands.queue.length + 1) self
  let (next, discovery) ← pollChild .ofDiscovery .discovery self.discovery
  match next with
  | .pending => pollConnections { self with discovery }
  | .ready none => pollConnections { self with discovery }
  | .ready (some (.error e)) => return (.ready (some (.error e)), { self with discovery })
  | .ready (some (.ok peerInfo)) =>
    let self ← dial { self with discovery } peerInfo.addr
    self.pollConnections

instance : AsyncStream (Hyperswarm D T) (SwarmEffect δ τ) Item := ⟨pollNext⟩

end Hyperswarm

inductive SwarmEvent (ιD ιT : Type) where
  | configure (topic : Topic) (config : TopicConfig)
  | handleConfigure (topic : Topic) (config : TopicConfig)
  | poll
  | discovery (i : ιD)
  | transport (i : ιT)
  deriving DecidableEq, Repr

abbrev SwarmObs (δ τ : Type) : Type := Obs (SwarmEffect δ τ) (Poll (Option Item))

def Hyperswarm.step [Discovery D δ] [Transport T τ CombinedStream] [Environment D ιD]
    [Environment T ιT] (s : Hyperswarm D T) :
    SwarmEvent ιD ιT → Exec (SwarmObs δ τ) (Hyperswarm D T)
  | .configure topic config => (s.configure topic config).embed .effect
  | .handleConfigure topic config => s.handleConfigure topic config
  | .poll => observed s.pollNext
  | .discovery i => pure { s with discovery := Environment.act s.discovery i }
  | .transport i => pure { s with transport := Environment.act s.transport i }

end HyperswarmRs
