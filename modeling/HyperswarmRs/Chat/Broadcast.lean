import HyperswarmRs.Chat.ConnectionLoop
import HyperswarmRs.Transport.Basic

namespace HyperswarmRs
open Async
set_option autoImplicit true

abbrev PeerId : Type := String

/-- The sender is named by the number of the connection whose loop receives. -/
structure Peer where
  outboundTx : Nat
  addr : SocketAddr
  protocol : String
  deriving DecidableEq, Repr

def Peer.id (display : SocketAddr → String) (self : Peer) : PeerId :=
  self.protocol ++ ":" ++ display self.addr

structure IncomingMessage where
  «from» : PeerId
  content : Message
  deriving DecidableEq, Repr

/-- The tasks that a node has spawned for a connection: the loop, and after it the removal from the
list of peers, and the one that forwards what the loop has read. -/
structure PeerTasks where
  peerId : PeerId
  loop : ConnectionLoop
  forwarding : Bool := true
  removed : Bool := false

/-- A node of the chat, and the task that takes the connections of its swarm; a peer that this one
has not yet saved is known to nobody else. -/
structure HyperBroadcast where
  initialMessage : Message
  peers : List Peer := []
  tasks : List PeerTasks := []
  saving : Option Peer := none
  incoming : Channel IncomingMessage := {}
  result : Option (IoResult Unit) := none

inductive BroadcastEffect where
  | connected (i : Nat) (peerId : PeerId)
  | saved (i : Nat)
  | broadcast (message : Message)
  | loop (i : Nat) (e : LoopEffect)
  | disconnected (i : Nat)
  | removed (peerId : PeerId)
  | incoming (i : Nat) (message : IncomingMessage)
  deriving DecidableEq, Repr

inductive BroadcastEvent where
  | next (item : Option (IoResult (Connection (Duplex IoError))))
  | save
  | broadcast (message : Message)
  | advance (i : Nat)
  | forward (i : Nat)
  | remove (i : Nat)
  | stream (i : Nat) (input : DuplexInput IoError)

namespace HyperBroadcast

def new (initialMessage : Message) : HyperBroadcast := { initialMessage }

def finish (self : HyperBroadcast) (result : IoResult Unit) : HyperBroadcast :=
  { self with result := some result, incoming := self.incoming.dropSender }

def next (display : SocketAddr → String) (self : HyperBroadcast)
    (item : Option (IoResult (Connection (Duplex IoError)))) :
    Exec BroadcastEffect HyperBroadcast :=
  if self.saving.isSome || self.result.isSome then pure self
  else
    match item with
    | none => pure (self.finish (.ok ()))
    | some (.error e) => pure (self.finish (.error e))
    | some (.ok stream) => do
      let i := self.tasks.length
      let loop ← ((ConnectionLoop.spawn stream.inner).sendMessage self.initialMessage).embed
        (.loop i)
      let peer : Peer := ⟨i, stream.peerAddr, stream.protocol⟩
      Exec.emit (.connected i (peer.id display))
      return { self with
        tasks := self.tasks ++ [⟨peer.id display, loop, true, false⟩]
        incoming := self.incoming.cloneSender
        saving := some peer }

def save (self : HyperBroadcast) : Exec BroadcastEffect HyperBroadcast :=
  match self.saving with
  | none => pure self
  | some peer => do
    Exec.emit (.saved peer.outboundTx)
    return { self with peers := self.peers ++ [peer], saving := none }

/-- `Peer::send_message`; the message for a loop that has ended is dropped. -/
def sendMessage (self : HyperBroadcast) (i : Nat) (message : Message) :
    Exec BroadcastEffect HyperBroadcast :=
  match self.tasks[i]? with
  | none => pure self
  | some t => do
    let loop ← (t.loop.sendMessage message).embed (.loop i)
    return { self with tasks := self.tasks.set i { t with loop } }

def sendAll (message : Message) (self : HyperBroadcast) :
    List Peer → Exec BroadcastEffect HyperBroadcast
  | [] => pure self
  | peer :: peers => do
    let self ← self.sendMessage peer.outboundTx message
    sendAll message self peers

/-- The lock is held until every peer has its message. -/
def broadcast (self : HyperBroadcast) (message : Message) :
    Exec BroadcastEffect HyperBroadcast := do
  Exec.emit (.broadcast message)
  sendAll message self self.peers

def advance (self : HyperBroadcast) (i : Nat) : Exec BroadcastEffect HyperBroadcast :=
  match self.tasks[i]? with
  | none => pure self
  | some t => do
    let loop ← t.loop.advance.embed (.loop i)
    let self := { self with tasks := self.tasks.set i { t with loop } }
    if t.loop.result.isNone && loop.result.isSome then do
      Exec.emit (.disconnected i)
      return self
    else return self

/-- The forwarding task takes a message from the loop. It would panic if nobody wanted the messages
of the node any more, but the task that prints them keeps the receiver. -/
def forward (self : HyperBroadcast) (i : Nat) : Exec BroadcastEffect HyperBroadcast :=
  match self.tasks[i]? with
  | none => pure self
  | some t =>
    if t.forwarding then do
      let (r, loop) ← t.loop.receive.embed (.loop i)
      match r with
      | .pending => return { self with tasks := self.tasks.set i { t with loop } }
      | .ready none => return { self with
          tasks := self.tasks.set i { t with loop, forwarding := false }
          incoming := self.incoming.dropSender }
      | .ready (some content) =>
        match self.incoming.trySend ⟨t.peerId, content⟩ with
        | none => .fail .panicked
        | some incoming => do
          Exec.emit (.incoming i ⟨t.peerId, content⟩)
          return { self with tasks := self.tasks.set i { t with loop }, incoming }
    else pure self

def hangUp (tasks : List PeerTasks) (peer : Peer) : List PeerTasks :=
  tasks.modify peer.outboundTx fun t =>
    { t with loop := { t.loop with outbound := t.loop.outbound.dropSender } }

/-- The task of a loop that has ended removes the peers that have its identity. -/
def remove (display : SocketAddr → String) (self : HyperBroadcast) (i : Nat) :
    Exec BroadcastEffect HyperBroadcast :=
  match self.tasks[i]? with
  | none => pure self
  | some t =>
    if t.loop.result.isNone || t.removed then pure self
    else do
      Exec.emit (.removed t.peerId)
      let dropped := self.peers.filter (·.id display = t.peerId)
      return { self with
        peers := self.peers.filter (·.id display ≠ t.peerId)
        tasks := dropped.foldl hangUp (self.tasks.set i { t with removed := true }) }

def stream (self : HyperBroadcast) (i : Nat) (input : DuplexInput IoError) : HyperBroadcast :=
  { self with tasks := self.tasks.modify i fun t =>
      { t with loop := { t.loop with stream := t.loop.stream.act input } } }

def step (display : SocketAddr → String) (self : HyperBroadcast) :
    BroadcastEvent → Exec BroadcastEffect HyperBroadcast
  | .next item => self.next display item
  | .save => self.save
  | .broadcast message => self.broadcast message
  | .advance i => self.advance i
  | .forward i => self.forward i
  | .remove i => self.remove display i
  | .stream i input => pure (self.stream i input)

end HyperBroadcast

end HyperswarmRs
