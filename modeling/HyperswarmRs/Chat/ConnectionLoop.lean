import HyperswarmRs.Net
import HyperswarmRs.Async.Duplex
import HyperswarmRs.Async.Framing
import HyperswarmRs.Async.Run

namespace HyperswarmRs
open Async
set_option autoImplicit true

abbrev Message : Type := List UInt8

inductive LoopError where
  | stream (e : StreamError IoError)
  | send (message : Message)
  | anyhow (message : String)
  deriving DecidableEq, Repr

/-- Where a loop waits: for a header or a message to send, for the body that a header announces,
or for room for what it still has to write. -/
inductive LoopState where
  | selecting (header : List UInt8)
  | reading (len : Nat) (body : List UInt8)
  | writing (buf : List UInt8)
  deriving DecidableEq, Repr

/-- The task of `connection_loop`, and its channels to the other tasks of the node. -/
structure ConnectionLoop where
  stream : Duplex IoError := {}
  inbound : Channel Message := {}
  outbound : Channel Message := {}
  state : LoopState := .selecting []
  result : Option LoopError := none

inductive LoopEffect where
  | queued (message : Message)
  | took (message : Message)
  | dropped (header : List UInt8)
  | wrote (bytes : List UInt8)
  | read (bytes : List UInt8)
  | delivered (message : Message)
  | received (message : Message)
  deriving DecidableEq, Repr

inductive TaskEvent where
  | advance
  | send (message : Message)
  | hangUp
  | receive
  | dropReceiver

inductive LoopEvent where
  | task (e : TaskEvent)
  | stream (i : DuplexInput IoError)

namespace ConnectionLoop

def spawn (stream : Duplex IoError) : ConnectionLoop := { stream }

/-- The task returns, and drops the stream and its ends of the channels. -/
def finish (self : ConnectionLoop) (err : LoopError) : ConnectionLoop :=
  { self with
    inbound := self.inbound.dropSender
    outbound := self.outbound.dropReceiver
    result := some err }

/-- The body is read, as far as it has arrived; at its end it is sent on at once. -/
def onBody (self : ConnectionLoop) (len : Nat) (body : List UInt8) :
    Exec LoopEffect ConnectionLoop :=
  if body.length < len then pure { self with state := .reading len body }
  else
    match self.inbound.trySend body with
    | none => pure ({ self with state := .reading len body }.finish (.send body))
    | some inbound => do
      Exec.emit (.delivered body)
      return { self with inbound, state := .selecting [] }

def onHeader (self : ConnectionLoop) (header : List UInt8) : Exec LoopEffect ConnectionLoop :=
  if header.length < 4 then pure { self with state := .selecting header }
  else self.onBody (fromBeBytes header) []

def onWritten (self : ConnectionLoop) (buf : List UInt8) : ConnectionLoop :=
  { self with state := if buf = [] then .selecting [] else .writing buf }

/-- The arm of the `select` that takes a message to send. It drops the other future, and with it
the part of a header that this one has read. -/
def onOutbound (self : ConnectionLoop) (header : List UInt8) : Exec LoopEffect ConnectionLoop :=
  match self.outbound.poll with
  | (.pending, outbound) => pure { self with outbound }
  | (.ready none, outbound) =>
    pure ({ self with outbound }.finish (.anyhow "Remote connection closed?"))
  | (.ready (some message), outbound) => do
    Exec.emit (.dropped header)
    Exec.emit (.took message)
    return { self with outbound, state := .writing (frame 4 message) }

def onSelecting (self : ConnectionLoop) (header : List UInt8) : Exec LoopEffect ConnectionLoop :=
  match self.stream.read (4 - header.length) with
  | (.ready (.ok bytes), stream) => do
    Exec.emit (.read bytes)
    { self with stream }.onHeader (header ++ bytes)
  | (.ready (.error e), _) => pure (self.finish (.stream e))
  | (.pending, _) => self.onOutbound header

def onReading (self : ConnectionLoop) (len : Nat) (body : List UInt8) :
    Exec LoopEffect ConnectionLoop :=
  match self.stream.read (len - body.length) with
  | (.ready (.ok bytes), stream) => do
    Exec.emit (.read bytes)
    { self with stream }.onBody len (body ++ bytes)
  | (.ready (.error e), _) => pure (self.finish (.stream e))
  | (.pending, _) => pure self

def onWriting (self : ConnectionLoop) (buf : List UInt8) : Exec LoopEffect ConnectionLoop :=
  match self.stream.write buf with
  | (.ready (.ok n), stream) => do
    Exec.emit (.wrote (buf.take n))
    return { self with stream }.onWritten (buf.drop n)
  | (.ready (.error e), _) => pure (self.finish (.stream e))
  | (.pending, _) => pure self

/-- One turn of the loop: a read or a write of its stream, and what follows from it before the
next one. -/
def advance (self : ConnectionLoop) : Exec LoopEffect ConnectionLoop :=
  if self.result.isSome then pure self
  else
    match self.state with
    | .selecting header => self.onSelecting header
    | .reading len body => self.onReading len body
    | .writing buf => self.onWriting buf

/-- `Peer::send_message`, which fails once the loop has ended. -/
def sendMessage (self : ConnectionLoop) (message : Message) : Exec LoopEffect ConnectionLoop :=
  match self.outbound.trySend message with
  | none => pure self
  | some outbound => do
    Exec.emit (.queued message)
    return { self with outbound }

def receive (self : ConnectionLoop) :
    Exec LoopEffect (Poll (Option Message) × ConnectionLoop) :=
  match self.inbound.poll with
  | (.ready (some message), inbound) => do
    Exec.emit (.received message)
    return (.ready (some message), { self with inbound })
  | (r, inbound) => pure (r, { self with inbound })

def task (self : ConnectionLoop) : TaskEvent → Exec LoopEffect ConnectionLoop
  | .advance => self.advance
  | .send message => self.sendMessage message
  | .hangUp => pure { self with outbound := self.outbound.dropSender }
  | .receive => do
    let (_, self) ← self.receive
    return self
  | .dropReceiver => pure { self with inbound := self.inbound.dropReceiver }

def step (self : ConnectionLoop) : LoopEvent → Exec LoopEffect ConnectionLoop
  | .task e => self.task e
  | .stream i => pure { self with stream := self.stream.act i }

end ConnectionLoop

end HyperswarmRs
