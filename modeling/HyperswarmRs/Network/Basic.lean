import HyperswarmRs.Swarm.Basic
import HyperswarmRs.Transport.Arrivals
import Mathlib.Logic.Function.Basic

namespace HyperswarmRs
open Async
set_option autoImplicit true

/-- A connection between two nodes, as the network sees it: the address dialled by its initiator,
and the address from which its responder sees it come. -/
structure Link (ι : Type) where
  id : Nat
  initiator : ι
  responder : ι
  protocol : Protocol
  dialled : SocketAddr
  source : SocketAddr
  deriving DecidableEq

namespace Link

def node (l : Link ι) (isInitiator : Bool) : ι := if isInitiator then l.initiator else l.responder

def peerAddr (l : Link ι) (isInitiator : Bool) : SocketAddr :=
  if isInitiator then l.dialled else l.source

def port (l : Link ι) (isInitiator : Bool) : Port := ⟨l.protocol, isInitiator⟩

def tcpStream (l : Link ι) (isInitiator : Bool) : TcpStream := ⟨l.id, .ok (l.peerAddr isInitiator)⟩

def utpSocket (l : Link ι) (isInitiator : Bool) : UtpSocket := ⟨l.id, l.peerAddr isInitiator⟩

/-- One end of the connection, as it is handed to the application of its node. -/
def half (l : Link ι) (isInitiator : Bool) : Connection CombinedStream :=
  match l.protocol with
  | .tcp => ⟨.tcp (l.tcpStream isInitiator), l.peerAddr isInitiator, isInitiator,
      TcpTransport.protocol⟩
  | .utp => ⟨.utp ⟨l.utpSocket isInitiator⟩, l.peerAddr isInitiator, isInitiator,
      UtpTransport.protocol⟩

def connectInput (l : Link ι) (index : Nat) : TransportInput :=
  match l.protocol with
  | .tcp => .tcpConnect ⟨index, .ok (l.tcpStream true)⟩
  | .utp => .utpConnect ⟨index, .ok (l.utpSocket true)⟩

def acceptInput (l : Link ι) : TransportInput :=
  match l.protocol with
  | .tcp => .tcpIncoming (.ok (l.tcpStream false, l.source))
  | .utp => .utpIncoming (.push (.ok (l.utpSocket false)))

end Link

inductive TransportFault where
  | connect (p : Protocol) (index : Nat) (err : IoError)
  | accept (p : Protocol) (err : IoError)
  deriving DecidableEq, Repr

def TransportFault.input : TransportFault → TransportInput
  | .connect .tcp index err => .tcpConnect ⟨index, .error err⟩
  | .connect .utp index err => .utpConnect ⟨index, .error err⟩
  | .accept .tcp err => .tcpIncoming (.error err)
  | .accept .utp err => .utpIncoming (.push (.error err))

/-- Nodes, the connections made between them, and what each has yielded to its application. -/
structure Network (ι D : Type) where
  nodes : ι → Hyperswarm D CombinedTransport
  links : List (Link ι)
  apps : ι → List (Connection CombinedStream)

inductive NetworkEvent (ι ιD : Type) where
  | configure (n : ι) (topic : Topic) (config : TopicConfig)
  | handleConfigure (n : ι) (topic : Topic) (config : TopicConfig)
  | discovery (n : ι) (i : ιD)
  | poll (n : ι)
  | link (n : ι) (p : Protocol) (index : Nat) (source : SocketAddr)
  | fault (n : ι) (f : TransportFault)
  deriving DecidableEq

namespace Network

def bind (discovery : ι → D) (localAddr : ι → SocketAddr) : Network ι D where
  nodes n := .bind (discovery n) (.bind (.bind { localAddr := localAddr n }) {})
  links := []
  apps _ := []

variable [DecidableEq ι]

def set (net : Network ι D) (n : ι) (s : Hyperswarm D CombinedTransport) : Network ι D :=
  { net with nodes := Function.update net.nodes n s }

def act (net : Network ι D) (n : ι) (i : TransportInput) : Network ι D :=
  net.set n { net.nodes n with transport := (net.nodes n).transport.act i }

def deliver (net : Network ι D) (n : ι) (conn : Option (Connection CombinedStream)) :
    Network ι D :=
  { net with apps := Function.update net.apps n (net.apps n ++ conn.toList) }

@[simp] theorem set_self (net : Network ι D) (n : ι) (s : Hyperswarm D CombinedTransport) :
    (net.set n s).nodes n = s := Function.update_self ..

theorem set_other (net : Network ι D) (s : Hyperswarm D CombinedTransport) (h : m ≠ n) :
    (net.set n s).nodes m = net.nodes m := Function.update_of_ne h ..

@[simp] theorem deliver_self (net : Network ι D) (n : ι)
    (conn : Option (Connection CombinedStream)) :
    (net.deliver n conn).apps n = net.apps n ++ conn.toList := Function.update_self ..

theorem deliver_other (net : Network ι D) (conn : Option (Connection CombinedStream))
    (h : m ≠ n) : (net.deliver n conn).apps m = net.apps m := Function.update_of_ne h ..

/-- The connection exists at both ends at once, under an identity of its own. -/
def establish (net : Network ι D) (l : Link ι) (index : Nat) : Network ι D :=
  { (net.act l.initiator (l.connectInput index)).act l.responder l.acceptInput with
    links := net.links ++ [l] }

/-- A connect succeeds if it is in flight and its address belongs to a node. -/
def link (owner : SocketAddr → Option ι) (net : Network ι D) (n : ι) (p : Protocol)
    (index : Nat) (source : SocketAddr) : Network ι D :=
  match ((net.nodes n).transport.inFlight p)[index]? with
  | none => net
  | some dialled =>
    match owner dialled with
    | none => net
    | some m => net.establish ⟨net.links.length, n, m, p, dialled, source⟩ index

def step [Discovery D δ] [Environment D ιD] (owner : SocketAddr → Option ι) (net : Network ι D) :
    NetworkEvent ι ιD → Exec (ι × SwarmEffect δ TransportEffect) (Network ι D)
  | .configure n topic config => do
    let s ← ((net.nodes n).configure topic config).embed (n, ·)
    return net.set n s
  | .handleConfigure n topic config => do
    let s ← (net.nodes n).handleConfigure topic config
    return net.set n s
  | .discovery n i =>
    pure (net.set n
      { net.nodes n with discovery := Environment.act (net.nodes n).discovery i })
  | .poll n => do
    let (r, s) ← (net.nodes n).pollNext.embed (n, ·)
    return (net.set n s).deliver n (handed r)
  | .link n p index source => pure (net.link owner n p index source)
  | .fault n f => pure (net.act n f.input)

end Network

end HyperswarmRs
