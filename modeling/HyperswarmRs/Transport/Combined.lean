import HyperswarmRs.Transport.Tcp
import HyperswarmRs.Transport.Utp
import HyperswarmRs.Async.KeepFirst

namespace HyperswarmRs
open Async
set_option autoImplicit true

inductive CombinedStream where
  | tcp (stream : TcpStream)
  | utp (stream : UtpStream)
  deriving DecidableEq, Repr

/-- The query of a TCP stream can fail, and is unwrapped. -/
def CombinedStream.peerAddr : CombinedStream → Option SocketAddr
  | .tcp stream => (TcpTransport.peer stream).map Prod.snd
  | .utp stream => some stream.peerAddr

def CombinedStream.protocol : CombinedStream → String
  | .tcp _ => "tcp"
  | .utp _ => "utp"

inductive TransportEffect where
  | tcp (e : EndpointEffect TcpStream)
  | utp (e : EndpointEffect UtpSocket)
  deriving DecidableEq, Repr

structure CombinedTransport where
  tcp : TcpTransport
  utp : UtpTransport
  localAddr : SocketAddr
  connected : Finset SocketAddr := ∅
  deriving DecidableEq

abbrev Item : Type := IoResult (Connection CombinedStream)

namespace CombinedTransport

def bind (tcp : TcpTransport) (utp : UtpTransport) : CombinedTransport :=
  { tcp, utp, localAddr := tcp.localAddr }

def fresh : CombinedTransport := bind (.bind { localAddr := loopback 4000 }) {}

/-- An inbound connection is always taken, an initiated one only if its address is new. -/
def onConnection (self : CombinedTransport) (conn : Connection T) (map : T → CombinedStream) :
    Option Item × CombinedTransport :=
  let (stream, peerAddr, isInitiator, protocol) := conn.intoParts
  let (takeConnection, self) :=
    if !isInitiator then (true, self)
    else if peerAddr ∉ self.connected then
      (true, { self with connected := insert peerAddr self.connected })
    else (false, self)
  if takeConnection then
    (some (.ok ⟨map stream, peerAddr, isInitiator, protocol⟩), self)
  else (none, self)

def onPollConnection (self : CombinedTransport) (poll : Poll (Option (IoResult (Connection T))))
    (map : T → CombinedStream) : Option Item × CombinedTransport :=
  match poll with
  | .pending => (none, self)
  | .ready none => (none, self)
  | .ready (some (.error err)) => (some (.error err), self)
  | .ready (some (.ok conn)) => self.onConnection conn map

def connect (self : CombinedTransport) (peerAddr : SocketAddr) :
    Exec TransportEffect CombinedTransport := do
  let tcp ← (self.tcp.connect peerAddr).embed .tcp
  let utp ← (self.utp.connect peerAddr).embed .utp
  return { self with tcp, utp }

def pollNext (self : CombinedTransport) :
    Exec TransportEffect (Poll (Option Item) × CombinedTransport) := do
  let (tcpNext, tcp) ← self.tcp.pollNext.embed .tcp
  match { self with tcp }.onPollConnection tcpNext .tcp with
  | (some res, self) => return (.ready (some res), self)
  | (none, self) =>
    let (utpNext, utp) ← self.utp.pollNext.embed .utp
    match { self with utp }.onPollConnection utpNext .utp with
    | (some res, self) => return (.ready (some res), self)
    | (none, self) => return (.pending, self)

instance : Transport CombinedTransport TransportEffect CombinedStream where
  pollNext := pollNext
  connect := connect

end CombinedTransport

inductive TransportInput where
  | tcpIncoming (result : IoResult (TcpStream × SocketAddr))
  | tcpConnect (c : Completion (IoResult TcpStream))
  | utpIncoming (i : SourceInput (IoResult UtpSocket))
  | utpConnect (c : Completion (IoResult UtpSocket))
  deriving DecidableEq, Repr

def CombinedTransport.act (self : CombinedTransport) : TransportInput → CombinedTransport
  | .tcpIncoming result => { self with tcp.incoming := self.tcp.incoming.act result }
  | .tcpConnect c => { self with tcp.pendingConnects := self.tcp.pendingConnects.act c }
  | .utpIncoming i => { self with utp.incoming := self.utp.incoming.act i }
  | .utpConnect c => { self with utp.pendingConnects := self.utp.pendingConnects.act c }

instance : Environment CombinedTransport TransportInput := ⟨CombinedTransport.act⟩

end HyperswarmRs
