import HyperswarmRs.Transport.Basic

namespace HyperswarmRs
open Async
set_option autoImplicit true

/-- A socket of the uTP library, which always knows its peer. -/
structure UtpSocket where
  id : Nat
  peerAddr : SocketAddr
  deriving DecidableEq, Repr

structure UtpStream where
  inner : UtpSocket
  deriving DecidableEq, Repr

def UtpStream.peerAddr (self : UtpStream) : SocketAddr := self.inner.peerAddr

structure UtpTransport where
  pendingConnects : PendingConnects UtpSocket := {}
  incoming : Source (IoResult UtpSocket) := {}
  deriving DecidableEq, Repr

namespace UtpTransport

def protocol : String := "utp"

def peer (socket : UtpSocket) : Option (UtpStream × SocketAddr) :=
  let stream : UtpStream := ⟨socket⟩
  some (stream, stream.peerAddr)

def connect (self : UtpTransport) (peerAddr : SocketAddr) :
    Exec (EndpointEffect UtpSocket) UtpTransport := do
  Exec.emit (.dial peerAddr)
  return { self with pendingConnects := self.pendingConnects.push peerAddr }

def pollNext (self : UtpTransport) : Exec (EndpointEffect UtpSocket)
    (Poll (Option (IoResult (Connection UtpStream))) × UtpTransport) := do
  let (res, incoming, pendingConnects) ←
    pollSources peer protocol self.incoming self.pendingConnects
  return (res, { self with incoming, pendingConnects })

instance : Transport UtpTransport (EndpointEffect UtpSocket) UtpStream where
  pollNext := pollNext
  connect := connect

theorem pollNext_cases {self self' : UtpTransport} (h : self.pollNext.Returns (r, self') es) :
    SourcesPoll peer protocol self.incoming self.pendingConnects r self'.incoming
      self'.pendingConnects es := by
  simp only [pollNext, Exec.returns_bind, Exec.returns_pure, Prod.mk.injEq] at h
  obtain ⟨⟨r, i, c⟩, _, _, hp, ⟨⟨rfl, rfl⟩, rfl⟩, rfl⟩ := h
  rw [List.append_nil]
  exact pollSources_cases hp

end UtpTransport

end HyperswarmRs
