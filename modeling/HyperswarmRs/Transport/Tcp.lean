import HyperswarmRs.Transport.Basic

namespace HyperswarmRs
open Async
set_option autoImplicit true

/-- A connected socket, and what the operating system answers to `peer_addr`. -/
structure TcpStream where
  fd : Nat
  peerAddr : IoResult SocketAddr
  deriving DecidableEq, Repr

structure TcpListener where
  localAddr : SocketAddr
  backlog : List (IoResult (TcpStream × SocketAddr)) := []
  deriving DecidableEq, Repr

/-- The future of the `async fn accept`, which owns the listener until it completes. -/
inductive AcceptFuture where
  | waiting (listener : TcpListener) (armed : Bool)
  | completed
  deriving DecidableEq, Repr

def accept (listener : TcpListener) : AcceptFuture := .waiting listener false

/-- Polling a completed `async fn` panics. -/
def AcceptFuture.poll : AcceptFuture →
    Exec ε (Poll (TcpListener × IoResult (TcpStream × SocketAddr)) × AcceptFuture)
  | .completed => .fail .panicked
  | .waiting listener _ =>
    match listener.backlog with
    | [] => pure (.pending, .waiting listener true)
    | result :: rest => pure (.ready ({ listener with backlog := rest }, result), .completed)

structure TcpIncoming where
  localAddr : SocketAddr
  accept : AcceptFuture
  deriving DecidableEq, Repr

/-- The listener tells its address; `newOn` has the query, which may fail. -/
def TcpIncoming.new (listener : TcpListener) : TcpIncoming :=
  ⟨listener.localAddr, HyperswarmRs.accept listener⟩

/-- `TcpIncoming::poll_next` replaces the accept future as soon as it has completed. -/
def TcpIncoming.pollNext (self : TcpIncoming) :
    Exec (Poll (Option (IoResult TcpStream)))
      (Poll (Option (IoResult TcpStream)) × TcpIncoming) := do
  let (poll, future) ← self.accept.poll
  match poll with
  | .pending => answering (.pending, { self with accept := future })
  | .ready (listener, res) =>
    answering (.ready (some (res.map Prod.fst)),
      { self with accept := HyperswarmRs.accept listener })

def TcpIncoming.items (self : TcpIncoming) : List (IoResult TcpStream) :=
  match self.accept with
  | .waiting listener _ => listener.backlog.map (Except.map Prod.fst)
  | .completed => []

instance : Leaf TcpIncoming (IoResult TcpStream) where
  pollNext := TcpIncoming.pollNext
  items := TcpIncoming.items
  armed self := ∃ listener, self.accept = .waiting listener true
  pollNext_spec {s s' r es} h := by
    obtain ⟨localAddr, future⟩ := s
    cases future with
    | completed => exact (Exec.returns_fail h).elim
    | waiting listener armed =>
      obtain ⟨addr, backlog⟩ := listener
      cases backlog with
      | nil =>
        change (answering (.pending, TcpIncoming.mk localAddr (.waiting ⟨addr, []⟩ true))).Returns
          (r, s') es at h
        obtain ⟨he, rfl⟩ := returns_answering.1 h
        cases he
        exact ⟨rfl, rfl, rfl, fun _ => ⟨_, rfl⟩⟩
      | cons result rest =>
        change (answering (.ready (some (result.map Prod.fst)),
          TcpIncoming.mk localAddr (.waiting ⟨addr, rest⟩ false))).Returns (r, s') es at h
        obtain ⟨he, rfl⟩ := returns_answering.1 h
        cases he
        exact ⟨rfl, rfl, rfl, fun hp => by cases hp⟩

def TcpIncoming.act (self : TcpIncoming) (result : IoResult (TcpStream × SocketAddr)) :
    TcpIncoming :=
  match self.accept with
  | .waiting listener armed =>
    { self with accept := .waiting { listener with backlog := listener.backlog ++ [result] } armed }
  | .completed => self

instance : Environment TcpIncoming (IoResult (TcpStream × SocketAddr)) := ⟨TcpIncoming.act⟩

def TcpIncoming.Accepting (self : TcpIncoming) : Prop :=
  ∃ listener armed, self.accept = .waiting listener armed

theorem TcpIncoming.pollNext_exists {self : TcpIncoming} (h : self.Accepting) :
    ∃ r self' es, self.pollNext.Returns (r, self') es ∧ self'.Accepting := by
  obtain ⟨localAddr, future⟩ := self
  obtain ⟨⟨addr, backlog⟩, armed, rfl⟩ := h
  cases backlog with
  | nil => exact ⟨_, _, _, rfl, _, _, rfl⟩
  | cons result rest => exact ⟨_, _, _, rfl, _, _, rfl⟩

theorem TcpIncoming.pollNext_accepting {self self' : TcpIncoming}
    (h : self.pollNext.Returns (r, self') es) : self'.Accepting := by
  by_cases ha : self.Accepting
  · obtain ⟨_, t, _, ht, hacc⟩ := TcpIncoming.pollNext_exists ha
    have he := (Exec.Returns.unique h ht).1
    cases he
    exact hacc
  · obtain ⟨localAddr, future⟩ := self
    cases future with
    | waiting listener armed => exact (ha ⟨_, _, rfl⟩).elim
    | completed => exact (Exec.returns_fail h).elim

theorem TcpIncoming.act_accepting {self : TcpIncoming} (h : self.Accepting)
    (result : IoResult (TcpStream × SocketAddr)) : (self.act result).Accepting := by
  obtain ⟨listener, armed, he⟩ := h
  rw [TcpIncoming.act, he]
  exact ⟨_, _, rfl⟩

theorem TcpIncoming.act_items {self : TcpIncoming} (h : self.Accepting)
    (result : IoResult (TcpStream × SocketAddr)) :
    (self.act result).items = self.items ++ [result.map Prod.fst] := by
  obtain ⟨localAddr, future⟩ := self
  obtain ⟨listener, armed, rfl⟩ := h
  exact List.map_append

structure TcpTransport where
  addr : SocketAddr
  incoming : TcpIncoming
  pendingConnects : PendingConnects TcpStream := {}
  deriving DecidableEq, Repr

namespace TcpTransport

def protocol : String := "tcp"

/-- `stream.peer_addr().unwrap()`. -/
def peer (stream : TcpStream) : Option (TcpStream × SocketAddr) :=
  match stream.peerAddr with
  | .ok peerAddr => some (stream, peerAddr)
  | .error _ => none

/-- The listener tells its address, both times; `bindOn` has the queries, which may fail. -/
def bind (listener : TcpListener) : TcpTransport :=
  { addr := listener.localAddr, incoming := .new listener }

def localAddr (self : TcpTransport) : SocketAddr := self.addr

def connect (self : TcpTransport) (peerAddr : SocketAddr) :
    Exec (EndpointEffect TcpStream) TcpTransport := do
  Exec.emit (.dial peerAddr)
  return { self with pendingConnects := self.pendingConnects.push peerAddr }

def pollNext (self : TcpTransport) : Exec (EndpointEffect TcpStream)
    (Poll (Option (IoResult (Connection TcpStream))) × TcpTransport) := do
  let (res, incoming, pendingConnects) ←
    pollSources peer protocol self.incoming self.pendingConnects
  return (res, { self with incoming, pendingConnects })

instance : Transport TcpTransport (EndpointEffect TcpStream) TcpStream where
  pollNext := pollNext
  connect := connect

theorem pollNext_cases {self self' : TcpTransport} (h : self.pollNext.Returns (r, self') es) :
    SourcesPoll peer protocol self.incoming self.pendingConnects r self'.incoming
      self'.pendingConnects es := by
  simp only [pollNext, Exec.returns_bind, Exec.returns_pure, Prod.mk.injEq] at h
  obtain ⟨⟨r, i, c⟩, _, _, hp, ⟨⟨rfl, rfl⟩, rfl⟩, rfl⟩ := h
  rw [List.append_nil]
  exact pollSources_cases hp

end TcpTransport

end HyperswarmRs
