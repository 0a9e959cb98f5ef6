import HyperswarmRs.Discovery.Basic

namespace HyperswarmRs
open Async
set_option autoImplicit true

/-- `std::time::Duration`. -/
structure Duration where
  secs : UInt64
  nanos : UInt32
  deriving DecidableEq, Repr

abbrev IdBytes : Type := { bytes : List UInt8 // bytes.length = 32 }

structure MdnsConfig where
  id : Option IdBytes
  lookupInterval : Duration
  announcePort : Option UInt16
  deriving DecidableEq, Repr

/-- The derived default, whose interval is zero. -/
instance : Inhabited MdnsConfig := ⟨{ id := none, lookupInterval := ⟨0, 0⟩, announcePort := none }⟩

inductive MdnsCommand where
  | lookup (topic : Topic)
  | announce (topic : Topic)
  deriving DecidableEq, Repr

/-- The future of a command, with its output once it is ready. -/
structure CommandFut where
  output : Option (IoResult Unit)
  armed : Bool := false
  deriving DecidableEq, Repr

def CommandFut.poll (self : CommandFut) : Poll (IoResult Unit) × CommandFut :=
  match self.output with
  | none => (.pending, { self with armed := true })
  | some res => (.ready res, self)

inductive MdnsEffect where
  | commands (r : Poll (Option MdnsCommand))
  | announcer (r : Poll (Option Unit))
  | locator (r : Poll (Option (List UInt8 × SocketAddr)))
  deriving DecidableEq, Repr

/-- The two ends of the command channel belong to one discovery. -/
structure MdnsDiscovery (A : Type := Source Unit) (L : Type := Source (List UInt8 × SocketAddr))
    where
  announcer : A
  locator : L
  pendingCommands : Channel MdnsCommand := {}
  pendingFuture : Option CommandFut := none
  deriving DecidableEq, Repr

namespace MdnsDiscovery

def send (self : MdnsDiscovery A L) (command : MdnsCommand) :
    Exec MdnsEffect (MdnsDiscovery A L) :=
  match self.pendingCommands.trySend command with
  | none => .fail .panicked
  | some pendingCommands => pure { self with pendingCommands }

def lookup (self : MdnsDiscovery A L) (topic : Topic) : Exec MdnsEffect (MdnsDiscovery A L) :=
  self.send (.lookup topic)

def announce (self : MdnsDiscovery A L) (topic : Topic) : Exec MdnsEffect (MdnsDiscovery A L) :=
  self.send (.announce topic)

def pollPendingFuture (self : MdnsDiscovery A L) : Poll (IoResult Unit) × MdnsDiscovery A L :=
  match self.pendingFuture with
  | none => (.ready (.ok ()), self)
  | some fut =>
    match fut.poll with
    | (.pending, fut) => (.pending, { self with pendingFuture := some fut })
    | (.ready res, _) => (.ready res, { self with pendingFuture := none })

section Polls

variable [Answering A Unit] [Answering L (List UInt8 × SocketAddr)]

/-- A command is taken from the channel and dropped. -/
def pollNext (self : MdnsDiscovery A L) :
    Exec MdnsEffect (Poll (Option (IoResult PeerInfo)) × MdnsDiscovery A L) :=
  match self.pollPendingFuture with
  | (.pending, self) => pure (.pending, self)
  | (.ready (.error e), self) => pure (.ready (some (.error e)), self)
  | (.ready (.ok ()), self) => do
    let (_command, pendingCommands) ← (Async.pollNext self.pendingCommands).embed .commands
    match { self with pendingCommands }.pollPendingFuture with
    | (.pending, self) => return (.pending, self)
    | (.ready (.error e), self) => return (.ready (some (.error e)), self)
    | (.ready (.ok ()), self) =>
      let (_, announcer) ← (Async.pollNext self.announcer).embed .announcer
      let (res, locator) ← (Async.pollNext self.locator).embed .locator
      let self := { self with announcer, locator }
      match res with
      | .pending => return (.pending, self)
      | .ready none => return (.pending, self)
      | .ready (some (topic, peerAddr)) =>
        match Topic.ofBytes? topic with
        | some topic => return (.ready (some (.ok ⟨peerAddr, some topic, .mdns⟩)), self)
        | none => return (.ready (some (.error ⟨.other, "Received invalid topic"⟩)), self)

instance : Discovery (MdnsDiscovery A L) MdnsEffect where
  pollNext := pollNext
  lookup := lookup
  announce := announce

end Polls

def Receiving (self : MdnsDiscovery A L) : Prop := self.pendingCommands.receiver = true

theorem pollPendingFuture_receiving {self self' : MdnsDiscovery} (hs : self.Receiving)
    (h : self.pollPendingFuture = (p, self')) : self'.Receiving := by
  rw [pollPendingFuture] at h
  split at h
  · cases h
    exact hs
  · split at h
    · cases h
      exact hs
    · cases h
      exact hs

theorem send_returns {self : MdnsDiscovery} (hs : self.Receiving) (command : MdnsCommand) :
    ∃ self', (self.send command).Returns self' [] ∧ self'.Receiving := by
  rw [send, Channel.trySend, hs]
  exact ⟨_, Exec.pure_returns _, rfl⟩

theorem pollNext_receiving {self self' : MdnsDiscovery} (hs : self.Receiving)
    (h : self.pollNext.Returns (r, self') es) : self'.Receiving := by
  rw [pollNext] at h
  split at h
  · next he =>
    cases h
    exact pollPendingFuture_receiving hs he
  · next he =>
    cases h
    exact pollPendingFuture_receiving hs he
  · next s he =>
    have hs₁ := pollPendingFuture_receiving hs he
    obtain ⟨⟨_, c⟩, _, _, hc, hr, -⟩ := Exec.returns_bind.1 h
    obtain ⟨_, hc', -⟩ := Exec.returns_embed.1 hc
    have hs₂ : Receiving { s with pendingCommands := c } := (Channel.pollNext_receiver hc').trans hs₁
    dsimp only at hr
    split at hr
    · next he' =>
      cases hr
      exact pollPendingFuture_receiving hs₂ he'
    · next he' =>
      cases hr
      exact pollPendingFuture_receiving hs₂ he'
    · next he' =>
      have hs₃ := pollPendingFuture_receiving hs₂ he'
      obtain ⟨⟨_, announcer⟩, _, _, -, hr', -⟩ := Exec.returns_bind.1 hr
      obtain ⟨⟨res, locator⟩, _, _, -, hr'', -⟩ := Exec.returns_bind.1 hr'
      rcases res with _ | _ | ⟨topic, peerAddr⟩
      · cases hr''
        exact hs₃
      · cases hr''
        exact hs₃
      · dsimp only at hr''
        split at hr''
        · cases hr''
          exact hs₃
        · cases hr''
          exact hs₃

end MdnsDiscovery

inductive MdnsInput (ιA : Type := SourceInput Unit)
    (ιL : Type := SourceInput (List UInt8 × SocketAddr)) where
  | announcer (i : ιA)
  | locator (i : ιL)
  deriving DecidableEq, Repr

instance [Environment A ιA] [Environment L ιL] :
    Environment (MdnsDiscovery A L) (MdnsInput ιA ιL) where
  act self
    | .announcer i => { self with announcer := Environment.act self.announcer i }
    | .locator i => { self with locator := Environment.act self.locator i }

end HyperswarmRs
