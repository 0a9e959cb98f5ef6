import HyperswarmRs.Setters
import HyperswarmRs.Swarm.Commands

namespace HyperswarmRs
open Async
set_option autoImplicit true

class ToSocketAddrs (A : Type) where
  toSocketAddrs : A → IoResult (List SocketAddr)

instance : ToSocketAddrs SocketAddr := ⟨fun addr => .ok [addr]⟩

def toSocketAddr [ToSocketAddrs A] (addr : A) : IoResult SocketAddr :=
  match ToSocketAddrs.toSocketAddrs addr with
  | .error e => .error e
  | .ok [] => .error ⟨.invalidInput, "Invalid socket address"⟩
  | .ok (addr :: _) => .ok addr

/-- What the platform is asked for while a swarm is bound. The announcer has the digits of the id in
hexadecimal. -/
inductive BindEffect (C : Type) where
  | tcpListener (addr : SocketAddr)
  | localAddr (n : Nat)
  | utpContext (addr : SocketAddr)
  | socket (n : Nat)
  | locator (lookupInterval : Duration) (selfId : IdBytes)
  | announcer (port : UInt16) (selfId : IdBytes)
  | hyperDht (config : C)
  deriving DecidableEq

/-- What it answers. The listener is asked twice for its address, and of the two multicast sockets
the locator has the first. -/
structure Platform (C : Type) where
  tcpListener : SocketAddr → IoResult TcpListener
  localAddr : Nat → IoResult SocketAddr
  utpContext : SocketAddr → IoResult Unit
  socket : Nat → IoResult Unit
  hyperDht : C → IoResult (Source HyperDhtEvent)
  random : IdBytes

namespace Platform

def failure : IoResult α → Option IoError
  | .ok _ => none
  | .error e => some e

def refusal (os : Platform C) : BindEffect C → Option IoError
  | .tcpListener addr => failure (os.tcpListener addr)
  | .localAddr n => failure (os.localAddr n)
  | .utpContext addr => failure (os.utpContext addr)
  | .socket n => failure (os.socket n)
  | .locator .. | .announcer .. => none
  | .hyperDht config => failure (os.hyperDht config)

end Platform

def ask (call : BindEffect C) (answer : IoResult α) : Exec (BindEffect C) (IoResult α) := do
  Exec.emit call
  return answer

/-- `TcpIncoming::new`, which asks for the address once more. -/
def TcpIncoming.newOn (os : Platform C) (listener : TcpListener) :
    Exec (BindEffect C) (IoResult TcpIncoming) :=
  (ask (.localAddr 1) (os.localAddr 1)).tryBind fun localAddr =>
    pure (.ok ⟨localAddr, HyperswarmRs.accept listener⟩)

/-- The first of the addresses is unwrapped. -/
def TcpTransport.bindOn [ToSocketAddrs A] (os : Platform C) (localAddr : A) :
    Exec (BindEffect C) (IoResult TcpTransport) :=
  match ToSocketAddrs.toSocketAddrs localAddr with
  | .error e => pure (.error e)
  | .ok [] => .fail .panicked
  | .ok (addr :: _) => (ask (.tcpListener addr) (os.tcpListener addr)).tryBind fun listener =>
    (ask (.localAddr 0) (os.localAddr 0)).tryBind fun addr =>
      (TcpIncoming.newOn os listener).tryBind fun incoming => pure (.ok { addr, incoming })

def UtpTransport.bindOn [ToSocketAddrs A] (os : Platform C) (localAddr : A) :
    Exec (BindEffect C) (IoResult UtpTransport) :=
  match ToSocketAddrs.toSocketAddrs localAddr with
  | .error e => pure (.error e)
  | .ok [] => .fail .panicked
  | .ok (addr :: _) => (ask (.utpContext addr) (os.utpContext addr)).tryBind fun () =>
    pure (.ok {})

def defaultSocketAddr : SocketAddr := .v4 0#32 0

def unwrapSocketAddr [ToSocketAddrs A] : Option A → IoResult SocketAddr
  | some addr => toSocketAddr addr
  | none => .ok defaultSocketAddr

/-- The uTP socket is bound to the address that the TCP listener has got. -/
def CombinedTransport.bindAt (os : Platform C) (localAddr : SocketAddr) :
    Exec (BindEffect C) (IoResult CombinedTransport) :=
  (TcpTransport.bindOn os localAddr).tryBind fun tcp =>
    (UtpTransport.bindOn os tcp.localAddr).tryBind fun utp => pure (.ok (.bind tcp utp))

def CombinedTransport.bindOn [ToSocketAddrs A] (os : Platform C) (localAddr : Option A) :
    Exec (BindEffect C) (IoResult CombinedTransport) :=
  match unwrapSocketAddr localAddr with
  | .error e => pure (.error e)
  | .ok localAddr => bindAt os localAddr

def MdnsDiscovery.bindOn (os : Platform C) (config : MdnsConfig) (announcePort : UInt16) :
    Exec (BindEffect C) (IoResult MdnsDiscovery) :=
  let selfId := config.id.getD os.random
  (ask (.socket 0) (os.socket 0)).tryBind fun () => do
    Exec.emit (.locator config.lookupInterval selfId)
    (ask (.socket 1) (os.socket 1)).tryBind fun () => do
      Exec.emit (.announcer announcePort selfId)
      return .ok { announcer := {}, locator := {} }

def DhtDiscovery.bindOn (os : Platform C) (config : C) (announcePort : UInt16) :
    Exec (BindEffect C) (IoResult DhtDiscovery) :=
  (ask (.hyperDht config) (os.hyperDht config)).tryBind fun state =>
    pure (.ok (.bind state announcePort))

variable [DhtConfig C A]

def CombinedDiscovery.bindOn (os : Platform C) (config : Config C) (announcePort : UInt16) :
    Exec (BindEffect C) (IoResult CombinedDiscovery) :=
  (MdnsDiscovery.bindOn os config.sections.1 announcePort).tryBind fun mdns =>
    (DhtDiscovery.bindOn os config.sections.2 announcePort).tryBind fun dht =>
      pure (.ok { mdns, dht })

def Hyperswarm.bindOn (os : Platform C) (config : Config C) :
    Exec (BindEffect C) (IoResult (Hyperswarm CombinedDiscovery CombinedTransport)) :=
  (CombinedTransport.bindOn os config.localAddr).tryBind fun transport =>
    (CombinedDiscovery.bindOn os config transport.localAddr.port).tryBind fun discovery =>
      pure (.ok (.bind discovery transport))

omit [DhtConfig C A] in
theorem returns_ask {call : BindEffect C} {answer r : IoResult α} :
    (ask call answer).Returns r es ↔ r = answer ∧ es = [call] := by
  constructor
  · intro h
    obtain ⟨_, _, _, he, hp, rfl⟩ := Exec.returns_bind.1 h
    obtain ⟨rfl, rfl⟩ := Exec.returns_pure.1 hp
    obtain rfl := Exec.returns_emit.1 he
    exact ⟨rfl, rfl⟩
  · rintro ⟨rfl, rfl⟩
    exact (Exec.emit_returns call).of_bind (Exec.pure_returns r)

omit [DhtConfig C A] in
theorem answered_ask {os : Platform C} {call : BindEffect C} {answer : IoResult α}
    {f : α → Exec (BindEffect C) (IoResult β)} (h : os.refusal call = Platform.failure answer)
    (hf : ∀ a, answer = .ok a → (f a).Answered os.refusal asks) :
    ((ask call answer).tryBind f).Answered os.refusal (call :: asks) := by
  have hc : (ask call answer).Answered os.refusal [call] := by
    refine ⟨answer, [call], returns_ask.2 ⟨rfl, rfl⟩, ?_⟩
    cases answer with
    | ok a => exact ⟨rfl, List.forall_mem_singleton.2 h⟩
    | error e => exact ⟨List.prefix_rfl, [], call, rfl, List.forall_mem_nil _, h⟩
  exact hc.tryBind fun a _ ha => hf a (returns_ask.1 ha).1.symm

omit [DhtConfig C A] in
theorem TcpTransport.bindOn_ok {os : Platform C} {localAddr : SocketAddr} {tcp : TcpTransport}
    (h : (bindOn os localAddr).Returns (.ok tcp) es) : ∃ listener incomingAddr,
      os.tcpListener localAddr = .ok listener ∧ os.localAddr 0 = .ok tcp.localAddr ∧
        os.localAddr 1 = .ok incomingAddr ∧
        tcp = { addr := tcp.localAddr, incoming := ⟨incomingAddr, accept listener⟩ } := by
  obtain ⟨listener, _, _, hl, h₁, rfl⟩ := Exec.returns_tryBind_ok.1 h
  obtain ⟨hl₁, rfl⟩ := returns_ask.1 hl
  obtain ⟨addr, _, _, ha, h₂, rfl⟩ := Exec.returns_tryBind_ok.1 h₁
  obtain ⟨ha₁, rfl⟩ := returns_ask.1 ha
  obtain ⟨incoming, _, _, hi, h₃, rfl⟩ := Exec.returns_tryBind_ok.1 h₂
  obtain ⟨incomingAddr, _, _, hq, hi₁, rfl⟩ := Exec.returns_tryBind_ok.1 hi
  obtain ⟨hq₁, rfl⟩ := returns_ask.1 hq
  obtain ⟨hi₂, rfl⟩ := Exec.returns_pure.1 hi₁
  cases hi₂
  obtain ⟨h₄, rfl⟩ := Exec.returns_pure.1 h₃
  cases h₄
  exact ⟨listener, incomingAddr, hl₁.symm, ha₁.symm, hq₁.symm, rfl⟩

omit [DhtConfig C A] in
theorem CombinedTransport.bindAt_ok {os : Platform C} {localAddr : SocketAddr}
    {transport : CombinedTransport} (h : (bindAt os localAddr).Returns (.ok transport) es) :
    ∃ tcp es', (TcpTransport.bindOn os localAddr).Returns (.ok tcp) es' ∧
      transport = .bind tcp {} := by
  obtain ⟨tcp, es', _, ht, h₁, rfl⟩ := Exec.returns_tryBind_ok.1 h
  obtain ⟨utp, _, _, hu, h₂, rfl⟩ := Exec.returns_tryBind_ok.1 h₁
  obtain ⟨_, _, _, hc, hu₁, rfl⟩ := Exec.returns_tryBind_ok.1 hu
  obtain ⟨-, rfl⟩ := returns_ask.1 hc
  obtain ⟨hu₂, rfl⟩ := Exec.returns_pure.1 hu₁
  cases hu₂
  obtain ⟨h₃, rfl⟩ := Exec.returns_pure.1 h₂
  cases h₃
  exact ⟨tcp, es', ht, rfl⟩

omit [DhtConfig C A] in
theorem MdnsDiscovery.bindOn_ok {os : Platform C} {config : MdnsConfig} {mdns : MdnsDiscovery}
    (h : (bindOn os config port).Returns (.ok mdns) es) :
    mdns = { announcer := {}, locator := {} } := by
  obtain ⟨_, _, _, -, h₁, rfl⟩ := Exec.returns_tryBind_ok.1 h
  obtain ⟨_, _, _, -, h₂, rfl⟩ := Exec.returns_bind.1 h₁
  obtain ⟨_, _, _, -, h₃, rfl⟩ := Exec.returns_tryBind_ok.1 h₂
  obtain ⟨_, _, _, -, h₄, rfl⟩ := Exec.returns_bind.1 h₃
  obtain ⟨h₅, -⟩ := Exec.returns_pure.1 h₄
  cases h₅
  rfl

omit [DhtConfig C A] in
theorem DhtDiscovery.bindOn_ok {os : Platform C} {config : C} {dht : DhtDiscovery}
    (h : (bindOn os config port).Returns (.ok dht) es) :
    ∃ state, os.hyperDht config = .ok state ∧ dht = .bind state port := by
  obtain ⟨state, _, _, hs, h₁, -⟩ := Exec.returns_tryBind_ok.1 h
  obtain ⟨h₂, -⟩ := Exec.returns_pure.1 h₁
  cases h₂
  exact ⟨state, (returns_ask.1 hs).1.symm, rfl⟩

omit [DhtConfig C A] in
theorem TcpTransport.bindOn_answered (os : Platform C) (localAddr : SocketAddr) :
    (bindOn os localAddr).Answered os.refusal
      [.tcpListener localAddr, .localAddr 0, .localAddr 1] :=
  answered_ask rfl fun listener _ => answered_ask rfl fun _ _ =>
    have hi : (TcpIncoming.newOn os listener).Answered os.refusal [.localAddr 1] :=
      answered_ask rfl fun _ _ => Exec.answered_ok _
    hi.tryBind_ok _

omit [DhtConfig C A] in
theorem CombinedTransport.bindAt_answered (os : Platform C) (localAddr : SocketAddr)
    (ha : ∀ a, os.localAddr 0 = .ok a → a = addr) : (bindAt os localAddr).Answered os.refusal
      [.tcpListener localAddr, .localAddr 0, .localAddr 1, .utpContext addr] := by
  have h := (TcpTransport.bindOn_answered os localAddr).tryBind fun tcp _ ht => by
    obtain ⟨_, _, -, hq, -⟩ := TcpTransport.bindOn_ok ht
    have hu : (UtpTransport.bindOn os tcp.localAddr).Answered os.refusal [.utpContext addr] :=
      ha _ hq ▸ answered_ask rfl fun _ _ => Exec.answered_ok _
    exact hu.tryBind_ok (CombinedTransport.bind tcp)
  exact h

omit [DhtConfig C A] in
theorem CombinedTransport.bindOn_eq (os : Platform C) (localAddr : Option SocketAddr) :
    bindOn os localAddr = bindAt os (localAddr.getD defaultSocketAddr) := by
  cases localAddr <;> rfl

omit [DhtConfig C A] in
theorem MdnsDiscovery.bindOn_answered (os : Platform C) (config : MdnsConfig) (port : UInt16) :
    (bindOn os config port).Answered os.refusal
      [.socket 0, .locator config.lookupInterval (config.id.getD os.random), .socket 1,
        .announcer port (config.id.getD os.random)] :=
  answered_ask rfl fun _ _ => .of_emit rfl <|
    answered_ask rfl fun _ _ => .of_emit rfl (Exec.answered_ok _)

omit [DhtConfig C A] in
theorem DhtDiscovery.bindOn_answered (os : Platform C) (config : C) (port : UInt16) :
    (bindOn os config port).Answered os.refusal [.hyperDht config] :=
  answered_ask rfl fun _ _ => Exec.answered_ok _

def CombinedDiscovery.bindCalls (os : Platform C) (config : Config C) (port : UInt16) :
    List (BindEffect C) :=
  let mdns := config.sections.1
  let selfId := mdns.id.getD os.random
  [.socket 0, .locator mdns.lookupInterval selfId, .socket 1, .announcer port selfId,
    .hyperDht config.sections.2]

theorem CombinedDiscovery.bindOn_answered (os : Platform C) (config : Config C) (port : UInt16) :
    (bindOn os config port).Answered os.refusal (bindCalls os config port) := by
  have h := (MdnsDiscovery.bindOn_answered os config.sections.1 port).tryBind fun mdns _ _ =>
    (DhtDiscovery.bindOn_answered os config.sections.2 port).tryBind_ok fun dht =>
      ({ mdns, dht } : CombinedDiscovery)
  exact h

namespace Hyperswarm

def bound (listener : TcpListener) (addr incomingAddr : SocketAddr) (dht : Source HyperDhtEvent) :
    Hyperswarm CombinedDiscovery CombinedTransport :=
  .bind (.bind dht {} {} addr.port)
    (.bind { addr, incoming := ⟨incomingAddr, accept listener⟩ } {})

theorem bound_eq_bindAll (listener : TcpListener) (dht : Source HyperDhtEvent) :
    bound listener listener.localAddr listener.localAddr dht = bindAll listener {} dht {} {} := rfl

/-- What is asked for, in order, when nothing is refused. The port announced is the one listened
on, and the announce port of the config is not read. -/
def bindCalls (os : Platform C) (config : Config C) (addr : SocketAddr) : List (BindEffect C) :=
  .tcpListener (config.localAddr.getD defaultSocketAddr) :: .localAddr 0 :: .localAddr 1 ::
    .utpContext addr :: CombinedDiscovery.bindCalls os config addr.port

structure Binds (os : Platform C) (config : Config C) (listener : TcpListener)
    (addr incomingAddr : SocketAddr) (dht : Source HyperDhtEvent)
    (start : Hyperswarm CombinedDiscovery CombinedTransport) (calls : List (BindEffect C)) :
    Prop where
  listens : os.tcpListener (config.localAddr.getD defaultSocketAddr) = .ok listener
  told : os.localAddr 0 = .ok addr
  toldAgain : os.localAddr 1 = .ok incomingAddr
  joins : os.hyperDht config.sections.2 = .ok dht
  starts : start = bound listener addr incomingAddr dht
  asked : calls = bindCalls os config addr

theorem bindOn_answered (os : Platform C) (config : Config C)
    (ha : ∀ a, os.localAddr 0 = .ok a → a = addr) :
    (bindOn os config).Answered os.refusal (bindCalls os config addr) := by
  have ht := CombinedTransport.bindAt_answered os (config.localAddr.getD defaultSocketAddr) ha
  rw [← CombinedTransport.bindOn_eq] at ht
  refine ht.tryBind fun transport _ hr => ?_
  have hport : transport.localAddr = addr := by
    rw [CombinedTransport.bindOn_eq] at hr
    obtain ⟨tcp, _, htcp, rfl⟩ := CombinedTransport.bindAt_ok hr
    obtain ⟨_, _, -, hq, -⟩ := TcpTransport.bindOn_ok htcp
    exact ha _ hq
  rw [hport]
  exact (CombinedDiscovery.bindOn_answered os config addr.port).tryBind_ok _

theorem bindOn_ok {os : Platform C} {config : Config C}
    {s : Hyperswarm CombinedDiscovery CombinedTransport}
    (h : (bindOn os config).Returns (.ok s) calls) :
    ∃ listener addr incomingAddr dht, Binds os config listener addr incomingAddr dht s calls := by
  obtain ⟨transport, _, _, ht, h₁, -⟩ := Exec.returns_tryBind_ok.1 h
  rw [CombinedTransport.bindOn_eq] at ht
  obtain ⟨⟨addr, incoming, connects⟩, _, htcp, rfl⟩ := CombinedTransport.bindAt_ok ht
  obtain ⟨listener, incomingAddr, hl, ha, hi, he⟩ := TcpTransport.bindOn_ok htcp
  cases he
  obtain ⟨discovery, _, _, hd, h₂, -⟩ := Exec.returns_tryBind_ok.1 h₁
  obtain ⟨mdns, _, _, hm, hd₁, -⟩ := Exec.returns_tryBind_ok.1 hd
  obtain rfl := MdnsDiscovery.bindOn_ok hm
  obtain ⟨dht, _, _, hs, hd₂, -⟩ := Exec.returns_tryBind_ok.1 hd₁
  obtain ⟨state, hs₁, rfl⟩ := DhtDiscovery.bindOn_ok hs
  obtain ⟨hd₃, -⟩ := Exec.returns_pure.1 hd₂
  cases hd₃
  obtain ⟨h₃, -⟩ := Exec.returns_pure.1 h₂
  cases h₃
  have hcalls : calls = bindCalls os config addr :=
    (bindOn_answered os config fun a h => (Except.ok.inj (ha.symm.trans h)).symm).asked h
  exact ⟨listener, addr, incomingAddr, state, hl, ha, hi, hs₁, rfl, hcalls⟩

/-- Binding never panics: it asks in this order, fails with the first refusal of the platform, and
asks for nothing after it. A swarm that is bound has announced, and in every run announces and looks up with, the
port of the address that its listener has told. -/
theorem bindOn_announces (os : Platform C) (config : Config C) :
    (∃ addr, (∀ a, os.localAddr 0 = .ok a → a = addr) ∧
      (bindOn os config).Answered os.refusal (bindCalls os config addr)) ∧
    ∀ start calls, (bindOn os config).Returns (.ok start) calls →
      ∃ listener addr incomingAddr dht,
        Binds os config listener addr incomingAddr dht start calls ∧
        ∀ events s tr, (run Hyperswarm.step start events).Returns s tr →
          Reaches addr.port (effects tr) s.discovery := by
  constructor
  · obtain ⟨addr, ha⟩ : ∃ addr, ∀ a, os.localAddr 0 = .ok a → a = addr := by
      cases os.localAddr 0 with
      | error e => exact ⟨defaultSocketAddr, fun a h => by cases h⟩
      | ok addr => exact ⟨addr, fun a h => (Except.ok.inj h).symm⟩
    exact ⟨addr, ha, bindOn_answered os config ha⟩
  intro start calls h
  obtain ⟨listener, addr, incomingAddr, dht, hb⟩ := bindOn_ok h
  refine ⟨listener, addr, incomingAddr, dht, hb, fun events s tr hr => ?_⟩
  rw [hb.starts] at hr
  obtain ⟨ds, trd, hd⟩ := run_discovers hr
  exact hd.reaches

theorem bindOn_announces_assigned_port :
    let os : Platform Config.PlainDht := {
      tcpListener := fun _ => .ok { localAddr := loopback 4000 }
      localAddr := fun _ => .ok (loopback 4000)
      utpContext := fun _ => .ok ()
      socket := fun _ => .ok ()
      hyperDht := fun _ => .ok {}
      random := ⟨List.replicate 32 7, rfl⟩ }
    let config := Config.new.setMdns { (default : MdnsConfig) with announcePort := some 9999 }
    ∃ start calls, (bindOn os config).Returns (.ok start) calls ∧
      start = bindAll { localAddr := loopback 4000 } {} {} {} {} ∧
        .announcer 4000 os.random ∈ calls ∧
          ∀ events s tr, (run Hyperswarm.step start events).Returns s tr →
            Reaches 4000 (effects tr) s.discovery := by
  intro os config
  have hc : (bindOn os config).check (fun r _ => r.toOption.isSome) := by decide +kernel
  obtain ⟨r, calls, hr, hs⟩ := Exec.exists_of_check hc
  cases r with
  | error e => cases hs
  | ok start =>
    obtain ⟨_, _, _, _, ⟨hl, ha, hi, hd, rfl, rfl⟩, hrun⟩ :=
      (bindOn_announces os config).2 start calls hr
    cases hl
    cases ha
    cases hi
    cases hd
    exact ⟨_, _, hr, bound_eq_bindAll _ _, by decide +kernel, hrun⟩

/-- The listener does not tell its address when it is asked again. -/
example :
    let failed : IoError := ⟨.os 9, "Bad file descriptor"⟩
    let os : Platform Config.PlainDht := {
      tcpListener := fun _ => .ok { localAddr := loopback 4000 }
      localAddr := fun n => if n = 0 then .ok (loopback 4000) else .error failed
      utpContext := fun _ => .ok ()
      socket := fun _ => .ok ()
      hyperDht := fun _ => .ok {}
      random := ⟨List.replicate 32 7, rfl⟩ }
    (bindOn os .new).Returns (.error failed)
      [.tcpListener defaultSocketAddr, .localAddr 0, .localAddr 1] := rfl

end Hyperswarm

end HyperswarmRs
