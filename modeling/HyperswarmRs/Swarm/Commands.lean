import HyperswarmRs.Swarm.DiscoveryRuns
import HyperswarmRs.Transport.Polling

namespace HyperswarmRs
open Async
set_option autoImplicit true

namespace CombinedDiscovery

theorem call_returns {d : CombinedDiscovery} (hs : d.mdns.Receiving) (call : Call) :
    ∃ mdns : MdnsDiscovery, mdns.Receiving ∧ (call.run d).Returns
      ⟨{ d.dht with pendingCommands := d.dht.pendingCommands ++ [call.command d.dht.announcePort] },
        mdns⟩ [] := by
  cases call with
  | lookup topic =>
    obtain ⟨mdns, hm, hr⟩ := MdnsDiscovery.send_returns hs (.lookup topic)
    refine ⟨mdns, hr, ?_⟩
    change (d.lookup topic).Returns _ _
    exact (hm.embed CombinedEffect.mdns).of_bind (Exec.pure_returns _)
  | announce topic =>
    obtain ⟨mdns, hm, hr⟩ := MdnsDiscovery.send_returns hs (.announce topic)
    refine ⟨mdns, hr, ?_⟩
    change (d.announce topic).Returns _ _
    exact (hm.embed CombinedEffect.mdns).of_bind (Exec.pure_returns _)

theorem called_queues {d d' : CombinedDiscovery} (h : Called d calls d' es)
    (hs : d.mdns.Receiving) : d'.mdns.Receiving ∧ d'.dht = { d.dht with
      pendingCommands := d.dht.pendingCommands ++ calls.map (Call.command d.dht.announcePort) } := by
  induction h with
  | refl =>
    rw [List.map_nil, List.append_nil]
    exact ⟨hs, rfl⟩
  | cons hc _ ih =>
    obtain ⟨mdns, hm, hr⟩ := call_returns hs _
    obtain ⟨rfl, rfl⟩ := hr.unique hc
    obtain ⟨hs', hd⟩ := ih hm
    refine ⟨hs', ?_⟩
    rw [hd]
    simp only [List.map_cons, List.append_assoc, List.singleton_append]

end CombinedDiscovery

namespace Hyperswarm

/-- What `bind` builds: the discovery announces the port of the transport. -/
def bindAll (listener : TcpListener) (incoming : Source (IoResult UtpSocket))
    (dht : Source HyperDhtEvent) (announcer : Source Unit)
    (locator : Source (List UInt8 × SocketAddr)) : Hyperswarm CombinedDiscovery CombinedTransport :=
  let transport := .bind (.bind listener) { incoming }
  .bind (.bind dht announcer locator transport.localAddr.port) transport

def waitingCommands (s : Hyperswarm CombinedDiscovery T) : List Command :=
  s.discovery.dht.pendingCommands ++
    (queuedEdges s.topics s.commands.queue).map (Call.command s.discovery.dht.announcePort)

def handedOver (es : List (SwarmEffect CombinedEffect τ)) : List Command :=
  issued ((es.filterMap SwarmEffect.ofDiscovery?).filterMap CombinedEffect.dht?)

/-- A poll that hands nothing on after the bootstrap leaves no command waiting. -/
def HandsOver (s : Hyperswarm CombinedDiscovery CombinedTransport)
    (e : SwarmEvent CombinedInput TransportInput) : Prop :=
  e = .poll → ∀ s' es, s.pollNext.Returns (.pending, s') es →
    s'.discovery.dht.bootstrapped = true →
      s'.commands.queue = [] ∧ s'.discovery.dht.pendingCommands = []

/-- Polled with commands waiting behind a buffered peer, and no connection to hand on. -/
structure Strands (s : Hyperswarm CombinedDiscovery CombinedTransport)
    (e : SwarmEvent CombinedInput TransportInput) : Prop where
  poll : e = .poll
  bootstrapped : s.discovery.dht.bootstrapped = true
  buffered : s.discovery.dht.pendingEvents ≠ []
  waiting : s.waitingCommands ≠ []
  peerKnown : ∀ port, s.transport.next .tcp ≠ some (port, none)
  noConnection : ∀ conn, s.transport.upcoming ≠ some (.ok conn)

structure Sound (s : Hyperswarm CombinedDiscovery CombinedTransport) : Prop where
  live : s.transport.Live
  receiving : s.discovery.mdns.Receiving

theorem drains_dht {s s₁ : Hyperswarm CombinedDiscovery CombinedTransport}
    {es : List (SwarmEffect CombinedEffect TransportEffect)} (hs : s.Sound) (h : Drains s s₁ es) :
    s₁.discovery.mdns.Receiving ∧
      s₁.discovery.dht = { s.discovery.dht with pendingCommands := s.waitingCommands } :=
  CombinedDiscovery.called_queues h.called hs.receiving

theorem handed_of_upcoming {t t' : CombinedTransport} (h : t.pollNext.Returns (res, t') es) :
    handed res = none ↔ ∀ conn, t.upcoming ≠ some (.ok conn) := by
  rw [handed, CombinedTransport.pollNext_item h]
  rcases t.upcoming with _ | _ | conn
  · simp only [Option.bind_none, ne_eq, reduceCtorEq, not_false_eq_true, implies_true]
  · simp only [Option.bind_some, Except.toOption, ne_eq, Option.some.injEq, reduceCtorEq,
      not_false_eq_true, implies_true]
  · simp only [Option.bind_some, Except.toOption, ne_eq, Option.some.injEq, Except.ok.injEq,
      reduceCtorEq, forall_eq']

theorem step_sound {s s' : Hyperswarm CombinedDiscovery CombinedTransport}
    {e : SwarmEvent CombinedInput TransportInput}
    {tr : List (SwarmObs CombinedEffect TransportEffect)}
    (hs : s.Sound) (h : (s.step e).Returns s' tr) : s'.Sound := by
  cases step_cases h with
  | configure hc =>
    obtain ⟨he, hd, -⟩ := configure_returns hc
    rw [he]
    exact ⟨hs.live, (CombinedDiscovery.called_queues hd hs.receiving).1⟩
  | handleConfigure hc => exact ⟨hs.live, hs.receiving⟩
  | @discovery i =>
    refine ⟨hs.live, ?_⟩
    cases i with
    | dht i => exact hs.receiving
    | mdns i => cases i <;> exact hs.receiving
  | transport => exact ⟨CombinedTransport.act_live hs.live _, hs.receiving⟩
  | poll hp =>
    cases hp with
    | failed s₁ hc hd =>
      have hdr := pollCommands_drains hc
      refine ⟨?_, CombinedDiscovery.pollNext_receiving (drains_dht hs hdr).1 hd⟩
      change s₁.transport.Live
      rw [hdr.transport]
      exact hs.live
    | quiet s₁ hc hd hn ht =>
      exact ⟨CombinedTransport.pollNext_live ht,
        CombinedDiscovery.pollNext_receiving (drains_dht hs (pollCommands_drains hc)).1 hd⟩
    | dialled s₁ hc hd ht ht' =>
      exact ⟨CombinedTransport.pollNext_live ht',
        CombinedDiscovery.pollNext_receiving (drains_dht hs (pollCommands_drains hc)).1 hd⟩

theorem Sound.pollCommands_halts {s : Hyperswarm CombinedDiscovery CombinedTransport}
    (hs : s.Sound) : (pollCommands (s.commands.queue.length + 1) s :
      Exec (SwarmEffect CombinedEffect TransportEffect) _).Halts := by
  apply Hyperswarm.pollCommands_halts (I := fun d : CombinedDiscovery => d.mdns.Receiving) ?_ ?_
    hs.receiving (Nat.lt_succ_self _)
  · intro d call hd
    obtain ⟨mdns, -, hr⟩ := CombinedDiscovery.call_returns hd call
    exact hr.halts
  · intro d call d' es hd hr
    exact (CombinedDiscovery.called_queues (.cons hr .refl) hd).1

theorem Strands.not_handsOver {s : Hyperswarm CombinedDiscovery CombinedTransport}
    {e : SwarmEvent CombinedInput TransportInput} (h : Strands s e) (hs : s.Sound) :
    ¬ HandsOver s e := by
  intro hh
  obtain ⟨s₁, es₁, hc⟩ := hs.pollCommands_halts
  have hdr := pollCommands_drains hc
  obtain ⟨-, hd⟩ := drains_dht hs hdr
  obtain ⟨peer, rest, hp⟩ := List.exists_cons_of_ne_nil h.buffered
  have hp' : s₁.discovery.dht.pendingEvents = peer :: rest := by
    rw [hd]
    exact hp
  have hb := CombinedDiscovery.pollNext_buffered hp'
  have ht := CombinedTransport.connect_returns s₁.transport peer.addr
  have hn : (s₁.transport.pushConnects peer.addr).next = s.transport.next := by
    rw [CombinedTransport.pushConnects_next, hdr.transport]
  have hl : s₁.transport.Live := hdr.transport ▸ hs.live
  obtain ⟨⟨res, t'⟩, es₄, ht'⟩ := CombinedTransport.pollNext_halts
    (show (s₁.transport.pushConnects peer.addr).Live from hl) (hn ▸ h.peerKnown)
  have hu : (s₁.transport.pushConnects peer.addr).upcoming = s.transport.upcoming := by
    rw [CombinedTransport.upcoming, CombinedTransport.nextItem, CombinedTransport.nextItem, hn,
      ← hdr.transport]
    rfl
  have hr : reply res = .pending := by
    rw [reply_pending, handed_of_upcoming ht', hu]
    exact h.noConnection
  have hpoll := (Polled.dialled s₁ hc hb ht ht').returns
  rw [hr] at hpoll
  obtain ⟨-, hw⟩ := hh h.poll _ _ hpoll (by
    change s₁.discovery.dht.bootstrapped = true
    rw [hd]
    exact h.bootstrapped)
  change s₁.discovery.dht.pendingCommands = [] at hw
  rw [hd] at hw
  exact h.waiting hw

theorem handsOver_iff_not_strands {s : Hyperswarm CombinedDiscovery CombinedTransport}
    {e : SwarmEvent CombinedInput TransportInput} (hs : s.Sound) :
    HandsOver s e ↔ ¬ Strands s e := by
  refine ⟨fun hh h => h.not_handsOver hs hh, ?_⟩
  rintro hn rfl s' es hp hb
  generalize hr : Poll.pending = r at hp
  cases pollNext_cases hp with
  | failed s₁ hc hd => cases hr
  | quiet s₁ hc hd hi ht =>
    obtain ⟨q, hl, hq⟩ := CombinedDiscovery.pollNext_cases hd
    have hqi : q.item = none := by
      rcases hq with ⟨rfl, -⟩ | ⟨rfl, -⟩
      · exact hi
      · rfl
    refine ⟨(pollCommands_drains hc).queue, hl.executed (fun he => ?_) hb⟩
    obtain ⟨peer, rest, he⟩ := List.exists_cons_of_ne_nil he
    rw [(hl.of_buffered he).1] at hqi
    cases hqi
  | dialled s₁ hc hd ht ht' =>
    have hdr := pollCommands_drains hc
    obtain ⟨-, hd₁⟩ := drains_dht hs hdr
    obtain ⟨q, hl, hq⟩ := CombinedDiscovery.pollNext_cases hd
    refine ⟨hdr.queue, hl.executed (fun he hb' => ?_) hb⟩
    rw [hd₁] at he hb' ⊢
    by_contra hw
    cases ht
    refine hn ⟨rfl, hb', he, hw, ?_, ?_⟩
    · intro port
      rw [← hdr.transport]
      exact CombinedTransport.next_known_of_returns ht' port
    · rw [← hdr.transport]
      exact (handed_of_upcoming ht').1 (reply_pending.1 hr.symm)

structure Accounts (s s' : Hyperswarm CombinedDiscovery CombinedTransport)
    (es : List (SwarmEffect CombinedEffect TransportEffect)) : Prop where
  announcePort : s'.discovery.dht.announcePort = s.discovery.dht.announcePort
  commands : s.discovery.dht.pendingCommands ++
      (requested es).map (Call.command s.discovery.dht.announcePort) =
    handedOver es ++ s'.discovery.dht.pendingCommands

theorem run_accounts {listener : TcpListener} {incoming : Source (IoResult UtpSocket)}
    {dht : Source HyperDhtEvent} {announcer : Source Unit}
    {locator : Source (List UInt8 × SocketAddr)}
    {events : List (SwarmEvent CombinedInput TransportInput)}
    {s : Hyperswarm CombinedDiscovery CombinedTransport}
    {tr : List (SwarmObs CombinedEffect TransportEffect)}
    (h : (run Hyperswarm.step (bindAll listener incoming dht announcer locator) events).Returns
      s tr) : Accounts (bindAll listener incoming dht announcer locator) s (effects tr) := by
  obtain ⟨ds, trd, hd⟩ := run_discovers h
  obtain ⟨ks, trd', trm, hb⟩ := CombinedDiscovery.run_backends hd.run
  exact ⟨(DhtDiscovery.run_has_history hb.dht).announcePort, hd.reaches.dht⟩

theorem bindAll_sound (listener : TcpListener) (incoming : Source (IoResult UtpSocket))
    (dht : Source HyperDhtEvent) (announcer : Source Unit)
    (locator : Source (List UInt8 × SocketAddr)) :
    (bindAll listener incoming dht announcer locator).Sound :=
  ⟨CombinedTransport.bind_live listener _, rfl⟩

/-- The polls of a run hand over all commands exactly when none of them strands some; what is
requested is handed over or still waits, in order. -/
theorem run_hands_over_iff (listener : TcpListener) (incoming : Source (IoResult UtpSocket))
    (dht : Source HyperDhtEvent) (announcer : Source Unit)
    (locator : Source (List UInt8 × SocketAddr))
    (events : List (SwarmEvent CombinedInput TransportInput)) :
    let start := bindAll listener incoming dht announcer locator
    (Along Hyperswarm.step HandsOver start events ↔
      Along Hyperswarm.step (fun s e => ¬ Strands s e) start events) ∧
    ∀ s tr, (run Hyperswarm.step start events).Returns s tr →
      (requested (effects tr)).map (Call.command listener.localAddr.port) =
        handedOver (effects tr) ++ s.discovery.dht.pendingCommands := by
  intro start
  have hs : start.Sound := bindAll_sound listener incoming dht announcer locator
  refine ⟨along_congr (P := Sound) hs step_sound handsOver_iff_not_strands, ?_⟩
  intro s tr h
  exact (run_accounts h).commands

/-- A topic is announced and looked up while a peer of an earlier lookup is still buffered; the
swarm dials that peer and is pending, and the `HyperDht` hears of neither. -/
theorem configure_behind_buffered_peer_is_stranded :
    let start := bindAll { localAddr := loopback 4000 } {} {} {} {}
    let topic : Topic := ⟨List.replicate 32 7, rfl⟩
    let events := [.discovery (.dht (.push .bootstrapped)),
      .discovery (.dht (.push (.lookupResult ⟨topic, [loopback 4001, loopback 4002]⟩))), .poll,
      .configure topic .both]
    ¬ Along Hyperswarm.step HandsOver start (events ++ [.poll]) := by
  intro start topic events h
  have hc : (run Hyperswarm.step start events).check (fun s _ =>
      s.pollNext.check fun p _ => p.1 = .pending ∧ p.2.discovery.dht.bootstrapped = true ∧
        p.2.discovery.dht.pendingCommands.length = 2) := by
    decide +kernel
  obtain ⟨s, tr, hr, hp⟩ := Exec.exists_of_check hc
  obtain ⟨⟨r, s'⟩, es, hp', he⟩ := Exec.exists_of_check hp
  obtain ⟨hr', hb, hl⟩ := of_decide_eq_true he
  obtain rfl : r = .pending := hr'
  have hn := ((h.after hr).1 rfl s' es hp' hb).2
  rw [hn] at hl
  cases hl

end Hyperswarm

end HyperswarmRs
