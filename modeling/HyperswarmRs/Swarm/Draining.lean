import HyperswarmRs.Discovery.Draining
import HyperswarmRs.Swarm.Commands
import HyperswarmRs.Swarm.Configures
import HyperswarmRs.Swarm.Conservation
import HyperswarmRs.Transport.Draining

namespace HyperswarmRs
open Async
set_option autoImplicit true

namespace CombinedDiscovery

structure Lengthened (d d' : CombinedDiscovery) (calls : List Call) : Prop where
  state : d'.dht.state = d.dht.state
  upcoming : d'.upcoming = d.upcoming
  weight : d'.weight = d.weight + calls.length
  pendingFuture : d'.mdns.pendingFuture = d.mdns.pendingFuture

theorem call_lengthened {d d' : CombinedDiscovery} (h : (call.run d).Returns d' es) :
    Lengthened d d' [call] := by
  obtain ⟨command, opts, hm, hd⟩ : ∃ command opts, (d.mdns.send command).Returns d'.mdns [] ∧
      d'.dht = { d.dht with pendingCommands := d.dht.pendingCommands ++ [opts] } := by
    cases call with
    | lookup topic => exact ⟨_, _, (told_backends h).1, (told_backends h).2.1⟩
    | announce topic => exact ⟨_, _, (told_backends h).1, (told_backends h).2.1⟩
  obtain ⟨c, hq, hm', -⟩ := MdnsDiscovery.send_cases hm
  have hlen := congrArg List.length (Channel.trySend_queue hq)
  rw [List.length_append, List.length_singleton] at hlen
  refine ⟨?_, ?_, ?_, ?_⟩
  · rw [hd]
  · rw [upcoming, hd, hm']
    rfl
  · rw [weight, hd, hm', MdnsDiscovery.weight, weight, MdnsDiscovery.weight,
      List.length_singleton, hlen]
    simp only [DhtDiscovery.weight]
    omega
  · rw [hm']

theorem called_lengthened {d d' : CombinedDiscovery} (h : Called d calls d' es) :
    Lengthened d d' calls := by
  induction h with
  | refl => exact ⟨rfl, rfl, rfl, rfl⟩
  | cons hc _ ih =>
    have hstep := call_lengthened hc
    refine ⟨ih.state.trans hstep.state, ih.upcoming.trans hstep.upcoming, ?_,
      ih.pendingFuture.trans hstep.pendingFuture⟩
    rw [ih.weight, hstep.weight, List.length_singleton, List.length_cons]
    omega

end CombinedDiscovery

theorem found_append (es es' : List (SwarmEffect δ τ)) : found (es ++ es') = found es ++ found es' := by
  rw [found, List.filterMap_append, List.filterMap_append, found, found]

theorem delivered_append (es es' : List (SwarmEffect δ τ)) :
    delivered (es ++ es') = delivered es ++ delivered es' := by
  rw [delivered, List.filterMap_append, List.filterMap_append, delivered, delivered]

theorem SwarmEffect.Reads.found {es : List (SwarmEffect δ τ)} (h : Reads es [next] res effs) :
    HyperswarmRs.found es = next.item.toList := by
  rw [HyperswarmRs.found, h.discovery, filterMap_item]

theorem SwarmEffect.Reads.delivered {es : List (SwarmEffect δ τ)} (h : Reads es next [res] effs) :
    HyperswarmRs.delivered es = res.item.toList := by
  rw [HyperswarmRs.delivered, h.transport, filterMap_item]

namespace Hyperswarm

structure Drainable (s : Hyperswarm CombinedDiscovery CombinedTransport) : Prop where
  sound : s.Sound
  ended : s.discovery.dht.state.ended = false
  pendingFuture : s.discovery.mdns.pendingFuture = none
  named : s.transport.Named

/-- What polls have still to take: the queued commands, the calls that they make, and all that the
children have ready. -/
def weight (s : Hyperswarm CombinedDiscovery CombinedTransport) : Nat :=
  s.commands.queue.length + (queuedEdges s.topics s.commands.queue).length + s.discovery.weight +
    s.transport.load

/-- What a poll has taken, and what it leaves. -/
structure Progress (s s' : Hyperswarm CombinedDiscovery CombinedTransport)
    (es : List (SwarmEffect CombinedEffect TransportEffect)) : Prop where
  drainable : s'.Drainable
  found : s.discovery.upcoming = found es ++ s'.discovery.upcoming
  commands : s.waitingCommands = handedOver es ++ s'.waitingCommands
  connections : ∃ taken, s.transport.Takes s'.transport (delivered es) taken

variable {s s₁ s' : Hyperswarm CombinedDiscovery CombinedTransport}
  {es es₁ rest : List (SwarmEffect CombinedEffect TransportEffect)}

theorem Asks.drained (hs : s.Drainable) (h : Asks s s₁ s' es₁ next es₂ rest) :
    s₁.discovery.weight = s.discovery.weight + (queuedEdges s.topics s.commands.queue).length ∧
      s.discovery.upcoming = s₁.discovery.upcoming ∧
      CombinedDiscovery.Drained s₁.discovery s'.discovery next ∧
      s'.discovery.dht.state.ended = false := by
  have hl := CombinedDiscovery.called_lengthened h.drains.called
  have hd := CombinedDiscovery.pollNext_drained (hl.pendingFuture.trans hs.pendingFuture) h.discovery
  refine ⟨hl.weight, hl.upcoming.symm, hd, ?_⟩
  rw [hd.ended, hl.state, hs.ended]

theorem Asks.waiting (hs : s.Drainable) (h : Asks s s₁ s' es₁ next es₂ rest) :
    s.waitingCommands = handedOver (es₁ ++ (SwarmEffect.asked es₂ next ++ rest)) ++
      s'.waitingCommands := by
  obtain ⟨-, hd⟩ := drains_dht hs.sound h.drains
  obtain ⟨r, hl, -⟩ := CombinedDiscovery.pollNext_cases h.discovery
  have hc := hl.commands
  have hq : s'.commands.queue = [] := by rw [h.commands, h.drains.queue]
  rw [hd] at hc
  have he : (es₁ ++ (SwarmEffect.asked es₂ next ++ rest)).filterMap SwarmEffect.ofDiscovery? =
      es₂ := by
    rw [List.filterMap_append, List.filterMap_append, h.drains.called.silent,
      SwarmEffect.filterMap_asked_ofDiscovery, (SwarmEffect.filterMap_onlyTransport h.rest).2.2.1,
      List.nil_append, List.append_nil]
  rw [handedOver, he]
  refine hc.symm.trans (congrArg (_ ++ ·) ?_)
  rw [waitingCommands, hq]
  exact (List.append_nil _).symm

theorem Drainable.poll_returns (hs : s.Drainable) : ∃ r s' es, Polled s r s' es := by
  obtain ⟨s₁, es₁, hc⟩ := hs.sound.pollCommands_halts
  have hdr := pollCommands_drains hc
  have hl := CombinedDiscovery.called_lengthened hdr.called
  obtain ⟨⟨next, d⟩, es₂, hd⟩ := CombinedDiscovery.pollNext_halts
    ((congrArg Source.ended hl.state).trans hs.ended) (hl.pendingFuture.trans hs.pendingFuture)
  have ht : ∀ t : CombinedTransport, t.next = s.transport.next → t.Live → t.pollNext.Halts :=
    fun t hn hl => CombinedTransport.pollNext_halts hl fun port => by
      rw [hn]
      exact hs.named.next _ port
  have hlive : s₁.transport.Live := hdr.transport ▸ hs.sound.live
  rcases next with _ | _ | e | peer
  · obtain ⟨⟨res, t⟩, es₃, hp⟩ := ht _ (by rw [hdr.transport]) hlive
    exact ⟨_, _, _, .quiet s₁ hc hd rfl hp⟩
  · obtain ⟨⟨res, t⟩, es₃, hp⟩ := ht _ (by rw [hdr.transport]) hlive
    exact ⟨_, _, _, .quiet s₁ hc hd rfl hp⟩
  · exact ⟨_, _, _, .failed s₁ hc hd⟩
  · obtain ⟨⟨res, t⟩, es₃, hp⟩ := ht (s₁.transport.pushConnects peer.addr)
      (by rw [CombinedTransport.pushConnects_next, hdr.transport]) hlive
    exact ⟨_, _, _, .dialled s₁ hc hd (CombinedTransport.connect_returns _ _) hp⟩

theorem Asks.progress (hs : s.Drainable) (h : Asks s s₁ s' es₁ next es₂ rest)
    (hf : HyperswarmRs.found (es₁ ++ (SwarmEffect.asked es₂ next ++ rest)) = next.item.toList)
    (ht : ∃ ts, s.transport.Takes s'.transport
      (delivered (es₁ ++ (SwarmEffect.asked es₂ next ++ rest))) ts)
    (hs' : s'.Sound) : Progress s s' (es₁ ++ (SwarmEffect.asked es₂ next ++ rest)) := by
  obtain ⟨-, hu, hd, he⟩ := h.drained hs
  obtain ⟨ts, htk⟩ := ht
  refine ⟨⟨hs', he, hd.pendingFuture, htk.named hs.named⟩, ?_, h.waiting hs, ⟨ts, htk⟩⟩
  rw [hf, hu, hd.upcoming]

theorem Asks.weight_lt (hs : s.Drainable) (h : Asks s s₁ s' es₁ next es₂ rest)
    (ht : s'.transport.load ≤ s.transport.load - 1 ∨
      next.item ≠ none ∧ s'.transport.load = s.transport.load) : s'.weight ≤ s.weight - 1 := by
  obtain ⟨hw, -, hd, -⟩ := h.drained hs
  have hl := hd.weight
  have hq : s'.commands.queue = [] := by rw [h.commands, h.drains.queue]
  rw [weight, weight, hq, queuedEdges, List.length_nil, List.length_nil]
  rcases ht with ht | ⟨hi, ht⟩
  · omega
  · have hlt := hd.answered hi
    omega

theorem Polled.progress (hs : s.Drainable) (h : Polled s r s' es) :
    Progress s s' es ∧ s'.weight ≤ s.weight - 1 := by
  have hs' : s'.Sound :=
    step_sound (e := .poll) hs.sound (returns_observed.2 ⟨r, es, h.returns, rfl⟩)
  cases h with
  | @failed es₁ e d es₂ s₁ hc hd =>
    have hdr := pollCommands_drains hc
    have ha : Asks s s₁ { s₁ with discovery := d } es₁ (.ready (some (.error e))) es₂ [] :=
      ⟨hdr, hd, rfl, rfl, fun e he => by cases he⟩
    have hr := reads_failed hdr.effects es₂ (.ready (some (.error e)))
    have ht : s.transport.Takes s₁.transport [] [] := by
      rw [hdr.transport]
      exact CombinedTransport.takes_nothing rfl rfl
    rw [← List.append_nil (SwarmEffect.asked es₂ _)]
    refine ⟨ha.progress hs ?_ ⟨[], ?_⟩ hs', ha.weight_lt hs (.inr ⟨?_, ?_⟩)⟩
    · rw [List.append_nil]
      exact hr.found
    · rw [List.append_nil, delivered, hr.transport]
      exact ht
    · exact Option.some_ne_none _
    · change s₁.transport.load = _
      rw [hdr.transport]
  | @quiet es₁ next d es₂ res t es₃ s₁ hc hd hn htr =>
    have hdr := pollCommands_drains hc
    have ha : Asks s s₁ { s₁ with discovery := d, transport := t } es₁ next es₂
        (SwarmEffect.answered es₃ res) :=
      ⟨hdr, hd, rfl, rfl, SwarmEffect.ofTransport_answered _ _⟩
    have hr := reads_quiet hdr.effects es₂ next es₃ res
    obtain ⟨taken, ht, hl⟩ := CombinedTransport.pollNext_drains htr
    rw [hdr.transport] at ht hl
    refine ⟨ha.progress hs hr.found ⟨taken, ?_⟩ hs', ha.weight_lt hs (.inl hl)⟩
    rw [hr.delivered]
    exact ht
  | @dialled es₁ peer d es₂ t es₃ res t' es₄ s₁ hc hd hco htr =>
    have hdr := pollCommands_drains hc
    obtain ⟨rfl, -⟩ := hco.unique (CombinedTransport.connect_returns _ _)
    have ha : Asks s s₁ { s₁ with discovery := d, transport := t' } es₁
        (.ready (some (.ok peer))) es₂ (SwarmEffect.dialling peer.addr es₃ ++
          SwarmEffect.answered es₄ res) := by
      refine ⟨hdr, hd, rfl, rfl, fun e he => ?_⟩
      exact (List.mem_append.1 he).elim (SwarmEffect.ofTransport_dialling _ _ e)
        (SwarmEffect.ofTransport_answered _ _ e)
    have hr := reads_dialled hdr.effects es₂ (.ready (some (.ok peer))) peer.addr es₃ es₄ res
    obtain ⟨taken, ht, hl⟩ := CombinedTransport.pollNext_drains htr
    have hp : s.transport.Takes (s₁.transport.pushConnects peer.addr) [] [] := by
      rw [hdr.transport]
      exact CombinedTransport.takes_nothing (CombinedTransport.pushConnects_waiting _ _) rfl
    have hlp := hp.load
    rw [List.length_nil, Nat.zero_add] at hlp
    refine ⟨ha.progress hs hr.found ⟨taken, ?_⟩ hs', ha.weight_lt hs (.inl ?_)⟩
    · rw [hr.delivered]
      exact hp.trans ht
    · rw [hlp]
      exact hl

theorem handedOver_append (es es' : List (SwarmEffect CombinedEffect τ)) :
    handedOver (es ++ es') = handedOver es ++ handedOver es' := by
  rw [handedOver, List.filterMap_append, List.filterMap_append, issued_append, handedOver,
    handedOver]

theorem Progress.refl (hs : s.Drainable) : Progress s s [] :=
  ⟨hs, rfl, rfl, [], CombinedTransport.takes_nothing rfl rfl⟩

theorem Progress.trans {s'' : Hyperswarm CombinedDiscovery CombinedTransport}
    {es' : List (SwarmEffect CombinedEffect TransportEffect)} (h : Progress s s' es)
    (h' : Progress s' s'' es') : Progress s s'' (es ++ es') := by
  obtain ⟨taken, ht⟩ := h.connections
  obtain ⟨taken', ht'⟩ := h'.connections
  refine ⟨h'.drainable, ?_, ?_, taken ++ taken', ?_⟩
  · rw [h.found, h'.found, found_append, List.append_assoc]
  · rw [h.commands, h'.commands, handedOver_append, List.append_assoc]
  · rw [delivered_append]
    exact ht.trans ht'

theorem polls_progress {tr : List (SwarmObs CombinedEffect TransportEffect)} (hs : s.Drainable)
    (h : (run Hyperswarm.step s (List.replicate n .poll)).Returns s' tr) :
    Progress s s' (effects tr) ∧ Conserves (effects tr) (results tr) := by
  induction n generalizing s tr with
  | zero =>
    obtain ⟨rfl, rfl⟩ := returns_run_nil.1 h
    exact ⟨.refl hs, conserves_nil⟩
  | succ n ih =>
    obtain ⟨t, tr₁, tr₂, ht, hr, rfl⟩ := returns_run_cons.1 h
    obtain ⟨r, es, hp, rfl⟩ := returns_observed.1 ht
    have hp' := pollNext_cases hp
    have hpr := (hp'.progress hs).1
    obtain ⟨hpr', hc⟩ := ih hpr.drainable hr
    rw [effects_append, results_append, effects_returns, results_returns]
    exact ⟨hpr.trans hpr', hp'.conserves.append hc⟩

/-- Nothing is queued or ready, and no command waits for its `HyperDht` once that is bootstrapped. -/
structure AtRest (s : Hyperswarm CombinedDiscovery CombinedTransport) : Prop where
  commands : s.commands.queue = []
  dht : s.discovery.dht.pendingEvents = [] ∧ s.discovery.dht.state.ready = []
  pendingCommands : s.discovery.dht.bootstrapped = true → s.discovery.dht.pendingCommands = []
  mdns : s.discovery.mdns.pendingCommands.queue = [] ∧ s.discovery.mdns.announcer.ready = [] ∧
    s.discovery.mdns.locator.ready = []
  transport : ∀ port, s.transport.waiting port = []

theorem weight_eq_zero : s.weight = 0 ↔ s.commands.queue = [] ∧ s.discovery.weight = 0 ∧
    s.transport.load = 0 := by
  rw [weight, ← List.length_eq_zero_iff]
  constructor
  · intro h
    omega
  · rintro ⟨hq, hd, ht⟩
    rw [List.length_eq_zero_iff.1 hq, queuedEdges, hd, ht]
    rfl

theorem Conserves.pending {es : List (SwarmEffect δ TransportEffect)} (h : Conserves es [r])
    (hf : found es = []) (hd : delivered es = []) : r = .pending := by
  have hc := h.connections
  have he := h.errors
  rw [hd, filterMap_item] at hc
  rw [hf, filterMap_item] at he
  rcases r with _ | _ | _ | conn
  · rfl
  · exact (h.noEnd (List.mem_singleton_self _)).elim
  · cases he
  · cases hc

theorem Polled.atRest (hs : s.Drainable) (hw : s.weight = 0) (h : Polled s r s' es) :
    AtRest s' ∧ r = .pending := by
  obtain ⟨hp, hw'⟩ := h.progress hs
  obtain ⟨hq, hd, hl⟩ := weight_eq_zero.1 (Nat.le_zero.1 (hw'.trans_eq (by rw [hw])))
  obtain ⟨hdh, hm⟩ := CombinedDiscovery.weight_eq_zero.1 hd
  obtain ⟨hq₀, hd₀, hl₀⟩ := weight_eq_zero.1 hw
  refine ⟨⟨hq, DhtDiscovery.weight_eq_zero.1 hdh, fun hb => ?_, MdnsDiscovery.weight_eq_zero.1 hm,
    CombinedTransport.load_eq_zero.1 hl⟩, ?_⟩
  · obtain ⟨s₁, es₁, next, es₂, rest, ha, -⟩ := h.asks
    obtain ⟨q, hlo, -⟩ := CombinedDiscovery.pollNext_cases ha.discovery
    refine hlo.executed (fun hne => ?_) hb
    rw [(drains_dht hs.sound ha.drains).2] at hne
    obtain ⟨hdh₀, -⟩ := CombinedDiscovery.weight_eq_zero.1 hd₀
    exact (hne (DhtDiscovery.weight_eq_zero.1 hdh₀).1).elim
  · have hf := hp.found
    rw [CombinedDiscovery.upcoming_of_weight_zero hd₀] at hf
    obtain ⟨taken, ht⟩ := hp.connections
    have hlen := ht.load
    have htk : taken = [] := by
      rw [← List.length_eq_zero_iff]
      omega
    have hdel := ht.answered
    rw [htk] at hdel
    exact Conserves.pending h.conserves (List.append_eq_nil_iff.1 hf.symm).1 hdel

/-- All that was ready has been answered, dialled, issued or handed on, each in its order and once;
of the connections, those that repeat an earlier one are dropped. -/
structure Exhausts (s s' : Hyperswarm CombinedDiscovery CombinedTransport)
    (tr : List (SwarmObs CombinedEffect TransportEffect)) : Prop where
  found : found (effects tr) = s.discovery.upcoming
  tcpDials : tcpDials (effects tr) =
    s.discovery.upcoming.filterMap fun x => x.toOption.map PeerInfo.addr
  utpDials : utpDials (effects tr) =
    s.discovery.upcoming.filterMap fun x => x.toOption.map PeerInfo.addr
  errors : ((results tr).filterMap Poll.item).filterMap errorOf =
    s.discovery.upcoming.filterMap errorOf
  commands : s'.discovery.dht.bootstrapped = true → handedOver (effects tr) = s.waitingCommands
  connections : ∃ taken, (∀ port, s.transport.waiting port = takenAt port taken) ∧
    ((results tr).filterMap Poll.item).filterMap Except.toOption =
      (keepFirst initiatorAddr s.transport.connected (taken.map Prod.snd)).filterMap
        Except.toOption
  pending : (results tr).getLast? = some .pending

theorem AtRest.exhausts {tr : List (SwarmObs CombinedEffect TransportEffect)} (hs : AtRest s')
    (h : Progress s s' (effects tr)) (hc : Conserves (effects tr) (results tr))
    (hl : (results tr).getLast? = some .pending) : Exhausts s s' tr := by
  have hu : s'.discovery.upcoming = [] := by
    apply CombinedDiscovery.upcoming_of_weight_zero
    exact CombinedDiscovery.weight_eq_zero.2
      ⟨DhtDiscovery.weight_eq_zero.2 hs.dht, MdnsDiscovery.weight_eq_zero.2 hs.mdns⟩
  have hf := h.found
  rw [hu, List.append_nil] at hf
  obtain ⟨taken, ht⟩ := h.connections
  refine ⟨hf.symm, ?_, ?_, ?_, fun hb => ?_, ⟨taken, fun port => ?_, ?_⟩, hl⟩
  · rw [hc.tcp, hf]
  · rw [hc.utp, hf]
  · rw [hc.errors, hf]
  · rw [h.commands, waitingCommands, hs.commands, hs.pendingCommands hb]
    exact (List.append_nil _).symm
  · rw [ht.served port, hs.transport, List.append_nil]
  · rw [hc.connections, ht.answered]

theorem Drainable.comes_to_rest (hs : s.Drainable) (hw : s.weight < n) :
    ∃ s' tr, (run Hyperswarm.step s (List.replicate n .poll)).Returns s' tr ∧ AtRest s' ∧
      Exhausts s s' tr := by
  obtain ⟨m, rfl⟩ : ∃ m, n = m + 1 := ⟨n - 1, by omega⟩
  have hstep : ∀ t : Hyperswarm CombinedDiscovery CombinedTransport, t.Drainable → ∃ t' es,
      (t.step .poll).Returns t' es ∧ t'.Drainable ∧ t'.weight ≤ t.weight - 1 := by
    intro t ht
    obtain ⟨r, t', es, hp⟩ := ht.poll_returns
    obtain ⟨hpr, hw⟩ := hp.progress ht
    exact ⟨t', _, returns_observed.2 ⟨r, es, hp.returns, rfl⟩, hpr.drainable, hw⟩
  obtain ⟨t, tr₁, ht, hd, hz⟩ := run_exhausts hstep hs (Nat.le_of_lt_succ hw)
  obtain ⟨r, s', es, hp⟩ := hd.poll_returns
  obtain ⟨hrest, rfl⟩ := hp.atRest hd hz
  have hlast : (t.step .poll).Returns s' (es.map .effect ++ [.returned .pending]) :=
    returns_observed.2 ⟨_, es, hp.returns, rfl⟩
  have hrun : (run Hyperswarm.step s (List.replicate (m + 1) .poll)).Returns s'
      (tr₁ ++ (es.map .effect ++ [.returned .pending])) := by
    rw [List.replicate_succ']
    exact returns_run_append.2 ⟨t, tr₁, _, ht, run_one hlast, rfl⟩
  refine ⟨s', _, hrun, hrest, ?_⟩
  obtain ⟨hpr, hc⟩ := polls_progress hs hrun
  refine hrest.exhausts hpr hc ?_
  rw [results_append_returns]
  exact List.getLast?_concat

/-- From every state that a run can reach, and whatever its children have ready there, as many polls
as there is to take, and one, leave nothing behind. -/
theorem run_comes_to_rest {listener : TcpListener} {incoming : Source (IoResult UtpSocket)}
    {dht : Source HyperDhtEvent} {announcer : Source Unit}
    {locator : Source (List UInt8 × SocketAddr)}
    {events : List (SwarmEvent CombinedInput TransportInput)}
    {tr : List (SwarmObs CombinedEffect TransportEffect)}
    (h : (run Hyperswarm.step (bindAll listener incoming dht announcer locator) events).Returns
      s tr) (he : s.discovery.dht.state.ended = false) (hn : s.transport.Named)
    (hw : s.weight < n) :
    ∃ s' tr', (run Hyperswarm.step s (List.replicate n .poll)).Returns s' tr' ∧ AtRest s' ∧
      Exhausts s s' tr' := by
  obtain ⟨ds, trd, hd⟩ := run_discovers h
  have hs : s.Drainable := by
    refine ⟨?_, he, (CombinedDiscovery.run_merges hd.run).2, hn⟩
    exact run_invariant (bindAll_sound listener incoming dht announcer locator) step_sound h
  exact hs.comes_to_rest hw

theorem run_comes_to_rest_busy :
    let start := bindAll { localAddr := loopback 4000 } {} {} {} {}
    let topic : Topic := ⟨List.replicate 32 7, rfl⟩
    let events := [.discovery (.dht (.push .bootstrapped)),
      .discovery (.dht (.push (.lookupResult ⟨topic, [loopback 4001, loopback 4002]⟩))), .poll,
      .handleConfigure topic .both, .discovery (.mdns (.locator (.push (topic.val, loopback 4003)))),
      .transport (.tcpConnect ⟨0, .ok ⟨1, .ok (loopback 4001)⟩⟩),
      .transport (.utpConnect ⟨0, .ok ⟨2, loopback 4001⟩⟩)]
    ∃ s tr, (run Hyperswarm.step start events).Returns s tr ∧ s.weight = 7 ∧
      ∃ s' tr', (run Hyperswarm.step s (List.replicate 8 .poll)).Returns s' tr' ∧ AtRest s' ∧
        Exhausts s s' tr' := by
  intro start topic events
  have hc : (run Hyperswarm.step start events).check (fun s _ =>
      s.discovery.dht.state.ended = false ∧ s.weight = 7 ∧
        (∀ b, none ∉ s.transport.waiting ⟨.tcp, b⟩) ∧
          ∀ b, none ∉ s.transport.waiting ⟨.utp, b⟩) := by
    decide +kernel
  obtain ⟨s, tr, hr, hp⟩ := Exec.exists_of_check hc
  obtain ⟨he, hw, ht, hu⟩ := of_decide_eq_true hp
  have hn : s.transport.Named := by
    rintro ⟨p, b⟩
    cases p with
    | tcp => exact ht b
    | utp => exact hu b
  exact ⟨s, tr, hr, hw, run_comes_to_rest hr he hn (by omega)⟩

end Hyperswarm

end HyperswarmRs
