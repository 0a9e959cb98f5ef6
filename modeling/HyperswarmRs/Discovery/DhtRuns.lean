import HyperswarmRs.Discovery.Polling

namespace HyperswarmRs
open Async
set_option autoImplicit true

def DiscoveryEvent.command? (announcePort : UInt16) : DiscoveryEvent ι → Option Command
  | .lookup topic => some (.lookup ⟨topic, some announcePort.toUInt32, none⟩)
  | .announce topic => some (.announce ⟨topic, some announcePort.toUInt32, none⟩)
  | .poll | .env _ => none

namespace DhtDiscovery

inductive Stepped (s : DhtDiscovery) : DiscoveryEvent (SourceInput HyperDhtEvent) →
    DhtDiscovery → List (DiscoveryObs DhtEffect) → Prop where
  | call : e.command? s.announcePort = some command →
      Stepped s e { s with pendingCommands := s.pendingCommands ++ [command] } []
  | poll : Looped s r s' es → Stepped s .poll s' (es.map .effect ++ [.returned r])
  | env : Stepped s (.env i) { s with state := s.state.act i } []

theorem step_cases {s s' : DhtDiscovery} (h : (Discovery.step s e).Returns s' tr) :
    Stepped s e s' tr := by
  cases e with
  | lookup topic =>
    cases h
    exact .call rfl
  | announce topic =>
    cases h
    exact .call rfl
  | poll =>
    obtain ⟨r, es, hp, rfl⟩ := returns_observed.1 h
    exact .poll (pollLoop_cases hp)
  | env i =>
    cases h
    exact .env

/-- The calls, events and peers of a run are accounted for. -/
structure History (port : UInt16) (is : List (DiscoveryEvent (SourceInput HyperDhtEvent)))
    (tr : List (DiscoveryObs DhtEffect)) (s : DhtDiscovery) : Prop where
  announcePort : s.announcePort = port
  commands : issued (effects tr) ++ s.pendingCommands = is.filterMap (·.command? port)
  bootstrapped : s.bootstrapped = true ↔ .bootstrapped ∈ received (effects tr)
  gated : Gated False (effects tr)
  peers : ∃ peers : List PeerInfo, (results tr).filterMap Poll.item = peers.map .ok ∧
    peers ++ s.pendingEvents = (received (effects tr)).flatMap HyperDhtEvent.peers
  answers : ∀ r ∈ results tr, r = .pending ∨ ∃ peer, r = .ready (some (.ok peer))

theorem History.call (h : History port is tr s) (he : e.command? s.announcePort = some command) :
    History port (is ++ [e]) (tr ++ [])
      { s with pendingCommands := s.pendingCommands ++ [command] } := by
  rw [h.announcePort] at he
  rw [List.append_nil]
  refine ⟨h.announcePort, ?_, h.bootstrapped, h.gated, h.peers, h.answers⟩
  rw [← List.append_assoc, h.commands, List.filterMap_append, List.filterMap_cons_some he,
    List.filterMap_nil]

theorem History.env (h : History port is tr s) (i : SourceInput HyperDhtEvent) :
    History port (is ++ [.env i]) (tr ++ []) { s with state := s.state.act i } := by
  rw [List.append_nil]
  refine ⟨h.announcePort, ?_, h.bootstrapped, h.gated, h.peers, h.answers⟩
  rw [h.commands, List.filterMap_append]
  exact (List.append_nil _).symm

theorem History.poll (h : History port is tr s) (hp : Looped s r s' es) :
    History port (is ++ [.poll]) (tr ++ (es.map .effect ++ [.returned r])) s' := by
  have he := effects_append_returns tr es r
  have hr := results_append_returns tr es r
  refine ⟨hp.announcePort.trans h.announcePort, ?_, ?_, ?_, ?_, ?_⟩
  · rw [he, issued_append, List.append_assoc, hp.commands, h.commands, List.filterMap_append]
    exact (List.append_nil _).symm
  · rw [he, hp.bootstrapped, h.bootstrapped, received_append, List.mem_append]
  · rw [he]
    apply h.gated.append
    rw [false_or, ← h.bootstrapped]
    exact hp.gated
  · obtain ⟨peers, hy, hq⟩ := h.peers
    obtain ⟨peers', hy', hq'⟩ := hp.peers
    refine ⟨peers ++ peers', ?_, ?_⟩
    · rw [hr, List.filterMap_append, hy, filterMap_item, hy', List.map_append]
    · rw [he, received_append, List.flatMap_append, ← hq, List.append_assoc, hq',
        List.append_assoc]
  · intro q hq
    rw [hr, List.mem_append, List.mem_singleton] at hq
    rcases hq with hq | rfl
    · exact h.answers q hq
    · exact hp.answer

theorem run_has_history (h : (run Discovery.step (bind dht port) is).Returns s tr) :
    History port is tr s := by
  apply run_trace (P := History port) ?_ ?_ h
  · refine ⟨rfl, rfl, ?_, gated_nil _, ⟨[], rfl, rfl⟩, fun r hr => by cases hr⟩
    simp only [bind, effects_nil, received_nil, List.not_mem_nil, Bool.false_eq_true]
  · intro is tr s e s' tr' hh hs
    cases step_cases hs with
    | call he => exact hh.call he
    | poll hp => exact hh.poll hp
    | env => exact hh.env _

/-- The calls made are issued to the `HyperDht` in order, each once and only after its bootstrap,
and all of them by the time the discovery is pending. -/
theorem commands_exactly_once (h : (run Discovery.step (bind dht port) is).Returns s tr) :
    issued (effects tr) ++ s.pendingCommands = is.filterMap (·.command? port) ∧
    (∀ before e after, effects tr = before ++ e :: after → e.command? ≠ none →
      .bootstrapped ∈ received before) ∧
    ∀ s' es, s.pollNext.Returns (.pending, s') es →
      .bootstrapped ∈ received (effects tr ++ es) → s'.pendingCommands = [] := by
  have hh := run_has_history h
  refine ⟨hh.commands, ?_, ?_⟩
  · intro before e after he hc
    exact (hh.gated before e after he hc).resolve_left id
  · intro s' es hp hb
    have hl := pollLoop_cases hp
    apply (hl.pending rfl).2.1
    rwa [hl.bootstrapped, hh.bootstrapped, ← List.mem_append, ← received_append]

theorem commands_exactly_once_late_bootstrap :
    let topic : Topic := ⟨List.replicate 32 7, rfl⟩
    let calls := [.lookup topic, .poll, .env (.push .bootstrapped), .poll, .announce topic, .poll]
    ∃ s tr, (run Discovery.step (bind {} 4000) calls).Returns s tr ∧
      issued (effects tr) ++ s.pendingCommands = calls.filterMap (·.command? 4000) ∧
      issued (effects tr) =
        [.lookup ⟨topic, some 4000, none⟩, .announce ⟨topic, some 4000, none⟩] := by
  intro topic calls
  have hr : ∃ s tr, (run Discovery.step (bind {} 4000) calls).Returns s tr ∧
      issued (effects tr) =
        [.lookup ⟨topic, some 4000, none⟩, .announce ⟨topic, some 4000, none⟩] :=
    ⟨_, _, rfl, rfl⟩
  obtain ⟨s, tr, hr, hi⟩ := hr
  exact ⟨s, tr, hr, (commands_exactly_once hr).1, hi⟩

/-- The remotes of the lookups are yielded in order, each once and under its lookup's topic, and
all of them by the time the discovery is pending; the loop of every poll ends. -/
theorem peers_exactly_once (h : (run Discovery.step (bind dht port) is).Returns s tr) :
    (∃ peers : List PeerInfo, (results tr).filterMap Poll.item = peers.map .ok ∧
      peers ++ s.pendingEvents = (received (effects tr)).flatMap HyperDhtEvent.peers) ∧
    (∀ r ∈ results tr, r = .pending ∨ ∃ peer, r = .ready (some (.ok peer))) ∧
    (∀ s' es, s.pollNext.Returns (.pending, s') es →
      s'.pendingEvents = [] ∧ es.getLast? = some (.polled .pending)) ∧
    (s.state.ended = false → ∀ fuel, s.state.ready.length < fuel → (pollLoop fuel s).Halts) := by
  have hh := run_has_history h
  refine ⟨hh.peers, hh.answers, ?_, fun he fuel hf => pollLoop_halts he hf⟩
  intro s' es hp
  obtain ⟨hn, -, hl⟩ := (pollLoop_cases hp).pending rfl
  exact ⟨hn, hl⟩

theorem peers_exactly_once_in_batches :
    let topic : Topic := ⟨List.replicate 32 7, rfl⟩
    let found := [loopback 4001, loopback 4002]
    let events := [.env (.push (.lookupResult ⟨topic, []⟩)),
      .env (.push (.lookupResult ⟨topic, found⟩)), .poll]
    ∃ s tr, (run Discovery.step (bind {} 4000) events).Returns s tr ∧
      (∃ peers : List PeerInfo, (results tr).filterMap Poll.item = peers.map .ok ∧
        peers ++ s.pendingEvents = (received (effects tr)).flatMap HyperDhtEvent.peers) ∧
      s.pendingEvents = [⟨loopback 4002, some topic, .dht⟩] := by
  intro topic found events
  have hr : ∃ s tr, (run Discovery.step (bind {} 4000) events).Returns s tr ∧
      s.pendingEvents = [⟨loopback 4002, some topic, .dht⟩] := ⟨_, _, rfl, rfl⟩
  obtain ⟨s, tr, hr, he⟩ := hr
  exact ⟨s, tr, hr, (peers_exactly_once hr).1, he⟩

end DhtDiscovery

end HyperswarmRs
