import HyperswarmRs.Swarm.Polling
import HyperswarmRs.Discovery.CombinedRuns

namespace HyperswarmRs
open Async
set_option autoImplicit true

def Call.event : Call → DiscoveryEvent ι
  | .lookup topic => .lookup topic
  | .announce topic => .announce topic

def DiscoveryEvent.call? : DiscoveryEvent ι → Option Call
  | .lookup topic => some (.lookup topic)
  | .announce topic => some (.announce topic)
  | .poll | .env _ => none

theorem filterMap_call_event (calls : List Call) :
    (calls.map (Call.event : Call → DiscoveryEvent ι)).filterMap DiscoveryEvent.call? = calls := by
  have he : DiscoveryEvent.call? ∘ (Call.event : Call → DiscoveryEvent ι) = some := by
    funext call
    cases call <;> rfl
  rw [List.filterMap_map, he, List.filterMap_some]

def Call.command (announcePort : UInt16) : Call → Command
  | .lookup topic => .lookup ⟨topic, some announcePort.toUInt32, none⟩
  | .announce topic => .announce ⟨topic, some announcePort.toUInt32, none⟩

def Call.mdnsCommand : Call → MdnsCommand
  | .lookup topic => .lookup topic
  | .announce topic => .announce topic

theorem filterMap_command (port : UInt16) (ds : List (DiscoveryEvent ι)) :
    ds.filterMap (·.command? port) =
      (ds.filterMap DiscoveryEvent.call?).map (Call.command port) := by
  rw [List.map_filterMap]
  apply List.filterMap_congr
  intro e _
  cases e <;> rfl

theorem filterMap_mdnsCommand (ds : List (DiscoveryEvent ι)) :
    ds.filterMap DiscoveryEvent.mdnsCommand? =
      (ds.filterMap DiscoveryEvent.call?).map Call.mdnsCommand := by
  rw [List.map_filterMap]
  apply List.filterMap_congr
  intro e _
  cases e <;> rfl

section Runs

variable [Discovery D δ] [Environment D ιD]

theorem Call.step_event {d d' : D} {call : Call} (h : (call.run d).Returns d' es) :
    (Discovery.step d (call.event : DiscoveryEvent ιD)).Returns d' (es.map .effect) := by
  cases call <;> exact h.embed Obs.effect

theorem Called.run {d d' : D} (h : Called d calls d' es) :
    (Async.run Discovery.step d (calls.map (Call.event : Call → DiscoveryEvent ιD))).Returns d'
      (es.map .effect) := by
  induction h with
  | refl => exact Exec.pure_returns _
  | cons hc _ ih =>
    rw [List.map_append]
    exact (Call.step_event hc).of_bind ih

/-- The run that the discovery takes in a run of the swarm. -/
structure Discovers (d : D) (es : List (SwarmEffect δ τ)) (d' : D) (ds : List (DiscoveryEvent ιD))
    (trd : List (DiscoveryObs δ)) : Prop where
  run : (Async.run Discovery.step d ds).Returns d' trd
  effects : effects trd = es.filterMap SwarmEffect.ofDiscovery?
  results : results trd = es.filterMap SwarmEffect.discovery?
  calls : ds.filterMap DiscoveryEvent.call? = Hyperswarm.requested es

theorem discovers_refl (d : D) :
    Discovers d ([] : List (SwarmEffect δ τ)) d ([] : List (DiscoveryEvent ιD)) [] :=
  ⟨Exec.pure_returns _, rfl, rfl, rfl⟩

theorem Discovers.append {d d' d'' : D} {es es' : List (SwarmEffect δ τ)}
    {ds ds' : List (DiscoveryEvent ιD)} (h : Discovers d es d' ds trd)
    (h' : Discovers d' es' d'' ds' trd') :
    Discovers d (es ++ es') d'' (ds ++ ds') (trd ++ trd') := by
  refine ⟨returns_run_append.2 ⟨_, _, _, h.run, h'.run, rfl⟩, ?_, ?_, ?_⟩
  · rw [effects_append, h.effects, h'.effects, List.filterMap_append]
  · rw [results_append, h.results, h'.results, List.filterMap_append]
  · rw [List.filterMap_append, h.calls, h'.calls, Hyperswarm.requested_append]

namespace Hyperswarm

theorem discovers_called {d d' : D} {es : List (SwarmEffect δ τ)}
    (h : Called d calls d' (es.filterMap SwarmEffect.ofDiscovery?))
    (hc : requested es = calls) (hd : es.filterMap SwarmEffect.discovery? = []) :
    Discovers d es d' (calls.map (Call.event : Call → DiscoveryEvent ιD))
      ((es.filterMap SwarmEffect.ofDiscovery?).map .effect) := by
  refine ⟨h.run, effects_map_effect _, ?_, ?_⟩
  · rw [results_map_effect, hd]
  · rw [filterMap_call_event, hc]

theorem discovers_asked {d d' : D} (h : (Async.pollNext d).Returns (next, d') es) :
    Discovers d (SwarmEffect.asked es next : List (SwarmEffect δ τ)) d'
      [(.poll : DiscoveryEvent ιD)] (es.map .effect ++ [.returned next]) := by
  refine ⟨run_one (returns_observed.2 ⟨_, _, h, rfl⟩), ?_, ?_, ?_⟩
  · rw [effects_returns, SwarmEffect.filterMap_asked_ofDiscovery]
  · rw [results_returns, SwarmEffect.filterMap_asked fun _ => rfl]
    rfl
  · rw [requested, SwarmEffect.filterMap_asked fun _ => rfl]
    rfl

theorem Asks.discovers {s s₁ s' : Hyperswarm D T} {es₁ rest : List (SwarmEffect δ τ)}
    (h : Asks s s₁ s' es₁ next es₂ rest) : ∃ (ds : List (DiscoveryEvent ιD)) (trd : _),
      Discovers s.discovery (es₁ ++ SwarmEffect.asked es₂ next) s'.discovery ds trd :=
  ⟨_, _, (discovers_called h.drains.called h.drains.calls
    (SwarmEffect.filterMap_ofCommands h.drains.effects).1).append (discovers_asked h.discovery)⟩

theorem discovers_onlyTransport {d : D} {es : List (SwarmEffect δ τ)}
    (h : ∀ e ∈ es, e.OfTransport) : Discovers d es d ([] : List (DiscoveryEvent ιD)) [] := by
  obtain ⟨-, hc, ho, hd⟩ := SwarmEffect.filterMap_onlyTransport h
  exact ⟨Exec.pure_returns _, ho.symm, hd.symm, hc.symm⟩

variable [Transport T τ CombinedStream] [Environment T ιT]

theorem step_discovers {s s' : Hyperswarm D T} {e : SwarmEvent ιD ιT} {tr : List (SwarmObs δ τ)}
    (h : (s.step e).Returns s' tr) : ∃ (ds : List (DiscoveryEvent ιD)) (trd : _),
      Discovers s.discovery (effects tr) s'.discovery ds trd := by
  cases step_cases h with
  | @configure topic config _ _ hc =>
    obtain ⟨-, hd, hr, ho⟩ := configure_returns hc
    rw [effects_map_effect]
    exact ⟨_, _, discovers_called hd hr (SwarmEffect.filterMap_ofCommands fun e he =>
      (ho e he).ofCommands).1⟩
  | handleConfigure hc => exact ⟨[], [], discovers_refl _⟩
  | poll hp =>
    obtain ⟨s₁, es₁, next, es₂, rest, ha, rfl⟩ := hp.asks
    obtain ⟨ds, trd, hd⟩ : ∃ (ds : List (DiscoveryEvent ιD)) (trd : _), Discovers _ _ _ ds trd :=
      ha.discovers
    rw [effects_returns, ← List.append_assoc]
    exact ⟨_, _, hd.append (discovers_onlyTransport ha.rest)⟩
  | @discovery i => exact ⟨[.env i], [], run_one (Exec.pure_returns _), rfl, rfl, rfl⟩
  | transport => exact ⟨[], [], discovers_refl _⟩

/-- The discovery of a running swarm is itself running: the swarm calls and polls it. -/
theorem run_discovers {s₀ s : Hyperswarm D T} {events : List (SwarmEvent ιD ιT)}
    {tr : List (SwarmObs δ τ)} (h : (run Hyperswarm.step s₀ events).Returns s tr) :
    ∃ (ds : List (DiscoveryEvent ιD)) (trd : _),
      Discovers s₀.discovery (effects tr) s.discovery ds trd := by
  apply run_trace (P := fun _ tr s => ∃ (ds : List (DiscoveryEvent ιD)) (trd : _),
    Discovers s₀.discovery (effects tr) s.discovery ds trd)
    ⟨[], [], discovers_refl _⟩ ?_ h
  rintro is tr s e s' tr' ⟨ds, trd, hd⟩ hs
  obtain ⟨ds', trd', hd'⟩ := step_discovers hs
  rw [effects_append]
  exact ⟨_, _, hd.append hd'⟩

end Hyperswarm

end Runs

def discoveryEffects (es : List (SwarmEffect δ τ)) : List δ :=
  es.filterMap SwarmEffect.ofDiscovery?

/-- The calls of the swarm reach both backends, in order and each once: they have been handed on or
still wait. -/
structure Reaches (port : UInt16) (es : List (SwarmEffect CombinedEffect τ))
    (d : CombinedDiscovery) : Prop where
  dht : (Hyperswarm.requested es).map (Call.command port) =
    issued (dhtEffects (discoveryEffects es)) ++ d.dht.pendingCommands
  mdns : (Hyperswarm.requested es).map Call.mdnsCommand =
    dropped (mdnsEffects (discoveryEffects es)) ++ d.mdns.pendingCommands.queue

theorem Discovers.reaches {d : CombinedDiscovery} {es : List (SwarmEffect CombinedEffect τ)}
    {ds : List (DiscoveryEvent CombinedInput)}
    (h : Discovers (.bind dht announcer locator port) es d ds trd) : Reaches port es d := by
  obtain ⟨ks, trd', trm, hb⟩ := CombinedDiscovery.run_backends h.run
  have hd := DhtDiscovery.run_has_history hb.dht
  have hm := MdnsDiscovery.run_has_history rfl hb.mdns
  constructor
  · rw [discoveryEffects, ← h.effects, ← hb.dhtEffects, hd.commands, filterMap_restrict_command,
      filterMap_command, h.calls]
  · rw [discoveryEffects, ← h.effects, ← hb.mdnsEffects, ← h.calls, ← filterMap_mdnsCommand,
      ← hb.commands]
    exact hm.commands

end HyperswarmRs
