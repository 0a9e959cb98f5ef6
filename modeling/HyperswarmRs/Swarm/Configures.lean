import HyperswarmRs.Swarm.Topics

namespace HyperswarmRs
open Async
set_option autoImplicit true

theorem Call.silent {d d' : CombinedDiscovery} {call : Call} (h : (call.run d).Returns d' es) :
    es = [] := by
  cases call with
  | lookup topic => exact (CombinedDiscovery.told_backends h).2.2
  | announce topic => exact (CombinedDiscovery.told_backends h).2.2

theorem Called.silent {d d' : CombinedDiscovery} (h : Called d calls d' es) : es = [] := by
  induction h with
  | refl => rfl
  | cons hc _ ih =>
    rw [ih, List.append_nil]
    exact Call.silent hc

namespace Hyperswarm

/-- What a poll does to the table: it applies all queued commands, before anything else. -/
structure AppliesFirst (s s' : Hyperswarm CombinedDiscovery T)
    (es₁ es₂ : List (SwarmEffect CombinedEffect τ)) : Prop where
  taken : commandsTaken es₁ = s.commands.queue
  requested : requested es₁ = queuedEdges s.topics s.commands.queue
  unpolled : discoveryEffects es₁ = [] ∧ es₁.filterMap SwarmEffect.discovery? = []
  rest : commandsTaken es₂ = [] ∧ Hyperswarm.requested es₂ = []
  topics : s'.topics = queuedTopics s.topics s.commands.queue
  queue : s'.commands.queue = []

variable [Transport T τ CombinedStream] [Environment T ιT]

theorem pollNext_appliesFirst {s s' : Hyperswarm CombinedDiscovery T}
    {es : List (SwarmEffect CombinedEffect τ)} (h : s.pollNext.Returns (r, s') es) :
    ∃ es₁ es₂, es = es₁ ++ es₂ ∧ AppliesFirst s s' es₁ es₂ := by
  obtain ⟨s₁, es₁, next, es₂, rest, ha, rfl⟩ := (pollNext_cases h).asks
  have hd := ha.drains
  have hr := SwarmEffect.filterMap_onlyTransport ha.rest
  refine ⟨es₁, _, rfl, hd.taken, hd.calls, ⟨hd.called.silent,
    (SwarmEffect.filterMap_ofCommands hd.effects).1⟩, ⟨?_, ?_⟩, ha.topics.trans hd.topics, ?_⟩
  · rw [commandsTaken, List.filterMap_append, SwarmEffect.filterMap_asked fun _ => rfl, hr.1]
    rfl
  · rw [Hyperswarm.requested, List.filterMap_append, SwarmEffect.filterMap_asked fun _ => rfl,
      hr.2.1]
    rfl
  · rw [ha.commands, hd.queue]

/-- How a run has configured its topics. -/
structure Configured (port : UInt16) (events : List (SwarmEvent CombinedInput ιT))
    (tr : List (SwarmObs CombinedEffect τ)) (s : Hyperswarm CombinedDiscovery T) : Prop where
  topics : ∀ topic, s.topics.lookup topic = (configsOf topic (schedule events).applied).getLast?
  calls : ∀ call : Call, (requested (effects tr)).count call =
    rises false ((configsOf call.topic (schedule events).applied).map call.flag)
  order : requested (effects tr) = queuedEdges ∅ (schedule events).applied
  reaches : Reaches port (effects tr) s.discovery
  queue : s.commands.queue = (schedule events).queued
  taken : events.filterMap sent? = commandsTaken (effects tr) ++ s.commands.queue

theorem edges_topic (old : TopicConfig) (topic : Topic) (config : TopicConfig) :
    ∀ call ∈ edges old topic config, call.topic = topic := by
  intro call hc
  rcases List.mem_append.1 hc with hc | hc
  · obtain ⟨-, hm⟩ := List.mem_ite_nil_right.1 hc
    rw [List.mem_singleton.1 hm, Call.topic]
  · obtain ⟨-, hm⟩ := List.mem_ite_nil_right.1 hc
    rw [List.mem_singleton.1 hm, Call.topic]

omit [Transport T τ CombinedStream] [Environment T ιT] in
theorem configure_others {s s' : Hyperswarm CombinedDiscovery T}
    {es : List (SwarmEffect CombinedEffect τ)} (h : (s.configure topic config).Returns s' es) :
    (∀ topic' ≠ topic, s'.topics.lookup topic' = s.topics.lookup topic') ∧
      ∀ call ∈ requested es, call.topic = topic := by
  obtain ⟨he, -, hr, -⟩ := configure_returns h
  refine ⟨fun topic' hne => ?_, ?_⟩
  · rw [he, Finmap.lookup_insert_of_ne _ hne, Finmap.lookup_erase_ne hne]
  · rw [requested, hr]
    exact edges_topic _ _ _

/-- Over every run, the table holds the configuration applied last to each topic, a call is made
for each rise of a flag, in the order of the applied configurations, and reaches both backends once;
and every poll applies the queued commands before it polls the discovery. -/
theorem run_configured {dht : Source HyperDhtEvent} {announcer : Source Unit}
    {locator : Source (List UInt8 × SocketAddr)} {transport : T}
    {s : Hyperswarm CombinedDiscovery T} {events : List (SwarmEvent CombinedInput ιT)}
    {tr : List (SwarmObs CombinedEffect τ)}
    (h : (run Hyperswarm.step (bind (.bind dht announcer locator port) transport) events).Returns
      s tr) :
    Configured port events tr s ∧
      (∀ r s' es, s.pollNext.Returns (r, s') es →
        ∃ es₁ es₂, es = es₁ ++ es₂ ∧ AppliesFirst s s' es₁ es₂) ∧
      ∀ topic config s' (es : List (SwarmEffect CombinedEffect τ)),
        (s.configure topic config).Returns s' es →
          (∀ topic' ≠ topic, s'.topics.lookup topic' = s.topics.lookup topic') ∧
            ∀ call ∈ requested es, call.topic = topic := by
  have hs := run_scheduled rfl h
  refine ⟨⟨?_, ?_, hs.requested, ?_, hs.queued, run_taken h⟩,
    fun r s' es hp => pollNext_appliesFirst hp, fun topic config s' es hc => configure_others hc⟩
  · intro topic
    rw [hs.topics, queuedTopics_lookup]
    exact Option.or_none
  · intro call
    rw [hs.requested, count_queuedEdges]
    cases call <;> rfl
  · obtain ⟨ds, trd, hd⟩ := run_discovers h
    exact hd.reaches

theorem run_configured_on_off_on :
    let start : Hyperswarm CombinedDiscovery CombinedTransport :=
      bind (.bind {} {} {} 4000) .fresh
    let topic : Topic := ⟨List.replicate 32 7, rfl⟩
    let events := [.configure topic .both, .handleConfigure topic {}, .poll,
      .configure topic { announce := true }]
    ∃ s tr, (run Hyperswarm.step start events).Returns s tr ∧ Configured 4000 events tr s ∧
      requested (effects tr) = [.announce topic, .lookup topic, .announce topic] := by
  intro start topic events
  have hc : (run Hyperswarm.step start events).check (fun _ tr =>
      requested (effects tr) = [.announce topic, .lookup topic, .announce topic]) := by
    decide +kernel
  obtain ⟨s, tr, hr, hp⟩ := Exec.exists_of_check hc
  exact ⟨s, tr, hr, (run_configured hr).1, of_decide_eq_true hp⟩

end Hyperswarm

end HyperswarmRs
