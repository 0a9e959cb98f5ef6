import HyperswarmRs.Swarm.Commands

namespace HyperswarmRs
open Async
set_option autoImplicit true

/-- When configurations take effect: a call of the owner at once, and the calls of the handles,
which are queued, at the next poll. -/
structure Schedule where
  queued : List ConfigureCommand := []
  applied : List ConfigureCommand := []

def Schedule.step (s : Schedule) : SwarmEvent ιD ιT → Schedule
  | .configure topic config => { s with applied := s.applied ++ [(topic, config)] }
  | .handleConfigure topic config => { s with queued := s.queued ++ [(topic, config)] }
  | .poll => { queued := [], applied := s.applied ++ s.queued }
  | .discovery _ | .transport _ => s

def schedule (events : List (SwarmEvent ιD ιT)) : Schedule := events.foldl Schedule.step {}

theorem schedule_concat (events : List (SwarmEvent ιD ιT)) (e : SwarmEvent ιD ιT) :
    schedule (events ++ [e]) = (schedule events).step e := List.foldl_concat ..

def configsOf (topic : Topic) (calls : List ConfigureCommand) : List TopicConfig :=
  calls.filterMap fun call => if call.1 = topic then some call.2 else none

theorem configsOf_append (topic : Topic) (calls calls' : List ConfigureCommand) :
    configsOf topic (calls ++ calls') = configsOf topic calls ++ configsOf topic calls' :=
  List.filterMap_append

theorem configsOf_self (topic : Topic) (config : TopicConfig) (calls : List ConfigureCommand) :
    configsOf topic ((topic, config) :: calls) = config :: configsOf topic calls :=
  List.filterMap_cons_some (if_pos rfl)

theorem configsOf_other (h : topic' ≠ topic) (config : TopicConfig)
    (calls : List ConfigureCommand) :
    configsOf topic ((topic', config) :: calls) = configsOf topic calls :=
  List.filterMap_cons_none (if_neg h)

theorem queuedTopics_append (topics : Finmap fun _ : Topic => TopicConfig)
    (calls calls' : List ConfigureCommand) :
    queuedTopics topics (calls ++ calls') = queuedTopics (queuedTopics topics calls) calls' := by
  induction calls generalizing topics with
  | nil => rfl
  | cons call calls ih => exact ih _

theorem queuedEdges_append (topics : Finmap fun _ : Topic => TopicConfig)
    (calls calls' : List ConfigureCommand) :
    queuedEdges topics (calls ++ calls') =
      queuedEdges topics calls ++ queuedEdges (queuedTopics topics calls) calls' := by
  induction calls generalizing topics with
  | nil => rfl
  | cons call calls ih =>
    rw [List.cons_append, queuedEdges, queuedEdges, ih, List.append_assoc]
    rfl

theorem queuedTopics_lookup (topics : Finmap fun _ : Topic => TopicConfig)
    (calls : List ConfigureCommand) (topic : Topic) : (queuedTopics topics calls).lookup topic =
      (configsOf topic calls).getLast?.or (topics.lookup topic) := by
  induction calls generalizing topics with
  | nil => rfl
  | cons call calls ih =>
    obtain ⟨topic', config⟩ := call
    rw [queuedTopics, ih]
    rcases eq_or_ne topic' topic with rfl | hne
    · rw [Finmap.lookup_insert, configsOf_self, List.getLast?_cons]
      cases (configsOf topic' calls).getLast? <;> rfl
    · rw [Finmap.lookup_insert_of_ne _ hne.symm, Finmap.lookup_erase_ne hne.symm, configsOf_other hne]

/-- The configurations that a topic will have had once the queue is drained. -/
def Schedule.outcome (s : Schedule) (topic : Topic) : List TopicConfig :=
  configsOf topic (s.applied ++ s.queued)

def SwarmEvent.call? : SwarmEvent ιD ιT → Option ConfigureCommand
  | .configure topic config | .handleConfigure topic config => some (topic, config)
  | .poll | .discovery _ | .transport _ => none

theorem Schedule.outcome_step {e : SwarmEvent ιD ιT}
    (h : ∀ config, e.call? ≠ some (topic, config)) (s : Schedule) :
    (s.step e).outcome topic = s.outcome topic := by
  have hne : ∀ topic' config, e.call? = some (topic', config) → topic' ≠ topic := by
    rintro topic' config he rfl
    exact h config he
  cases e with
  | configure topic' config =>
    rw [outcome, step, List.append_assoc, configsOf_append, List.singleton_append,
      configsOf_other (hne _ _ rfl), ← configsOf_append, outcome]
  | handleConfigure topic' config =>
    rw [outcome, step, ← List.append_assoc, configsOf_append, configsOf_other (hne _ _ rfl)]
    exact List.append_nil _
  | poll => rw [outcome, step, List.append_nil, outcome]
  | discovery i => rfl
  | transport i => rfl

theorem Schedule.outcome_foldl {events : List (SwarmEvent ιD ιT)}
    (h : ∀ e ∈ events, ∀ config, e.call? ≠ some (topic, config)) (s : Schedule) :
    (events.foldl Schedule.step s).outcome topic = s.outcome topic := by
  induction events generalizing s with
  | nil => rfl
  | cons e events ih =>
    rw [List.foldl_cons, ih fun e he => h e (List.mem_cons_of_mem _ he),
      outcome_step (h e List.mem_cons_self)]

theorem schedule_outcome {before after : List (SwarmEvent ιD ιT)} (e : SwarmEvent ιD ιT)
    (h : ∀ e ∈ after, ∀ config, e.call? ≠ some (topic, config)) :
    (schedule (before ++ e :: after)).outcome topic = ((schedule before).step e).outcome topic := by
  rw [schedule, List.foldl_append, List.foldl_cons, Schedule.outcome_foldl h, schedule]

def rises : Bool → List Bool → Nat
  | _, [] => 0
  | old, new :: rest => (new && !old).toNat + rises new rest

def Call.topic : Call → Topic
  | .lookup topic | .announce topic => topic

def Call.flag : Call → TopicConfig → Bool
  | .lookup _ => TopicConfig.lookup
  | .announce _ => TopicConfig.announce

theorem count_edges (call : Call) (old : TopicConfig) (topic : Topic) (config : TopicConfig) :
    (edges old topic config).count call =
      if topic = call.topic then (call.flag config && !call.flag old).toNat else 0 := by
  rw [edges, List.count_append]
  cases call with
  | lookup t =>
    cases config.announce && !old.announce <;> cases hl : config.lookup && !old.lookup <;>
      simp [Call.topic, Call.flag, hl, List.count_singleton]
  | announce t =>
    cases ha : config.announce && !old.announce <;> cases config.lookup && !old.lookup <;>
      simp [Call.topic, Call.flag, ha, List.count_singleton]

theorem count_queuedEdges (call : Call) (topics : Finmap fun _ : Topic => TopicConfig)
    (calls : List ConfigureCommand) : (queuedEdges topics calls).count call =
      rises (call.flag ((topics.lookup call.topic).getD {}))
        ((configsOf call.topic calls).map call.flag) := by
  induction calls generalizing topics with
  | nil => rfl
  | cons c calls ih =>
    obtain ⟨topic, config⟩ := c
    rw [queuedEdges, List.count_append, count_edges, ih]
    split
    · next he =>
      subst he
      rw [Finmap.lookup_insert, configsOf_self]
      rfl
    · next hne =>
      rw [Finmap.lookup_insert_of_ne _ (Ne.symm hne), Finmap.lookup_erase_ne (Ne.symm hne),
        configsOf_other hne, Nat.zero_add]

namespace Hyperswarm

variable [Discovery D δ] [Transport T τ CombinedStream] [Environment D ιD] [Environment T ιT]

def sent? : SwarmEvent ιD ιT → Option ConfigureCommand
  | .handleConfigure topic config => some (topic, config)
  | .configure .. | .poll | .discovery _ | .transport _ => none

theorem step_taken {s s' : Hyperswarm D T} {e : SwarmEvent ιD ιT} {tr : List (SwarmObs δ τ)}
    (h : (s.step e).Returns s' tr) : s.commands.queue ++ [e].filterMap sent? =
      commandsTaken (effects tr) ++ s'.commands.queue := by
  cases step_cases h with
  | configure hc =>
    obtain ⟨he, -, -, ho⟩ := configure_returns hc
    rw [he, effects_map_effect, commandsTaken_ofCall ho]
    exact List.append_nil _
  | handleConfigure hc => exact (Channel.trySend_queue hc).symm
  | poll hp =>
    obtain ⟨s₁, es₁, next, es₂, rest, ha, rfl⟩ := hp.asks
    rw [effects_returns, ha.taken, ha.commands, ha.drains.queue]
    rfl
  | discovery => exact List.append_nil _
  | transport => exact List.append_nil _

theorem run_taken {s₀ s : Hyperswarm D T} {events : List (SwarmEvent ιD ιT)}
    {tr : List (SwarmObs δ τ)} (h : (run Hyperswarm.step s₀ events).Returns s tr) :
    s₀.commands.queue ++ events.filterMap sent? = commandsTaken (effects tr) ++ s.commands.queue := by
  apply run_trace (P := fun is tr s => s₀.commands.queue ++ is.filterMap sent? =
    commandsTaken (effects tr) ++ s.commands.queue) ?_ ?_ h
  · exact List.append_nil _
  · intro is tr s e s' tr' hh hs
    rw [List.filterMap_append, ← List.append_assoc, hh, List.append_assoc, step_taken hs,
      effects_append, commandsTaken_append, List.append_assoc]

/-- The table, the queue and the calls of a run are those of its schedule. -/
structure Scheduled (table : Finmap fun _ : Topic => TopicConfig)
    (events : List (SwarmEvent ιD ιT)) (tr : List (SwarmObs δ τ)) (s : Hyperswarm D T) : Prop where
  topics : s.topics = queuedTopics table (schedule events).applied
  queued : s.commands.queue = (schedule events).queued
  requested : requested (effects tr) = queuedEdges table (schedule events).applied

theorem Scheduled.step {s s' : Hyperswarm D T} (h : Scheduled table events tr s)
    (calls : List ConfigureCommand)
    (ha : ((schedule events).step e).applied = (schedule events).applied ++ calls)
    (ht : s'.topics = queuedTopics s.topics calls)
    (hq : s'.commands.queue = ((schedule events).step e).queued)
    (hr : Hyperswarm.requested (effects tr') = queuedEdges s.topics calls) :
    Scheduled table (events ++ [e]) (tr ++ tr') s' := by
  rw [← schedule_concat] at ha hq
  refine ⟨?_, hq, ?_⟩
  · rw [ht, ha, h.topics, queuedTopics_append]
  · rw [effects_append, requested_append, hr, h.requested, ha, h.topics, queuedEdges_append]

theorem run_scheduled {s₀ s : Hyperswarm D T} {events : List (SwarmEvent ιD ιT)}
    {tr : List (SwarmObs δ τ)} (hq : s₀.commands.queue = [])
    (h : (run Hyperswarm.step s₀ events).Returns s tr) : Scheduled s₀.topics events tr s := by
  apply run_trace (P := Scheduled s₀.topics) ?_ ?_ h
  · exact ⟨rfl, hq, rfl⟩
  · intro is tr s e s' tr' hh hs
    cases step_cases hs with
    | @configure topic config _ _ hc =>
      obtain ⟨he, -, hr, -⟩ := configure_returns hc
      refine hh.step [(topic, config)] rfl ?_ ?_ ?_
      · rw [he]
        rfl
      · rw [he]
        exact hh.queued
      · rw [effects_map_effect, Hyperswarm.requested, hr]
        exact (List.append_nil _).symm
    | @handleConfigure topic config c hc =>
      refine hh.step [] (List.append_nil _).symm rfl ?_ rfl
      exact (Channel.trySend_queue hc).trans (congrArg (· ++ [(topic, config)]) hh.queued)
    | poll hp =>
      obtain ⟨s₁, es₁, next, es₂, rest, ha, rfl⟩ := hp.asks
      refine hh.step s.commands.queue (congrArg _ hh.queued.symm) ?_ ?_ ?_
      · rw [ha.topics, ha.drains.topics]
      · rw [ha.commands, ha.drains.queue]
        rfl
      · rw [effects_returns, ha.requested]
    | discovery => exact hh.step [] (List.append_nil _).symm rfl hh.queued rfl
    | transport => exact hh.step [] (List.append_nil _).symm rfl hh.queued rfl

variable {discovery : D} {transport : T} {s : Hyperswarm D T}
  {events : List (SwarmEvent ιD ιT)} {tr : List (SwarmObs δ τ)}

theorem polled_lookup
    (h : (run Hyperswarm.step (bind discovery transport) (events ++ [.poll])).Returns s tr)
    (topic : Topic) : s.topics.lookup topic = ((schedule events).outcome topic).getLast? := by
  rw [(run_scheduled rfl h).topics, queuedTopics_lookup, schedule_concat]
  exact Option.or_none

/-- After a poll, a topic has the configuration of the call made for it last, unless that was a call
of the owner made while calls of handles for the topic were queued: then it has the last of these. -/
theorem run_last_configure
    (h : (run Hyperswarm.step (bind discovery transport) (events ++ [.poll])).Returns s tr)
    (before after : List (SwarmEvent ιD ιT)) (topic : Topic) (config : TopicConfig)
    (hl : ∀ e ∈ after, ∀ config, e.call? ≠ some (topic, config)) :
    (events = before ++ .handleConfigure topic config :: after →
      s.topics.lookup topic = some config) ∧
    (events = before ++ .configure topic config :: after → s.topics.lookup topic =
      some ((configsOf topic (schedule before).queued).getLast?.getD config)) := by
  rw [polled_lookup h]
  constructor
  · rintro rfl
    rw [schedule_outcome _ hl, Schedule.outcome, Schedule.step, ← List.append_assoc,
      configsOf_append, configsOf_self]
    exact List.getLast?_concat
  · rintro rfl
    rw [schedule_outcome _ hl, Schedule.outcome, Schedule.step, List.append_assoc,
      configsOf_append, List.singleton_append, configsOf_self, List.getLast?_append,
      List.getLast?_cons]
    rfl

/-- A handle configures a topic, then its owner turns the topic off; the next poll turns it on. -/
theorem queued_configure_wins :
    let start := bindAll { localAddr := loopback 4000 } {} {} {} {}
    let topic : Topic := ⟨List.replicate 32 7, rfl⟩
    let events := [.handleConfigure topic .both, .configure topic {}]
    ∃ s tr, (run Hyperswarm.step start (events ++ [.poll])).Returns s tr ∧
      events.filterMap SwarmEvent.call? = [(topic, .both), (topic, {})] ∧
      s.topics.lookup topic = some .both := by
  intro start topic events
  have hc : (run Hyperswarm.step start (events ++ [.poll])).check (fun s _ =>
      s.topics.lookup topic = some .both) := by
    decide +kernel
  obtain ⟨s, tr, hr, hp⟩ := Exec.exists_of_check hc
  exact ⟨s, tr, hr, rfl, of_decide_eq_true hp⟩

theorem run_last_configure_two_handles :
    let start := bindAll { localAddr := loopback 4000 } {} {} {} {}
    let topic : Topic := ⟨List.replicate 32 7, rfl⟩
    let events := [.configure topic {}, .handleConfigure topic .both,
      .handleConfigure topic { lookup := true }]
    ∃ s tr, (run Hyperswarm.step start (events ++ [.poll])).Returns s tr ∧
      s.topics.lookup topic = some { lookup := true } := by
  intro start topic events
  have hc : (run Hyperswarm.step start (events ++ [.poll])).check (fun _ _ => true) := by
    decide +kernel
  obtain ⟨s, tr, hr, -⟩ := Exec.exists_of_check hc
  exact ⟨s, tr, hr, (run_last_configure hr [.configure topic {}, .handleConfigure topic .both] []
    topic { lookup := true } (fun e he => by cases he)).1 rfl⟩

end Hyperswarm

end HyperswarmRs
