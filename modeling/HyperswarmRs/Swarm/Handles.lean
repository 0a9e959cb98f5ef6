import HyperswarmRs.Swarm.Topics

namespace HyperswarmRs
open Async
set_option autoImplicit true

theorem SwarmHandle.configure_returns {commands commands' : Channel ConfigureCommand} {es : List ε} :
    (SwarmHandle.configure commands topic config).Returns commands' es ↔
      commands.receiver = true ∧ es = [] ∧
        commands' = { commands with queue := commands.queue ++ [(topic, config)] } := by
  rw [configure, Channel.trySend]
  cases commands.receiver with
  | false => exact ⟨fun h => (Exec.returns_fail h).elim, fun h => by cases h.1⟩
  | true =>
    constructor
    · intro h
      obtain ⟨rfl, rfl⟩ := Exec.returns_pure.1 h
      exact ⟨rfl, rfl, rfl⟩
    · rintro ⟨-, rfl, rfl⟩
      exact Exec.pure_returns _

/-- A swarm with its handles. Once the swarm is dropped, its handles still share the channel. -/
inductive Lifetime (D T : Type) where
  | alive (swarm : Hyperswarm D T) (handles : Nat)
  | dropped (commands : Channel ConfigureCommand) (handles : Nat)

inductive LifetimeEvent (ιD ιT : Type) where
  | handle
  | clone
  | dropHandle
  | dropSwarm
  | event (e : SwarmEvent ιD ιT)
  deriving DecidableEq, Repr

inductive LifetimeObs (δ τ : Type) where
  | sent (command : ConfigureCommand)
  | ofSwarm (o : SwarmObs δ τ)
  deriving DecidableEq, Repr

namespace LifetimeObs

def sent? : LifetimeObs δ τ → Option ConfigureCommand
  | .sent command => some command
  | .ofSwarm _ => none

def ofSwarm? : LifetimeObs δ τ → Option (SwarmObs δ τ)
  | .sent _ => none
  | .ofSwarm o => some o

end LifetimeObs

def sentBy (tr : List (LifetimeObs δ τ)) : List ConfigureCommand :=
  tr.filterMap LifetimeObs.sent?

def swarmEffects (tr : List (LifetimeObs δ τ)) : List (SwarmEffect δ τ) :=
  effects (tr.filterMap LifetimeObs.ofSwarm?)

theorem sentBy_append (tr tr' : List (LifetimeObs δ τ)) :
    sentBy (tr ++ tr') = sentBy tr ++ sentBy tr' := List.filterMap_append

theorem swarmEffects_append (tr tr' : List (LifetimeObs δ τ)) :
    swarmEffects (tr ++ tr') = swarmEffects tr ++ swarmEffects tr' := by
  rw [swarmEffects, List.filterMap_append, effects_append, swarmEffects, swarmEffects]

namespace Hyperswarm

variable [Discovery D δ] [Transport T τ CombinedStream] [Environment D ιD] [Environment T ιT]

theorem step_ends {s s' : Hyperswarm D T} {e : SwarmEvent ιD ιT} {tr : List (SwarmObs δ τ)}
    (h : (s.step e).Returns s' tr) :
    (s'.commands.senders = s.commands.senders ∧ s'.commands.receiver = s.commands.receiver) ∧
      (s.commands.senders ≠ 0 → .commands (.ready none) ∉ effects tr) := by
  cases step_cases h with
  | configure hc =>
    obtain ⟨he, -, -, ho⟩ := configure_returns hc
    rw [he, effects_map_effect]
    exact ⟨⟨rfl, rfl⟩, fun _ hm => by cases ho _ hm⟩
  | handleConfigure hc =>
    refine ⟨?_, fun _ hm => by cases hm⟩
    rw [Channel.trySend] at hc
    split at hc
    · cases hc
      exact ⟨rfl, rfl⟩
    · cases hc
  | poll hp =>
    obtain ⟨s₁, es₁, next, es₂, rest, ha, rfl⟩ := hp.asks
    rw [effects_returns, ha.commands]
    refine ⟨ha.drains.ends, fun hs hm => ?_⟩
    rcases List.mem_append.1 hm with hm | hm
    · exact ha.drains.unended hs hm
    · rcases List.mem_append.1 hm with hm | hm
      · rcases List.mem_append.1 hm with hm | hm
        · obtain ⟨_, -, he⟩ := List.mem_map.1 hm
          cases he
        · cases List.mem_singleton.1 hm
      · cases ha.rest _ hm
  | discovery => exact ⟨⟨rfl, rfl⟩, fun _ hm => by cases hm⟩
  | transport => exact ⟨⟨rfl, rfl⟩, fun _ hm => by cases hm⟩

end Hyperswarm

namespace Lifetime

def commands : Lifetime D T → Channel ConfigureCommand
  | .alive swarm _ => swarm.commands
  | .dropped commands _ => commands

def handles : Lifetime D T → Nat
  | .alive _ handles | .dropped _ handles => handles

def Sound : Lifetime D T → Prop
  | .alive swarm handles =>
    swarm.commands.senders = handles + 1 ∧ swarm.commands.receiver = true
  | .dropped commands _ => commands.receiver = false

section Step

variable [Discovery D δ] [Transport T τ CombinedStream] [Environment D ιD] [Environment T ιT]

def swarmStep (swarm : Hyperswarm D T) (e : SwarmEvent ιD ιT) :
    Exec (LifetimeObs δ τ) (Hyperswarm D T) := do
  let swarm ← (swarm.step e).embed .ofSwarm
  match Hyperswarm.sent? e with
  | none => return swarm
  | some command =>
    Exec.emit (.sent command)
    return swarm

/-- An event that needs a handle or a swarm that is not there does nothing. -/
def step : Lifetime D T → LifetimeEvent ιD ιT → Exec (LifetimeObs δ τ) (Lifetime D T)
  | .alive swarm handles, .handle =>
    pure (.alive { swarm with commands := swarm.commands.cloneSender } (handles + 1))
  | .alive swarm (handles + 1), .clone =>
    pure (.alive { swarm with commands := swarm.commands.cloneSender } (handles + 2))
  | .alive swarm (handles + 1), .dropHandle =>
    pure (.alive { swarm with commands := swarm.commands.dropSender } handles)
  | .alive swarm handles, .dropSwarm =>
    pure (.dropped swarm.commands.dropSender.dropReceiver handles)
  | .alive swarm handles, .event e =>
    if handles = 0 ∧ (Hyperswarm.sent? e).isSome then pure (.alive swarm handles)
    else do
      let swarm ← swarmStep swarm e
      return .alive swarm handles
  | .dropped commands (handles + 1), .clone =>
    pure (.dropped commands.cloneSender (handles + 2))
  | .dropped commands (handles + 1), .dropHandle => pure (.dropped commands.dropSender handles)
  | .dropped commands (handles + 1), .event (.handleConfigure topic config) => do
    let commands ← SwarmHandle.configure commands topic config
    Exec.emit (.sent (topic, config))
    return .dropped commands (handles + 1)
  | s, _ => pure s

theorem swarmStep_returns {swarm swarm' : Hyperswarm D T} {e : SwarmEvent ιD ιT}
    {tr : List (LifetimeObs δ τ)} (h : (swarmStep swarm e).Returns swarm' tr) :
    ∃ tr', (swarm.step e).Returns swarm' tr' ∧ sentBy tr = [e].filterMap Hyperswarm.sent? ∧
      swarmEffects tr = effects tr' := by
  obtain ⟨swarm₁, _, es, hs, hr, rfl⟩ := Exec.returns_bind.1 h
  obtain ⟨tr', hs', rfl⟩ := Exec.returns_embed.1 hs
  have hsent : sentBy (tr'.map (.ofSwarm : SwarmObs δ τ → LifetimeObs δ τ)) = [] :=
    filterMap_map_none (fun _ => rfl) tr'
  have hswarm : (tr'.map (.ofSwarm : SwarmObs δ τ → LifetimeObs δ τ)).filterMap
      LifetimeObs.ofSwarm? = tr' := by
    rw [List.filterMap_map]
    exact List.filterMap_some
  rw [sentBy_append, hsent, swarmEffects, List.filterMap_append, hswarm, List.nil_append,
    List.filterMap_cons]
  split at hr
  · next he =>
    obtain ⟨rfl, rfl⟩ := Exec.returns_pure.1 hr
    rw [he]
    exact ⟨tr', hs', rfl, congrArg effects (List.append_nil _)⟩
  · next command he =>
    obtain ⟨_, _, _, hem, hr', rfl⟩ := Exec.returns_bind.1 hr
    obtain rfl := Exec.returns_emit.1 hem
    obtain ⟨rfl, rfl⟩ := Exec.returns_pure.1 hr'
    rw [he]
    exact ⟨tr', hs', rfl, congrArg effects (List.append_nil _)⟩

theorem swarmStep_sends {swarm swarm' : Hyperswarm D T}
    (h : (swarm.handleConfigure topic config : Exec (SwarmObs δ τ) _).Returns swarm' []) :
    (swarmStep swarm (.handleConfigure topic config : SwarmEvent ιD ιT)).Returns swarm'
      [.sent (topic, config)] :=
  Exec.Returns.of_bind (h.embed LifetimeObs.ofSwarm)
    ((Exec.emit_returns (LifetimeObs.sent (topic, config))).of_bind (Exec.pure_returns _))

inductive Stepped : Lifetime D T → LifetimeEvent ιD ιT → Lifetime D T →
    List (LifetimeObs δ τ) → Prop where
  | quiet : s'.commands.queue = s.commands.queue → (s.Sound → s'.Sound) → Stepped s e s' []
  | swarm : (swarmStep swarm e).Returns swarm' tr →
      Stepped (.alive swarm n) (.event e) (.alive swarm' n) tr
  | send (c : Channel ConfigureCommand) : c.receiver = true → Stepped (.dropped c n) e s' tr

theorem step_cases {s s' : Lifetime D T} {e : LifetimeEvent ιD ιT} {tr : List (LifetimeObs δ τ)}
    (h : (step s e).Returns s' tr) : Stepped s e s' tr := by
  cases s with
  | alive swarm n =>
    cases e with
    | handle =>
      obtain ⟨rfl, rfl⟩ := Exec.returns_pure.1 h
      exact .quiet rfl fun hs => ⟨congrArg (· + 1) hs.1, hs.2⟩
    | clone =>
      cases n with
      | zero =>
        obtain ⟨rfl, rfl⟩ := Exec.returns_pure.1 h
        exact .quiet rfl id
      | succ n =>
        obtain ⟨rfl, rfl⟩ := Exec.returns_pure.1 h
        exact .quiet rfl fun hs => ⟨congrArg (· + 1) hs.1, hs.2⟩
    | dropHandle =>
      cases n with
      | zero =>
        obtain ⟨rfl, rfl⟩ := Exec.returns_pure.1 h
        exact .quiet rfl id
      | succ n =>
        obtain ⟨rfl, rfl⟩ := Exec.returns_pure.1 h
        exact .quiet rfl fun hs => ⟨congrArg (· - 1) hs.1, hs.2⟩
    | dropSwarm =>
      obtain ⟨rfl, rfl⟩ := Exec.returns_pure.1 h
      exact .quiet rfl fun _ => rfl
    | event e =>
      rw [step.eq_def] at h
      dsimp only at h
      split at h
      · obtain ⟨rfl, rfl⟩ := Exec.returns_pure.1 h
        exact .quiet rfl id
      · obtain ⟨swarm', _, _, hs, hr, rfl⟩ := Exec.returns_bind.1 h
        obtain ⟨rfl, rfl⟩ := Exec.returns_pure.1 hr
        rw [List.append_nil]
        exact .swarm hs
  | dropped commands n =>
    cases n with
    | zero =>
      cases e with
      | _ =>
        obtain ⟨rfl, rfl⟩ := Exec.returns_pure.1 h
        exact .quiet rfl id
    | succ n =>
      cases e with
      | event e =>
        cases e with
        | handleConfigure topic config =>
          obtain ⟨_, _, _, hc, -, -⟩ := Exec.returns_bind.1 h
          exact .send commands (SwarmHandle.configure_returns.1 hc).1
        | _ =>
          obtain ⟨rfl, rfl⟩ := Exec.returns_pure.1 h
          exact .quiet rfl id
      | _ =>
        obtain ⟨rfl, rfl⟩ := Exec.returns_pure.1 h
        exact .quiet rfl id

theorem swarmStep_sound {swarm swarm' : Hyperswarm D T} {e : SwarmEvent ιD ιT}
    {tr : List (LifetimeObs δ τ)} (hs : Sound (.alive swarm n))
    (h : (swarmStep swarm e).Returns swarm' tr) : Sound (.alive swarm' n) := by
  obtain ⟨tr', h', -⟩ := swarmStep_returns h
  obtain ⟨hends, -⟩ := Hyperswarm.step_ends h'
  exact ⟨hends.1.trans hs.1, hends.2.trans hs.2⟩

omit [Discovery D δ] [Transport T τ CombinedStream] [Environment D ιD] [Environment T ιT] in
theorem not_send {c : Channel ConfigureCommand} (hs : Sound (.dropped c n : Lifetime D T)) :
    c.receiver ≠ true := by
  rw [show c.receiver = false from hs]
  exact Bool.false_ne_true

theorem step_sound {tr : List (LifetimeObs δ τ)} {s s' : Lifetime D T} {e : LifetimeEvent ιD ιT}
    (hs : s.Sound) (h : (step s e).Returns s' tr) : s'.Sound := by
  cases step_cases h with
  | quiet hq hk => exact hk hs
  | swarm hst => exact swarmStep_sound hs hst
  | send c hr => exact (not_send hs hr).elim

/-- What has been sent was taken by the swarm or is queued, and the channel has not ended. -/
structure Keeps (tr : List (LifetimeObs δ τ)) (s : Lifetime D T) : Prop where
  sound : s.Sound
  sent : sentBy tr = commandsTaken (swarmEffects tr) ++ s.commands.queue
  unended : .commands (.ready none) ∉ swarmEffects tr

theorem step_keeps {tr tr' : List (LifetimeObs δ τ)} {s s' : Lifetime D T}
    {e : LifetimeEvent ιD ιT} (hk : Keeps tr s) (h : (step s e).Returns s' tr') :
    Keeps (tr ++ tr') s' := by
  have hsent := hk.sent
  cases step_cases h with
  | quiet hq hs =>
    rw [List.append_nil]
    exact ⟨hs hk.sound, hq ▸ hsent, hk.unended⟩
  | @swarm swarm e swarm' _ n hst =>
    obtain ⟨tr₁, hs, hsent', heff⟩ := swarmStep_returns hst
    have hq : swarm.commands.queue ++ [e].filterMap Hyperswarm.sent? =
        commandsTaken (effects tr₁) ++ swarm'.commands.queue := Hyperswarm.step_taken hs
    have hopen : swarm.commands.senders ≠ 0 := by
      rw [hk.sound.1]
      exact Nat.succ_ne_zero n
    refine ⟨swarmStep_sound hk.sound hst, ?_, ?_⟩
    · rw [sentBy_append, hsent, hsent', swarmEffects_append, heff, commandsTaken_append,
        List.append_assoc, List.append_assoc]
      exact congrArg _ hq
    · rw [swarmEffects_append, heff, List.mem_append]
      exact not_or_intro hk.unended ((Hyperswarm.step_ends hs).2 hopen)
  | send c hr => exact (not_send hk.sound hr).elim

def Configures (s : Lifetime D T) (e : LifetimeEvent ιD ιT) : Prop :=
  ∀ topic config, e = .event (.handleConfigure topic config) → s.handles ≠ 0 →
    ∃ s' tr, (step s e).Returns s' tr ∧ sentBy tr = [(topic, config)] ∧
      s'.commands.queue = s.commands.queue ++ [(topic, config)]

omit [Discovery D δ] [Transport T τ CombinedStream] [Environment D ιD] [Environment T ιT] in
/-- A handle is used although the swarm has been dropped. -/
def UsesDropped (s : Lifetime D T) (e : LifetimeEvent ιD ιT) : Prop :=
  ∃ commands handles topic config, s = .dropped commands (handles + 1) ∧
    e = .event (.handleConfigure topic config)

theorem configures_iff {s : Lifetime D T} {e : LifetimeEvent ιD ιT} (hs : s.Sound) :
    Configures s e ↔ ¬ UsesDropped s e := by
  constructor
  · rintro h ⟨commands, n, topic, config, rfl, rfl⟩
    obtain ⟨s', tr, hr, -⟩ := h topic config rfl (Nat.succ_ne_zero n)
    obtain ⟨_, _, _, hc, -, -⟩ := Exec.returns_bind.1 hr
    have hf : commands.receiver = false := hs
    rw [SwarmHandle.configure_returns, hf] at hc
    cases hc.1
  · rintro hn topic config rfl h
    cases s with
    | dropped commands n =>
      cases n with
      | zero => exact (h rfl).elim
      | succ n => exact (hn ⟨_, _, _, _, rfl, rfl⟩).elim
    | alive swarm n =>
      have hc : (SwarmHandle.configure swarm.commands topic config :
          Exec (SwarmObs δ τ) _).Returns _ [] :=
        SwarmHandle.configure_returns.2 ⟨hs.2, rfl, rfl⟩
      have hstep : (swarm.handleConfigure topic config).Returns _ ([] ++ []) :=
        hc.of_bind (Exec.pure_returns _)
      refine ⟨.alive { swarm with commands.queue := swarm.commands.queue ++ [(topic, config)] } n,
        [.sent (topic, config)], ?_, rfl, rfl⟩
      rw [step, if_neg fun hn' => h hn'.1]
      exact (swarmStep_sends hstep).of_bind (Exec.pure_returns _)

/-- All uses of handles succeed exactly in the runs where no handle is used once the swarm is
dropped; what they send is taken or queued, and dropping handles does not end the channel. -/
theorem run_configures_iff (discovery : D) (transport : T)
    (events : List (LifetimeEvent ιD ιT)) :
    let start : Lifetime D T := .alive (.bind discovery transport) 0
    (Along step Configures start events ↔
      Along step (fun s e => ¬ UsesDropped s e) start events) ∧
    ∀ s tr, (run step start events).Returns s tr → Keeps tr s ∧
      ∀ swarm n r swarm' es, s = .alive swarm n → swarm.pollNext.Returns (r, swarm') es →
        commandsTaken es = swarm.commands.queue := by
  intro start
  have h₀ : Keeps ([] : List (LifetimeObs δ τ)) start :=
    ⟨⟨rfl, rfl⟩, rfl, List.not_mem_nil⟩
  refine ⟨along_congr (P := Sound) h₀.sound step_sound configures_iff, fun s tr h => ⟨?_, ?_⟩⟩
  · exact run_trace (P := fun _ tr s => Keeps tr s) h₀ step_keeps h
  · rintro swarm n r swarm' es rfl hp
    obtain ⟨s₁, es₁, next, es₂, rest, ha, rfl⟩ := (Hyperswarm.pollNext_cases hp).asks
    exact ha.taken

/-- The owner drops the swarm while another task still has a handle. -/
theorem handle_of_dropped_swarm_panics :
    let start : Lifetime CombinedDiscovery CombinedTransport :=
      .alive (.bind (.bind {} {} {} 4000) .fresh) 0
    let topic : Topic := ⟨List.replicate 32 7, rfl⟩
    let use : LifetimeEvent CombinedInput TransportInput := .event (.handleConfigure topic .both)
    (∃ s tr, (run step start [.handle, .dropSwarm]).Returns s tr ∧ s.handles = 1 ∧
      step s use = .fail .panicked) ∧ ¬ Along step Configures start [.handle, .dropSwarm, use] := by
  intro start topic use
  have hr : ∃ s tr, (run step start [.handle, .dropSwarm]).Returns s tr ∧ s.handles = 1 ∧
      step s use = .fail .panicked := ⟨_, _, rfl, rfl, rfl⟩
  refine ⟨hr, fun h => ?_⟩
  obtain ⟨s, tr, hr, hn, hf⟩ := hr
  have ha : Along step Configures start ([.handle, .dropSwarm] ++ [use]) := h
  obtain ⟨s', tr', hc, -⟩ := (ha.after hr).1 topic .both rfl (hn ▸ Nat.one_ne_zero)
  rw [hf] at hc
  exact Exec.returns_fail hc

end Step

end Lifetime

end HyperswarmRs
