import HyperswarmRs.Discovery.Dht

namespace HyperswarmRs
open Async
set_option autoImplicit true

def Command.operation : Command → DhtEffect
  | .lookup opts => .lookup opts
  | .announce opts => .announce opts

def DhtEffect.command? : DhtEffect → Option Command
  | .lookup opts => some (.lookup opts)
  | .announce opts => some (.announce opts)
  | .polled _ => none

def DhtEffect.event? : DhtEffect → Option HyperDhtEvent
  | .lookup _ | .announce _ => none
  | .polled r => r.item

def issued (es : List DhtEffect) : List Command := es.filterMap DhtEffect.command?

def received (es : List DhtEffect) : List HyperDhtEvent := es.filterMap DhtEffect.event?

@[simp] theorem issued_nil : issued [] = [] := rfl

@[simp] theorem received_nil : received [] = [] := rfl

@[simp] theorem issued_append (es es' : List DhtEffect) :
    issued (es ++ es') = issued es ++ issued es' := List.filterMap_append

@[simp] theorem received_append (es es' : List DhtEffect) :
    received (es ++ es') = received es ++ received es' := List.filterMap_append

@[simp] theorem issued_polled (r : Poll (Option HyperDhtEvent)) (es : List DhtEffect) :
    issued (.polled r :: es) = issued es := rfl

@[simp] theorem received_polled (r : Poll (Option HyperDhtEvent)) (es : List DhtEffect) :
    received (.polled r :: es) = r.item.toList ++ received es := by
  simp only [received, List.filterMap_cons, DhtEffect.event?]
  cases r.item <;> rfl

@[simp] theorem issued_operations (cs : List Command) : issued (cs.map Command.operation) = cs := by
  have hc : DhtEffect.command? ∘ Command.operation = some := by
    funext c
    cases c <;> rfl
  rw [issued, List.filterMap_map, hc, List.filterMap_some]

@[simp] theorem received_operations (cs : List Command) :
    received (cs.map Command.operation) = [] := by
  rw [received, List.filterMap_map, List.filterMap_eq_nil_iff]
  intro c _
  cases c <;> rfl

def HyperDhtEvent.peers : HyperDhtEvent → List PeerInfo
  | .lookupResult lookup => lookup.remotes.map fun addr => ⟨addr, some lookup.topic, .dht⟩
  | _ => []

/-- An operation is issued only if `b` holds, or a bootstrap has been consumed before it. -/
def Gated (b : Prop) (es : List DhtEffect) : Prop :=
  ∀ before e after, es = before ++ e :: after → e.command? ≠ none →
    b ∨ .bootstrapped ∈ received before

theorem gated_nil (b : Prop) : Gated b [] := by
  intro before e after h
  exact (List.append_ne_nil_of_right_ne_nil _ (List.cons_ne_nil _ _) h.symm).elim

theorem gated_of_issued_nil (h : issued es = []) : Gated b es := by
  intro before e after he hc
  rw [issued, List.filterMap_eq_nil_iff] at h
  exact (hc (h e (he ▸ List.mem_append_right _ List.mem_cons_self))).elim

theorem gated_of (h : b) : Gated b es := fun _ _ _ _ _ => .inl h

theorem Gated.append (h : Gated b es) (h' : Gated (b ∨ .bootstrapped ∈ received es) es') :
    Gated b (es ++ es') := by
  intro before e after he hc
  rcases List.append_eq_append_iff.1 he with ⟨as, rfl, he'⟩ | ⟨bs, rfl, he'⟩
  · rw [received_append, List.mem_append, ← or_assoc]
    exact h' as e after he' hc
  · cases bs with
    | nil =>
      rw [List.append_nil] at h'
      have hb := h' [] e after he'.symm hc
      rwa [received_nil, List.mem_nil_iff, or_false] at hb
    | cons e' bs =>
      rw [List.cons_append, List.cons.injEq] at he'
      obtain ⟨rfl, -⟩ := he'
      exact h before e bs rfl hc

theorem Gated.polled (h : Gated (b ∨ .bootstrapped ∈ r.item) es) : Gated b (.polled r :: es) := by
  rw [← List.singleton_append]
  refine (gated_of_issued_nil rfl).append ?_
  rwa [received_polled, received_nil, List.append_nil, Option.mem_toList]

namespace DhtDiscovery

theorem executeAll_returns (cs : List Command) :
    (executeAll cs).Returns () (cs.map Command.operation) := by
  induction cs with
  | nil => exact Exec.returns_pure.2 ⟨rfl, rfl⟩
  | cons c cs ih =>
    have hc : (execute c).Returns () [c.operation] := by
      cases c <;> exact Exec.returns_emit.2 rfl
    exact hc.of_bind ih

/-- The commands that stay queued when a round of the loop executes what it may. -/
def drained (self : DhtDiscovery) : DhtDiscovery :=
  { self with pendingCommands := if self.bootstrapped then [] else self.pendingCommands }

def flushed (self : DhtDiscovery) : List Command :=
  if self.bootstrapped then self.pendingCommands else []

theorem drain_returns (self : DhtDiscovery) :
    self.executeIfBootstrapped.Returns self.drained (self.flushed.map Command.operation) := by
  rw [executeIfBootstrapped, drained, flushed]
  split
  · have he := (executeAll_returns self.pendingCommands).of_bind
      (f := fun _ => pure { self with pendingCommands := [] }) (Exec.returns_pure.2 ⟨rfl, rfl⟩)
    rwa [List.append_nil] at he
  · exact Exec.returns_pure.2 ⟨rfl, rfl⟩

/-- The ways the loop returns, round by round. -/
inductive Looped : DhtDiscovery → Poll (Option (IoResult PeerInfo)) → DhtDiscovery →
    List DhtEffect → Prop where
  | deliver : self.pendingEvents = event :: rest →
      Looped self (.ready (some (.ok event))) { self with pendingEvents := rest } []
  | idle : self.pendingEvents = [] → self.state.poll = (.pending, state') →
      Looped self .pending { self.drained with state := state' }
        (self.flushed.map Command.operation ++ [.polled .pending])
  | again : self.pendingEvents = [] → self.state.poll = (.ready (some event), state') →
      Looped ({ self.drained with state := state' }.onEvent event) r self' es →
      Looped self r self' (self.flushed.map Command.operation ++
        .polled (.ready (some event)) :: es)

theorem pollLoop_cases {self self' : DhtDiscovery}
    (h : (pollLoop fuel self).Returns (r, self') es) : Looped self r self' es := by
  induction fuel generalizing self es with
  | zero => exact (Exec.returns_fail h).elim
  | succ fuel ih =>
    rw [pollLoop.eq_def] at h
    dsimp only at h
    split at h
    · next event rest hp =>
      simp only [Exec.returns_pure, Prod.mk.injEq] at h
      obtain ⟨⟨rfl, rfl⟩, rfl⟩ := h
      exact .deliver hp
    · next hp =>
      obtain ⟨d, es₁, es₂, hd, hr, rfl⟩ := Exec.returns_bind.1 h
      obtain ⟨rfl, rfl⟩ := (drain_returns self).unique hd
      obtain ⟨⟨q, state'⟩, es₃, es₄, hq, hr', rfl⟩ := Exec.returns_bind.1 hr
      obtain ⟨es₅, ha, rfl⟩ := Exec.returns_embed.1 hq
      obtain ⟨he, rfl⟩ := returns_answering.1 ha
      have hs : self.state.poll = (q, state') := he.symm
      rcases q with _ | _ | event
      · simp only [Exec.returns_pure, Prod.mk.injEq] at hr'
        obtain ⟨⟨rfl, rfl⟩, rfl⟩ := hr'
        rw [← congrArg Prod.fst he]
        exact .idle hp hs
      · exact (Exec.returns_fail hr').elim
      · rw [← congrArg Prod.fst he]
        exact .again hp hs (ih hr')

@[simp] theorem onEvent_pendingCommands (self : DhtDiscovery) (event : HyperDhtEvent) :
    (self.onEvent event).pendingCommands = self.pendingCommands := by
  cases event <;> rfl

@[simp] theorem onEvent_pendingEvents (self : DhtDiscovery) (event : HyperDhtEvent) :
    (self.onEvent event).pendingEvents = self.pendingEvents ++ event.peers := by
  cases event <;> simp only [onEvent, HyperDhtEvent.peers, List.append_nil]

@[simp] theorem onEvent_state (self : DhtDiscovery) (event : HyperDhtEvent) :
    (self.onEvent event).state = self.state := by
  cases event <;> rfl

@[simp] theorem onEvent_announcePort (self : DhtDiscovery) (event : HyperDhtEvent) :
    (self.onEvent event).announcePort = self.announcePort := by
  cases event <;> rfl

theorem onEvent_bootstrapped (self : DhtDiscovery) (event : HyperDhtEvent) :
    (self.onEvent event).bootstrapped = true ↔ self.bootstrapped = true ∨ .bootstrapped = event := by
  cases event <;> simp only [onEvent, reduceCtorEq, or_false, or_true]

theorem flushed_drained (self : DhtDiscovery) :
    self.flushed ++ self.drained.pendingCommands = self.pendingCommands := by
  rw [flushed, drained]
  split
  · exact List.append_nil _
  · exact List.nil_append _

theorem Looped.commands (h : Looped self r self' es) :
    issued es ++ self'.pendingCommands = self.pendingCommands := by
  induction h with
  | deliver hp => rfl
  | idle hp hs =>
    rw [issued_append, issued_operations, issued_polled, issued_nil, List.append_nil]
    exact flushed_drained _
  | again hp hs h ih =>
    rw [onEvent_pendingCommands] at ih
    rw [issued_append, issued_operations, issued_polled, List.append_assoc, ih]
    exact flushed_drained _

theorem Looped.announcePort (h : Looped self r self' es) :
    self'.announcePort = self.announcePort := by
  induction h with
  | deliver hp => rfl
  | idle hp hs => rfl
  | again hp hs h ih => rw [ih, onEvent_announcePort, drained]

theorem Looped.bootstrapped (h : Looped self r self' es) :
    self'.bootstrapped = true ↔ self.bootstrapped = true ∨ .bootstrapped ∈ received es := by
  induction h with
  | deliver hp => simp only [received_nil, List.not_mem_nil, or_false]
  | idle hp hs => simp only [drained, received_append, received_operations, received_polled,
      received_nil, Poll.item_pending, Option.toList_none, List.append_nil, List.not_mem_nil,
      or_false]
  | again hp hs h ih =>
    rw [ih, onEvent_bootstrapped, drained, received_append, received_operations, received_polled,
      Poll.item_ready, Option.toList_some, List.nil_append, List.singleton_append, List.mem_cons,
      or_assoc]

theorem gated_flushed (self : DhtDiscovery) :
    Gated (self.bootstrapped = true) (self.flushed.map Command.operation) := by
  rw [flushed]
  split
  · next hb => exact gated_of hb
  · exact gated_nil _

theorem Looped.gated (h : Looped self r self' es) : Gated (self.bootstrapped = true) es := by
  induction h with
  | deliver hp => exact gated_nil _
  | idle hp hs => exact (gated_flushed _).append (gated_of_issued_nil rfl)
  | again hp hs h ih =>
    refine (gated_flushed _).append (.polled ?_)
    rw [onEvent_bootstrapped, drained] at ih
    rw [received_operations, Poll.item_ready, Option.mem_some]
    simpa only [List.not_mem_nil, or_false, eq_comm] using ih

theorem Looped.peers (h : Looped self r self' es) : ∃ peers : List PeerInfo,
    r.item.toList = peers.map .ok ∧ peers ++ self'.pendingEvents =
      self.pendingEvents ++ (received es).flatMap HyperDhtEvent.peers := by
  induction h with
  | deliver hp => exact ⟨[_], rfl, by rw [hp, received_nil]; simp⟩
  | idle hp hs => exact ⟨[], rfl, by simp [drained, hp]⟩
  | again hp hs h ih =>
    obtain ⟨peers, hr, he⟩ := ih
    refine ⟨peers, hr, ?_⟩
    rw [he]
    simp [drained, hp]

theorem Looped.state (h : Looped self r self' es) :
    self.state.ready = received es ++ self'.state.ready ∧ self'.state.ended = self.state.ended := by
  induction h with
  | deliver hp => exact ⟨rfl, rfl⟩
  | idle hp hs =>
    obtain ⟨hr, hr', he⟩ := Source.poll_settled hs rfl
    simp [hr, hr', he]
  | again hp hs h ih =>
    obtain ⟨hr, he⟩ := Source.poll_item hs rfl
    rw [onEvent_state] at ih
    refine ⟨?_, ih.2.trans he⟩
    rw [hr, received_append, received_operations, received_polled, Poll.item_ready,
      Option.toList_some, List.nil_append, List.singleton_append, List.cons_append, ← ih.1]

theorem Looped.answer (h : Looped self r self' es) :
    r = .pending ∨ ∃ peer, r = .ready (some (.ok peer)) := by
  induction h with
  | deliver hp => exact .inr ⟨_, rfl⟩
  | idle hp hs => exact .inl rfl
  | again hp hs h ih => exact ih

theorem Looped.pending (h : Looped self r self' es) (hr : r = .pending) :
    self'.pendingEvents = [] ∧ (self'.bootstrapped = true → self'.pendingCommands = []) ∧
      es.getLast? = some (.polled .pending) := by
  induction h with
  | deliver hp => cases hr
  | idle hp hs =>
    refine ⟨hp, fun hb => ?_, List.getLast?_concat⟩
    exact if_pos hb
  | again hp hs h ih =>
    obtain ⟨he, hc, hl⟩ := ih hr
    refine ⟨he, hc, ?_⟩
    rw [List.getLast?_append, List.getLast?_cons, hl]
    rfl

theorem Looped.of_buffered (h : Looped self r self' es) (hp : self.pendingEvents = peer :: rest) :
    r = .ready (some (.ok peer)) ∧ self' = { self with pendingEvents := rest } := by
  cases h with
  | deliver hp' =>
    rw [hp, List.cons.injEq] at hp'
    obtain ⟨rfl, rfl⟩ := hp'
    exact ⟨rfl, rfl⟩
  | idle hp' =>
    rw [hp] at hp'
    cases hp'
  | again hp' =>
    rw [hp] at hp'
    cases hp'

/-- Commands stay queued after the bootstrap only behind peers that were buffered before. -/
theorem Looped.executed (h : Looped self r self' es)
    (hp : self.pendingEvents ≠ [] → self.bootstrapped = true → self.pendingCommands = [])
    (hb : self'.bootstrapped = true) : self'.pendingCommands = [] := by
  induction h with
  | deliver he => exact hp (he ▸ List.cons_ne_nil _ _) hb
  | idle he hs => exact if_pos hb
  | again he hs h ih =>
    refine ih (fun hn hb' => ?_) hb
    rw [onEvent_pendingCommands]
    rw [onEvent_pendingEvents] at hn
    change _ ++ _ ≠ [] at hn
    rw [drained, he, List.nil_append] at hn
    rw [onEvent_bootstrapped] at hb'
    rcases hb' with hb' | rfl
    · exact if_pos hb'
    · exact (hn rfl).elim

/-- The ready events bound the rounds of the loop. -/
theorem pollLoop_halts {self : DhtDiscovery} (he : self.state.ended = false)
    (hf : self.state.ready.length < fuel) : (pollLoop fuel self).Halts := by
  induction fuel generalizing self with
  | zero => exact (Nat.not_lt_zero _ hf).elim
  | succ fuel ih =>
    rw [pollLoop.eq_def]
    dsimp only
    split
    · exact Exec.halts_pure _
    · apply (drain_returns self).halts_bind
      cases hs : self.state.poll with
      | mk q state' =>
        have hq : (AsyncStream.pollNext self.drained.state).Returns (q, state') [q] := by
          have ha : (q, state') = self.state.poll ∧ [q] = [self.state.poll.1] := by
            rw [hs]
            exact ⟨rfl, rfl⟩
          exact returns_answering.2 ha
        apply (hq.embed DhtEffect.polled).halts_bind
        have hne := Source.poll_ne_end he
        rw [hs] at hne
        rcases q with _ | _ | event
        · exact Exec.halts_pure _
        · exact (hne rfl).elim
        · obtain ⟨hr, he'⟩ := Source.poll_item hs rfl
          apply ih
          · rw [onEvent_state]
            exact he'.trans he
          · rw [onEvent_state]
            rw [hr, List.length_cons] at hf
            exact Nat.lt_of_succ_lt_succ hf

end DhtDiscovery

end HyperswarmRs
