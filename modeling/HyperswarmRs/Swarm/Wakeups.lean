import HyperswarmRs.Swarm.Polling

namespace HyperswarmRs
open Async
set_option autoImplicit true

namespace Hyperswarm

variable [Discovery D δ] [Transport T τ CombinedStream] [WakeContract D] [WakeContract T]

structure Wakeful (s' : Hyperswarm D T) (es : List (SwarmEffect δ τ)) : Prop where
  commands : LastSettled SwarmEffect.commands? es
  discovery : LastSettled SwarmEffect.discovery? es
  transport : LastSettled SwarmEffect.transport? es
  noneStalled : ¬ Stalled s'.commands ∧ ¬ Stalled s'.discovery ∧ ¬ Stalled s'.transport

def KeepsWakers (s : Hyperswarm D T) (e : SwarmEvent ιD ιT) : Prop :=
  e = .poll → ∀ s' es, s.pollNext.Returns (.pending, s') es → Wakeful s' es

/-- Polled while the discovery has a peer and the transport no connection, or while the discovery
has nothing and the transport an error. -/
inductive LosesWaker (s : Hyperswarm D T) : SwarmEvent ιD ιT → Prop where
  | peer {es₁ : List (SwarmEffect δ τ)} :
      (pollCommands (s.commands.queue.length + 1) s).Returns s₁ es₁ →
      (Async.pollNext s₁.discovery).Returns (.ready (some (.ok peer)), d) es₂ →
      (Transport.connect s₁.transport peer.addr).Returns t es₃ →
      (Async.pollNext t).Returns (res, t') es₄ → handed res = none → LosesWaker s .poll
  | error {es₁ : List (SwarmEffect δ τ)} :
      (pollCommands (s.commands.queue.length + 1) s).Returns s₁ es₁ →
      (Async.pollNext s₁.discovery).Returns (next, d) es₂ → next.item = none →
      (Async.pollNext s₁.transport).Returns (.ready (some (.error err)), t) es₃ →
      LosesWaker s .poll

theorem keepsWakers_iff_not_losesWaker {s : Hyperswarm D T} {e : SwarmEvent ιD ιT} :
    KeepsWakers s e ↔ ¬ LosesWaker s e := by
  constructor
  · rintro hk hl
    cases hl with
    | peer hs hd ht ht' hn =>
      have hp := (Polled.dialled _ hs hd ht ht').returns
      rw [reply_pending.2 hn] at hp
      have hl := reads_dialled (pollCommands_drains hs).effects
      cases (lastSettled_of_single (hl _ _ _ _ _ _).discovery).1 (hk rfl _ _ hp).discovery
    | error hs hd hn ht =>
      have hp := (Polled.quiet _ hs hd hn ht).returns
      have hl := reads_quiet (pollCommands_drains hs).effects
      cases (lastSettled_of_single (hl _ _ _ _).transport).1 (hk rfl _ _ hp).transport
  · rintro hn rfl s' es hp
    generalize hr : Poll.pending = r at hp
    cases pollNext_cases hp with
    | failed s₁ hs hd => cases hr
    | dialled s₁ hs hd ht ht' => exact (hn (.peer hs hd ht ht' (reply_pending.1 hr.symm))).elim
    | quiet s₁ hs hd hi ht =>
      have hc := pollCommands_drains hs
      have hl := reads_quiet hc.effects
      have hres := item_none_of_handed (reply_pending.1 hr.symm) fun err he =>
        hn (.error hs hd hi (he ▸ ht))
      refine ⟨?_, ?_, ?_, ?_, not_stalled hd hi, not_stalled ht hres⟩
      · rw [lastSettled_append_other]
        · exact hc.settled
        · rw [List.filterMap_append, SwarmEffect.filterMap_asked fun _ => rfl,
            SwarmEffect.filterMap_answered fun _ => rfl]
          rfl
      · exact (lastSettled_of_single (hl _ _ _ _).discovery).2 hi
      · exact (lastSettled_of_single (hl _ _ _ _).transport).2 hres
      · exact fun hq => hq.1 hc.queue

/-- The polls of a run keep all wakers exactly when none of them consumes a peer or a transport
error and hands nothing on. -/
theorem swarm_keeps_wakers_iff [Environment D ιD] [Environment T ιT] (s : Hyperswarm D T)
    (events : List (SwarmEvent ιD ιT)) :
    Along Hyperswarm.step KeepsWakers s events ↔
      Along Hyperswarm.step (fun s e => ¬ LosesWaker s e) s events :=
  along_congr (P := fun _ => True) trivial (fun _ _ => trivial)
    fun _ => keepsWakers_iff_not_losesWaker

end Hyperswarm

instance : Discovery (Source (IoResult PeerInfo)) (Poll (Option (IoResult PeerInfo))) where
  toAsyncStream := inferInstance
  lookup s _ := pure s
  announce s _ := pure s

instance : Transport (Source Item) (Poll (Option Item)) CombinedStream where
  toAsyncStream := inferInstance
  connect s _ := pure s

namespace Hyperswarm

/-- Two peers are ready at once: the swarm dials the first and is pending, and nobody will wake
the task for the second. -/
theorem second_peer_stalls :
    let start : Hyperswarm (Source (IoResult PeerInfo)) (Source Item) := .bind {} {}
    let events := [.discovery (.push (.ok ⟨loopback 4001, none, .dht⟩)),
      .discovery (.push (.ok ⟨loopback 4002, none, .dht⟩))]
    ¬ Along Hyperswarm.step KeepsWakers start (events ++ [.poll]) ∧
      ∃ s tr s' es, (run Hyperswarm.step start events).Returns s tr ∧
        s.pollNext.Returns (.pending, s') es ∧
        ¬ LastSettled SwarmEffect.discovery? es ∧ Stalled s'.discovery := by
  intro start events
  have hr : ∃ s tr s' es, (run Hyperswarm.step start events).Returns s tr ∧
      s.pollNext.Returns (.pending, s') es ∧
      es.filterMap SwarmEffect.discovery? = [.ready (some (.ok ⟨loopback 4001, none, .dht⟩))] ∧
      s'.discovery.ready ≠ [] ∧ s'.discovery.armed = false :=
    ⟨_, _, _, _, rfl, rfl, rfl, List.cons_ne_nil _ _, rfl⟩
  obtain ⟨s, tr, s', es, hr, hp, hl, hq, ha⟩ := hr
  have hs : ¬ LastSettled SwarmEffect.discovery? es := by
    rw [lastSettled_of_single hl]
    exact fun hn => by cases hn
  refine ⟨fun h => hs ((h.after hr).1 rfl s' es hp).discovery, s, tr, s', es, hr, hp, hs, hq, ?_⟩
  intro hw
  exact Bool.noConfusion (ha.symm.trans hw)

end Hyperswarm

end HyperswarmRs
