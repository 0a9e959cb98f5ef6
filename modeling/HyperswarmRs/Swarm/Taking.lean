import HyperswarmRs.Swarm.Polling
import HyperswarmRs.Transport.Taking

namespace HyperswarmRs
open Async
set_option autoImplicit true

namespace Hyperswarm

variable [Discovery D δ]

/-- The next poll gets past the discovery, and takes a connection that repeats an earlier one. -/
inductive Discards (s : Hyperswarm D CombinedTransport) : Prop where
  | mk {es₁ : List (SwarmEffect δ TransportEffect)} :
      (pollCommands (s.commands.queue.length + 1) s).Returns s₁ es₁ →
      (Async.pollNext s₁.discovery).Returns (next, d) es₂ →
      (∀ e, next ≠ .ready (some (.error e))) → s.transport.TakesRepeat → Discards s

theorem Polled.took {s s' : Hyperswarm D CombinedTransport}
    {es : List (SwarmEffect δ TransportEffect)} (h : Polled s r s' es) :
    ∃ consumed, Took s.transport s'.transport (handed r) consumed ∧
      ((∃ port, ∃ conn ∈ consumed port, s.transport.Repeats conn) ↔ s.Discards) := by
  cases h with
  | failed s₁ hc hd =>
    have ht := (pollCommands_drains hc).transport
    refine ⟨fun _ => [], ?_, ?_⟩
    · change Took s.transport s₁.transport none _
      rw [ht]
      exact took_nothing id (fun _ => rfl) rfl
    · constructor
      · rintro ⟨_, _, hm, -⟩
        cases hm
      · rintro ⟨hc', hd', hn, -⟩
        obtain ⟨rfl, -⟩ := hc.unique hc'
        obtain ⟨he, -⟩ := hd.unique hd'
        cases he
        exact (hn _ rfl).elim
  | @quiet es₁ next d es₂ res t es₃ s₁ hc hd hi ht =>
    have hs := (pollCommands_drains hc).transport
    obtain ⟨consumed, htook, hrep⟩ := CombinedTransport.pollNext_took ht
    rw [hs] at htook hrep
    refine ⟨consumed, ?_, hrep.trans ⟨fun hr => ?_, fun ⟨_, _, _, hr⟩ => hr⟩⟩
    · rw [handed_reply]
      exact htook
    · refine ⟨hc, hd, ?_, hr⟩
      rintro e rfl
      cases hi
  | @dialled es₁ peer d es₂ t es₃ res t' es₄ s₁ hc hd ht ht' =>
    have hs := (pollCommands_drains hc).transport
    cases ht
    obtain ⟨consumed, htook, hrep⟩ := CombinedTransport.pollNext_took ht'
    change Took (s₁.transport.pushConnects _) _ _ _ at htook
    change _ ↔ (s₁.transport.pushConnects _).TakesRepeat at hrep
    rw [hs] at htook hrep
    rw [CombinedTransport.pushConnects_takesRepeat] at hrep
    refine ⟨consumed, ?_, hrep.trans ⟨fun hr => ?_, fun ⟨_, _, _, hr⟩ => hr⟩⟩
    · rw [handed_reply]
      exact htook.of_pushConnects
    · refine ⟨hc, hd, ?_, hr⟩
      intro e he
      cases he

end Hyperswarm

end HyperswarmRs
