import HyperswarmRs.Discovery.MdnsRuns

namespace HyperswarmRs
open Async
set_option autoImplicit true

namespace MdnsDiscovery

section Contract

variable [Answering A Unit] [Answering L (List UInt8 × SocketAddr)]

/-- Polled while the locator has no result, and a command is queued or the announcer has an item. -/
structure LosesWaker (s : MdnsDiscovery A L) (e : DiscoveryEvent ι) : Prop where
  poll : e = .poll
  idle : ∃ l locator es, (Async.pollNext s.locator).Returns (l, locator) es ∧ l.item = none
  busy : ∃ a announcer es, (Async.pollNext s.announcer).Returns (a, announcer) es ∧
    (s.pendingCommands.queue ≠ [] ∨ a.item ≠ none)

variable [WakeContract A] [WakeContract L]

structure Wakeful (s' : MdnsDiscovery A L) (es : List MdnsEffect) : Prop where
  commands : LastSettled MdnsEffect.commands? es
  announcer : LastSettled MdnsEffect.announcer? es
  locator : LastSettled MdnsEffect.locator? es
  noneStalled : ¬ Stalled s'.pendingCommands ∧ ¬ Stalled s'.announcer ∧ ¬ Stalled s'.locator

def KeepsWakers (s : MdnsDiscovery A L) (e : DiscoveryEvent ι) : Prop :=
  e = .poll → ∀ s' es, s.pollNext.Returns (.pending, s') es → Wakeful s' es

theorem keepsWakers_iff_not_losesWaker {s : MdnsDiscovery A L} {e : DiscoveryEvent ι}
    (hn : s.pendingFuture = none) : KeepsWakers s e ↔ ¬ LosesWaker s e := by
  constructor
  · rintro hk ⟨rfl, ⟨l, locator, es, hl, hli⟩, ⟨a, announcer, es', ha, hb⟩⟩
    obtain rfl := Answering.records hl
    obtain rfl := Answering.records ha
    have hc : (Async.pollNext s.pendingCommands).Returns s.pendingCommands.poll
      [s.pendingCommands.poll.1] := returns_answering.2 ⟨rfl, rfl⟩
    have hp := (returns_pollNext hn).2 ⟨_, _, _, _, _, _, hc, ha, hl, rfl, rfl, rfl⟩
    rw [hli] at hp
    have hw := hk rfl _ _ hp
    rcases hb with hq | ha'
    · have hi := (lastSettled_of_single rfl).1 hw.commands
      exact hq ((Leaf.items_of_none hc hi).2.1)
    · exact ha' ((lastSettled_of_single rfl).1 hw.announcer)
  · rintro hn' rfl s' es hp
    obtain ⟨c, commands, a, announcer, l, locator, hc, ha, hl, hr, rfl, rfl⟩ :=
      (returns_pollNext hn).1 hp
    have hli : l.item = none := by
      cases hi : l.item with
      | none => rfl
      | some x =>
        rw [hi] at hr
        cases hr
    have hq : s.pendingCommands.queue = [] := by
      by_contra hq
      exact hn' ⟨rfl, ⟨l, locator, _, hl, hli⟩, ⟨a, announcer, _, ha, .inl hq⟩⟩
    have hai : a.item = none := by
      by_contra hai
      exact hn' ⟨rfl, ⟨l, locator, _, hl, hli⟩, ⟨a, announcer, _, ha, .inr hai⟩⟩
    have hci : c.item = none := by
      obtain ⟨-, hi, -⟩ := pollNext_spec hc
      rw [hi]
      exact List.head?_eq_none_iff.2 hq
    exact ⟨(lastSettled_of_single rfl).2 hci, (lastSettled_of_single rfl).2 hai,
      (lastSettled_of_single rfl).2 hli, not_stalled hc hci, not_stalled ha hai, not_stalled hl hli⟩

/-- The polls of a run keep all wakers exactly when none of them finds no result of the locator
while a command is queued or the announcer has an item. -/
theorem mdns_keeps_wakers_iff [Environment A ιA] [Environment L ιL] (announcer : A) (locator : L)
    (events : List (DiscoveryEvent (MdnsInput ιA ιL))) :
    let start : MdnsDiscovery A L := { announcer, locator }
    Along Discovery.step KeepsWakers start events ↔
      Along Discovery.step (fun s e => ¬ LosesWaker s e) start events := by
  intro start
  exact along_congr (P := fun s => s.pendingFuture = none) rfl step_pendingFuture
    keepsWakers_iff_not_losesWaker

end Contract

/-- Two commands are queued and nothing has been found: the poll takes the first and is pending, and
nobody will wake the task for the second. -/
theorem second_command_stalls :
    let start : MdnsDiscovery := { announcer := {}, locator := {} }
    let topic : Topic := ⟨List.replicate 32 7, rfl⟩
    ¬ Along Discovery.step KeepsWakers start [.announce topic, .lookup topic, .poll] ∧
      ∃ s tr s' es, (run Discovery.step start [.announce topic, .lookup topic]).Returns s tr ∧
        s.pollNext.Returns (.pending, s') es ∧
        ¬ LastSettled MdnsEffect.commands? es ∧ Stalled s'.pendingCommands := by
  intro start topic
  have hr : ∃ s tr s' es, (run Discovery.step start [.announce topic, .lookup topic]).Returns s tr ∧
      s.pollNext.Returns (.pending, s') es ∧
      es.filterMap MdnsEffect.commands? = [.ready (some (.announce topic))] ∧
      s'.pendingCommands.queue ≠ [] ∧ s'.pendingCommands.armed = false :=
    ⟨_, _, _, _, rfl, rfl, rfl, List.cons_ne_nil _ _, rfl⟩
  obtain ⟨s, tr, s', es, hr, hp, hl, hq, ha⟩ := hr
  have hs : ¬ LastSettled MdnsEffect.commands? es := by
    rw [lastSettled_of_single hl]
    exact fun hn => by cases hn
  refine ⟨fun h => ?_, s, tr, s', es, hr, hp, hs, hq, fun hw => Bool.noConfusion (ha.symm.trans hw)⟩
  have hk : Along Discovery.step KeepsWakers start ([.announce topic, .lookup topic] ++ [.poll]) := h
  exact hs ((hk.after hr).1 rfl s' es hp).commands

end MdnsDiscovery

end HyperswarmRs
