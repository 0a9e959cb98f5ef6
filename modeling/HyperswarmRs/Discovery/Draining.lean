import HyperswarmRs.Discovery.CombinedRuns

namespace HyperswarmRs
open Async
set_option autoImplicit true

namespace DhtDiscovery

/-- How often the discovery can still be polled before it has nothing to take or to answer. -/
def weight (self : DhtDiscovery) : Nat :=
  self.pendingEvents.length + self.state.ready.length +
    (self.state.ready.flatMap HyperDhtEvent.peers).length

def awaiting (self : DhtDiscovery) : List PeerInfo :=
  self.pendingEvents ++ self.state.ready.flatMap HyperDhtEvent.peers

theorem Looped.awaiting (h : Looped self r self' es) : ∃ peers : List PeerInfo,
    r.item.toList = peers.map .ok ∧ self.awaiting = peers ++ self'.awaiting := by
  obtain ⟨peers, hr, hp⟩ := h.peers
  refine ⟨peers, hr, ?_⟩
  rw [DhtDiscovery.awaiting, h.state.1, List.flatMap_append, ← List.append_assoc, ← hp,
    List.append_assoc, DhtDiscovery.awaiting]

theorem Looped.weight (h : Looped self r self' es) :
    self.weight = self'.weight + r.item.toList.length + (received es).length := by
  obtain ⟨peers, hr, ha⟩ := h.awaiting
  have hl := congrArg List.length ha
  simp only [DhtDiscovery.awaiting, List.length_append] at hl
  have hs := congrArg List.length h.state.1
  rw [List.length_append] at hs
  rw [DhtDiscovery.weight, DhtDiscovery.weight, hr, List.length_map]
  omega

theorem Looped.idle_state (h : Looped self r self' es) (hr : r = .pending) :
    self'.state.ready = [] := by
  induction h with
  | deliver hp => cases hr
  | idle hp hs => exact (Source.poll_settled hs rfl).2.1
  | again hp hs h ih => exact ih hr

theorem Looped.idle_weight (h : Looped self r self' es) (hr : r = .pending) :
    self'.weight = 0 := by
  rw [DhtDiscovery.weight, (h.pending hr).1, h.idle_state hr]
  rfl

theorem weight_eq_zero {self : DhtDiscovery} :
    self.weight = 0 ↔ self.pendingEvents = [] ∧ self.state.ready = [] := by
  rw [weight, ← List.length_eq_zero_iff, ← List.length_eq_zero_iff]
  constructor
  · intro h
    omega
  · rintro ⟨hp, hr⟩
    rw [List.length_eq_zero_iff.1 hr, hp]
    rfl

end DhtDiscovery

namespace MdnsDiscovery

def weight (self : MdnsDiscovery) : Nat :=
  self.pendingCommands.queue.length + self.announcer.ready.length + self.locator.ready.length

theorem pollNext_halts {self : MdnsDiscovery} (hn : self.pendingFuture = none) :
    self.pollNext.Halts :=
  Exec.Returns.halts ((returns_pollNext hn).2
    ⟨_, _, _, _, _, _, returns_answering.2 ⟨rfl, rfl⟩, returns_answering.2 ⟨rfl, rfl⟩,
      returns_answering.2 ⟨rfl, rfl⟩, rfl, rfl, rfl⟩)

/-- A poll takes one entry of each of the three queues. -/
theorem pollNext_drains {self self' : MdnsDiscovery} (hn : self.pendingFuture = none)
    (h : self.pollNext.Returns (r, self') es) : self'.pendingFuture = none ∧
      self.locator.ready.map locatedItem = r.item.toList ++ self'.locator.ready.map locatedItem ∧
      self'.weight ≤ self.weight - 1 ∧ (r.item ≠ none → self'.weight < self.weight) := by
  obtain ⟨c, commands, a, announcer, l, locator, hc, ha, hl, rfl, rfl, -⟩ :=
    (returns_pollNext hn).1 h
  have hcs : commands.queue = self.pendingCommands.queue.tail := (pollNext_spec hc).2.2.1
  have has : announcer.ready = self.announcer.ready.tail := (pollNext_spec ha).2.2.1
  have hls : locator.ready = self.locator.ready.tail := (pollNext_spec hl).2.2.1
  have hli : self.locator.ready = l.item.toList ++ locator.ready := Leaf.items_eq hl
  rw [Poll.item_ofItem, weight, weight, hcs, has, List.length_tail, List.length_tail]
  refine ⟨hn, ?_, ?_, fun hi => ?_⟩
  · rw [hli, List.map_append]
    cases l.item <;> rfl
  · rw [hls, List.length_tail]
    omega
  · cases hitem : l.item with
    | none =>
      rw [hitem] at hi
      exact (hi rfl).elim
    | some found =>
      have hlen := congrArg List.length hli
      rw [hitem, Option.toList_some, List.singleton_append, List.length_cons] at hlen
      dsimp only
      omega

theorem weight_eq_zero {self : MdnsDiscovery} : self.weight = 0 ↔
    self.pendingCommands.queue = [] ∧ self.announcer.ready = [] ∧ self.locator.ready = [] := by
  rw [weight, ← List.length_eq_zero_iff, ← List.length_eq_zero_iff, ← List.length_eq_zero_iff]
  omega

end MdnsDiscovery

namespace CombinedDiscovery

def weight (self : CombinedDiscovery) : Nat := self.dht.weight + self.mdns.weight

/-- What the discovery has still to answer, in order: nothing of the locator comes between the
peers of the DHT. -/
def upcoming (self : CombinedDiscovery) : List (IoResult PeerInfo) :=
  self.dht.awaiting.map .ok ++ self.mdns.locator.ready.map locatedItem

theorem pollNext_halts {self : CombinedDiscovery} (he : self.dht.state.ended = false)
    (hn : self.mdns.pendingFuture = none) : self.pollNext.Halts := by
  obtain ⟨⟨r, dht⟩, es, hd⟩ := DhtDiscovery.pollLoop_halts he (Nat.lt_succ_self _)
  apply (Exec.Returns.embed hd CombinedEffect.dht).halts_bind
  cases r with
  | ready x => exact Exec.halts_pure _
  | pending =>
    obtain ⟨⟨q, mdns⟩, es', hm⟩ := MdnsDiscovery.pollNext_halts hn
    apply (hm.embed CombinedEffect.mdns).halts_bind
    cases q <;> exact Exec.halts_pure _

/-- The next answer is the first one upcoming, and a poll makes progress unless nothing is left. -/
structure Drained (d d' : CombinedDiscovery) (next : Poll (Option (IoResult PeerInfo))) :
    Prop where
  ended : d'.dht.state.ended = d.dht.state.ended
  pendingFuture : d'.mdns.pendingFuture = none
  upcoming : d.upcoming = next.item.toList ++ d'.upcoming
  weight : d'.weight ≤ d.weight - 1
  answered : next.item ≠ none → d'.weight < d.weight

theorem pollNext_drained {self self' : CombinedDiscovery} (hn : self.mdns.pendingFuture = none)
    (h : self.pollNext.Returns (next, self') es) : Drained self self' next := by
  cases pollNext_polled h with
  | @dht x dht' es hd =>
    have hl := DhtDiscovery.pollLoop_cases hd
    obtain ⟨peers, hr, ha⟩ := hl.awaiting
    have hx : (Poll.ready x).item ≠ none := by
      rcases hl.answer with he | ⟨peer, he⟩ <;> cases he
      exact Option.some_ne_none _
    have hlen : (Poll.ready x).item.toList.length = 1 := by
      rw [Option.length_toList, Option.isSome_iff_ne_none.2 hx, if_pos rfl]
    have hw := hl.weight
    refine ⟨hl.state.2, hn, ?_, ?_, fun _ => ?_⟩
    · rw [upcoming, ha, List.map_append, ← hr, List.append_assoc, upcoming]
    · simp only [weight]
      omega
    · simp only [weight]
      omega
  | @mdns dht' es r mdns' es' hd hm =>
    have hl := DhtDiscovery.pollLoop_cases hd
    obtain ⟨peers, hr, ha⟩ := hl.awaiting
    have hz := hl.idle_weight rfl
    obtain ⟨hp, hs⟩ := DhtDiscovery.weight_eq_zero.1 hz
    obtain ⟨hn', hf, hw, hlt⟩ := MdnsDiscovery.pollNext_drains hn hm
    refine ⟨hl.state.2, hn', ?_, ?_, fun hi => ?_⟩
    · have hd' : dht'.awaiting = [] := by
        rw [DhtDiscovery.awaiting, hp, hs]
        rfl
      rw [upcoming, ha, List.map_append, ← hr, hd', hf, upcoming, hd']
      rfl
    · simp only [weight, hz]
      omega
    · have hi' := hlt hi
      simp only [weight, hz]
      omega

theorem weight_eq_zero {self : CombinedDiscovery} :
    self.weight = 0 ↔ self.dht.weight = 0 ∧ self.mdns.weight = 0 := Nat.add_eq_zero_iff

theorem upcoming_of_weight_zero {self : CombinedDiscovery} (h : self.weight = 0) :
    self.upcoming = [] := by
  obtain ⟨hd, hm⟩ := weight_eq_zero.1 h
  obtain ⟨hp, hs⟩ := DhtDiscovery.weight_eq_zero.1 hd
  obtain ⟨-, -, hl⟩ := MdnsDiscovery.weight_eq_zero.1 hm
  rw [upcoming, DhtDiscovery.awaiting, hp, hs, hl]
  rfl

end CombinedDiscovery

end HyperswarmRs
