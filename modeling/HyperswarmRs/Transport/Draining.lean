import HyperswarmRs.Transport.Wakeups

namespace HyperswarmRs
open Async
set_option autoImplicit true

theorem takenAt_lengths (taken : List (Port × Item)) :
    (takenAt ⟨.tcp, false⟩ taken).length + (takenAt ⟨.tcp, true⟩ taken).length +
      (takenAt ⟨.utp, false⟩ taken).length + (takenAt ⟨.utp, true⟩ taken).length =
      taken.length := by
  induction taken with
  | nil => rfl
  | cons t taken ih =>
    obtain ⟨⟨p, b⟩, x⟩ := t
    rw [← List.singleton_append]
    simp only [takenAt_append, List.length_append, List.length_singleton, ← ih]
    cases p <;> cases b <;> simp [takenAt] <;> omega

namespace CombinedTransport

/-- How many results are ready at the four sources. -/
def load (self : CombinedTransport) : Nat :=
  (self.waiting ⟨.tcp, false⟩).length + (self.waiting ⟨.tcp, true⟩).length +
    (self.waiting ⟨.utp, false⟩).length + (self.waiting ⟨.utp, true⟩).length

theorem load_eq_zero {self : CombinedTransport} : self.load = 0 ↔ ∀ port, self.waiting port = [] := by
  constructor
  · rintro h ⟨p, b⟩
    apply List.length_eq_zero_iff.1
    rw [load] at h
    cases p <;> cases b <;> omega
  · intro h
    rw [load, h, h, h, h]
    rfl

/-- Every TCP stream that is ready can tell its peer. -/
def Named (self : CombinedTransport) : Prop := ∀ port, none ∉ self.waiting port

theorem next_mem {self : CombinedTransport} (h : self.next p = some (port, x)) :
    x ∈ self.waiting port := by
  rw [next, firstReady.eq_def] at h
  split at h
  · next y ys hw =>
    cases h
    rw [hw]
    exact List.mem_cons_self
  · obtain ⟨y, hy, he⟩ := Option.map_eq_some_iff.1 h
    cases he
    exact List.mem_of_head? hy

theorem Named.next {self : CombinedTransport} (h : self.Named) (p : Protocol) (port : Port) :
    self.next p ≠ some (port, none) := fun hn => h port (next_mem hn)

/-- What polls take of the ready results, and what they answer of it. -/
structure Takes (t t' : CombinedTransport) (ys : List Item) (taken : List (Port × Item)) :
    Prop where
  served : Served t.waiting t'.waiting taken
  answered : ys = keepFirst initiatorAddr t.connected (taken.map Prod.snd)
  connected : t'.connected = seenAfter initiatorAddr t.connected (taken.map Prod.snd)

theorem takes_nothing {t t' : CombinedTransport} (hw : t'.waiting = t.waiting)
    (hc : t'.connected = t.connected) : Takes t t' [] [] := by
  refine ⟨?_, rfl, ?_⟩
  · rw [hw]
    exact Served.refl _
  · rw [hc]
    exact (seenAfter_nil _ _).symm

theorem Takes.trans (h : Takes t t' ys taken) (h' : Takes t' t'' ys' taken') :
    Takes t t'' (ys ++ ys') (taken ++ taken') := by
  refine ⟨h.served.trans h'.served, ?_, ?_⟩
  · rw [List.map_append, keepFirst_append, ← h.connected, h.answered, h'.answered]
  · rw [List.map_append, seenAfter_append, ← h.connected, h'.connected]

theorem Takes.named (h : Takes t t' ys taken) (hn : t.Named) : t'.Named := by
  intro port hm
  apply hn port
  rw [h.served port]
  exact List.mem_append_right _ hm

theorem Takes.load (h : Takes t t' ys taken) : t.load = taken.length + t'.load := by
  have hl := takenAt_lengths taken
  rw [CombinedTransport.load, CombinedTransport.load, h.served, h.served, h.served, h.served]
  simp only [List.length_append]
  omega

theorem pollNext_drains {self self' : CombinedTransport} (h : self.pollNext.Returns (r, self') es) :
    ∃ taken, Takes self self' r.item.toList taken ∧ self'.load ≤ self.load - 1 := by
  obtain ⟨-, taken₁, taken₂, ht, hn₁, hn₂⟩ := pollNext_takes h
  have hk : Takes self self' r.item.toList (taken₁ ++ taken₂) :=
    ⟨ht.served, ht.result, ht.connected⟩
  refine ⟨_, hk, ?_⟩
  have hl := hk.load
  rcases Nat.eq_zero_or_pos (taken₁ ++ taken₂).length with hz | hp
  · obtain ⟨rfl, rfl⟩ := List.append_eq_nil_iff.1 (List.length_eq_zero_iff.1 hz)
    have htcp : self.next .tcp = none := Option.toList_eq_nil_iff.1 hn₁
    have hutp : self.next .utp = none := by
      rcases hn₂ with ⟨hne, -⟩ | ⟨-, hn₂⟩
      · exact (hne rfl).elim
      · exact Option.toList_eq_nil_iff.1 hn₂
    have hw : self.load = 0 := by
      refine load_eq_zero.2 ?_
      rintro ⟨p, b⟩
      cases p with
      | tcp => exact waiting_of_next_none htcp b
      | utp => exact waiting_of_next_none hutp b
    omega
  · omega

end CombinedTransport

end HyperswarmRs
