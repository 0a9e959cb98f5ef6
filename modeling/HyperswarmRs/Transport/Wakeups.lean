import HyperswarmRs.Transport.Runs

namespace HyperswarmRs
open Async
set_option autoImplicit true

namespace TransportEffect

def tcpIncoming : TransportEffect → Option (Poll (Option (IoResult TcpStream)))
  | .tcp (.incoming r) => some r
  | _ => none

def tcpConnects : TransportEffect → Option (Poll (Option (IoResult TcpStream)))
  | .tcp (.connects r) => some r
  | _ => none

def utpIncoming : TransportEffect → Option (Poll (Option (IoResult UtpSocket)))
  | .utp (.incoming r) => some r
  | _ => none

def utpConnects : TransportEffect → Option (Poll (Option (IoResult UtpSocket)))
  | .utp (.connects r) => some r
  | _ => none

end TransportEffect

structure Settled (es : List TransportEffect) : Prop where
  tcpIncoming : LastSettled TransportEffect.tcpIncoming es
  tcpConnects : LastSettled TransportEffect.tcpConnects es
  utpIncoming : LastSettled TransportEffect.utpIncoming es
  utpConnects : LastSettled TransportEffect.utpConnects es

namespace CombinedTransport

theorem settled_iff {self self' : CombinedTransport}
    (h : self.pollNext.Returns (.pending, self') es) :
    Settled es ↔ es.filterMap TransportEffect.taken = [] := by
  obtain ⟨p₁, q₁, p₂, q₂, rfl, h₁, h₂⟩ := pollNext_pending h
  have hn : [TransportEffect.tcp (.incoming p₁), .tcp (.connects q₁), .utp (.incoming p₂),
      .utp (.connects q₂)].filterMap TransportEffect.taken = [] ↔
      q₁.item = none ∧ q₂.item = none := by
    simp only [List.filterMap_eq_nil_iff, List.forall_mem_cons, TransportEffect.taken,
      EndpointEffect.taken, h₁, h₂, Option.map_none, Option.map_eq_none_iff, true_and,
      List.not_mem_nil, false_implies, implies_true, and_true]
  rw [hn]
  constructor
  · intro hs
    exact ⟨(lastSettled_of_single rfl).1 hs.tcpConnects,
      (lastSettled_of_single rfl).1 hs.utpConnects⟩
  · rintro ⟨hq₁, hq₂⟩
    exact ⟨(lastSettled_of_single rfl).2 h₁, (lastSettled_of_single rfl).2 hq₁,
      (lastSettled_of_single rfl).2 h₂, (lastSettled_of_single rfl).2 hq₂⟩

theorem pending_takes {self self' : CombinedTransport}
    (h : self.pollNext.Returns (.pending, self') es) :
    es.filterMap TransportEffect.taken = (self.next .tcp).toList ++ (self.next .utp).toList := by
  obtain ⟨-, taken₁, taken₂, ht, hn₁, hn₂⟩ := pollNext_takes h
  have hp : self.Passes .tcp := (pollNext_pending_iff h).1 rfl .tcp
  rcases hn₂ with ⟨hk, -⟩ | ⟨-, hn₂⟩
  · exact (hk ((passes_iff hn₁).2 hp)).elim
  · rw [ht.effects, known_append, hn₁, hn₂]

theorem waiting_of_next_none {self : CombinedTransport} (h : self.next p = none) (b : Bool) :
    self.waiting ⟨p, b⟩ = [] := by
  rw [next, firstReady.eq_def] at h
  split at h
  · cases h
  · next hf =>
    cases b with
    | false => exact hf
    | true => exact List.head?_eq_none_iff.1 (Option.map_eq_none_iff.1 h)

def KeepsWakers (s : CombinedTransport) (e : TransportEvent TransportInput) : Prop :=
  e = .poll → ∀ s' es, s.pollNext.Returns (.pending, s') es → Settled es

/-- Polled where no protocol hands anything on, but one of them skips a double connection. -/
def LosesWaker (s : CombinedTransport) (e : TransportEvent TransportInput) : Prop :=
  e = .poll ∧ (∀ p, s.Passes p) ∧ ∃ p a, s.Duplicate p a

theorem next_ne_none (h : Duplicate s p a) : s.next p ≠ none := by
  intro hn
  have ha := h.2
  rw [nextAddr, hn] at ha
  cases ha

theorem keepsWakers_iff_not_losesWaker {s : CombinedTransport} (hl : s.Live) :
    KeepsWakers s e ↔ ¬ LosesWaker s e := by
  constructor
  · rintro hk ⟨rfl, hp, p, a, hd⟩
    obtain ⟨⟨r, s'⟩, es, hr⟩ := pollNext_halts hl (next_known (hp .tcp))
    obtain rfl := (pollNext_pending_iff hr).2 hp
    have hn := (settled_iff hr).1 (hk rfl s' es hr)
    rw [pending_takes hr, List.append_eq_nil_iff] at hn
    cases p with
    | tcp => exact next_ne_none hd (Option.toList_eq_nil_iff.1 hn.1)
    | utp => exact next_ne_none hd (Option.toList_eq_nil_iff.1 hn.2)
  · rintro hn rfl s' es hr
    have hp := (pollNext_pending_iff hr).1 rfl
    have hd : ∀ p, s.next p = none := by
      intro p
      rcases hp p with hp' | ⟨a, ha⟩
      · exact hp'
      · exact (hn ⟨rfl, hp, p, a, ha⟩).elim
    rw [settled_iff hr, pending_takes hr, hd, hd]
    rfl

/-- The polls of a run keep all wakers exactly when none of them skips a double connection and
hands nothing on. -/
theorem run_keeps_wakers_iff (listener : TcpListener) (incoming : Source (IoResult UtpSocket))
    (events : List (TransportEvent TransportInput)) :
    Along Transport.step KeepsWakers (bind (.bind listener) { incoming }) events ↔
      Along Transport.step (fun s e => ¬ LosesWaker s e) (bind (.bind listener) { incoming })
        events :=
  along_congr (bind_live listener { incoming }) step_live keepsWakers_iff_not_losesWaker

/-- A second connection to a peer is skipped while one to another peer waits behind it: the
transport answers that it is pending, and nobody will wake the task. -/
theorem skipping_stalls :
    let events := [.connect (loopback 4001), .connect (loopback 4002),
      .env (.tcpConnect ⟨0, .ok ⟨1, .ok (loopback 4001)⟩⟩), .poll,
      .env (.utpConnect ⟨0, .ok ⟨2, loopback 4001⟩⟩), .env (.utpConnect ⟨0, .ok ⟨3, loopback 4002⟩⟩)]
    ¬ Along Transport.step KeepsWakers fresh (events ++ [.poll]) ∧
      ∃ s tr s' es, (run Transport.step fresh events).Returns s tr ∧
        s.pollNext.Returns (.pending, s') es ∧ ¬ Settled es ∧ Stalled s'.utp.pendingConnects := by
  intro events
  have hr : ∃ s tr s' es, (run Transport.step fresh events).Returns s tr ∧
      s.pollNext.Returns (.pending, s') es ∧
      (es.filterMap TransportEffect.utpConnects).getLast? =
        some (.ready (some (.ok ⟨2, loopback 4001⟩))) ∧
      s'.utp.pendingConnects.done ≠ [] ∧ s'.utp.pendingConnects.armed = false :=
    ⟨_, _, _, _, rfl, rfl, rfl, List.cons_ne_nil _ _, rfl⟩
  obtain ⟨s, tr, s', es, hr, hp, hl, hd, ha⟩ := hr
  have hs : ¬ Settled es := by
    intro hs
    obtain ⟨r, hr, hn⟩ := hs.utpConnects
    rw [hl] at hr
    cases hr
    cases hn
  refine ⟨fun h => hs ((h.after hr).1 rfl s' es hp), s, tr, s', es, hr, hp, hs, hd, ?_⟩
  intro hw
  exact Bool.noConfusion (ha.symm.trans hw)

end CombinedTransport

end HyperswarmRs
