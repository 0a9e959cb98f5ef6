import HyperswarmRs.Transport.Runs

namespace HyperswarmRs
open Async
set_option autoImplicit true

/-- A transport with the connections it has yielded, of which the environment closes some. -/
structure Linked where
  transport : CombinedTransport
  conns : List (Connection CombinedStream) := []
  closed : Finset Nat := ∅
  deriving DecidableEq

inductive LinkEvent where
  | transport (e : TransportEvent TransportInput)
  | close (index : Nat)
  deriving DecidableEq, Repr

namespace Linked

def step (s : Linked) : LinkEvent → Exec (TransportObs TransportEffect CombinedStream) Linked
  | .transport .poll => observed do
    let (r, transport) ← s.transport.pollNext
    return (r, { s with transport, conns := s.conns ++ (handed r).toList })
  | .transport e => do
    let transport ← Transport.step s.transport e
    return { s with transport }
  | .close index =>
    return if index < s.conns.length then { s with closed := insert index s.closed } else s

def Open (s : Linked) (a : SocketAddr) : Prop :=
  ∃ i conn, s.conns[i]? = some conn ∧ conn.peerAddr = a ∧ i ∉ s.closed

def Gone (s : Linked) (a : SocketAddr) : Prop :=
  (∃ conn ∈ s.conns, conn.isInitiator ∧ conn.peerAddr = a) ∧ ¬ s.Open a

/-- What a poll skips is a second connection to a peer that still has one open. -/
def SkipsOnlyOpen (s : Linked) (e : LinkEvent) : Prop :=
  e = .transport .poll → ∀ r transport es a, s.transport.pollNext.Returns (r, transport) es →
    a ∈ initiated es →
    s.Open a ∨ ∃ conn, handed r = some conn ∧ conn.isInitiator ∧ conn.peerAddr = a

def Reconnects (s : Linked) (e : LinkEvent) : Prop :=
  e = .transport .poll ∧ ∃ a, s.Gone a ∧ (s.transport.nextAddr .tcp = some a ∨
    s.transport.Passes .tcp ∧ s.transport.nextAddr .utp = some a)

structure Consistent (s : Linked) : Prop where
  live : s.transport.Live
  connected : ∀ a, a ∈ s.transport.connected ↔
    ∃ conn ∈ s.conns, conn.isInitiator ∧ conn.peerAddr = a

theorem step_consistent {s s' : Linked} (hs : s.Consistent) (h : (s.step e).Returns s' tr) :
    s'.Consistent := by
  cases e with
  | close index =>
    obtain ⟨rfl, -⟩ := Exec.returns_pure.1 h
    split
    · exact ⟨hs.live, hs.connected⟩
    · exact hs
  | transport e =>
    cases e with
    | poll =>
      obtain ⟨r, es, hp, -⟩ := returns_observed.1 h
      simp only [Exec.returns_bind, Exec.returns_pure, Prod.mk.injEq] at hp
      obtain ⟨⟨r, t⟩, _, _, hp, ⟨⟨rfl, rfl⟩, rfl⟩, rfl⟩ := hp
      refine ⟨CombinedTransport.pollNext_live hp, fun a => ?_⟩
      rw [CombinedTransport.mem_connected hp, hs.connected, handed_initiator]
      simp only [List.mem_append, Option.mem_toList, or_and_right, exists_or]
    | connect a =>
      obtain ⟨t, _, _, ht, hr, -⟩ := Exec.returns_bind.1 h
      obtain ⟨rfl, -⟩ := Exec.returns_pure.1 hr
      refine ⟨CombinedTransport.step_live hs.live ht, fun b => ?_⟩
      cases CombinedTransport.step_cases ht with
      | connect he =>
        subst he
        exact hs.connected b
    | env i =>
      obtain ⟨t, _, _, ht, hr, -⟩ := Exec.returns_bind.1 h
      obtain ⟨rfl, -⟩ := Exec.returns_pure.1 hr
      refine ⟨CombinedTransport.step_live hs.live ht, fun b => ?_⟩
      cases CombinedTransport.step_cases ht with
      | env =>
        rw [CombinedTransport.act_connected]
        exact hs.connected b

theorem skipsOnlyOpen_iff_not_reconnects {s : Linked} (hs : s.Consistent) :
    s.SkipsOnlyOpen e ↔ ¬ s.Reconnects e := by
  constructor
  · rintro hk ⟨rfl, a, ⟨hi, ho⟩, hn⟩
    have hc := (hs.connected a).2 hi
    have hp : s.transport.Passes .tcp := by
      rcases hn with ht | ⟨hp, -⟩
      · exact .inr ⟨a, hc, ht⟩
      · exact hp
    obtain ⟨⟨r, t⟩, es, hr⟩ := CombinedTransport.pollNext_halts hs.live
      (CombinedTransport.next_known hp)
    have ha := (CombinedTransport.mem_initiated hr).2 hn
    rcases hk rfl r t es a hr ha with ho' | hh
    · exact ho ho'
    · exact ((CombinedTransport.skipped_iff hr).2 ⟨ha, hc⟩).2 (handed_initiator.2 hh)
  · rintro hn rfl r t es a hr ha
    by_contra! hk
    have hs' : Skipped r es a := ⟨ha, fun hi => by
      obtain ⟨conn, hc, hi, he⟩ := handed_initiator.1 hi
      exact hk.2 conn hc hi he⟩
    have hc := (hs.connected a).1 ((CombinedTransport.skipped_iff hr).1 hs').2
    exact hn ⟨rfl, a, ⟨hc, hk.1⟩, (CombinedTransport.mem_initiated hr).1 ha⟩

/-- The polls of a run skip connections only to peers with an open one exactly when none of them
takes a connection initiated to a peer that is gone. -/
theorem run_skips_only_open_iff (listener : TcpListener) (incoming : Source (IoResult UtpSocket))
    (events : List LinkEvent) :
    Along step SkipsOnlyOpen ⟨.bind (.bind listener) { incoming }, [], ∅⟩ events ↔
      Along step (fun s e => ¬ Reconnects s e) ⟨.bind (.bind listener) { incoming }, [], ∅⟩
        events := by
  apply along_congr (P := Consistent) ?_ step_consistent skipsOnlyOpen_iff_not_reconnects
  refine ⟨CombinedTransport.bind_live listener { incoming }, fun a => ?_⟩
  simp only [CombinedTransport.bind, Finset.notMem_empty, List.not_mem_nil, false_and,
    exists_false]

/-- The peer is dialled again after its only connection was closed, and the new connection is
skipped. -/
theorem reconnecting_is_skipped :
    let events : List LinkEvent := [.transport (.connect (loopback 4001)),
      .transport (.env (.tcpConnect ⟨0, .ok ⟨1, .ok (loopback 4001)⟩⟩)), .transport .poll, .close 0,
      .transport (.connect (loopback 4001)),
      .transport (.env (.tcpConnect ⟨0, .ok ⟨2, .ok (loopback 4001)⟩⟩))]
    ¬ Along step SkipsOnlyOpen ⟨.fresh, [], ∅⟩ (events ++ [.transport .poll]) := by
  intro events h
  have hr : ∃ s tr t es, (run step ⟨.fresh, [], ∅⟩ events).Returns s tr ∧
      s.transport.pollNext.Returns (.pending, t) es ∧ initiated es = [loopback 4001] ∧
      s.conns.length = 1 ∧ s.closed = {0} := ⟨_, _, _, _, rfl, rfl, rfl, rfl, rfl⟩
  obtain ⟨s, tr, t, es, hr, hp, ha, hl, hc⟩ := hr
  rcases (h.after hr).1 rfl _ t es (loopback 4001) hp (by simp [ha]) with ho | ⟨conn, hh, -⟩
  · obtain ⟨i, conn, hi, -, hn⟩ := ho
    obtain ⟨hi, -⟩ := List.getElem?_eq_some_iff.1 hi
    rw [hl, Nat.lt_one_iff] at hi
    rw [hi, hc] at hn
    exact hn (Finset.mem_singleton_self 0)
  · cases hh

end Linked

end HyperswarmRs
