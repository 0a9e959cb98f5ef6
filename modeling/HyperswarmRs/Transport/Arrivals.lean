import HyperswarmRs.Transport.Polling

namespace HyperswarmRs
open Async
set_option autoImplicit true

theorem SourcesPoll.inFlight [Leaf I (IoResult S)] {peer : S → Option (C × SocketAddr)} {i i' : I}
    {c c' : PendingConnects S} (h : SourcesPoll peer protocol i c r i' c' es) :
    c'.inFlight = c.inFlight := by
  cases h with
  | accepted => rfl
  | connected _ _ _ _ hf => exact hf
  | idle _ _ _ _ _ hf => exact hf

namespace CombinedTransport

def inFlight (self : CombinedTransport) : Protocol → List SocketAddr
  | .tcp => self.tcp.pendingConnects.inFlight
  | .utp => self.utp.pendingConnects.inFlight

theorem onPollConnection_inFlight {self s : CombinedTransport}
    {poll : Poll (Option (IoResult (Connection T)))} {map : T → CombinedStream}
    (h : self.onPollConnection poll map = (res, s)) (p : Protocol) :
    s.inFlight p = self.inFlight p := by
  have he := (onPollConnection_spec self poll map).2
  rw [h] at he
  change s = _ at he
  rw [he]
  cases p <;> rfl

theorem pollNext_inFlight {t t' : CombinedTransport}
    (h : t.pollNext.Returns (r, t') es) (p : Protocol) : t'.inFlight p = t.inFlight p := by
  cases pollNext_cases h with
  | tcp hp he =>
    rw [onPollConnection_inFlight he]
    cases p with
    | tcp => exact (TcpTransport.pollNext_cases hp).inFlight
    | utp => rfl
  | utp res hp he hq he' =>
    rw [onPollConnection_inFlight he']
    cases p with
    | tcp =>
      have ht := onPollConnection_inFlight he .tcp
      exact ht.trans (TcpTransport.pollNext_cases hp).inFlight
    | utp =>
      have hu := onPollConnection_inFlight he .utp
      exact (UtpTransport.pollNext_cases hq).inFlight.trans hu

def arrival (self : CombinedTransport) : TransportInput → Option (Port × Option Item)
  | .tcpIncoming result => some (⟨.tcp, false⟩, tcpItem false (result.map Prod.fst))
  | .tcpConnect c =>
    if c.index < (self.inFlight .tcp).length then some (⟨.tcp, true⟩, tcpItem true c.output)
    else none
  | .utpIncoming (.push a) => some (⟨.utp, false⟩, utpItem false a)
  | .utpIncoming .finish => none
  | .utpConnect c =>
    if c.index < (self.inFlight .utp).length then some (⟨.utp, true⟩, utpItem true c.output)
    else none

theorem act_of_no_arrival {self : CombinedTransport} (h : self.arrival i = none) :
    (self.act i).waiting = self.waiting := by
  funext ⟨p, b⟩
  cases i with
  | tcpIncoming result => cases h
  | tcpConnect c =>
    have hc : ¬ c.index < self.tcp.pendingConnects.inFlight.length := by
      intro hc
      rw [arrival, inFlight, if_pos hc] at h
      cases h
    rw [act, FuturesUnordered.act, if_neg hc]
  | utpIncoming a =>
    cases a with
    | push a => cases h
    | finish => cases p <;> cases b <;> rfl
  | utpConnect c =>
    have hc : ¬ c.index < self.utp.pendingConnects.inFlight.length := by
      intro hc
      rw [arrival, inFlight, if_pos hc] at h
      cases h
    rw [act, FuturesUnordered.act, if_neg hc]

/-- What arrives waits at its source behind what is there already. -/
theorem act_waiting {self : CombinedTransport} (hl : self.Live)
    (h : self.arrival i = some (port, x)) (port' : Port) :
    (self.act i).waiting port' = self.waiting port' ++ if port = port' then [x] else [] := by
  obtain ⟨p, b⟩ := port'
  cases i with
  | tcpIncoming result =>
    cases h
    cases p <;> cases b <;> simp [waiting, act, TcpIncoming.act_items hl]
  | tcpConnect c =>
    rw [arrival] at h
    split at h
    · next hc =>
      cases h
      rw [inFlight] at hc
      cases p <;> cases b <;> simp [waiting, act, FuturesUnordered.act, hc]
    · cases h
  | utpIncoming a =>
    cases a with
    | push a =>
      cases h
      cases p <;> cases b <;> simp [waiting, act, Source.act]
    | finish => cases h
  | utpConnect c =>
    rw [arrival] at h
    split at h
    · next hc =>
      cases h
      rw [inFlight] at hc
      cases p <;> cases b <;> simp [waiting, act, FuturesUnordered.act, hc]
    · cases h

theorem arrival_congr {s t : CombinedTransport} (h : ∀ p, t.inFlight p = s.inFlight p)
    (i : TransportInput) : t.arrival i = s.arrival i := by
  cases i with
  | tcpIncoming result => rfl
  | tcpConnect c => rw [arrival, arrival, h]
  | utpIncoming i => cases i <;> rfl
  | utpConnect c => rw [arrival, arrival, h]

theorem act_inFlight_congr {s t : CombinedTransport} (h : ∀ p, t.inFlight p = s.inFlight p)
    (i : TransportInput) (p : Protocol) : (t.act i).inFlight p = (s.act i).inFlight p := by
  cases p with
  | tcp =>
    cases i with
    | tcpConnect c => exact FuturesUnordered.act_inFlight_congr (h .tcp) c
    | _ => exact h .tcp
  | utp =>
    cases i with
    | utpConnect c => exact FuturesUnordered.act_inFlight_congr (h .utp) c
    | _ => exact h .utp

def resultsAt (port : Port) (results : List (Port × Option Item)) : List (Option Item) :=
  (results.filter fun t => t.1 = port).map Prod.snd

theorem takenAt_eq (port : Port) (taken : List (Port × Item)) :
    takenAt port taken = resultsAt port (known taken) := by
  rw [takenAt, resultsAt, known, List.filter_map, List.map_map]
  rfl

/-- The results that a poll takes: the next one of TCP, and if that is not handed on, of uTP. -/
def nextTaken (self : CombinedTransport) : List (Port × Option Item) :=
  (self.next .tcp).toList ++
    if keepFirst initiatorAddr self.connected (self.nextItem .tcp).toList = [] then
      (self.next .utp).toList
    else []

/-- A poll takes what waits first, and yields the first item of it that is not skipped; only the
address of an initiated connection is added to those connected. -/
structure YieldsNext (s : CombinedTransport) (r : Poll (Option Item)) (s' : CombinedTransport)
    (es : List TransportEffect) : Prop where
  taken : es.filterMap TransportEffect.taken = s.nextTaken
  waiting : ∀ port, s.waiting port = resultsAt port s.nextTaken ++ s'.waiting port
  item : r = .ofItem s.upcoming
  connected : ∀ a, a ∈ s'.connected ↔ a ∈ s.connected ∨ s.upcoming.bind initiatorAddr = some a

theorem pollNext_yieldsNext {s s' : CombinedTransport} (h : s.pollNext.Returns (r, s') es) :
    YieldsNext s r s' es := by
  obtain ⟨hr, taken₁, taken₂, ht, hn₁, hn₂⟩ := pollNext_takes h
  have hi := pollNext_item h
  have htaken : s.nextTaken = known (taken₁ ++ taken₂) := by
    rw [nextTaken, nextItem_eq hn₁, hn₁, known_append]
    rcases hn₂ with ⟨hk, rfl⟩ | ⟨hk, hn₂⟩
    · rw [if_neg hk]
      rfl
    · rw [if_pos hk, hn₂]
  refine ⟨ht.effects.trans htaken.symm, fun port => ?_, ?_, fun a => ?_⟩
  · rw [htaken, ← takenAt_eq]
    exact ht.served port
  · rw [← hi]
    rcases r with _ | _ | x
    · rfl
    · exact (hr rfl).elim
    · rfl
  · rw [mem_connected h, hi]

/-- The result that TCP takes next is a stream whose peer cannot be queried. -/
def TakesUnnamed (self : CombinedTransport) : Prop :=
  ∃ port, self.next .tcp = some (port, none)

theorem pollNext_halts_iff {s : CombinedTransport} (hl : s.Live) :
    s.pollNext.Halts ↔ ¬ s.TakesUnnamed := by
  constructor
  · rintro ⟨⟨r, s'⟩, es, h⟩ ⟨port, hn⟩
    exact next_known_of_returns h port hn
  · intro h
    exact pollNext_halts hl fun port hn => h ⟨port, hn⟩

/-- All that waits at the first transport has been taken from the second one, or waits there. -/
structure Accounted (t s : CombinedTransport) (taken : List (Port × Item)) : Prop where
  live : t.Live ∧ s.Live
  served : Served t.waiting s.waiting taken
  inFlight : ∀ p, t.inFlight p = s.inFlight p

theorem accounted_refl {s : CombinedTransport} (h : s.Live) : Accounted s s [] :=
  ⟨⟨h, h⟩, .refl _, fun _ => rfl⟩

theorem Accounted.connect {s t : CombinedTransport} (h : Accounted t s taken) (a : SocketAddr) :
    Accounted (t.pushConnects a) (s.pushConnects a) taken := by
  refine ⟨h.live, ?_, fun p => ?_⟩
  · rw [pushConnects_waiting, pushConnects_waiting]
    exact h.served
  · cases p with
    | tcp => exact congrArg (· ++ [a]) (h.inFlight .tcp)
    | utp => exact congrArg (· ++ [a]) (h.inFlight .utp)

theorem Accounted.act {s t : CombinedTransport} (h : Accounted t s taken) (i : TransportInput) :
    Accounted (t.act i) (s.act i) taken := by
  refine ⟨⟨act_live h.live.1 i, act_live h.live.2 i⟩, fun port => ?_,
    act_inFlight_congr h.inFlight i⟩
  cases ha : s.arrival i with
  | none =>
    rw [act_of_no_arrival ha, act_of_no_arrival ((arrival_congr h.inFlight i).trans ha)]
    exact h.served port
  | some x =>
    obtain ⟨port', x⟩ := x
    rw [act_waiting h.live.2 ha, act_waiting h.live.1 ((arrival_congr h.inFlight i).trans ha),
      h.served port, List.append_assoc]

theorem Accounted.poll {s s' t : CombinedTransport} (h : Accounted t s taken)
    (hp : s.pollNext.Returns (r, s') es) (ht : PollTakes s r s' es taken') :
    Accounted t s' (taken ++ taken') :=
  ⟨⟨h.live.1, pollNext_live hp⟩, h.served.trans ht.served,
    fun p => (h.inFlight p).trans (pollNext_inFlight hp p).symm⟩

end CombinedTransport

end HyperswarmRs
