import HyperswarmRs.Transport.Arrivals
import HyperswarmRs.Async.Run

namespace HyperswarmRs
open Async
set_option autoImplicit true

/-- A transport is told to dial, is polled, or has something happen to one of its sources. -/
inductive TransportEvent (ι : Type) where
  | connect (peerAddr : SocketAddr)
  | poll
  | env (i : ι)
  deriving DecidableEq, Repr

abbrev TransportObs (ε C : Type) : Type := Obs ε (Poll (Option (IoResult (Connection C))))

def Transport.step [Transport σ ε C] [Environment σ ι] (s : σ) :
    TransportEvent ι → Exec (TransportObs ε C) σ
  | .connect a => (Transport.connect s a).embed .effect
  | .poll => observed (pollNext s)
  | .env i => pure (Environment.act s i)

def consumed (tr : List (TransportObs TransportEffect CombinedStream)) :
    List (Port × Option Item) :=
  (effects tr).filterMap TransportEffect.taken

def yielded (tr : List (TransportObs TransportEffect CombinedStream)) : List Item :=
  (results tr).filterMap Poll.item

def Protocol.name : Protocol → String
  | .tcp => TcpTransport.protocol
  | .utp => UtpTransport.protocol

structure Carries (port : Port) (conn : Connection CombinedStream) : Prop where
  addr : conn.inner.peerAddr = some conn.peerAddr
  protocol : conn.protocol = port.protocol.name
  inner : conn.inner.protocol = port.protocol.name
  direction : conn.isInitiator = port.isInitiator

theorem tcpItem_carries (h : tcpItem b x = some (.ok conn)) : Carries ⟨.tcp, b⟩ conn := by
  cases x with
  | error e => cases h
  | ok stream =>
    simp only [tcpItem, asItem, Option.map_map, Option.map_eq_some_iff] at h
    obtain ⟨p, hp, he⟩ := h
    cases he
    have hs : p.1 = stream := by
      rw [TcpTransport.peer] at hp
      cases ha : stream.peerAddr with
      | error e => simp only [ha, reduceCtorEq] at hp
      | ok a =>
        simp only [ha, Option.some.injEq] at hp
        rw [← hp]
    refine ⟨?_, rfl, rfl, rfl⟩
    change (TcpTransport.peer p.1).map Prod.snd = some p.2
    rw [hs, hp, Option.map_some]

theorem utpItem_carries (h : utpItem b x = some (.ok conn)) : Carries ⟨.utp, b⟩ conn := by
  cases x with
  | error e => cases h
  | ok socket =>
    cases h
    exact ⟨rfl, rfl, rfl, rfl⟩

namespace CombinedTransport

theorem waiting_carries {self : CombinedTransport} (h : some (.ok conn) ∈ self.waiting port) :
    Carries port conn := by
  match port, h with
  | ⟨.tcp, false⟩, h | ⟨.tcp, true⟩, h =>
    obtain ⟨x, -, hx⟩ := List.mem_map.1 h
    exact tcpItem_carries hx
  | ⟨.utp, false⟩, h | ⟨.utp, true⟩, h =>
    obtain ⟨x, -, hx⟩ := List.mem_map.1 h
    exact utpItem_carries hx

inductive Stepped (s : CombinedTransport) : TransportEvent TransportInput → CombinedTransport →
    List (TransportObs TransportEffect CombinedStream) → Prop where
  | connect : s' = s.pushConnects a →
      Stepped s (.connect a) s' [.effect (.tcp (.dial a)), .effect (.utp (.dial a))]
  | poll : s.pollNext.Returns (r, s') es →
      Stepped s .poll s' (es.map .effect ++ [.returned r])
  | env : Stepped s (.env i) (s.act i) []

theorem step_cases {s s' : CombinedTransport} (h : (Transport.step s e).Returns s' tr) :
    Stepped s e s' tr := by
  cases e with
  | connect a =>
    cases h
    exact .connect rfl
  | poll =>
    obtain ⟨r, es, hp, rfl⟩ := returns_observed.1 h
    exact .poll hp
  | env i =>
    obtain ⟨rfl, rfl⟩ := Exec.returns_pure.1 h
    exact .env

theorem step_live {s s' : CombinedTransport} (hl : s.Live)
    (h : (Transport.step s e).Returns s' tr) : s'.Live := by
  cases step_cases h with
  | connect he =>
    subst he
    exact hl
  | poll hp => exact pollNext_live hp
  | env => exact act_live hl _

def unpolledStep (s : CombinedTransport) : TransportEvent TransportInput → CombinedTransport
  | .connect a => s.pushConnects a
  | .poll => s
  | .env i => s.act i

/-- The transport as it would be without the polls: all results that have arrived still wait. -/
def unpolled (s : CombinedTransport) (events : List (TransportEvent TransportInput)) :
    CombinedTransport := events.foldl unpolledStep s

theorem unpolled_concat (s : CombinedTransport) (events : List (TransportEvent TransportInput))
    (e : TransportEvent TransportInput) :
    s.unpolled (events ++ [e]) = unpolledStep (s.unpolled events) e := List.foldl_concat ..

structure History (s₀ : CombinedTransport) (events : List (TransportEvent TransportInput))
    (tr : List (TransportObs TransportEffect CombinedStream)) (s : CombinedTransport)
    (taken : List (Port × Item)) : Prop where
  consumed : consumed tr = known taken
  accounted : Accounted (s₀.unpolled events) s taken
  yielded : yielded tr = keepFirst initiatorAddr ∅ (taken.map Prod.snd)
  connected : s.connected = seenAfter initiatorAddr ∅ (taken.map Prod.snd)
  carries : ∀ {port conn}, (port, .ok conn) ∈ taken → Carries port conn

theorem History.quiet (h : History s₀ events tr s taken) (hc : s'.connected = s.connected)
    (ha : Accounted (unpolledStep (s₀.unpolled events) e) s' taken)
    (ht : HyperswarmRs.consumed tr' = []) (hy : HyperswarmRs.yielded tr' = []) :
    History s₀ (events ++ [e]) (tr ++ tr') s' taken := by
  refine ⟨?_, ?_, ?_, hc.trans h.connected, h.carries⟩
  · rw [HyperswarmRs.consumed, effects_append, List.filterMap_append]
    exact (congrArg₂ (· ++ ·) h.consumed ht).trans (List.append_nil _)
  · rw [unpolled_concat]
    exact ha
  · rw [HyperswarmRs.yielded, results_append, List.filterMap_append]
    exact (congrArg₂ (· ++ ·) h.yielded hy).trans (List.append_nil _)

theorem History.poll {s s' : CombinedTransport} (h : History s₀ events tr s taken)
    (hp : s.pollNext.Returns (r, s') es) : ∃ taken',
      History s₀ (events ++ [.poll]) (tr ++ (es.map .effect ++ [.returned r])) s'
        (taken ++ taken') := by
  obtain ⟨-, taken₁, taken₂, ht, -⟩ := pollNext_takes hp
  generalize taken₁ ++ taken₂ = taken' at ht
  refine ⟨taken', ?_, ?_, ?_, ?_, ?_⟩
  · rw [HyperswarmRs.consumed, effects_append_returns, List.filterMap_append, ht.effects,
      known_append]
    exact congrArg (· ++ known taken') h.consumed
  · rw [unpolled_concat]
    exact h.accounted.poll hp ht
  · rw [HyperswarmRs.yielded, results_append_returns, List.filterMap_append, filterMap_item,
      ht.result, List.map_append, keepFirst_append, ← h.connected]
    exact congrArg (· ++ keepFirst initiatorAddr s.connected _) h.yielded
  · rw [ht.connected, h.connected, List.map_append, seenAfter_append]
  · intro port conn hm
    rcases List.mem_append.1 hm with hm | hm
    · exact h.carries hm
    · exact waiting_carries (ht.served.mem_taken hm)

theorem run_has_history {listener : TcpListener} {incoming : Source (IoResult UtpSocket)}
    (h : (run Transport.step (bind (.bind listener) { incoming }) events).Returns s tr) :
    ∃ taken, History (bind (.bind listener) { incoming }) events tr s taken := by
  apply run_trace (P := fun events tr s => ∃ taken, History _ events tr s taken) ?_ ?_ h
  · exact ⟨[], rfl, accounted_refl (bind_live listener _), rfl, rfl, fun hm => by cases hm⟩
  · rintro is tr s e s' tr' ⟨taken, hh⟩ hs
    cases step_cases hs with
    | @connect _ a he =>
      subst he
      exact ⟨taken, hh.quiet rfl (hh.accounted.connect a) rfl rfl⟩
    | poll hp =>
      obtain ⟨taken', hh'⟩ := hh.poll hp
      exact ⟨taken ++ taken', hh'⟩
    | @env i => exact ⟨taken, hh.quiet (act_connected s i) (hh.accounted.act i) rfl rfl⟩

/-- A run yields the results its polls took, each once and in order, except the initiated
connections to an address for which one was yielded before. What has arrived at each source, and
only that, has been taken in order or still waits. -/
structure YieldsFirst (s₀ : CombinedTransport) (events : List (TransportEvent TransportInput))
    (tr : List (TransportObs TransportEffect CombinedStream)) (s : CombinedTransport)
    (taken : List (Port × Item)) : Prop where
  consumed : consumed tr = known taken
  arrived : ∀ port, (s₀.unpolled events).waiting port = takenAt port taken ++ s.waiting port
  yielded : yielded tr = keepFirst initiatorAddr ∅ (taken.map Prod.snd)
  dropped_iff : ∀ earlier t later, taken = earlier ++ t :: later →
    (keepFirst initiatorAddr ∅ ((earlier ++ [t]).map Prod.snd) =
        keepFirst initiatorAddr ∅ (earlier.map Prod.snd) ↔
      ∃ y ∈ keepFirst initiatorAddr ∅ (earlier.map Prod.snd), ∃ a,
        initiatorAddr y = some a ∧ initiatorAddr t.2 = some a)
  others : (HyperswarmRs.yielded tr).filter (fun x => (initiatorAddr x).isNone) =
    (taken.map Prod.snd).filter fun x => (initiatorAddr x).isNone
  connected : s.connected = ((HyperswarmRs.yielded tr).filterMap initiatorAddr).toFinset
  nodup : ((HyperswarmRs.yielded tr).filterMap initiatorAddr).Nodup
  one_each : ∀ a ∈ (taken.map Prod.snd).filterMap initiatorAddr,
    ((HyperswarmRs.yielded tr).filterMap initiatorAddr).count a = 1
  carries : ∀ conn, .ok conn ∈ HyperswarmRs.yielded tr →
    ∃ port, (port, .ok conn) ∈ taken ∧ Carries port conn

theorem History.yieldsFirst (h : History s₀ events tr s taken) :
    YieldsFirst s₀ events tr s taken := by
  have hc : s.connected = ((HyperswarmRs.yielded tr).filterMap initiatorAddr).toFinset := by
    rw [h.connected, h.yielded, ← seenAfter_keepFirst, seenAfter, Finset.empty_union]
  have hn : ((HyperswarmRs.yielded tr).filterMap initiatorAddr).Nodup := by
    rw [h.yielded]
    exact keepFirst_nodup _ _ _
  refine ⟨h.consumed, h.accounted.served, h.yielded, ?_, ?_, hc, hn, ?_, ?_⟩
  · intro earlier t later _
    rw [List.map_append]
    exact keepFirst_concat
  · rw [h.yielded]
    exact filter_keepFirst _ _ _
  · intro a ha
    apply List.count_eq_one_of_mem hn
    rw [h.yielded]
    exact (mem_keepFirst_key ha).2 (Finset.notMem_empty a)
  · intro conn hm
    rw [h.yielded] at hm
    obtain ⟨⟨port, x⟩, ht, rfl⟩ := List.mem_map.1 ((keepFirst_sublist _ _ _).subset hm)
    exact ⟨port, ht, h.carries ht⟩

def Yields (s : CombinedTransport) (e : TransportEvent TransportInput) : Prop :=
  e = .poll → ∃ r s' es, s.pollNext.Returns (r, s') es ∧ YieldsNext s r s' es

theorem yields_iff {s : CombinedTransport} (hl : s.Live) :
    Yields s e ↔ ¬ (e = .poll ∧ s.TakesUnnamed) := by
  rw [not_and, ← pollNext_halts_iff hl]
  constructor
  · intro h he
    obtain ⟨r, s', es, hp, -⟩ := h he
    exact hp.halts
  · intro h he
    obtain ⟨⟨r, s'⟩, es, hp⟩ := h he
    exact ⟨r, s', es, hp, pollNext_yieldsNext hp⟩

theorem step_halts_iff {s : CombinedTransport} {e : TransportEvent TransportInput} :
    (Transport.step s e).Halts ↔ Yields s e := by
  constructor
  · rintro ⟨t, tr, h⟩ rfl
    obtain ⟨r, es, hp, -⟩ := returns_observed.1 h
    exact ⟨r, t, es, hp, pollNext_yieldsNext hp⟩
  · intro h
    cases e with
    | connect a => exact ⟨_, _, rfl⟩
    | env i => exact Exec.halts_pure _
    | poll =>
      obtain ⟨r, s', es, hp, -⟩ := h rfl
      exact ⟨s', _, returns_observed.2 ⟨r, es, hp, rfl⟩⟩

/-- Every poll of a run yields what waits first, and the run returns, exactly when no poll takes a
TCP stream whose peer cannot be queried. -/
theorem run_yields_iff (listener : TcpListener) (incoming : Source (IoResult UtpSocket))
    (events : List (TransportEvent TransportInput)) :
    let start := bind (.bind listener) { incoming }
    (Along Transport.step Yields start events ↔
      Along Transport.step (fun s e => ¬ (e = .poll ∧ s.TakesUnnamed)) start events) ∧
    ((run Transport.step start events).Halts ↔
      Along Transport.step (fun s e => ¬ (e = .poll ∧ s.TakesUnnamed)) start events) ∧
    ∀ s tr, (run Transport.step start events).Returns s tr →
      ∃ taken, YieldsFirst start events tr s taken := by
  intro start
  have hy : Along Transport.step Yields start events ↔
      Along Transport.step (fun s e => ¬ (e = .poll ∧ s.TakesUnnamed)) start events :=
    along_congr (P := Live) (bind_live listener _) step_live yields_iff
  refine ⟨hy, ?_, fun s tr h => ?_⟩
  · rw [run_halts_iff, ← hy]
    exact along_congr (P := fun _ => True) trivial (fun _ _ => trivial) fun _ => step_halts_iff
  · obtain ⟨taken, hh⟩ := run_has_history h
    exact ⟨taken, hh.yieldsFirst⟩

/-- All four sources have results, errors among them; both protocols reach one peer, and the second
connection to it is skipped. -/
theorem run_yields_iff_four_sources :
    let failed : IoError := ⟨.os 111, "Connection refused"⟩
    let events := [.connect (loopback 4001), .connect (loopback 4002),
      .env (.tcpConnect ⟨0, .ok ⟨1, .ok (loopback 4001)⟩⟩), .poll,
      .env (.utpConnect ⟨0, .ok ⟨2, loopback 4001⟩⟩), .poll,
      .env (.tcpConnect ⟨0, .error failed⟩), .env (.utpIncoming (.push (.ok ⟨3, loopback 5003⟩))),
      .env (.tcpIncoming (.ok (⟨4, .ok (loopback 5004)⟩, loopback 5004))),
      .env (.utpConnect ⟨0, .ok ⟨5, loopback 4002⟩⟩), .poll, .poll, .poll, .poll]
    ∃ s tr, (run Transport.step fresh events).Returns s tr ∧
      Along Transport.step Yields fresh events ∧ (∃ taken, YieldsFirst fresh events tr s taken) ∧
      yielded tr = [.ok ⟨.tcp ⟨1, .ok (loopback 4001)⟩, loopback 4001, true, "tcp"⟩,
        .ok ⟨.tcp ⟨4, .ok (loopback 5004)⟩, loopback 5004, false, "tcp"⟩, .error failed,
        .ok ⟨.utp ⟨⟨3, loopback 5003⟩⟩, loopback 5003, false, "utp"⟩,
        .ok ⟨.utp ⟨⟨5, loopback 4002⟩⟩, loopback 4002, true, "utp"⟩] := by
  intro failed events
  have hc : (run Transport.step fresh events).check (fun _ tr => yielded tr =
      [.ok ⟨.tcp ⟨1, .ok (loopback 4001)⟩, loopback 4001, true, "tcp"⟩,
        .ok ⟨.tcp ⟨4, .ok (loopback 5004)⟩, loopback 5004, false, "tcp"⟩, .error failed,
        .ok ⟨.utp ⟨⟨3, loopback 5003⟩⟩, loopback 5003, false, "utp"⟩,
        .ok ⟨.utp ⟨⟨5, loopback 4002⟩⟩, loopback 4002, true, "utp"⟩]) := by
    decide +kernel
  obtain ⟨s, tr, hr, hy⟩ := Exec.exists_of_check hc
  obtain ⟨hiff, hhalts, hfirst⟩ := run_yields_iff { localAddr := loopback 4000 } {} events
  exact ⟨s, tr, hr, hiff.2 (hhalts.1 hr.halts), hfirst s tr hr, of_decide_eq_true hy⟩

/-- An accepted stream is reset before the transport is polled: the poll takes it and panics. -/
theorem reset_stream_is_not_yielded :
    let reset : IoError := ⟨.os 107, "Transport endpoint is not connected"⟩
    let events := [.env (.tcpIncoming (.ok (⟨1, .error reset⟩, loopback 4001)))]
    (∃ s tr, (run Transport.step fresh events).Returns s tr ∧ s.waiting ⟨.tcp, false⟩ = [none] ∧
      s.pollNext = .fail .panicked) ∧ ¬ Along Transport.step Yields fresh (events ++ [.poll]) := by
  intro reset events
  have hr : ∃ s tr, (run Transport.step fresh events).Returns s tr ∧
      s.waiting ⟨.tcp, false⟩ = [none] ∧ s.pollNext = .fail .panicked := ⟨_, _, rfl, rfl, rfl⟩
  refine ⟨hr, fun h => ?_⟩
  obtain ⟨s, tr, hr, -, hf⟩ := hr
  obtain ⟨r, s', es, hp, -⟩ := (h.after hr).1 rfl
  rw [hf] at hp
  exact Exec.returns_fail hp

end CombinedTransport

end HyperswarmRs
