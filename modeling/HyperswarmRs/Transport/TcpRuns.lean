import HyperswarmRs.Transport.Runs

namespace HyperswarmRs
open Async
set_option autoImplicit true

inductive TcpInput where
  | incoming (result : IoResult (TcpStream × SocketAddr))
  | connect (c : Completion (IoResult TcpStream))
  deriving DecidableEq, Repr

namespace EndpointEffect

def taken? : EndpointEffect S → Option (Bool × IoResult S)
  | .dial _ => none
  | .incoming r => r.item.map (false, ·)
  | .connects r => r.item.map (true, ·)

end EndpointEffect

def ofSource (b : Bool) (taken : List (Bool × IoResult S)) : List (IoResult S) :=
  taken.filterMap fun t => if t.1 = b then some t.2 else none

theorem ofSource_append (b : Bool) (taken taken' : List (Bool × IoResult S)) :
    ofSource b (taken ++ taken') = ofSource b taken ++ ofSource b taken' :=
  List.filterMap_append

section Sources

variable [Leaf I (IoResult S)] {peer : S → Option (C × SocketAddr)} {i i' : I}
  {c c' : PendingConnects S}

def waitingAt (i : I) (c : PendingConnects S) : List (Bool × IoResult S) :=
  (items i).map (false, ·) ++ (items c).map (true, ·)

/-- A poll of the two sources takes the result that waits first, and answers its item. -/
structure ServesFirst (peer : S → Option (C × SocketAddr)) (protocol : String) (i : I)
    (c : PendingConnects S) (r : Poll (Option (IoResult (Connection C)))) (i' : I)
    (c' : PendingConnects S) (es : List (EndpointEffect S)) : Prop where
  taken : es.filterMap EndpointEffect.taken? = (waitingAt i c).head?.toList
  item : ∃ x, r = .ofItem x ∧
    (waitingAt i c).head?.map (fun t => asItem peer protocol t.1 t.2) = x.map some
  rest : waitingAt i' c' = (waitingAt i c).tail
  incoming : items i = ofSource false (es.filterMap EndpointEffect.taken?) ++ items i'
  connects : items c = ofSource true (es.filterMap EndpointEffect.taken?) ++ items c'
  inFlight : c'.inFlight = c.inFlight

theorem SourcesPoll.servesFirst (h : SourcesPoll peer protocol i c r i' c' es) :
    ServesFirst peer protocol i c r i' c' es := by
  cases h with
  | @accepted x _ y hi hy =>
    have hw : waitingAt i c = (false, x) :: waitingAt i' c := by
      rw [waitingAt, hi]
      rfl
    refine ⟨?_, ⟨some y, rfl, ?_⟩, ?_, hi, rfl, rfl⟩
    · rw [hw]
      rfl
    · rw [hw]
      exact congrArg some hy
    · rw [hw]
      rfl
  | @connected _ x _ y p hi hi' hn hc hf hy =>
    have hw : waitingAt i c = (true, x) :: waitingAt i' c' := by
      rw [waitingAt, hi, hc, waitingAt, hi']
      rfl
    have ht : [.incoming p, .connects (.ready (some x))].filterMap EndpointEffect.taken? =
        [(true, x)] := by
      rw [List.filterMap_cons, EndpointEffect.taken?, hn]
      rfl
    refine ⟨?_, ⟨some y, rfl, ?_⟩, ?_, ?_, ?_, hf⟩
    · rw [hw, ht]
      rfl
    · rw [hw]
      exact congrArg some hy
    · rw [hw]
      rfl
    · rw [ht, hi, hi']
      rfl
    · rw [ht, hc]
      rfl
  | @idle _ _ p q hi hi' hn hc hc' hf hn' =>
    have hw : waitingAt i c = [] ∧ waitingAt i' c' = [] := by
      rw [waitingAt, hi, hc, waitingAt, hi', hc']
      exact ⟨rfl, rfl⟩
    have ht : [.incoming p, .connects q].filterMap (EndpointEffect.taken? (S := S)) = [] := by
      rw [List.filterMap_cons, EndpointEffect.taken?, hn, List.filterMap_cons,
        EndpointEffect.taken?, hn']
      rfl
    refine ⟨?_, ⟨none, rfl, ?_⟩, ?_, ?_, ?_, hf⟩
    · rw [hw.1, ht]
      rfl
    · rw [hw.1]
      rfl
    · rw [hw.1, hw.2]
      rfl
    · rw [ht, hi, hi']
      rfl
    · rw [ht, hc, hc']
      rfl

end Sources

namespace TcpTransport

instance : Environment TcpTransport TcpInput where
  act self
    | .incoming result => { self with incoming := self.incoming.act result }
    | .connect c => { self with pendingConnects := self.pendingConnects.act c }

/-- The item owed to the caller for a result: an error also where the query of the peer fails. -/
def itemOf (isInitiator : Bool) (result : IoResult TcpStream) : IoResult (Connection TcpStream) :=
  do
    let stream ← result
    let peerAddr ← stream.peerAddr
    return ⟨stream, peerAddr, isInitiator, protocol⟩

def Unnamed (result : IoResult TcpStream) : Prop :=
  ∃ stream e, result = .ok stream ∧ stream.peerAddr = .error e

theorem asItem_eq_none : asItem peer protocol b x = none ↔ Unnamed x := by
  cases x with
  | error e =>
    constructor
    · intro h
      cases h
    · rintro ⟨_, _, h, -⟩
      cases h
  | ok stream =>
    obtain ⟨fd, peerAddr⟩ := stream
    cases peerAddr with
    | error e => exact ⟨fun _ => ⟨_, e, rfl, rfl⟩, fun _ => rfl⟩
    | ok a =>
      constructor
      · intro h
        cases h
      · rintro ⟨_, _, h, he⟩
        cases h
        cases he

theorem itemOf_eq (h : asItem peer protocol b x = some y) : y = itemOf b x := by
  cases x with
  | error e =>
    cases h
    rfl
  | ok stream =>
    obtain ⟨fd, peerAddr⟩ := stream
    cases peerAddr with
    | error e => cases h
    | ok a =>
      cases h
      rfl

def waiting (self : TcpTransport) : List (Bool × IoResult TcpStream) :=
  waitingAt self.incoming self.pendingConnects

def TakesUnnamed (self : TcpTransport) : Prop :=
  ∃ b x, self.waiting.head? = some (b, x) ∧ Unnamed x

/-- The poll takes the result that waits first, answers its item, and the accept future is armed
anew. -/
structure Served (s : TcpTransport) (r : Poll (Option (IoResult (Connection TcpStream))))
    (s' : TcpTransport) (es : List (EndpointEffect TcpStream)) : Prop where
  taken : es.filterMap EndpointEffect.taken? = s.waiting.head?.toList
  item : r = .ofItem (s.waiting.head?.map fun t => itemOf t.1 t.2)
  rest : s'.waiting = s.waiting.tail
  accepting : s'.incoming.Accepting

theorem pollNext_served {s s' : TcpTransport} (h : s.pollNext.Returns (r, s') es) :
    Served s r s' es := by
  have hs := (pollNext_cases h).servesFirst
  refine ⟨hs.taken, ?_, hs.rest, CombinedTransport.tcp_pollNext_accepting h⟩
  obtain ⟨x, rfl, hx⟩ := hs.item
  rw [waiting]
  cases hw : (waitingAt s.incoming s.pendingConnects).head? with
  | none =>
    rw [hw] at hx
    cases x with
    | none => rfl
    | some y => cases hx
  | some t =>
    rw [hw, Option.map_some] at hx
    cases x with
    | none => cases hx
    | some y => rw [itemOf_eq (Option.some.inj hx), Option.map_some]

/-- Polling panics exactly when it takes a stream whose peer it cannot query. -/
theorem pollNext_halts_iff {s : TcpTransport} (hl : s.incoming.Accepting) :
    s.pollNext.Halts ↔ ¬ s.TakesUnnamed := by
  constructor
  · rintro ⟨⟨r, s'⟩, es, h⟩ ⟨b, x, hw, hu⟩
    obtain ⟨y, -, hy⟩ := (pollNext_cases h).servesFirst.item
    rw [waiting] at hw
    rw [hw, Option.map_some, asItem_eq_none.2 hu] at hy
    cases y <;> cases hy
  · intro hn
    have hsome : ∀ b x, s.waiting.head? = some (b, x) →
        (asItem peer protocol b x).isSome = true := by
      intro b x hw
      rw [Option.isSome_iff_ne_none]
      exact fun hx => hn ⟨b, x, hw, asItem_eq_none.1 hx⟩
    apply pollNext_halts_of_named hl
    · intro x hx
      apply hsome
      rw [waiting, waitingAt, List.head?_append, List.head?_map, hx]
      rfl
    · intro x hi hx
      apply hsome
      rw [waiting, waitingAt, hi, List.map_nil, List.nil_append, List.head?_map, hx]
      rfl

def Serves (s : TcpTransport) (e : TransportEvent TcpInput) : Prop :=
  e = .poll → ∃ r s' es, s.pollNext.Returns (r, s') es ∧ Served s r s' es

theorem serves_iff {s : TcpTransport} (hl : s.incoming.Accepting) :
    Serves s e ↔ ¬ (e = .poll ∧ s.TakesUnnamed) := by
  rw [not_and, ← pollNext_halts_iff hl]
  constructor
  · intro h he
    obtain ⟨r, s', es, hp, -⟩ := h he
    exact hp.halts
  · intro h he
    obtain ⟨⟨r, s'⟩, es, hp⟩ := h he
    exact ⟨r, s', es, hp, pollNext_served hp⟩

inductive Stepped (s : TcpTransport) : TransportEvent TcpInput → TcpTransport →
    List (TransportObs (EndpointEffect TcpStream) TcpStream) → Prop where
  | connect : Stepped s (.connect a)
      { s with pendingConnects := s.pendingConnects.push a } [.effect (.dial a)]
  | poll : s.pollNext.Returns (r, s') es → Stepped s .poll s' (es.map .effect ++ [.returned r])
  | env : Stepped s (.env i) (Environment.act s i) []

theorem step_cases {s s' : TcpTransport} (h : (Transport.step s e).Returns s' tr) :
    Stepped s e s' tr := by
  cases e with
  | connect a =>
    cases h
    exact .connect
  | poll =>
    obtain ⟨r, es, hp, rfl⟩ := returns_observed.1 h
    exact .poll hp
  | env i =>
    obtain ⟨rfl, rfl⟩ := Exec.returns_pure.1 h
    exact .env

theorem step_accepting {s s' : TcpTransport} (hl : s.incoming.Accepting)
    (h : (Transport.step s e).Returns s' tr) : s'.incoming.Accepting := by
  cases step_cases h with
  | connect => exact hl
  | poll hp => exact CombinedTransport.tcp_pollNext_accepting hp
  | @env i =>
    cases i with
    | incoming result => exact TcpIncoming.act_accepting hl result
    | connect c => exact hl

theorem step_halts_iff {s : TcpTransport} {e : TransportEvent TcpInput} :
    (Transport.step s e).Halts ↔ Serves s e := by
  constructor
  · rintro ⟨t, tr, h⟩ rfl
    obtain ⟨r, es, hp, -⟩ := returns_observed.1 h
    exact ⟨r, t, es, hp, pollNext_served hp⟩
  · intro h
    cases e with
    | connect a => exact ⟨_, _, rfl⟩
    | env i => exact Exec.halts_pure _
    | poll =>
      obtain ⟨r, s', es, hp, -⟩ := h rfl
      exact ⟨s', _, returns_observed.2 ⟨r, es, hp, rfl⟩⟩

def accepted? : TransportEvent TcpInput → Option (IoResult TcpStream)
  | .env (.incoming result) => some (result.map Prod.fst)
  | .connect _ | .poll | .env (.connect _) => none

def connectsStep (c : PendingConnects TcpStream) :
    TransportEvent TcpInput → PendingConnects TcpStream
  | .connect a => c.push a
  | .env (.connect k) => c.act k
  | .poll | .env (.incoming _) => c

def connects (events : List (TransportEvent TcpInput)) : PendingConnects TcpStream :=
  events.foldl connectsStep {}

theorem connects_concat (events : List (TransportEvent TcpInput)) (e : TransportEvent TcpInput) :
    connects (events ++ [e]) = connectsStep (connects events) e := List.foldl_concat ..

def taken (tr : List (TransportObs (EndpointEffect TcpStream) TcpStream)) :
    List (Bool × IoResult TcpStream) :=
  (effects tr).filterMap EndpointEffect.taken?

/-- All results of a run are accounted for: those taken, each answered by an item, and those that
wait. -/
structure History (s₀ : TcpTransport) (events : List (TransportEvent TcpInput))
    (tr : List (TransportObs (EndpointEffect TcpStream) TcpStream)) (s : TcpTransport) : Prop where
  accepting : s.incoming.Accepting
  items : (results tr).filterMap Poll.item = (taken tr).map fun t => itemOf t.1 t.2
  accepted : s₀.incoming.items ++ events.filterMap accepted? =
    ofSource false (taken tr) ++ s.incoming.items
  connected : (connects events).done = ofSource true (taken tr) ++ s.pendingConnects.done
  inFlight : (connects events).inFlight = s.pendingConnects.inFlight

theorem History.quiet (h : History s₀ events tr s) (hacc : s'.incoming.Accepting)
    (he : ofSource false (taken tr) ++ s.incoming.items ++ [e].filterMap accepted? =
      ofSource false (taken tr) ++ s'.incoming.items)
    (hf : (connectsStep (connects events) e).inFlight = s'.pendingConnects.inFlight)
    (hd : (connectsStep (connects events) e).done =
      ofSource true (taken tr) ++ s'.pendingConnects.done)
    (ht : taken tr' = []) (hr : results tr' = []) : History s₀ (events ++ [e]) (tr ++ tr') s' := by
  have hta : taken (tr ++ tr') = taken tr := by
    rw [taken, effects_append, List.filterMap_append]
    exact (congrArg _ ht).trans (List.append_nil _)
  rw [← connects_concat] at hf hd
  refine ⟨hacc, ?_, ?_, ?_, hf⟩
  · rw [hta, results_append, hr, List.append_nil, h.items]
  · rw [hta, List.filterMap_append, ← List.append_assoc, h.accepted, he]
  · rw [hta, hd]

theorem History.poll {s s' : TcpTransport} (h : History s₀ events tr s)
    (hp : s.pollNext.Returns (r, s') es) :
    History s₀ (events ++ [.poll]) (tr ++ (es.map .effect ++ [.returned r])) s' := by
  have hs := pollNext_served hp
  have hq := (pollNext_cases hp).servesFirst
  have hc : connects (events ++ [.poll]) = connects events := connects_concat ..
  have hta : taken (tr ++ (es.map .effect ++ [.returned r])) =
      taken tr ++ es.filterMap EndpointEffect.taken? := by
    rw [taken, effects_append_returns, List.filterMap_append]
    rfl
  refine ⟨hs.accepting, ?_, ?_, ?_, ?_⟩
  · rw [hta, results_append_returns, List.filterMap_append, h.items, filterMap_item, hs.item,
      Poll.item_ofItem, List.map_append, hs.taken]
    cases s.waiting.head? <;> rfl
  · have hi : s.incoming.items = _ := hq.incoming
    rw [hta, List.filterMap_append, ofSource_append, List.append_assoc, ← List.append_assoc,
      h.accepted, hi]
    exact List.append_nil _
  · have hd : s.pendingConnects.done = _ := hq.connects
    rw [hta, hc, h.connected, hd, ofSource_append, List.append_assoc]
    rfl
  · rw [hc, h.inFlight, hq.inFlight]

theorem run_has_history {listener : TcpListener}
    (h : (run Transport.step (bind listener) events).Returns s tr) :
    History (bind listener) events tr s := by
  apply run_trace (P := History (bind listener)) ?_ ?_ h
  · exact ⟨⟨_, _, rfl⟩, rfl, List.append_nil _, rfl, rfl⟩
  · intro is tr s e s' tr' hh hs
    cases step_cases hs with
    | @connect a =>
      exact hh.quiet hh.accepting (List.append_nil _) (congrArg (· ++ [a]) hh.inFlight)
        hh.connected rfl rfl
    | poll hp => exact hh.poll hp
    | @env i =>
      cases i with
      | incoming result =>
        refine hh.quiet (TcpIncoming.act_accepting hh.accepting result) ?_ hh.inFlight hh.connected
          rfl rfl
        rw [List.append_assoc]
        exact congrArg _ (TcpIncoming.act_items hh.accepting result).symm
      | connect k =>
        have ha := FuturesUnordered.act_done hh.inFlight hh.connected k
        exact hh.quiet hh.accepting (List.append_nil _) ha.1 ha.2 rfl rfl

/-- A run serves, and returns, exactly when no poll takes a stream whose peer it cannot query; what
has been taken in a run that returns was answered, each result by its own item. -/
theorem run_serves_iff (listener : TcpListener) (events : List (TransportEvent TcpInput)) :
    let start := bind listener
    (Along Transport.step Serves start events ↔
      Along Transport.step (fun s e => ¬ (e = .poll ∧ s.TakesUnnamed)) start events) ∧
    ((run Transport.step start events).Halts ↔
      Along Transport.step (fun s e => ¬ (e = .poll ∧ s.TakesUnnamed)) start events) ∧
    ∀ s tr, (run Transport.step start events).Returns s tr → History start events tr s := by
  intro start
  have hs : Along Transport.step Serves start events ↔
      Along Transport.step (fun s e => ¬ (e = .poll ∧ s.TakesUnnamed)) start events :=
    along_congr (P := fun s => s.incoming.Accepting) ⟨_, _, rfl⟩ step_accepting serves_iff
  refine ⟨hs, ?_, fun s tr h => run_has_history h⟩
  rw [run_halts_iff, ← hs]
  exact along_congr (P := fun _ => True) trivial (fun _ _ => trivial) fun _ => step_halts_iff

theorem reset_stream_panics :
    let start := bind { localAddr := loopback 4000 }
    let reset : IoError := ⟨.os 107, "Transport endpoint is not connected"⟩
    let events := [.env (.incoming (.ok (⟨1, .error reset⟩, loopback 4001)))]
    (∃ s tr, (run Transport.step start events).Returns s tr ∧ s.pollNext = .fail .panicked) ∧
      ¬ Along Transport.step Serves start (events ++ [.poll]) := by
  intro start reset events
  have hr : ∃ s tr, (run Transport.step start events).Returns s tr ∧
      s.pollNext = .fail .panicked := ⟨_, _, rfl, rfl⟩
  refine ⟨hr, fun h => ?_⟩
  obtain ⟨s, tr, hr, hf⟩ := hr
  obtain ⟨r, s', es, hp, -⟩ := (h.after hr).1 rfl
  rw [hf] at hp
  exact Exec.returns_fail hp

end TcpTransport

end HyperswarmRs
