import HyperswarmRs.Transport.Combined

namespace HyperswarmRs
open Async
set_option autoImplicit true

inductive Protocol where
  | tcp
  | utp
  deriving DecidableEq, Repr

/-- One of the four leaf sources: accepts or connects, of either protocol. -/
structure Port where
  protocol : Protocol
  isInitiator : Bool
  deriving DecidableEq, Repr

def liftItem (map : T → CombinedStream) : IoResult (Connection T) → Item :=
  Except.map fun conn => ⟨map conn.inner, conn.peerAddr, conn.isInitiator, conn.protocol⟩

def tcpItem (isInitiator : Bool) (x : IoResult TcpStream) : Option Item :=
  (asItem TcpTransport.peer TcpTransport.protocol isInitiator x).map (liftItem .tcp)

def utpItem (isInitiator : Bool) (x : IoResult UtpSocket) : Option Item :=
  (asItem UtpTransport.peer UtpTransport.protocol isInitiator x).map (liftItem .utp)

/-- The results ready at a leaf source, as items; none stands for a TCP stream whose peer
address cannot be obtained. -/
def CombinedTransport.waiting (self : CombinedTransport) : Port → List (Option Item)
  | ⟨.tcp, false⟩ => self.tcp.incoming.items.map (tcpItem false)
  | ⟨.tcp, true⟩ => self.tcp.pendingConnects.done.map (tcpItem true)
  | ⟨.utp, false⟩ => self.utp.incoming.ready.map (utpItem false)
  | ⟨.utp, true⟩ => self.utp.pendingConnects.done.map (utpItem true)

def firstReady (p : Protocol) (accepts connects : List (Option Item)) :
    Option (Port × Option Item) :=
  match accepts with
  | x :: _ => some (⟨p, false⟩, x)
  | [] => connects.head?.map fun x => (⟨p, true⟩, x)

def CombinedTransport.next (self : CombinedTransport) (p : Protocol) :
    Option (Port × Option Item) :=
  firstReady p (self.waiting ⟨p, false⟩) (self.waiting ⟨p, true⟩)

def EndpointEffect.taken (p : Protocol) (item : Bool → IoResult S → Option Item) :
    EndpointEffect S → Option (Port × Option Item)
  | .dial _ => none
  | .incoming r => r.item.map fun x => (⟨p, false⟩, item false x)
  | .connects r => r.item.map fun x => (⟨p, true⟩, item true x)

def TransportEffect.taken : TransportEffect → Option (Port × Option Item)
  | .tcp e => e.taken .tcp tcpItem
  | .utp e => e.taken .utp utpItem

def takenAt (port : Port) (taken : List (Port × Item)) : List (Option Item) :=
  (taken.filter fun t => t.1 = port).map fun t => some t.2

@[simp] theorem takenAt_nil (port : Port) : takenAt port [] = [] := rfl

theorem takenAt_append (port : Port) (taken taken' : List (Port × Item)) :
    takenAt port (taken ++ taken') = takenAt port taken ++ takenAt port taken' := by
  simp only [takenAt, List.filter_append, List.map_append]

theorem mem_takenAt {port : Port} {taken : List (Port × Item)} :
    some x ∈ takenAt port taken ↔ (port, x) ∈ taken := by
  simp only [takenAt, List.mem_map, List.mem_filter, decide_eq_true_eq, Option.some.injEq]
  constructor
  · rintro ⟨⟨q, y⟩, ⟨hm, rfl⟩, rfl⟩
    exact hm
  · intro hm
    exact ⟨(port, x), ⟨hm, rfl⟩, rfl⟩

@[simp] theorem takenAt_self (port : Port) (x : Item) : takenAt port [(port, x)] = [some x] := by
  simp [takenAt]

theorem takenAt_other {port port' : Port} (h : port' ≠ port) (x : Item) :
    takenAt port [(port', x)] = [] := by
  simp [takenAt, h]

/-- The queues hand out their oldest results, in order, and change in no other way. -/
def Served (before after : Port → List (Option Item)) (taken : List (Port × Item)) : Prop :=
  ∀ port, before port = takenAt port taken ++ after port

theorem Served.refl (queues : Port → List (Option Item)) : Served queues queues [] :=
  fun _ => rfl

theorem Served.trans (h : Served a b taken) (h' : Served b c taken') :
    Served a c (taken ++ taken') := by
  intro port
  rw [h port, h' port, takenAt_append, List.append_assoc]

theorem Served.mem_taken (h : Served before after taken) (hx : (port, x) ∈ taken) :
    some x ∈ before port := by
  rw [h port]
  exact List.mem_append_left _ (mem_takenAt.2 hx)

def known (taken : List (Port × Item)) : List (Port × Option Item) :=
  taken.map fun t => (t.1, some t.2)

theorem known_append (taken taken' : List (Port × Item)) :
    known (taken ++ taken') = known taken ++ known taken' := List.map_append

@[simp] theorem known_eq_nil {taken : List (Port × Item)} : known taken = [] ↔ taken = [] :=
  List.map_eq_nil_iff

theorem SourcesPoll.taken [Leaf I (IoResult S)] {peer : S → Option (C × SocketAddr)} {i i' : I}
    {c c' : PendingConnects S} (h : SourcesPoll peer protocol i c r i' c' es) (p : Protocol)
    (lift : IoResult (Connection C) → Item) :
    let item := fun b x => (asItem peer protocol b x).map lift
    ∃ taken : List (Port × Item), (r.item.map lift).toList = taken.map Prod.snd ∧
      es.filterMap (EndpointEffect.taken p item) = known taken ∧
      (firstReady p ((items i).map (item false)) ((items c).map (item true))).toList =
        known taken ∧
      (items i).map (item false) = takenAt ⟨p, false⟩ taken ++ (items i').map (item false) ∧
      (items c).map (item true) = takenAt ⟨p, true⟩ taken ++ (items c').map (item true) ∧
      ∀ q b, q ≠ p → takenAt ⟨q, b⟩ taken = [] := by
  intro item
  cases h with
  | accepted hi hy =>
    have hx : item false _ = some (lift _) := congrArg (Option.map lift) hy
    refine ⟨[(⟨p, false⟩, lift _)], rfl, ?_, ?_, ?_, ?_, ?_⟩
    · simp [EndpointEffect.taken, known, hx]
    · rw [hi, List.map_cons, hx]
      rfl
    · rw [hi, List.map_cons, hx, takenAt_self, List.singleton_append]
    · rw [takenAt_other (by simp), List.nil_append]
    · intro q b hq
      exact takenAt_other (by simp [hq.symm]) _
  | connected hi hi' hp hc hf hy =>
    have hx : item true _ = some (lift _) := congrArg (Option.map lift) hy
    refine ⟨[(⟨p, true⟩, lift _)], rfl, ?_, ?_, ?_, ?_, ?_⟩
    · simp [EndpointEffect.taken, known, hx, hp]
    · rw [hi, hc, List.map_nil, List.map_cons, hx]
      rfl
    · rw [hi, hi', takenAt_other (by simp), List.nil_append]
    · rw [hc, List.map_cons, hx, takenAt_self, List.singleton_append]
    · intro q b hq
      exact takenAt_other (by simp [hq.symm]) _
  | idle hi hi' hp hc hc' hf hq =>
    refine ⟨[], rfl, ?_, ?_, ?_, ?_, fun _ _ _ => rfl⟩
    · simp [EndpointEffect.taken, known, hp, hq]
    · rw [hi, hc]
      rfl
    · rw [hi, hi', takenAt_nil, List.nil_append]
    · rw [hc, hc', takenAt_nil, List.nil_append]

def initiatorAddr : Item → Option SocketAddr
  | .ok conn => if conn.isInitiator then some conn.peerAddr else none
  | .error _ => none

def handed (r : Poll (Option Item)) : Option (Connection CombinedStream) :=
  r.item.bind Except.toOption

theorem handed_initiator {r : Poll (Option Item)} : r.item.bind initiatorAddr = some a ↔
    ∃ conn, handed r = some conn ∧ conn.isInitiator ∧ conn.peerAddr = a := by
  rw [handed]
  rcases r.item with _ | _ | conn
  · simp only [Option.bind_none, reduceCtorEq, false_and, exists_false]
  · simp only [Option.bind_some, initiatorAddr, Except.toOption, reduceCtorEq, false_and,
      exists_false]
  · simp only [Option.bind_some, initiatorAddr, Except.toOption, Option.some.injEq,
      exists_eq_left', Option.ite_none_right_eq_some]

namespace CombinedTransport

/-- `on_poll_connection` keeps the first initiated connection to each address. -/
theorem onPollConnection_spec (self : CombinedTransport)
    (poll : Poll (Option (IoResult (Connection T)))) (map : T → CombinedStream) :
    let given := (poll.item.map (liftItem map)).toList
    (self.onPollConnection poll map).1.toList = keepFirst initiatorAddr self.connected given ∧
      (self.onPollConnection poll map).2 =
        { self with connected := seenAfter initiatorAddr self.connected given } := by
  rcases poll with _ | _ | err | conn
  · exact ⟨rfl, by simp [onPollConnection]⟩
  · exact ⟨rfl, by simp [onPollConnection]⟩
  · have hk : initiatorAddr (liftItem map (.error err)) = none := rfl
    refine ⟨(keepFirst_cons_none hk []).symm, ?_⟩
    rw [Poll.item_ready, Option.map_some, Option.toList_some, seenAfter_cons_none hk,
      seenAfter_nil]
    rfl
  · obtain ⟨stream, addr, isInitiator, protocol⟩ := conn
    simp only [Poll.item_ready, Option.map_some, Option.toList_some]
    cases isInitiator with
    | false =>
      have hk : initiatorAddr (liftItem map (.ok ⟨stream, addr, false, protocol⟩)) = none := rfl
      rw [keepFirst_cons_none hk, seenAfter_cons_none hk, seenAfter_nil]
      exact ⟨rfl, rfl⟩
    | true =>
      have hk : initiatorAddr (liftItem map (.ok ⟨stream, addr, true, protocol⟩)) = some addr :=
        rfl
      rw [seenAfter_cons_some hk, seenAfter_nil]
      by_cases ha : addr ∈ self.connected
      · rw [keepFirst_cons_seen hk ha, Finset.insert_eq_of_mem ha]
        simp [onPollConnection, onConnection, Connection.intoParts, ha]
      · rw [keepFirst_cons_new hk ha]
        simp [onPollConnection, onConnection, Connection.intoParts, ha, liftItem, Except.map]

/-- What a poll takes from the leaf sources, and what it hands on of it. -/
structure PollTakes (s : CombinedTransport) (r : Poll (Option Item)) (s' : CombinedTransport)
    (es : List TransportEffect) (taken : List (Port × Item)) : Prop where
  served : Served s.waiting s'.waiting taken
  effects : es.filterMap TransportEffect.taken = known taken
  result : r.item.toList = keepFirst initiatorAddr s.connected (taken.map Prod.snd)
  connected : s'.connected = seenAfter initiatorAddr s.connected (taken.map Prod.snd)

theorem served_tcp {self : CombinedTransport} {tcp : TcpTransport} {taken : List (Port × Item)}
    (hi : self.waiting ⟨.tcp, false⟩ =
      takenAt ⟨.tcp, false⟩ taken ++ ({ self with tcp }.waiting ⟨.tcp, false⟩))
    (hc : self.waiting ⟨.tcp, true⟩ =
      takenAt ⟨.tcp, true⟩ taken ++ ({ self with tcp }.waiting ⟨.tcp, true⟩))
    (ho : ∀ b, takenAt ⟨.utp, b⟩ taken = []) :
    Served self.waiting { self with tcp }.waiting taken := by
  rintro ⟨p, b⟩
  cases p with
  | tcp => cases b <;> assumption
  | utp =>
    rw [ho, List.nil_append]
    cases b <;> rfl

theorem served_utp {self : CombinedTransport} {utp : UtpTransport} {taken : List (Port × Item)}
    (hi : self.waiting ⟨.utp, false⟩ =
      takenAt ⟨.utp, false⟩ taken ++ ({ self with utp }.waiting ⟨.utp, false⟩))
    (hc : self.waiting ⟨.utp, true⟩ =
      takenAt ⟨.utp, true⟩ taken ++ ({ self with utp }.waiting ⟨.utp, true⟩))
    (ho : ∀ b, takenAt ⟨.tcp, b⟩ taken = []) :
    Served self.waiting { self with utp }.waiting taken := by
  rintro ⟨p, b⟩
  cases p with
  | utp => cases b <;> assumption
  | tcp =>
    rw [ho, List.nil_append]
    cases b <;> rfl

theorem filterMap_taken_tcp (es : List (EndpointEffect TcpStream)) :
    (es.map TransportEffect.tcp).filterMap TransportEffect.taken =
      es.filterMap (EndpointEffect.taken .tcp tcpItem) := by
  rw [List.filterMap_map]
  rfl

theorem filterMap_taken_utp (es : List (EndpointEffect UtpSocket)) :
    (es.map TransportEffect.utp).filterMap TransportEffect.taken =
      es.filterMap (EndpointEffect.taken .utp utpItem) := by
  rw [List.filterMap_map]
  rfl

theorem tcpHalf_takes {self : CombinedTransport} {tcp : TcpTransport}
    (h : self.tcp.pollNext.Returns (r, tcp) es) :
    ∃ taken, PollTakes self
        (.ready ({ self with tcp }.onPollConnection r .tcp).1)
        ({ self with tcp }.onPollConnection r .tcp).2 (es.map .tcp) taken ∧
      (self.next .tcp).toList = known taken ∧
      ({ self with tcp }.onPollConnection r .tcp).2.next .utp = self.next .utp := by
  obtain ⟨taken, hr, he, hn, hi, hc, ho⟩ := (TcpTransport.pollNext_cases h).taken .tcp (liftItem .tcp)
  obtain ⟨hk, hs⟩ := onPollConnection_spec { self with tcp } r .tcp
  rw [hr] at hk hs
  refine ⟨taken, ⟨?_, (filterMap_taken_tcp es).trans he, ?_, ?_⟩, hn, ?_⟩
  · rw [hs]
    exact served_tcp hi hc fun b => ho .utp b (by decide)
  · rw [Poll.item_ready]
    exact hk
  · rw [hs]
  · rw [hs]
    rfl

theorem utpHalf_takes {self : CombinedTransport} {utp : UtpTransport}
    (h : self.utp.pollNext.Returns (r, utp) es) :
    ∃ taken, PollTakes self
        (.ready ({ self with utp }.onPollConnection r .utp).1)
        ({ self with utp }.onPollConnection r .utp).2 (es.map .utp) taken ∧
      (self.next .utp).toList = known taken := by
  obtain ⟨taken, hr, he, hn, hi, hc, ho⟩ := (UtpTransport.pollNext_cases h).taken .utp (liftItem .utp)
  obtain ⟨hk, hs⟩ := onPollConnection_spec { self with utp } r .utp
  rw [hr] at hk hs
  refine ⟨taken, ⟨?_, (filterMap_taken_utp es).trans he, ?_, ?_⟩, hn⟩
  · rw [hs]
    exact served_utp hi hc fun b => ho .tcp b (by decide)
  · rw [Poll.item_ready]
    exact hk
  · rw [hs]

theorem PollTakes.trans (h : PollTakes self (.ready none) s es taken)
    (h' : PollTakes s r self' es' taken') : PollTakes self r self' (es ++ es') (taken ++ taken') := by
  have hn : keepFirst initiatorAddr self.connected (taken.map Prod.snd) = [] := h.result.symm
  refine ⟨h.served.trans h'.served, ?_, ?_, ?_⟩
  · rw [List.filterMap_append, h.effects, h'.effects, known_append]
  · rw [List.map_append, keepFirst_append, hn, List.nil_append, ← h.connected, h'.result]
  · rw [List.map_append, seenAfter_append, ← h.connected, h'.connected]

theorem PollTakes.congr (h : PollTakes self r self' es taken) (hr : r.item = r'.item) :
    PollTakes self r' self' es taken := ⟨h.served, h.effects, hr ▸ h.result, h.connected⟩

/-- The ways `poll_next` returns: uTP is polled only when nothing of TCP's is handed on. -/
inductive Polled (self : CombinedTransport) :
    Poll (Option Item) → CombinedTransport → List TransportEffect → Prop where
  | tcp : self.tcp.pollNext.Returns (p, tcp') es →
      { self with tcp := tcp' }.onPollConnection p .tcp = (some res, s) →
      Polled self (.ready (some res)) s (es.map .tcp)
  | utp (res : Option Item) : self.tcp.pollNext.Returns (p, tcp') es →
      { self with tcp := tcp' }.onPollConnection p .tcp = (none, s) →
      s.utp.pollNext.Returns (q, utp') es' →
      { s with utp := utp' }.onPollConnection q .utp = (res, s') →
      Polled self (.ofItem res) s' (es.map .tcp ++ es'.map .utp)

theorem pollNext_cases {self self' : CombinedTransport}
    (h : self.pollNext.Returns (r, self') es) : Polled self r self' es := by
  simp only [pollNext, Exec.returns_bind, Exec.returns_embed] at h
  obtain ⟨⟨p, tcp⟩, _, _, ⟨es₁, hp, rfl⟩, hr, rfl⟩ := h
  dsimp only at hr
  split at hr
  · next res s he =>
    simp only [Exec.returns_pure, Prod.mk.injEq] at hr
    obtain ⟨⟨rfl, rfl⟩, rfl⟩ := hr
    rw [List.append_nil]
    exact .tcp hp he
  · next s he =>
    simp only [Exec.returns_bind, Exec.returns_embed] at hr
    obtain ⟨⟨q, utp⟩, _, _, ⟨es₂, hq, rfl⟩, hr, rfl⟩ := hr
    dsimp only at hr
    split at hr
    · next res s' he' =>
      simp only [Exec.returns_pure, Prod.mk.injEq] at hr
      obtain ⟨⟨rfl, rfl⟩, rfl⟩ := hr
      rw [List.append_nil]
      exact .utp _ hp he hq he'
    · next s' he' =>
      simp only [Exec.returns_pure, Prod.mk.injEq] at hr
      obtain ⟨⟨rfl, rfl⟩, rfl⟩ := hr
      rw [List.append_nil]
      exact .utp _ hp he hq he'

/-- A poll takes what is next at TCP, and if it hands nothing of that on, what is next at uTP. -/
theorem pollNext_takes {self self' : CombinedTransport}
    (h : self.pollNext.Returns (r, self') es) :
    r ≠ .ready none ∧ ∃ taken₁ taken₂, PollTakes self r self' es (taken₁ ++ taken₂) ∧
      (self.next .tcp).toList = known taken₁ ∧
      (keepFirst initiatorAddr self.connected (taken₁.map Prod.snd) ≠ [] ∧ taken₂ = [] ∨
        keepFirst initiatorAddr self.connected (taken₁.map Prod.snd) = [] ∧
          (self.next .utp).toList = known taken₂) := by
  cases pollNext_cases h with
  | tcp hp he =>
    obtain ⟨taken₁, h₁, hn₁, -⟩ := tcpHalf_takes hp
    rw [he] at h₁
    have hk := h₁.result
    rw [Poll.item_ready, Option.toList_some] at hk
    refine ⟨by simp, taken₁, [], ?_, hn₁, .inl ⟨by simp [← hk], rfl⟩⟩
    rw [List.append_nil]
    exact h₁
  | utp res hp he hq he' =>
    obtain ⟨taken₁, h₁, hn₁, hu⟩ := tcpHalf_takes hp
    obtain ⟨taken₂, h₂, hn₂⟩ := utpHalf_takes hq
    rw [he] at h₁ hu
    rw [hu] at hn₂
    rw [he'] at h₂
    refine ⟨Poll.ofItem_ne_end _, taken₁, taken₂, h₁.trans (h₂.congr ?_), hn₁,
      .inr ⟨h₁.result.symm, hn₂⟩⟩
    rw [Poll.item_ofItem, Poll.item_ready]

end CombinedTransport

end HyperswarmRs
