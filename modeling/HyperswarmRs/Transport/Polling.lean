import HyperswarmRs.Transport.Served

namespace HyperswarmRs
open Async
set_option autoImplicit true

theorem known_eq_singleton {taken : List (Port × Item)} {port : Port} {y : Option Item}
    (h : [(port, y)] = known taken) : ∃ x, taken = [(port, x)] ∧ y = some x := by
  cases taken with
  | nil => cases h
  | cons t ts =>
    obtain ⟨p, x⟩ := t
    simp only [known, List.map_cons, List.cons.injEq, Prod.mk.injEq] at h
    obtain ⟨⟨rfl, rfl⟩, hn⟩ := h
    have ht : ts = [] := known_eq_nil.1 hn.symm
    rw [ht]
    exact ⟨x, rfl, rfl⟩

def initiated (es : List TransportEffect) : List SocketAddr :=
  (es.filterMap TransportEffect.taken).filterMap fun t => t.2.bind initiatorAddr

theorem initiated_known {es : List TransportEffect} {taken : List (Port × Item)}
    (h : es.filterMap TransportEffect.taken = known taken) :
    initiated es = (taken.map Prod.snd).filterMap initiatorAddr := by
  rw [initiated, h, known, List.filterMap_map, List.filterMap_map]
  rfl

/-- A connection initiated to the address was consumed and not handed on. -/
def Skipped (r : Poll (Option Item)) (es : List TransportEffect) (a : SocketAddr) : Prop :=
  a ∈ initiated es ∧ r.item.bind initiatorAddr ≠ some a

namespace TransportEffect

def tcpDial? : TransportEffect → Option SocketAddr
  | .tcp (.dial a) => some a
  | _ => none

def utpDial? : TransportEffect → Option SocketAddr
  | .utp (.dial a) => some a
  | _ => none

end TransportEffect

theorem SourcesPoll.no_dial [Leaf I (IoResult S)] {peer : S → Option (C × SocketAddr)} {i i' : I}
    {c c' : PendingConnects S} (h : SourcesPoll peer protocol i c r i' c' es) (a : SocketAddr) :
    .dial a ∉ es := by
  cases h <;> simp only [List.mem_cons, reduceCtorEq, List.not_mem_nil, or_false, not_false_eq_true]

namespace CombinedTransport

theorem Polled.no_dial {self self' : CombinedTransport} (h : Polled self r self' es) :
    es.filterMap TransportEffect.tcpDial? = [] ∧ es.filterMap TransportEffect.utpDial? = [] := by
  have ht : ∀ {es : List (EndpointEffect TcpStream)}, (∀ a, .dial a ∉ es) →
      (es.map TransportEffect.tcp).filterMap TransportEffect.tcpDial? = [] := by
    intro es hn
    rw [List.filterMap_map, List.filterMap_eq_nil_iff]
    intro e he
    cases e with
    | dial a => exact (hn a he).elim
    | incoming r => rfl
    | connects r => rfl
  have hu : ∀ {es : List (EndpointEffect UtpSocket)}, (∀ a, .dial a ∉ es) →
      (es.map TransportEffect.utp).filterMap TransportEffect.utpDial? = [] := by
    intro es hn
    rw [List.filterMap_map, List.filterMap_eq_nil_iff]
    intro e he
    cases e with
    | dial a => exact (hn a he).elim
    | incoming r => rfl
    | connects r => rfl
  cases h with
  | tcp hp he =>
    refine ⟨ht (TcpTransport.pollNext_cases hp).no_dial, ?_⟩
    rw [List.filterMap_map]
    exact List.filterMap_eq_nil_iff.2 fun _ _ => rfl
  | utp res hp he hq he' =>
    rw [List.filterMap_append, List.filterMap_append, ht (TcpTransport.pollNext_cases hp).no_dial,
      hu (UtpTransport.pollNext_cases hq).no_dial, List.filterMap_map, List.filterMap_map]
    exact ⟨List.filterMap_eq_nil_iff.2 fun _ _ => rfl, List.append_eq_nil_iff.2
      ⟨List.filterMap_eq_nil_iff.2 fun _ _ => rfl, rfl⟩⟩

def nextAddr (self : CombinedTransport) (p : Protocol) : Option SocketAddr :=
  (self.next p).bind fun t => t.2.bind initiatorAddr

def nextItem (self : CombinedTransport) (p : Protocol) : Option Item :=
  (self.next p).bind Prod.snd

def upcoming (self : CombinedTransport) : Option Item :=
  (keepFirst initiatorAddr self.connected
    ((self.nextItem .tcp).toList ++ (self.nextItem .utp).toList)).head?

/-- The result that a protocol takes next is skipped as a double connection. -/
def Duplicate (self : CombinedTransport) (p : Protocol) (a : SocketAddr) : Prop :=
  a ∈ self.connected ∧ self.nextAddr p = some a

/-- A poll of the protocol hands nothing on. -/
def Passes (self : CombinedTransport) (p : Protocol) : Prop :=
  self.next p = none ∨ ∃ a, self.Duplicate p a

theorem next_cases {self : CombinedTransport} (h : (self.next p).toList = known taken) :
    self.next p = none ∧ taken = [] ∨
      ∃ port x, self.next p = some (port, some x) ∧ taken = [(port, x)] := by
  cases hn : self.next p with
  | none =>
    rw [hn] at h
    exact .inl ⟨rfl, known_eq_nil.1 h.symm⟩
  | some t =>
    obtain ⟨port, y⟩ := t
    rw [hn] at h
    obtain ⟨x, ht, rfl⟩ := known_eq_singleton h
    exact .inr ⟨port, x, rfl, ht⟩

theorem passes_iff {self : CombinedTransport} (h : (self.next p).toList = known taken) :
    keepFirst initiatorAddr self.connected (taken.map Prod.snd) = [] ↔ self.Passes p := by
  rcases next_cases h with ⟨hn, rfl⟩ | ⟨port, x, hn, rfl⟩
  · exact ⟨fun _ => .inl hn, fun _ => rfl⟩
  · simp only [List.map_cons, List.map_nil, keepFirst_singleton, Passes, Duplicate, nextAddr, hn,
      Option.bind_some, reduceCtorEq, false_or]

theorem nextItem_eq {self : CombinedTransport} (h : (self.next p).toList = known taken) :
    (self.nextItem p).toList = taken.map Prod.snd := by
  rcases next_cases h with ⟨hn, rfl⟩ | ⟨port, x, hn, rfl⟩
  · rw [nextItem, hn]
    rfl
  · rw [nextItem, hn]
    rfl

theorem pollNext_item {self self' : CombinedTransport}
    (h : self.pollNext.Returns (r, self') es) : r.item = self.upcoming := by
  obtain ⟨-, taken₁, taken₂, ht, hn₁, hn₂⟩ := pollNext_takes h
  have hr : r.item = r.item.toList.head? := by cases r.item <;> rfl
  rw [hr, ht.result, upcoming, nextItem_eq hn₁, List.map_append]
  rcases hn₂ with ⟨hk, rfl⟩ | ⟨-, hn₂⟩
  · rw [List.map_nil, List.append_nil, keepFirst_append, List.head?_append_of_ne_nil _ hk]
  · rw [nextItem_eq hn₂]

theorem nextAddr_eq {self : CombinedTransport} (h : (self.next p).toList = known taken) :
    (self.nextAddr p).toList = (taken.map Prod.snd).filterMap initiatorAddr := by
  rcases next_cases h with ⟨hn, rfl⟩ | ⟨port, x, hn, rfl⟩
  · rw [nextAddr, hn]
    rfl
  · simp only [nextAddr, hn, Option.bind_some, List.map_cons, List.map_nil, List.filterMap_cons,
      List.filterMap_nil]
    cases initiatorAddr x <;> rfl

/-- A poll hands nothing on exactly when neither protocol does. -/
theorem pollNext_pending_iff {self self' : CombinedTransport}
    (h : self.pollNext.Returns (r, self') es) : r = .pending ↔ ∀ p, self.Passes p := by
  obtain ⟨hr, taken₁, taken₂, ht, hn₁, hn₂⟩ := pollNext_takes h
  have hp : r = .pending ↔ r.item.toList = [] := by
    rcases r with _ | _ | x
    · simp only [Poll.item_pending, Option.toList_none]
    · exact (hr rfl).elim
    · simp only [reduceCtorEq, Poll.item_ready, Option.toList_some, List.cons_ne_nil]
  rw [hp, ht.result, List.map_append, keepFirst_append, List.append_eq_nil_iff, passes_iff hn₁]
  rcases hn₂ with ⟨hk, -⟩ | ⟨hk, hn₂⟩
  · rw [Ne, passes_iff hn₁] at hk
    exact ⟨fun h => (hk h.1).elim, fun h => (hk (h .tcp)).elim⟩
  · rw [seenAfter_of_keepFirst_nil hk, passes_iff hn₂]
    refine ⟨fun h p => ?_, fun h => ⟨h .tcp, h .utp⟩⟩
    cases p with
    | tcp => exact h.1
    | utp => exact h.2

theorem mem_initiated {self self' : CombinedTransport}
    (h : self.pollNext.Returns (r, self') es) : a ∈ initiated es ↔
      self.nextAddr .tcp = some a ∨ self.Passes .tcp ∧ self.nextAddr .utp = some a := by
  obtain ⟨-, taken₁, taken₂, ht, hn₁, hn₂⟩ := pollNext_takes h
  rw [initiated_known ht.effects, List.map_append, List.filterMap_append, List.mem_append,
    ← nextAddr_eq hn₁, Option.mem_toList]
  apply or_congr_right
  rcases hn₂ with ⟨hk, rfl⟩ | ⟨hk, hn₂⟩
  · rw [Ne, passes_iff hn₁] at hk
    simp only [List.map_nil, List.filterMap_nil, List.not_mem_nil, hk, false_and]
  · rw [← nextAddr_eq hn₂, Option.mem_toList]
    exact (and_iff_right ((passes_iff hn₁).1 hk)).symm

theorem mem_connected {self self' : CombinedTransport}
    (h : self.pollNext.Returns (r, self') es) :
    a ∈ self'.connected ↔ a ∈ self.connected ∨ r.item.bind initiatorAddr = some a := by
  obtain ⟨-, taken₁, taken₂, ht, -⟩ := pollNext_takes h
  rw [ht.connected, ← seenAfter_keepFirst, ← ht.result, mem_seenAfter]
  apply or_congr_right
  cases r.item with
  | none => simp only [Option.toList_none, List.not_mem_nil, false_and, exists_false,
      Option.bind_none, reduceCtorEq]
  | some x => simp only [Option.toList_some, List.mem_singleton, exists_eq_left,
      Option.bind_some]

/-- What a poll skips is initiated to an address that was connected before. -/
theorem skipped_iff {self self' : CombinedTransport}
    (h : self.pollNext.Returns (r, self') es) :
    Skipped r es a ↔ a ∈ initiated es ∧ a ∈ self.connected := by
  obtain ⟨-, taken₁, taken₂, ht, -⟩ := pollNext_takes h
  rw [Skipped, initiated_known ht.effects]
  apply and_congr_right
  intro ha
  have hk : a ∈ (keepFirst initiatorAddr self.connected _).filterMap initiatorAddr ↔
      a ∉ self.connected := mem_keepFirst_key ha
  rw [← ht.result, List.mem_filterMap] at hk
  rw [← not_iff_not, ← hk, not_not]
  cases r.item with
  | none => simp only [Option.bind_none, reduceCtorEq, Option.toList_none, List.not_mem_nil,
      false_and, exists_false]
  | some x => simp only [Option.bind_some, Option.toList_some, List.mem_singleton,
      exists_eq_left]

theorem next_known (h : Passes s p) (port : Port) : s.next p ≠ some (port, none) := by
  intro hn
  rcases h with hp | ⟨a, -, ha⟩
  · rw [hp] at hn
    cases hn
  · rw [nextAddr, hn] at ha
    cases ha

def Live (self : CombinedTransport) : Prop := self.tcp.incoming.Accepting

theorem bind_live (listener : TcpListener) (utp : UtpTransport) :
    (bind (.bind listener) utp).Live := ⟨_, _, rfl⟩

end CombinedTransport

theorem tcpItem_isSome (h : tcpItem b x ≠ none) :
    (asItem TcpTransport.peer TcpTransport.protocol b x).isSome := by
  rw [tcpItem, Ne, Option.map_eq_none_iff] at h
  exact Option.isSome_iff_ne_none.2 h

theorem TcpTransport.pollNext_halts_of_named {s : TcpTransport} (hl : s.incoming.Accepting)
    (ha : ∀ x, (items s.incoming).head? = some x → (asItem peer protocol false x).isSome)
    (hc : ∀ x, items s.incoming = [] → (items s.pendingConnects).head? = some x →
      (asItem peer protocol true x).isSome) : s.pollNext.Halts := by
  obtain ⟨r, i, es, hi, -⟩ := TcpIncoming.pollNext_exists hl
  obtain ⟨⟨r, i, c⟩, es, ho⟩ := pollSources_halts hi.halts ha hc
  exact ho.halts_bind (Exec.halts_pure _)

theorem TcpTransport.pollNext_halts {self : CombinedTransport} (hl : self.Live)
    (hk : ∀ port, self.next .tcp ≠ some (port, none)) : self.tcp.pollNext.Halts := by
  apply TcpTransport.pollNext_halts_of_named hl
  · intro x hx
    apply tcpItem_isSome
    intro hn
    apply hk ⟨.tcp, false⟩
    obtain ⟨xs, hq⟩ := List.head?_eq_some_iff.1 hx
    change self.tcp.incoming.items = x :: xs at hq
    have hw : self.waiting ⟨.tcp, false⟩ = tcpItem false x :: xs.map (tcpItem false) := by
      rw [CombinedTransport.waiting, hq, List.map_cons]
    rw [CombinedTransport.next, hw]
    exact congrArg (fun y => some (_, y)) hn
  · intro x he hx
    apply tcpItem_isSome
    intro hn
    apply hk ⟨.tcp, true⟩
    obtain ⟨xs, hq⟩ := List.head?_eq_some_iff.1 hx
    change self.tcp.incoming.items = [] at he
    change self.tcp.pendingConnects.done = x :: xs at hq
    have hw : self.waiting ⟨.tcp, false⟩ = [] := by
      rw [CombinedTransport.waiting, he, List.map_nil]
    have hw' : self.waiting ⟨.tcp, true⟩ = tcpItem true x :: xs.map (tcpItem true) := by
      rw [CombinedTransport.waiting, hq, List.map_cons]
    rw [CombinedTransport.next, hw, hw']
    exact congrArg (fun y => some (_, y)) hn

theorem UtpTransport.pollNext_halts (self : UtpTransport) : self.pollNext.Halts := by
  have hsome : ∀ b x, (asItem peer protocol b x).isSome := by
    intro b x
    cases x <;> rfl
  have hout : (pollSources peer protocol self.incoming self.pendingConnects).Halts :=
    pollSources_halts (Source.pollNext_halts self.incoming) (fun x _ => hsome false x)
      (fun x _ _ => hsome true x)
  obtain ⟨⟨r, i, c⟩, es, ho⟩ := hout
  exact ho.halts_bind (Exec.halts_pure _)

namespace CombinedTransport

/-- A poll returns unless the TCP stream it takes cannot tell its peer. -/
theorem pollNext_halts {self : CombinedTransport} (hl : self.Live)
    (hk : ∀ port, self.next .tcp ≠ some (port, none)) : self.pollNext.Halts := by
  obtain ⟨⟨p, tcp⟩, es, hp⟩ := TcpTransport.pollNext_halts hl hk
  apply (hp.embed TransportEffect.tcp).halts_bind
  dsimp only
  split
  · exact Exec.halts_pure _
  · next s _ =>
    obtain ⟨⟨q, utp⟩, es', hq⟩ := UtpTransport.pollNext_halts s.utp
    apply (hq.embed TransportEffect.utp).halts_bind
    dsimp only
    split
    · exact Exec.halts_pure _
    · exact Exec.halts_pure _

theorem onPollConnection_tcp {self s : CombinedTransport}
    {poll : Poll (Option (IoResult (Connection T)))} {map : T → CombinedStream}
    (h : self.onPollConnection poll map = (res, s)) : s.tcp = self.tcp := by
  have hs := (onPollConnection_spec self poll map).2
  rw [h] at hs
  change s = _ at hs
  rw [hs]

theorem tcp_pollNext_accepting {tcp tcp' : TcpTransport}
    (h : tcp.pollNext.Returns (r, tcp') es) : tcp'.incoming.Accepting := by
  simp only [TcpTransport.pollNext, Exec.returns_bind, Exec.returns_pure, Prod.mk.injEq] at h
  obtain ⟨⟨r, i, c⟩, _, _, hp, ⟨⟨rfl, rfl⟩, rfl⟩, rfl⟩ := h
  obtain ⟨p, es', hp⟩ := pollSources_incoming hp
  exact TcpIncoming.pollNext_accepting hp

theorem pollNext_live {self self' : CombinedTransport}
    (h : self.pollNext.Returns (r, self') es) : self'.Live := by
  rw [Live]
  cases pollNext_cases h with
  | tcp hp he =>
    rw [onPollConnection_tcp he]
    exact tcp_pollNext_accepting hp
  | utp _ hp he hq he' =>
    rw [onPollConnection_tcp he', onPollConnection_tcp he]
    exact tcp_pollNext_accepting hp

def pushConnects (self : CombinedTransport) (a : SocketAddr) : CombinedTransport := { self with
  tcp.pendingConnects := self.tcp.pendingConnects.push a
  utp.pendingConnects := self.utp.pendingConnects.push a }

theorem connect_returns (self : CombinedTransport) (a : SocketAddr) :
    (self.connect a).Returns (self.pushConnects a) [.tcp (.dial a), .utp (.dial a)] := rfl

@[simp] theorem pushConnects_waiting (self : CombinedTransport) (a : SocketAddr) :
    (self.pushConnects a).waiting = self.waiting := by
  funext ⟨p, b⟩
  cases p <;> cases b <;> rfl

@[simp] theorem pushConnects_next (self : CombinedTransport) (a : SocketAddr) :
    (self.pushConnects a).next = self.next := by
  funext p
  rw [next, pushConnects_waiting, next]

theorem act_live {self : CombinedTransport} (hl : self.Live) (i : TransportInput) :
    (self.act i).Live := by
  cases i with
  | tcpIncoming result => exact TcpIncoming.act_accepting hl result
  | tcpConnect c => exact hl
  | utpIncoming i => exact hl
  | utpConnect c => exact hl

theorem act_connected (self : CombinedTransport) (i : TransportInput) :
    (self.act i).connected = self.connected := by
  cases i <;> rfl

theorem onPollConnection_accepted {self s : CombinedTransport} {map : C → CombinedStream}
    (h : asItem peer protocol false x = some y) :
    self.onPollConnection (.ready (some y)) map ≠ (none, s) := by
  cases x with
  | error e =>
    cases h
    exact fun he => by cases he
  | ok stream =>
    simp only [asItem, Option.map_eq_some_iff] at h
    obtain ⟨p, -, rfl⟩ := h
    exact fun he => by cases he

theorem sources_of_passed [Leaf I (IoResult S)] {peer : S → Option (C × SocketAddr)} {i i' : I}
    {c c' : PendingConnects S} {self s : CombinedTransport} {map : C → CombinedStream}
    (h : SourcesPoll peer protocol i c r i' c' es) (he : self.onPollConnection r map = (none, s)) :
    ∃ p q, es = [.incoming p, .connects q] ∧ p.item = none := by
  cases h with
  | accepted hi hy => exact (onPollConnection_accepted hy he).elim
  | connected hi hi' hp => exact ⟨_, _, rfl, hp⟩
  | idle hi hi' hp => exact ⟨_, _, rfl, hp⟩

/-- A pending poll has asked all four sources, and neither of the accepts had a result. -/
theorem pollNext_pending {self self' : CombinedTransport}
    (h : self.pollNext.Returns (.pending, self') es) :
    ∃ p₁ q₁ p₂ q₂, es = [.tcp (.incoming p₁), .tcp (.connects q₁), .utp (.incoming p₂),
      .utp (.connects q₂)] ∧ p₁.item = none ∧ p₂.item = none := by
  generalize hr : Poll.pending = r at h
  cases pollNext_cases h with
  | tcp hp he => cases hr
  | utp res hp he hq he' =>
    cases res with
    | some x => cases hr
    | none =>
      obtain ⟨p₁, q₁, rfl, h₁⟩ := sources_of_passed (TcpTransport.pollNext_cases hp) he
      obtain ⟨p₂, q₂, rfl, h₂⟩ := sources_of_passed (UtpTransport.pollNext_cases hq) he'
      exact ⟨p₁, q₁, p₂, q₂, rfl, h₁, h₂⟩

theorem next_known_of_returns {self self' : CombinedTransport}
    (h : self.pollNext.Returns (r, self') es) (port : Port) :
    self.next .tcp ≠ some (port, none) := by
  intro hn
  obtain ⟨-, taken₁, taken₂, -, hn₁, -⟩ := pollNext_takes h
  rw [hn] at hn₁
  obtain ⟨x, -, hx⟩ := known_eq_singleton hn₁
  cases hx

end CombinedTransport

end HyperswarmRs
