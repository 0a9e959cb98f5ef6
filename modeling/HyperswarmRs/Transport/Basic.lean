import HyperswarmRs.Net
import HyperswarmRs.Async.Stream

namespace HyperswarmRs
open Async
set_option autoImplicit true

structure Connection (T : Type) where
  inner : T
  peerAddr : SocketAddr
  isInitiator : Bool
  protocol : String
  deriving DecidableEq, Repr

def Connection.intoParts (conn : Connection T) : T × SocketAddr × Bool × String :=
  (conn.inner, conn.peerAddr, conn.isInitiator, conn.protocol)

/-- The trait `Transport`: a stream of connections that can be told to dial an address. -/
class Transport (σ : Type) (ε C : outParam Type) extends
    AsyncStream σ ε (IoResult (Connection C)) where
  connect : σ → SocketAddr → Exec ε σ

inductive EndpointEffect (S : Type) where
  | dial (peerAddr : SocketAddr)
  | incoming (r : Poll (Option (IoResult S)))
  | connects (r : Poll (Option (IoResult S)))
  deriving DecidableEq, Repr

abbrev PendingConnects (S : Type) : Type := FuturesUnordered SocketAddr (IoResult S)

/-- `into_connection`, over what the protocol's streams answer when asked for their peer; no
answer is the failed query that the code unwraps. -/
def intoConnection (peer : S → Option (C × SocketAddr)) (protocol : String)
    (poll : Poll (Option (IoResult S))) (isInitiator : Bool) :
    Exec ε (Option (IoResult (Connection C))) :=
  match poll with
  | .pending => pure none
  | .ready none => pure none
  | .ready (some (.error e)) => pure (some (.error e))
  | .ready (some (.ok stream)) =>
    match peer stream with
    | none => .fail .panicked
    | some (inner, peerAddr) => pure (some (.ok ⟨inner, peerAddr, isInitiator, protocol⟩))

/-- The body that `TcpTransport::poll_next` and `UtpTransport::poll_next` share. -/
def pollSources [Leaf I (IoResult S)] (peer : S → Option (C × SocketAddr)) (protocol : String)
    (incoming : I) (pendingConnects : PendingConnects S) :
    Exec (EndpointEffect S)
      (Poll (Option (IoResult (Connection C))) × I × PendingConnects S) := do
  let (poll, incoming) ← (pollNext incoming).embed .incoming
  match ← intoConnection peer protocol poll false with
  | some conn => return (.ready (some conn), incoming, pendingConnects)
  | none =>
    let (connect, pendingConnects) ← (pollNext pendingConnects).embed .connects
    match ← intoConnection peer protocol connect true with
    | some conn => return (.ready (some conn), incoming, pendingConnects)
    | none => return (.pending, incoming, pendingConnects)

def asItem (peer : S → Option (C × SocketAddr)) (protocol : String) (isInitiator : Bool) :
    IoResult S → Option (IoResult (Connection C))
  | .error e => some (.error e)
  | .ok stream => (peer stream).map fun p => .ok ⟨p.1, p.2, isInitiator, protocol⟩

theorem intoConnection_eq (peer : S → Option (C × SocketAddr)) (protocol : String)
    (poll : Poll (Option (IoResult S))) (b : Bool) :
    (intoConnection peer protocol poll b : Exec ε _) =
      match poll.item with
      | none => pure none
      | some x =>
        match asItem peer protocol b x with
        | none => .fail .panicked
        | some y => pure (some y) := by
  rcases poll with _ | _ | _ | stream
  · rfl
  · rfl
  · rfl
  · simp only [intoConnection, Poll.item, asItem]
    cases peer stream <;> rfl

theorem intoConnection_returns {peer : S → Option (C × SocketAddr)}
    {poll : Poll (Option (IoResult S))} {es : List ε}
    (h : (intoConnection peer protocol poll b).Returns c es) :
    es = [] ∧ (poll.item = none ∧ c = none ∨
      ∃ x y, poll.item = some x ∧ asItem peer protocol b x = some y ∧ c = some y) := by
  rw [intoConnection_eq] at h
  cases hp : poll.item with
  | none =>
    simp only [hp, Exec.returns_pure] at h
    exact ⟨h.2, .inl ⟨rfl, h.1⟩⟩
  | some x =>
    cases hx : asItem peer protocol b x with
    | none =>
      simp only [hp, hx] at h
      exact (Exec.returns_fail h).elim
    | some y =>
      simp only [hp, hx, Exec.returns_pure] at h
      exact ⟨h.2, .inr ⟨x, y, rfl, hx, h.1⟩⟩

inductive SourcesPoll [Leaf I (IoResult S)] (peer : S → Option (C × SocketAddr))
    (protocol : String) (i : I) (c : PendingConnects S) :
    Poll (Option (IoResult (Connection C))) → I → PendingConnects S →
      List (EndpointEffect S) → Prop where
  | accepted : items i = x :: items i' → asItem peer protocol false x = some y →
      SourcesPoll peer protocol i c (.ready (some y)) i' c [.incoming (.ready (some x))]
  | connected : items i = [] → items i' = [] → p.item = none → items c = x :: items c' →
      c'.inFlight = c.inFlight → asItem peer protocol true x = some y →
      SourcesPoll peer protocol i c (.ready (some y)) i' c'
        [.incoming p, .connects (.ready (some x))]
  | idle : items i = [] → items i' = [] → p.item = none → items c = [] → items c' = [] →
      c'.inFlight = c.inFlight → q.item = none →
      SourcesPoll peer protocol i c .pending i' c' [.incoming p, .connects q]

theorem pollSources_cases [Leaf I (IoResult S)] {peer : S → Option (C × SocketAddr)} {i i' : I}
    {c c' : PendingConnects S}
    (h : (pollSources peer protocol i c).Returns (r, i', c') es) :
    SourcesPoll peer protocol i c r i' c' es := by
  simp only [pollSources, Exec.returns_bind, Exec.returns_embed] at h
  obtain ⟨⟨p, j⟩, _, _, ⟨_, hp, rfl⟩, ⟨conn, _, _, hc, hr, rfl⟩, rfl⟩ := h
  obtain ⟨rfl, ⟨hn, rfl⟩ | ⟨x, y, hx, hy, rfl⟩⟩ := intoConnection_returns hc
  · obtain ⟨rfl, hi, hi'⟩ := Leaf.items_of_none hp hn
    simp only [Exec.returns_bind, Exec.returns_embed] at hr
    obtain ⟨⟨q, d⟩, _, _, ⟨_, hq, rfl⟩, ⟨conn, _, _, hc', hr, rfl⟩, rfl⟩ := hr
    have hf := FuturesUnordered.pollNext_inFlight hq
    obtain ⟨rfl, ⟨hn', rfl⟩ | ⟨x, y, hx, hy, rfl⟩⟩ := intoConnection_returns hc'
    · obtain ⟨rfl, hd, hd'⟩ := Leaf.items_of_none hq hn'
      simp only [Exec.returns_pure, Prod.mk.injEq] at hr
      obtain ⟨⟨rfl, rfl, rfl⟩, rfl⟩ := hr
      exact .idle hi hi' hn hd hd' hf hn'
    · obtain ⟨rfl, hd⟩ := Leaf.items_of_item hq hx
      simp only [Exec.returns_pure, Prod.mk.injEq] at hr
      obtain ⟨⟨rfl, rfl, rfl⟩, rfl⟩ := hr
      exact .connected hi hi' hn hd hf hy
  · obtain ⟨rfl, hi⟩ := Leaf.items_of_item hp hx
    simp only [Exec.returns_pure, Prod.mk.injEq] at hr
    obtain ⟨⟨rfl, rfl, rfl⟩, rfl⟩ := hr
    exact .accepted hi hy

theorem pollSources_incoming [Leaf I (IoResult S)] {peer : S → Option (C × SocketAddr)}
    {i i' : I} {c c' : PendingConnects S}
    (h : (pollSources peer protocol i c).Returns (r, i', c') es) :
    ∃ p es', (pollNext i).Returns (p, i') es' := by
  simp only [pollSources, Exec.returns_bind, Exec.returns_embed] at h
  obtain ⟨⟨p, j⟩, _, _, ⟨es', hp, rfl⟩, ⟨conn, _, _, hc, hr, rfl⟩, rfl⟩ := h
  have hj : i' = j := by
    cases conn with
    | some conn => exact (Prod.mk.inj (Prod.mk.inj (Exec.returns_pure.1 hr).1).2).1
    | none =>
      simp only [Exec.returns_bind] at hr
      obtain ⟨_, _, _, hq, ⟨conn, _, _, hc', hr, rfl⟩, rfl⟩ := hr
      cases conn with
      | some conn => exact (Prod.mk.inj (Prod.mk.inj (Exec.returns_pure.1 hr).1).2).1
      | none => exact (Prod.mk.inj (Prod.mk.inj (Exec.returns_pure.1 hr).1).2).1
  exact ⟨p, es', hj ▸ hp⟩

theorem intoConnection_exists {peer : S → Option (C × SocketAddr)}
    {poll : Poll (Option (IoResult S))}
    (h : ∀ x, poll.item = some x → (asItem peer protocol b x).isSome) :
    ∃ c, (intoConnection peer protocol poll b : Exec ε _).Returns c [] := by
  rw [intoConnection_eq]
  cases hp : poll.item with
  | none => exact ⟨none, rfl⟩
  | some x =>
    obtain ⟨y, hy⟩ := Option.isSome_iff_exists.1 (h x hp)
    simp only [hy]
    exact ⟨some y, rfl⟩

theorem pollSources_halts [Leaf I (IoResult S)] {peer : S → Option (C × SocketAddr)} {i : I}
    {c : PendingConnects S} (hi : (pollNext i).Halts)
    (ha : ∀ x, (items i).head? = some x → (asItem peer protocol false x).isSome)
    (hc : ∀ x, items i = [] → (items c).head? = some x → (asItem peer protocol true x).isSome) :
    (pollSources peer protocol i c).Halts := by
  obtain ⟨⟨p, i'⟩, es, hp⟩ := hi
  have hspec := pollNext_spec hp
  obtain ⟨conn, hconn⟩ := intoConnection_exists (ε := EndpointEffect S)
    (fun x hx => ha x (hspec.2.1.symm.trans hx))
  apply (hp.embed EndpointEffect.incoming).halts_bind
  apply hconn.halts_bind
  cases conn with
  | some conn => exact Exec.halts_pure _
  | none =>
    have hn : items i = [] := by
      obtain ⟨-, ⟨hn, -⟩ | ⟨x, y, hx, hy, he⟩⟩ := intoConnection_returns hconn
      · exact (Leaf.items_of_none hp hn).2.1
      · cases he
    obtain ⟨⟨q, c'⟩, es', hq⟩ := FuturesUnordered.pollNext_halts c
    obtain ⟨conn, hconn'⟩ := intoConnection_exists (ε := EndpointEffect S)
      (fun x hx => hc x hn ((pollNext_spec hq).2.1.symm.trans hx))
    apply (hq.embed EndpointEffect.connects).halts_bind
    apply hconn'.halts_bind
    cases conn with
    | some conn => exact Exec.halts_pure _
    | none => exact Exec.halts_pure _

end HyperswarmRs
