import HyperswarmRs.Chat.LoopProgress
import HyperswarmRs.Chat.Tasks

namespace HyperswarmRs
open Async
set_option autoImplicit true

/-- What a connection is to be told: whether its peer is in the list, whether its loop has ended,
and what has been said while it was there to listen. -/
structure Listener where
  listed : Bool := false
  ended : Bool := false
  told : List Message := []
  deriving DecidableEq, Repr

/-- The connection `i`, of a peer that is known as `id`. -/
def Listener.note (i : Nat) (id : PeerId) (l : Listener) : BroadcastEffect → Listener
  | .saved j => if j = i then { l with listed := true } else l
  | .removed peerId => if peerId = id then { l with listed := false } else l
  | .disconnected j => if j = i then { l with ended := true } else l
  | .broadcast message =>
    if l.listed && !l.ended then { l with told := l.told ++ [message] } else l
  | .connected .. | .loop .. | .incoming .. => l

def listener (i : Nat) (id : PeerId) (es : List BroadcastEffect) : Listener :=
  es.foldl (Listener.note i id) {}

theorem listener_append (i : Nat) (id : PeerId) (es es' : List BroadcastEffect) :
    listener i id (es ++ es') = es'.foldl (Listener.note i id) (listener i id es) :=
  List.foldl_append

theorem note_loops (id : PeerId) (l : Listener) (es : List LoopEffect) :
    (es.map (.loop j)).foldl (Listener.note i id) l = l := by
  induction es with
  | nil => rfl
  | cons e es ih => exact ih

namespace BroadcastEffect

def incoming? (i : Nat) : BroadcastEffect → Option IncomingMessage
  | .incoming j message => if j = i then some message else none
  | _ => none

def index? : BroadcastEffect → Option Nat
  | .connected i _ | .saved i | .loop i _ | .disconnected i | .incoming i _ => some i
  | .broadcast _ | .removed _ => none

end BroadcastEffect

def incomingPart (i : Nat) (es : List BroadcastEffect) : List IncomingMessage :=
  es.filterMap (BroadcastEffect.incoming? i)

@[simp] theorem incomingPart_append (i : Nat) (es es' : List BroadcastEffect) :
    incomingPart i (es ++ es') = incomingPart i es ++ incomingPart i es' := List.filterMap_append

theorem incomingPart_loops (es : List LoopEffect) : incomingPart i (es.map (.loop j)) = [] :=
  filterMap_map_none (fun _ => rfl) es

theorem parts_of_unknown (i : Nat) (es : List BroadcastEffect)
    (h : ∀ e ∈ es, ∀ j ∈ BroadcastEffect.index? e, j ≠ i) :
    loopPart i es = [] ∧ incomingPart i es = [] ∧ ∀ id, listener i id es = {} := by
  refine ⟨List.filterMap_eq_nil_iff.2 ?_, List.filterMap_eq_nil_iff.2 ?_, fun id => ?_⟩
  · intro e he
    cases e with
    | loop j e => exact if_neg (h _ he j rfl)
    | _ => rfl
  · intro e he
    cases e with
    | incoming j message => exact if_neg (h _ he j rfl)
    | _ => rfl
  · rw [listener]
    induction es with
    | nil => rfl
    | cons e es ih =>
      have hn : Listener.note i id {} e = {} := by
        cases e with
        | saved j => exact if_neg (h _ List.mem_cons_self j rfl)
        | disconnected j => exact if_neg (h _ List.mem_cons_self j rfl)
        | removed peerId =>
          rw [Listener.note]
          split <;> rfl
        | _ => rfl
      rw [List.foldl_cons, hn]
      exact ih fun e he => h e (List.mem_cons_of_mem _ he)

namespace ConnectionLoop

/-- The receiver of the messages to send lives as long as the loop. -/
def Live (c : ConnectionLoop) : Prop := c.outbound.receiver = c.result.isNone

theorem Idles.live (h : Idles c d) (hc : c.Live) : d.Live := by
  rw [Live, h.receiver, h.result]
  exact hc

theorem OnBody.live (h : OnBody c len body es c') (hc : c.Live) : c'.Live := by
  cases h with
  | refused hl hs => rfl
  | _ => exact hc

theorem Turn.live (h : Turn c es c') (hc : c.Live) : c'.Live := by
  cases h with
  | waits hb hi => exact hi.live hc
  | failed hr hn hi => rfl
  | body hr ha hb hh hu hn hbody => exact hbody.live hc
  | took hr hs ha hp =>
    rw [Live, (Channel.poll_senders hp).2]
    exact hc
  | wrote hr hs hroom hn hl => exact hc
  | header hr hs ha hb hl => exact hc

theorem Turn.senders (h : Turn c es c') : c'.outbound.senders = c.outbound.senders := by
  cases h with
  | waits hb hi => exact hi.senders
  | failed hr hn hi => exact hi.senders
  | body hr ha hb hh hu hn hbody => cases hbody <;> rfl
  | took hr hs ha hp => exact (Channel.poll_senders hp).1
  | _ => rfl

theorem Turn.received (h : Turn c es c') : es.filterMap LoopEffect.received? = [] := by
  cases h with
  | body hr ha hb hh hu hn hbody => cases hbody <;> rfl
  | _ => rfl

theorem sendMessage_cases (h : (sendMessage c message).Returns c' es) :
    c.outbound.receiver = false ∧ c' = c ∧ es = [] ∨
      c.outbound.receiver = true ∧ es = [.queued message] ∧
        c' = { c with outbound := { c.outbound with queue := c.outbound.queue ++ [message] } } := by
  rw [sendMessage, Channel.trySend] at h
  cases hr : c.outbound.receiver with
  | false =>
    rw [hr] at h
    obtain ⟨rfl, rfl⟩ := Exec.returns_pure.1 h
    exact .inl ⟨rfl, rfl, rfl⟩
  | true =>
    rw [hr] at h
    obtain ⟨_, _, _, he, hp, rfl⟩ := Exec.returns_bind.1 h
    obtain ⟨rfl, rfl⟩ := Exec.returns_pure.1 hp
    obtain rfl := Exec.returns_emit.1 he
    exact .inr ⟨rfl, rfl, by rw [← hr]⟩

end ConnectionLoop

end HyperswarmRs
