import HyperswarmRs.Chat.LoopProgress
import Mathlib.Data.Bool.Basic
import Mathlib.Logic.Function.Basic

namespace HyperswarmRs
open Async
set_option autoImplicit true

/-- The loops at both ends of a connection: the bytes that each has written and that have not
arrived at the other, and how many the other has read without making room for more. -/
@[ext] structure Conversation where
  ends : Bool → ConnectionLoop
  wire : Bool → List UInt8
  acks : Bool → Nat

inductive ConversationEvent where
  | task (b : Bool) (e : TaskEvent)
  | stop (b : Bool) (i : DuplexEnd IoError)
  | carry (b : Bool) (n : Nat)
  | ack (b : Bool) (n : Nat)

namespace Conversation

/-- Each end may write so many bytes before the other has to read. -/
def start (room : Bool → Nat) : Conversation where
  ends b := .spawn { room := room b }
  wire _ := []
  acks _ := 0

def set (conv : Conversation) (b : Bool) (c : ConnectionLoop) : Conversation :=
  { conv with ends := Function.update conv.ends b c }

def stream (conv : Conversation) (b : Bool) (i : DuplexInput IoError) : Conversation :=
  conv.set b { conv.ends b with stream := (conv.ends b).stream.act i }

/-- What an end writes goes to the other one, and what it reads makes room there. -/
def sent (conv : Conversation) (b : Bool) (es : List LoopEffect) : Conversation :=
  { conv with
    wire := Function.update conv.wire b (conv.wire b ++ es.flatMap LoopEffect.written)
    acks := Function.update conv.acks (!b)
      (conv.acks (!b) + (es.flatMap LoopEffect.bytesRead).length) }

def carry (conv : Conversation) (b : Bool) (n : Nat) : Conversation :=
  { conv with wire := Function.update conv.wire b ((conv.wire b).drop n) }.stream (!b)
    (.arrive ((conv.wire b).take n))

def ack (conv : Conversation) (b : Bool) (n : Nat) : Conversation :=
  { conv with acks := Function.update conv.acks b (conv.acks b - n) }.stream b
    (.grant (min n (conv.acks b)))

def step (conv : Conversation) : ConversationEvent → Exec (Bool × LoopEffect) Conversation
  | .task b e => do
    let (c, es) ← ((conv.ends b).task e).listen.embed (b, ·)
    return (conv.set b c).sent b es
  | .stop b i => pure (conv.stream b (.stop i))
  | .carry b n => pure (conv.carry b n)
  | .ack b n => pure (conv.ack b n)

section Ends

variable (conv : Conversation) (b : Bool) (c : ConnectionLoop) (es : List LoopEffect)

@[simp] theorem set_self : (conv.set b c).ends b = c := Function.update_self ..

theorem set_other (h : a ≠ b) : (conv.set b c).ends a = conv.ends a := Function.update_of_ne h ..

@[simp] theorem set_not : (conv.set b c).ends (!b) = conv.ends (!b) :=
  set_other _ _ _ (Bool.not_ne_self b)

theorem sent_ends : (conv.sent b es).ends = conv.ends := rfl

@[simp] theorem sent_wire : (conv.sent b es).wire b =
    conv.wire b ++ es.flatMap LoopEffect.written := Function.update_self ..

@[simp] theorem sent_wire_not : (conv.sent b es).wire (!b) = conv.wire (!b) :=
  Function.update_of_ne (Bool.not_ne_self b) ..

@[simp] theorem sent_acks : (conv.sent b es).acks b = conv.acks b :=
  Function.update_of_ne (Bool.self_ne_not b) ..

@[simp] theorem sent_acks_not : (conv.sent b es).acks (!b) =
    conv.acks (!b) + (es.flatMap LoopEffect.bytesRead).length := Function.update_self ..

@[simp] theorem carry_ends (n : Nat) : (conv.carry b n).ends b = conv.ends b :=
  set_other _ _ _ (Bool.self_ne_not b)

@[simp] theorem carry_ends_not (n : Nat) : (conv.carry b n).ends (!b) =
    { conv.ends (!b) with
      stream := (conv.ends (!b)).stream.act (.arrive ((conv.wire b).take n)) } := set_self ..

@[simp] theorem carry_wire (n : Nat) : (conv.carry b n).wire b = (conv.wire b).drop n :=
  Function.update_self ..

@[simp] theorem carry_wire_not (n : Nat) : (conv.carry b n).wire (!b) = conv.wire (!b) :=
  Function.update_of_ne (Bool.not_ne_self b) ..

@[simp] theorem ack_ends (n : Nat) : (conv.ack b n).ends b =
    { conv.ends b with stream := (conv.ends b).stream.act (.grant (min n (conv.acks b))) } :=
  set_self ..

@[simp] theorem ack_ends_not (n : Nat) : (conv.ack b n).ends (!b) = conv.ends (!b) :=
  set_not ..

@[simp] theorem ack_acks (n : Nat) : (conv.ack b n).acks b = conv.acks b - n :=
  Function.update_self ..

@[simp] theorem ack_acks_not (n : Nat) : (conv.ack b n).acks (!b) = conv.acks (!b) :=
  Function.update_of_ne (Bool.not_ne_self b) ..

end Ends

/-- The steps of a conversation: a task of one end acts, or the network does. -/
inductive Steps (conv : Conversation) :
    ConversationEvent → List (Bool × LoopEffect) → Conversation → Prop where
  | task : ((conv.ends b).task e).Returns c es →
      Steps conv (.task b e) (es.map (b, ·)) ((conv.set b c).sent b es)
  | stop : Steps conv (.stop b i) [] (conv.stream b (.stop i))
  | carry : Steps conv (.carry b n) [] (conv.carry b n)
  | ack : Steps conv (.ack b n) [] (conv.ack b n)

theorem step_cases {conv conv' : Conversation} (h : (conv.step e).Returns conv' es) :
    Steps conv e es conv' := by
  cases e with
  | task b e =>
    obtain ⟨⟨c, es'⟩, _, _, he, hr, rfl⟩ := Exec.returns_bind.1 h
    obtain ⟨rfl, rfl⟩ := Exec.returns_pure.1 hr
    obtain ⟨es₁, hl, rfl⟩ := Exec.returns_embed.1 he
    obtain ⟨ht, hes⟩ := Exec.returns_listen.1 hl
    cases hes
    rw [List.append_nil]
    exact .task ht
  | stop b i =>
    obtain ⟨rfl, rfl⟩ := Exec.returns_pure.1 h
    exact .stop
  | carry b n =>
    obtain ⟨rfl, rfl⟩ := Exec.returns_pure.1 h
    exact .carry
  | ack b n =>
    obtain ⟨rfl, rfl⟩ := Exec.returns_pure.1 h
    exact .ack

def EndRun (a : Bool) (conv : Conversation) (tr : List (Bool × LoopEffect))
    (conv' : Conversation) : Prop :=
  ∃ events, (run ConnectionLoop.step (conv.ends a) events).Returns (conv'.ends a) (part a tr)

theorem endRun_stream (conv : Conversation) (b : Bool) (i : DuplexInput IoError) (a : Bool) :
    EndRun a conv [] (conv.stream b i) := by
  by_cases h : a = b
  · subst h
    refine ⟨[.stream i], run_one ?_⟩
    rw [stream, set_self]
    exact Exec.pure_returns _
  · refine ⟨[], ?_⟩
    rw [stream, set_other _ _ _ h]
    exact Exec.pure_returns _

theorem Steps.endRun (h : Steps conv e es conv') (a : Bool) : EndRun a conv es conv' := by
  cases h with
  | @task b e c es ht =>
    by_cases h : a = b
    · subst h
      refine ⟨[.task e], run_one ?_⟩
      rw [part_self]
      exact (set_self conv a c).symm ▸ ht
    · refine ⟨[], ?_⟩
      rw [part_other (Ne.symm h)]
      exact (set_other conv b c h).symm ▸ Exec.pure_returns _
  | stop => exact endRun_stream ..
  | carry => exact endRun_stream ..
  | ack => exact endRun_stream ..

theorem run_endRun {conv conv' : Conversation} (h : (run step conv events).Returns conv' tr)
    (a : Bool) : EndRun a conv tr conv' := by
  apply run_composes (R := fun conv _ tr conv' => EndRun a conv tr conv')
    (fun conv => ⟨[], Exec.pure_returns _⟩) ?_ (fun hs => (step_cases hs).endRun a) h
  rintro conv is tr conv' is' tr' conv'' ⟨events, h⟩ ⟨events', h'⟩
  refine ⟨events ++ events', ?_⟩
  rw [part_append]
  exact returns_run_append.2 ⟨_, _, _, h, h', rfl⟩

/-- The bytes that an end has written are those that the other has read, then those that have
arrived there, then those on the wire; and its room is what these and the acknowledgements on
their way leave of it. -/
structure Conveys (capacity : Nat) (b : Bool) (tr : List (Bool × LoopEffect)) (conv : Conversation) :
    Prop where
  bytes : (part b tr).flatMap LoopEffect.written =
    (part (!b) tr).flatMap LoopEffect.bytesRead ++
      ((conv.ends (!b)).stream.arrived ++ conv.wire b)
  room : (conv.ends b).stream.room + (conv.wire b).length +
    (conv.ends (!b)).stream.arrived.length + conv.acks b = capacity

theorem conveys_start (room : Bool → Nat) (b : Bool) : Conveys (room b) b [] (start room) :=
  ⟨rfl, rfl⟩

theorem Conveys.task (h : Conveys capacity b tr conv) (hd : ConnectionLoop.Draws (conv.ends a) es c) :
    Conveys capacity b (tr ++ es.map (a, ·)) ((conv.set a c).sent a es) := by
  have hroom := h.room
  rcases Bool.eq_or_eq_not b a with rfl | rfl
  · refine ⟨?_, ?_⟩
    · rw [part_append, part_self, part_append, part_other (Bool.self_ne_not b), List.append_nil,
        List.flatMap_append, h.bytes, sent_wire, sent_ends, set_not, List.append_assoc,
        List.append_assoc]
      rfl
    · rw [sent_ends, set_self, sent_wire, set_not, sent_acks, List.length_append]
      rw [hd.room] at hroom
      change c.stream.room + ((conv.wire b).length + _) + _ + conv.acks b = capacity
      omega
  · have ha := hd.arrived
    rw [Bool.not_not] at hroom
    refine ⟨?_, ?_⟩
    · rw [part_append, part_other (Bool.self_ne_not a), List.append_nil, h.bytes, Bool.not_not,
        part_append, part_self, List.flatMap_append, sent_wire_not, sent_ends, set_self, ha,
        List.append_assoc, List.append_assoc]
      rfl
    · rw [ha, List.length_append] at hroom
      rw [Bool.not_not, sent_ends, set_not, set_self, sent_wire_not, sent_acks_not]
      change _ + (conv.wire (!a)).length + _ + (conv.acks (!a) + _) = capacity
      omega

theorem Conveys.carry (h : Conveys capacity b tr conv) (a : Bool) (n : Nat) :
    Conveys capacity b tr (conv.carry a n) := by
  have hroom := h.room
  rcases Bool.eq_or_eq_not b a with rfl | rfl
  · refine ⟨?_, ?_⟩
    · rw [h.bytes, carry_ends_not, carry_wire]
      change _ = _ ++ ((_ ++ (conv.wire b).take n) ++ _)
      rw [List.append_assoc, List.take_append_drop]
    · have hn : (conv.wire b).length = ((conv.wire b).take n).length +
          ((conv.wire b).drop n).length := by rw [← List.length_append, List.take_append_drop]
      rw [carry_ends, carry_ends_not, carry_wire]
      change _ + _ + (_ ++ (conv.wire b).take n).length + conv.acks b = capacity
      rw [List.length_append]
      omega
  · refine ⟨?_, ?_⟩
    · rw [h.bytes, Bool.not_not, carry_ends, carry_wire_not]
    · rw [Bool.not_not] at hroom ⊢
      rw [carry_ends_not, carry_ends, carry_wire_not]
      exact hroom

theorem Conveys.ack (h : Conveys capacity b tr conv) (a : Bool) (n : Nat) :
    Conveys capacity b tr (conv.ack a n) := by
  have hroom := h.room
  rcases Bool.eq_or_eq_not b a with rfl | rfl
  · refine ⟨?_, ?_⟩
    · rw [h.bytes, ack_ends_not]
      rfl
    · rw [ack_ends, ack_ends_not, ack_acks]
      change (conv.ends b).stream.room + min n (conv.acks b) + (conv.wire b).length + _ + _ =
        capacity
      omega
  · refine ⟨?_, ?_⟩
    · rw [h.bytes, Bool.not_not, ack_ends]
      rfl
    · rw [Bool.not_not] at hroom ⊢
      rw [ack_ends_not, ack_ends, ack_acks_not]
      exact hroom

theorem Conveys.stop (h : Conveys capacity b tr conv) (a : Bool) (i : DuplexEnd IoError) :
    Conveys capacity b tr (conv.stream a (.stop i)) := by
  have hs : ∀ a', ((conv.stream a (.stop i)).ends a').stream.arrived =
        (conv.ends a').stream.arrived ∧
      ((conv.stream a (.stop i)).ends a').stream.room = (conv.ends a').stream.room := by
    intro a'
    rw [stream]
    by_cases ha : a' = a
    · subst ha
      rw [set_self]
      cases i <;> exact ⟨rfl, rfl⟩
    · rw [set_other _ _ _ ha]
      exact ⟨rfl, rfl⟩
  refine ⟨?_, ?_⟩
  · rw [(hs _).1, h.bytes]
    rfl
  · rw [(hs _).1, (hs _).2]
    exact h.room

theorem run_conveys {conv : Conversation} (h : (run step (start room) events).Returns conv tr)
    (b : Bool) : Conveys (room b) b tr conv := by
  suffices hw : (∀ a, (conv.ends a).Sane) ∧ Conveys (room b) b tr conv from hw.2
  apply run_trace (P := fun _ tr conv => (∀ a, (conv.ends a).Sane) ∧ Conveys (room b) b tr conv)
    ⟨fun a => ConnectionLoop.spawn_sane _, conveys_start room b⟩ ?_ h
  rintro is tr conv i conv' es ⟨hsane, hc⟩ hs
  have hcases := step_cases hs
  refine ⟨fun a => ?_, ?_⟩
  · obtain ⟨_, hr⟩ := hcases.endRun a
    exact (ConnectionLoop.run_relays (hsane a) hr).2
  · cases hcases with
    | task ht => exact hc.task (ConnectionLoop.task_draws (hsane _) ht)
    | stop =>
      rw [List.append_nil]
      exact hc.stop ..
    | carry =>
      rw [List.append_nil]
      exact hc.carry ..
    | ack =>
      rw [List.append_nil]
      exact hc.ack ..

theorem run_end {conv : Conversation} (h : (run step (start room) events).Returns conv tr)
    (a : Bool) : ConnectionLoop.Relays [] [] (.spawn { room := room a }) (part a tr)
      (conv.ends a) ∧ (conv.ends a).Sane := by
  obtain ⟨_, hr⟩ := run_endRun h a
  exact ConnectionLoop.run_relays (ConnectionLoop.spawn_sane _) hr

end Conversation

end HyperswarmRs
