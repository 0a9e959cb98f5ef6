import HyperswarmRs.Chat.Conversation

namespace HyperswarmRs
open Async
set_option autoImplicit true

namespace Conversation

def queued (b : Bool) (tr : List (Bool × LoopEffect)) : List Message :=
  (part b tr).filterMap LoopEffect.queued?

def took (b : Bool) (tr : List (Bool × LoopEffect)) : List Message :=
  (part b tr).filterMap LoopEffect.took?

def delivered (b : Bool) (tr : List (Bool × LoopEffect)) : List Message :=
  (part b tr).filterMap LoopEffect.delivered?

def received (b : Bool) (tr : List (Bool × LoopEffect)) : List Message :=
  (part b tr).filterMap LoopEffect.received?

/-- No header is dropped at the end, after part of it was read. -/
def KeepsHeaders (b : Bool) (tr : List (Bool × LoopEffect)) : Prop :=
  (part b tr).flatMap LoopEffect.lost = []

instance : Decidable (KeepsHeaders b tr) := inferInstanceAs (Decidable (_ = _))

section Runs

variable {conv : Conversation} (h : (run step (start room) events).Returns conv tr) (b : Bool)

include h

theorem run_queued : queued b tr = took b tr ++ (conv.ends b).outbound.queue :=
  (run_end h b).1.sends

theorem run_delivered : delivered b tr = received b tr ++ (conv.ends b).inbound.queue :=
  (run_end h b).1.receives

theorem run_frames (hl : KeepsHeaders (!b) tr) : frames 4 (took b tr) =
    frames 4 (delivered (!b) tr) ++ ((conv.ends (!b)).state.inHand ++
      ((conv.ends (!b)).stream.arrived ++ (conv.wire b ++ (conv.ends b).state.unwritten))) := by
  have hw : frames 4 (took b tr) = _ ++ _ := (run_end h b).1.writes
  have hr : (part (!b) tr).flatMap LoopEffect.bytesRead = _ ++ _ := (run_end h (!b)).1.reads
  rw [LoopEffect.readAs_eq hl] at hr
  rw [hw, (run_conveys h b).bytes, hr]
  simp only [delivered, List.append_assoc]

theorem run_framed (hf : ∀ m ∈ queued b tr, Fits 4 m) :
    Framed 4 (frames 4 (took b tr)) (took b tr) [] := by
  refine framed_frames (Nat.zero_lt_succ 3) fun m hm => hf m ?_
  rw [run_queued h b]
  exact List.mem_append_left _ hm

theorem run_delivers_in_order (hf : ∀ m ∈ queued b tr, Fits 4 m)
    (hl : KeepsHeaders (!b) tr) : delivered (!b) tr <+: took b tr := by
  apply (run_framed h b hf).begins (run_end h (!b)).1.fits
  rw [run_frames h b hl]
  exact List.prefix_append ..

theorem run_delivers_queued (hf : ∀ m ∈ queued b tr, Fits 4 m) (hl : KeepsHeaders (!b) tr) :
    delivered (!b) tr <+: queued b tr := by
  have hd := run_delivers_in_order h b hf hl
  have hq := run_queued h b
  exact hd.trans (hq ▸ List.prefix_append ..)

/-- Messages come out of a connection as they went in: in order, each of them once, and none that
was not sent. -/
theorem run_messages_in_order (hf : ∀ m ∈ queued b tr, Fits 4 m) (hl : KeepsHeaders (!b) tr) :
    received (!b) tr <+: queued b tr := by
  have hd := run_delivers_queued h b hf hl
  have hr := run_delivered h (!b)
  exact (hr ▸ List.prefix_append ..).trans hd

end Runs

theorem run_messages_in_order_two :
    let events := [.task true (.send [1]), .task true (.send [2, 3]), .task true .advance,
      .task true .advance, .carry true 4, .task false .advance, .carry true 9,
      .task true .advance, .task true .advance, .task false .advance, .task false .receive]
    ∃ conv tr, (run step (start fun _ => 16) events).Returns conv tr ∧
      received false tr = [[1]] ∧ received false tr <+: queued true tr := by
  intro events
  have hc : (run step (start fun _ => 16) events).check (fun _ tr => received false tr = [[1]] ∧
      KeepsHeaders false tr ∧ ∀ m ∈ queued true tr, m.length < 3) := by
    decide +kernel
  obtain ⟨conv, tr, h, hp⟩ := Exec.exists_of_check hc
  obtain ⟨hr, hl, hm⟩ := of_decide_eq_true hp
  refine ⟨conv, tr, h, hr, run_messages_in_order h true (fun m hq => ?_) hl⟩
  exact Nat.lt_trans (hm m hq) (by decide)

/-- Neither a loop nor the network has anything left to do. -/
structure AtRest (conv : Conversation) : Prop where
  blocked : ∀ b, (conv.ends b).Blocked
  wire : ∀ b, conv.wire b = []
  acks : ∀ b, conv.acks b = 0

def Writes (conv : Conversation) (b : Bool) : Prop := ∃ buf, (conv.ends b).state = .writing buf

instance (conv : Conversation) (b : Bool) : Decidable (conv.Writes b) :=
  match hs : (conv.ends b).state with
  | .writing buf => isTrue ⟨buf, hs⟩
  | .selecting _ | .reading .. => isFalse fun ⟨_, hw⟩ => by cases hs.symm.trans hw

section Rest

variable {conv : Conversation} (h : (run step (start room) events).Returns conv tr)
  (hrest : conv.AtRest) (hr : ∀ b, (conv.ends b).result = none)

include h hrest hr

omit h in
theorem AtRest.settled (hb : ¬ conv.Writes b) :
    (conv.ends b).stream.arrived = [] ∧ (conv.ends b).state.unwritten = [] := by
  cases hs : (conv.ends b).state with
  | selecting header => exact ⟨((hrest.blocked b).of_selecting (hr b) hs).1, rfl⟩
  | reading len body => exact ⟨((hrest.blocked b).of_reading (hr b) hs).1, rfl⟩
  | writing buf => exact (hb ⟨buf, hs⟩).elim

theorem run_fills (hb : conv.Writes b) : (conv.ends (!b)).stream.arrived.length = room b := by
  obtain ⟨buf, hs⟩ := hb
  have hroom := (run_conveys h b).room
  rw [((hrest.blocked b).of_writing (hr b) hs).1, hrest.wire, hrest.acks] at hroom
  simpa only [List.length_nil, Nat.zero_add, Nat.add_zero] using hroom

theorem run_writes_not (hc : 0 < room b) (hb : conv.Writes b) : conv.Writes (!b) := by
  by_contra hn
  have hfill := run_fills h hrest hr hb
  rw [(hrest.settled hr hn).1] at hfill
  exact Nat.ne_of_lt hc hfill

theorem run_overfills (hb : conv.Writes b) : room b < (frames 4 (queued b tr)).length := by
  have hfill := run_fills h hrest hr hb
  obtain ⟨buf, hs⟩ := hb
  have hne : buf ≠ [] := by
    have hsane := (run_end h b).2
    rw [ConnectionLoop.Sane, hs] at hsane
    exact hsane
  have hw : frames 4 (took b tr) = _ ++ _ := (run_end h b).1.writes
  have hl := congrArg List.length hw
  rw [(run_conveys h b).bytes, hs, LoopState.unwritten] at hl
  simp only [List.length_append] at hl
  have hpos : 0 < buf.length := List.length_pos_iff.2 hne
  rw [run_queued h b, frames_append, List.length_append]
  omega

theorem run_delivers_all (hw : ∀ b, ¬ conv.Writes b) (hf : ∀ b, ∀ m ∈ queued b tr, Fits 4 m)
    (hl : ∀ b, KeepsHeaders b tr) (b : Bool) : delivered (!b) tr = queued b tr := by
  have hdone : ∀ b, delivered (!b) tr = took b tr ∧ (conv.ends (!b)).state.inHand = [] := by
    intro b
    have he := run_frames h b (hl (!b))
    rw [(hrest.settled hr (hw (!b))).1, hrest.wire, (hrest.settled hr (hw b)).2,
      List.append_nil, List.append_nil, List.append_nil] at he
    have hframed : Framed 4 (frames 4 (took b tr)) (delivered (!b) tr) _ :=
      ⟨he, (run_end h (!b)).1.fits, (run_end h (!b)).2.incomplete (hr (!b))⟩
    exact hframed.unique (run_framed h b (hf b))
  have hidle := (hdone (!b)).2
  rw [Bool.not_not] at hidle
  rw [(hdone b).1, run_queued h b]
  cases hs : (conv.ends b).state with
  | selecting header =>
    rw [((hrest.blocked b).of_selecting (hr b) hs).2.2.1, List.append_nil]
  | reading len body =>
    rw [hs] at hidle
    exact (LoopState.reading_inHand_ne_nil len body hidle).elim
  | writing buf => exact (hw b ⟨buf, hs⟩).elim

/-- A conversation at rest has delivered everything, or both its ends wait to write more than
their connection holds, and neither reads what the other one wrote. -/
theorem run_rests (hc : ∀ b, 0 < room b) (hf : ∀ b, ∀ m ∈ queued b tr, Fits 4 m)
    (hl : ∀ b, KeepsHeaders b tr) : (∀ b, delivered (!b) tr = queued b tr) ∨
      ∀ b, conv.Writes b ∧ room b < (frames 4 (queued b tr)).length := by
  by_cases hw : ∃ b, conv.Writes b
  · obtain ⟨b, hb⟩ := hw
    have hnot := run_writes_not h hrest hr (hc b) hb
    refine .inr fun a => ?_
    have ha : conv.Writes a := by
      rcases Bool.eq_or_eq_not a b with rfl | rfl
      · exact hb
      · exact hnot
    exact ⟨ha, run_overfills h hrest hr ha⟩
  · exact .inl (run_delivers_all h hrest hr (not_exists.1 hw) hf hl)

end Rest

end Conversation

end HyperswarmRs
