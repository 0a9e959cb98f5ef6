import HyperswarmRs.Chat.LoopRuns

namespace HyperswarmRs
open Async
set_option autoImplicit true

namespace ConnectionLoop

/-- What a turn takes from its stream. -/
structure Draws (c : ConnectionLoop) (es : List LoopEffect) (c' : ConnectionLoop) : Prop where
  arrived : c.stream.arrived = es.flatMap LoopEffect.bytesRead ++ c'.stream.arrived
  room : c.stream.room = (es.flatMap LoopEffect.written).length + c'.stream.room
  readEnd : c'.stream.readEnd = c.stream.readEnd
  writeEnd : c'.stream.writeEnd = c.stream.writeEnd

theorem draws_quiet (h : c'.stream = c.stream) : Draws c [] c' := by
  refine ⟨?_, ?_, ?_, ?_⟩
  · rw [h]
    rfl
  · rw [h]
    exact (Nat.zero_add _).symm
  · rw [h]
  · rw [h]

theorem Draws.append (h : Draws c es c') (h' : Draws c' es' c'') : Draws c (es ++ es') c'' where
  arrived := by rw [h.arrived, h'.arrived, List.flatMap_append, List.append_assoc]
  room := by rw [h.room, h'.room, List.flatMap_append, List.length_append, Nat.add_assoc]
  readEnd := h'.readEnd.trans h.readEnd
  writeEnd := h'.writeEnd.trans h.writeEnd

theorem OnBody.draws (h : OnBody c len body es c') : Draws c es c' := by
  cases h with
  | more hl => exact draws_quiet rfl
  | refused hl hs => exact draws_quiet rfl
  | delivered hl hs => exact ⟨rfl, (Nat.zero_add _).symm, rfl, rfl⟩

theorem draws_read (ha : c.stream.arrived = bytes ++ rest) :
    Draws c [.read bytes] (c.unread rest) := by
  refine ⟨?_, (Nat.zero_add _).symm, rfl, rfl⟩
  rw [ha, List.flatMap_singleton]
  rfl

theorem Turn.draws (h : Turn c es c') : Draws c es c' := by
  cases h with
  | waits hb hi => exact draws_quiet hi.stream
  | failed hr hn hi => exact draws_quiet hi.stream
  | header hr hs ha hb hl => exact (draws_read ha).append (draws_quiet rfl)
  | body hr ha hb hh hu hn hbody => exact (draws_read ha).append hbody.draws
  | took hr hs ha hp => exact ⟨rfl, (Nat.zero_add _).symm, rfl, rfl⟩
  | wrote hr hs hroom hn hl =>
    refine ⟨rfl, ?_, rfl, rfl⟩
    rw [hroom, List.flatMap_singleton]
    exact congrArg (· + _) (List.length_take_of_le hl).symm

theorem Turn.queued (h : Turn c es c') : es.filterMap LoopEffect.queued? = [] := by
  cases h with
  | body hr ha hb hh hu hn hbody => cases hbody <;> rfl
  | _ => rfl

theorem task_draws (hc : c.Sane) (h : (task c e).Returns c' es) : Draws c es c' := by
  cases e with
  | advance => exact (advance_cases hc h).draws
  | send message =>
    change (sendMessage c message).Returns c' es at h
    rw [sendMessage] at h
    split at h
    · obtain ⟨rfl, rfl⟩ := Exec.returns_pure.1 h
      exact draws_quiet rfl
    · obtain ⟨_, _, _, he, hp, rfl⟩ := Exec.returns_bind.1 h
      obtain ⟨rfl, rfl⟩ := Exec.returns_pure.1 hp
      obtain rfl := Exec.returns_emit.1 he
      exact ⟨rfl, (Nat.zero_add _).symm, rfl, rfl⟩
  | hangUp =>
    obtain ⟨rfl, rfl⟩ := Exec.returns_pure.1 h
    exact draws_quiet rfl
  | receive =>
    obtain ⟨⟨r, d⟩, _, _, hd, hp, rfl⟩ := Exec.returns_bind.1 h
    obtain ⟨rfl, rfl⟩ := Exec.returns_pure.1 hp
    obtain ⟨ch, rfl, rfl, -⟩ := receive_cases hd
    cases r.item with
    | none => exact draws_quiet rfl
    | some message => exact ⟨rfl, (Nat.zero_add _).symm, rfl, rfl⟩
  | dropReceiver =>
    obtain ⟨rfl, rfl⟩ := Exec.returns_pure.1 h
    exact draws_quiet rfl

/-- The bytes that a loop has still to write. -/
def toWrite (c : ConnectionLoop) : Nat :=
  (frames 4 c.outbound.queue).length + c.state.unwritten.length

theorem Turn.toWrite (h : Turn c es c') :
    c.toWrite = (es.flatMap LoopEffect.written).length + c'.toWrite := by
  have hs := h.relays.sends
  have hw := congrArg List.length h.relays.writes
  rw [h.queued, Fifo, List.append_nil] at hs
  rw [List.length_append, List.length_append] at hw
  rw [ConnectionLoop.toWrite, hs, frames_append, List.length_append, ConnectionLoop.toWrite]
  omega

/-- A turn that gets on: it reads, it writes, it takes a message, or it is the last. -/
def GetsOn (c : ConnectionLoop) (es : List LoopEffect) (c' : ConnectionLoop) : Prop :=
  es.flatMap LoopEffect.bytesRead ≠ [] ∨ es.flatMap LoopEffect.written ≠ [] ∨
    es.filterMap LoopEffect.took? ≠ [] ∨ c.result = none ∧ c'.result ≠ none

theorem Turn.idles (h : Turn c es c') (hb : c.Blocked) : Idles c c' ∧ es = [] := by
  cases h with
  | waits _ hi => exact ⟨hi, rfl⟩
  | failed hr hn hi => exact (hn hb).elim
  | header hr hs ha hn hl =>
    rw [(hb.of_selecting hr hs).1] at ha
    exact (hn (List.append_eq_nil_iff.1 ha.symm).1).elim
  | body hr ha hn hh hu hl hbody =>
    have hnil : c.stream.arrived = [] := by
      cases hs : c.state with
      | selecting header => exact (hb.of_selecting hr hs).1
      | reading len body => exact (hb.of_reading hr hs).1
      | writing buf => exact (hu buf hs).elim
    rw [hnil] at ha
    exact (hn (List.append_eq_nil_iff.1 ha.symm).1).elim
  | took hr hs ha hp =>
    have hq := Channel.poll_queue hp
    rw [(hb.of_selecting hr hs).2.2.1] at hq
    cases hq
  | wrote hr hs hroom hn hl =>
    rw [(hb.of_writing hr hs).1] at hroom
    omega

theorem Turn.gets_on (h : Turn c es c') (hb : ¬ c.Blocked) : GetsOn c es c' := by
  cases h with
  | waits hw hi => exact (hb hw).elim
  | failed hr hn hi => exact .inr (.inr (.inr ⟨hr, fun he => by cases he⟩))
  | header hr hs ha hn hl =>
    refine .inl ?_
    rw [List.flatMap_singleton]
    exact hn
  | body hr ha hn hh hu hl hbody =>
    refine .inl ?_
    rw [List.flatMap_cons]
    exact List.append_ne_nil_of_left_ne_nil hn _
  | took hr hs ha hp => exact .inr (.inr (.inl (List.cons_ne_nil _ _)))
  | @wrote buf n k hr hs hroom hn hl =>
    refine .inr (.inl ?_)
    rw [List.flatMap_singleton]
    apply List.ne_nil_of_length_pos
    rw [LoopEffect.written, List.length_take_of_le hl]
    exact hn

theorem Turn.result (h : Turn c es c') (hr : c.result ≠ none) : c'.result ≠ none := by
  cases h with
  | waits hb hi => exact hi.result ▸ hr
  | failed hn hb hi => exact fun he => by cases he
  | header hn hs ha hb hl => exact (hr hn).elim
  | body hn ha hb hh hu hl hbody => exact (hr hn).elim
  | took hn hs ha hp => exact (hr hn).elim
  | wrote hn hs hroom hl hb => exact (hr hn).elim

theorem onBody_halts (c : ConnectionLoop) (len : Nat) (body : List UInt8) :
    (c.onBody len body).Halts := by
  rw [onBody]
  split
  · exact Exec.halts_pure _
  · split
    · exact Exec.halts_pure _
    · exact (Exec.emit_returns _).halts_bind (Exec.halts_pure _)

theorem onHeader_halts (c : ConnectionLoop) (header : List UInt8) : (c.onHeader header).Halts := by
  rw [onHeader]
  split
  · exact Exec.halts_pure _
  · exact onBody_halts ..

theorem onOutbound_halts (c : ConnectionLoop) (header : List UInt8) :
    (c.onOutbound header).Halts := by
  rw [onOutbound]
  split
  · exact Exec.halts_pure _
  · exact Exec.halts_pure _
  · exact (Exec.emit_returns _).halts_bind ((Exec.emit_returns _).halts_bind (Exec.halts_pure _))

theorem advance_halts (c : ConnectionLoop) : c.advance.Halts := by
  rw [advance]
  split
  · exact Exec.halts_pure _
  · cases c.state with
    | selecting header =>
      simp only [onSelecting]
      split
      · exact (Exec.emit_returns _).halts_bind (onHeader_halts ..)
      · exact Exec.halts_pure _
      · exact onOutbound_halts ..
    | reading len body =>
      simp only [onReading]
      split
      · exact (Exec.emit_returns _).halts_bind (onBody_halts ..)
      · exact Exec.halts_pure _
      · exact Exec.halts_pure _
    | writing buf =>
      simp only [onWriting]
      split
      · exact (Exec.emit_returns _).halts_bind (Exec.halts_pure _)
      · exact Exec.halts_pure _
      · exact Exec.halts_pure _

theorem sendMessage_halts (c : ConnectionLoop) (message : Message) :
    (c.sendMessage message).Halts := by
  rw [sendMessage]
  split
  · exact Exec.halts_pure _
  · exact (Exec.emit_returns _).halts_bind (Exec.halts_pure _)

theorem receive_halts (c : ConnectionLoop) : c.receive.Halts := by
  rw [receive]
  split
  · exact (Exec.emit_returns _).halts_bind (Exec.halts_pure _)
  · exact Exec.halts_pure _

end ConnectionLoop

end HyperswarmRs
