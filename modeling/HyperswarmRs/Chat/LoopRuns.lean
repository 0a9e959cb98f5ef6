import HyperswarmRs.Chat.LoopTurns
import HyperswarmRs.Async.Trace

namespace HyperswarmRs
open Async
set_option autoImplicit true

namespace LoopEffect

def queued? : LoopEffect → Option Message
  | .queued message => some message
  | _ => none

def took? : LoopEffect → Option Message
  | .took message => some message
  | _ => none

def delivered? : LoopEffect → Option Message
  | .delivered message => some message
  | _ => none

def received? : LoopEffect → Option Message
  | .received message => some message
  | _ => none

def written : LoopEffect → List UInt8
  | .wrote bytes => bytes
  | _ => []

def bytesRead : LoopEffect → List UInt8
  | .read bytes => bytes
  | _ => []

/-- The bytes that a message was read from, or a header that was dropped. -/
def readAs : LoopEffect → List UInt8
  | .delivered message => frame 4 message
  | .dropped header => header
  | _ => []

def lost : LoopEffect → List UInt8
  | .dropped header => header
  | _ => []

theorem readAs_length (es : List LoopEffect) : (es.flatMap readAs).length =
    (frames 4 (es.filterMap delivered?)).length + (es.flatMap lost).length := by
  induction es with
  | nil => rfl
  | cons e es ih =>
    cases e <;> simp only [List.flatMap_cons, List.length_append, readAs,
      lost, delivered?, List.filterMap_cons, frames_cons, ih,
      List.length_nil] <;> omega

/-- If no header is dropped, what was read is made of the frames of what was delivered. -/
theorem readAs_eq {es : List LoopEffect} (h : es.flatMap lost = []) :
    es.flatMap readAs = frames 4 (es.filterMap delivered?) := by
  induction es with
  | nil => rfl
  | cons e es ih =>
    rw [List.flatMap_cons, List.append_eq_nil_iff] at h
    rw [List.flatMap_cons, ih h.2]
    cases e with
    | dropped header => exact congrArg (· ++ _) h.1
    | _ => rfl

end LoopEffect

namespace ConnectionLoop

/-- What a loop does with the bytes in hand, with those to write and with its channels: each is a
queue, and nothing is lost but the headers that it drops. -/
structure Relays (hand buf : List UInt8) (c : ConnectionLoop) (es : List LoopEffect)
    (c' : ConnectionLoop) : Prop where
  sends : Fifo c.outbound.queue (es.filterMap LoopEffect.queued?)
    (es.filterMap LoopEffect.took?) c'.outbound.queue
  writes : Fifo buf (frames 4 (es.filterMap LoopEffect.took?))
    (es.flatMap LoopEffect.written) c'.state.unwritten
  reads : Fifo hand (es.flatMap LoopEffect.bytesRead) (es.flatMap LoopEffect.readAs)
    c'.state.inHand
  receives : Fifo c.inbound.queue (es.filterMap LoopEffect.delivered?)
    (es.filterMap LoopEffect.received?) c'.inbound.queue
  fits : ∀ m ∈ es.filterMap LoopEffect.delivered?, Fits 4 m

theorem Relays.append (h : Relays hand buf c es c')
    (h' : Relays c'.state.inHand c'.state.unwritten c' es' c'') :
    Relays hand buf c (es ++ es') c'' where
  sends := by
    rw [List.filterMap_append, List.filterMap_append]
    exact h.sends.append h'.sends
  writes := by
    rw [List.filterMap_append, frames_append, List.flatMap_append]
    exact h.writes.append h'.writes
  reads := by
    rw [List.flatMap_append, List.flatMap_append]
    exact h.reads.append h'.reads
  receives := by
    rw [List.filterMap_append, List.filterMap_append]
    exact h.receives.append h'.receives
  fits := by
    rw [List.filterMap_append, List.forall_mem_append]
    exact ⟨h.fits, h'.fits⟩

theorem relays_quiet (hh : c'.state.inHand = hand) (hb : c'.state.unwritten = buf)
    (ho : c'.outbound.queue = c.outbound.queue) (hi : c'.inbound.queue = c.inbound.queue) :
    Relays hand buf c [] c' := by
  refine ⟨?_, ?_, ?_, ?_, fun m hm => by cases hm⟩
  · exact ho ▸ .refl _
  · exact hb ▸ .refl _
  · exact hh ▸ .refl _
  · exact hi ▸ .refl _

theorem Idles.relays (h : Idles c d) : Relays c.state.inHand c.state.unwritten c [] d :=
  relays_quiet (congrArg _ h.state) (congrArg _ h.state) h.queue (congrArg _ h.inbound)

theorem Idles.relays_finish (h : Idles c d) (err : LoopError) :
    Relays c.state.inHand c.state.unwritten c [] (d.finish err) := by
  refine relays_quiet (congrArg _ h.state) (congrArg _ h.state) h.queue ?_
  rw [← h.inbound]
  rfl

theorem Relays.read (h : Relays (hand ++ bytes) buf (c.unread rest) es c') :
    Relays hand buf c (.read bytes :: es) c' := by
  refine ⟨h.sends, h.writes, ?_, h.receives, h.fits⟩
  rw [List.flatMap_cons, List.flatMap_cons, Fifo, ← List.append_assoc]
  exact h.reads

theorem OnBody.relays (h : OnBody c len body es c') (hn : len < 256 ^ 4) :
    Relays (toBeBytes 4 len ++ body) [] c es c' := by
  cases h with
  | more hl => exact relays_quiet rfl rfl rfl rfl
  | refused hl hs => exact relays_quiet rfl rfl rfl rfl
  | delivered hl hs =>
    refine ⟨.refl _, .refl _, .take ?_, (Channel.trySend_queue hs).symm, ?_⟩
    · simp only [List.append_nil, List.flatMap_singleton, LoopEffect.readAs, frame, hl,
        LoopState.inHand]
    · rintro m (_ | ⟨_, ⟨⟩⟩)
      rw [Fits, hl]
      exact hn

theorem Turn.relays (h : Turn c es c') : Relays c.state.inHand c.state.unwritten c es c' := by
  cases h with
  | waits hb hi => exact hi.relays
  | failed hr hn hi => exact hi.relays_finish _
  | @header header bytes rest hr hs ha hb hl =>
    have hrel : Relays (header ++ bytes) [] (c.unread rest) []
        { c.unread rest with state := .selecting (header ++ bytes) } :=
      relays_quiet rfl rfl rfl rfl
    rw [hs]
    exact hrel.read
  | body hr ha hb hh hu hn hbody =>
    have hrel := hbody.relays hn
    rw [← hh] at hrel
    rw [LoopState.unwritten_eq_nil hu]
    exact hrel.read
  | took hr hs ha hp =>
    rw [hs]
    refine ⟨.take (Channel.poll_queue hp), ?_, .take ?_, .refl _, fun m hm => by cases hm⟩
    · exact List.append_nil _
    · simp only [List.append_nil, List.flatMap_cons, List.flatMap_nil, LoopEffect.readAs,
        LoopState.inHand]
  | @wrote buf n k hr hs hroom hn hl =>
    have hbuf : buf = buf.take n ++ buf.drop n := (List.take_append_drop ..).symm
    have hw : ((c.unused k).onWritten (buf.drop n)).state.unwritten = buf.drop n := by
      rw [onWritten]
      split
      · exact Eq.symm ‹_›
      · rfl
    have hh : ((c.unused k).onWritten (buf.drop n)).state.inHand = [] := by
      rw [onWritten]
      split <;> rfl
    rw [hs]
    refine ⟨.refl _, .take ?_, ?_, .refl _, fun m hm => by cases hm⟩
    · rw [hw, List.flatMap_singleton]
      exact hbuf
    · exact hh ▸ .refl _

theorem Idles.sane (h : Idles c d) (hc : c.Sane) : d.Sane := by
  rw [Sane, h.state, h.result]
  exact hc

theorem Idles.sane_finish (h : Idles c d) (hc : c.Sane) (hr : c.result = none) (err : LoopError) :
    (d.finish err).Sane := by
  have hst : (d.finish err).state = c.state := h.state
  rw [Sane] at hc ⊢
  rw [hst]
  cases hs : c.state with
  | selecting header =>
    rw [hs] at hc
    exact hc
  | reading len body =>
    rw [hs] at hc
    exact ⟨hc.1, fun _ => hc.2 hr⟩
  | writing buf =>
    rw [hs] at hc
    exact hc

theorem Turn.sane (h : Turn c es c') (hc : c.Sane) : c'.Sane := by
  cases h with
  | waits hb hi => exact hi.sane hc
  | failed hr hn hi => exact hi.sane_finish hc hr _
  | header hr hs ha hb hl => exact hl
  | body hr ha hb hh hu hn hbody =>
    cases hbody with
    | more hl => exact ⟨hn, fun _ => hl⟩
    | delivered hl hs => exact Nat.zero_lt_succ 3
    | refused hl hs => exact ⟨hn, fun hr => by cases hr⟩
  | took hr hs ha hp => exact List.append_ne_nil_of_left_ne_nil (List.cons_ne_nil _ _) _
  | @wrote buf n k hr hs hroom hn hl =>
    rw [onWritten]
    by_cases hd : buf.drop n = []
    · rw [if_pos hd]
      exact Nat.zero_lt_succ 3
    · rw [if_neg hd]
      exact hd

theorem Sane.incomplete {c : ConnectionLoop} (hc : c.Sane) (hr : c.result = none) :
    Incomplete 4 c.state.inHand := by
  rw [Sane] at hc
  cases hs : c.state with
  | selecting header =>
    rw [hs] at hc
    exact .of_length hc
  | reading len body =>
    rw [hs] at hc
    intro _
    rw [LoopState.inHand, List.take_left' (toBeBytes_length ..), fromBeBytes_toBeBytes,
      Nat.mod_eq_of_lt hc.1, List.length_append, toBeBytes_length]
    exact Nat.add_lt_add_left (hc.2 hr) 4
  | writing buf => exact incomplete_nil (Nat.zero_lt_succ 3)

theorem sendMessage_relays (h : (sendMessage c message).Returns c' es) :
    Relays c.state.inHand c.state.unwritten c es c' ∧ (c.Sane → c'.Sane) := by
  rw [sendMessage] at h
  split at h
  · obtain ⟨rfl, rfl⟩ := Exec.returns_pure.1 h
    exact ⟨relays_quiet rfl rfl rfl rfl, id⟩
  · obtain ⟨_, _, _, he, hp, rfl⟩ := Exec.returns_bind.1 h
    obtain ⟨rfl, rfl⟩ := Exec.returns_pure.1 hp
    obtain rfl := Exec.returns_emit.1 he
    have hq := Channel.trySend_queue ‹_›
    exact ⟨⟨hq.symm, .refl _, .refl _, .refl _, fun m hm => by cases hm⟩, id⟩

theorem receive_cases {r : Poll (Option Message)} (h : (receive c).Returns (r, c') es) :
    ∃ ch, c' = { c with inbound := ch } ∧ es = r.item.toList.map .received ∧
      c.inbound.queue = r.item.toList ++ ch.queue := by
  rw [receive] at h
  split at h
  · obtain ⟨_, _, _, he, hp, rfl⟩ := Exec.returns_bind.1 h
    obtain ⟨hv, rfl⟩ := Exec.returns_pure.1 hp
    obtain ⟨rfl, rfl⟩ := Prod.mk.inj hv
    obtain rfl := Exec.returns_emit.1 he
    exact ⟨_, rfl, rfl, Channel.poll_queue ‹_›⟩
  · rename_i r ch hn hp
    obtain ⟨hv, rfl⟩ := Exec.returns_pure.1 h
    obtain ⟨rfl, rfl⟩ := Prod.mk.inj hv
    have hr : r.item = none := by
      rcases r with _ | _ | message
      · rfl
      · rfl
      · exact (hn message rfl).elim
    have hq := Channel.poll_queue hp
    rw [hr] at hq ⊢
    exact ⟨ch, rfl, rfl, hq⟩

theorem receive_relays {r : Poll (Option Message)} (hq : c.inbound.queue = r.item.toList ++ ch.queue) :
    Relays c.state.inHand c.state.unwritten c (r.item.toList.map .received)
      { c with inbound := ch } := by
  cases hr : r.item with
  | none =>
    rw [hr] at hq
    exact relays_quiet rfl rfl rfl hq.symm
  | some message =>
    rw [hr] at hq
    exact ⟨.refl _, .refl _, .refl _, .take hq, fun m hm => by cases hm⟩

theorem task_relays (hc : c.Sane) (h : (task c e).Returns c' es) :
    Relays c.state.inHand c.state.unwritten c es c' ∧ c'.Sane := by
  cases e with
  | advance =>
    have ht := advance_cases hc h
    exact ⟨ht.relays, ht.sane hc⟩
  | send message =>
    obtain ⟨hrel, hs⟩ := sendMessage_relays h
    exact ⟨hrel, hs hc⟩
  | hangUp =>
    obtain ⟨rfl, rfl⟩ := Exec.returns_pure.1 h
    exact ⟨relays_quiet rfl rfl rfl rfl, hc⟩
  | receive =>
    obtain ⟨⟨r, d⟩, _, _, hd, hp, rfl⟩ := Exec.returns_bind.1 h
    obtain ⟨rfl, rfl⟩ := Exec.returns_pure.1 hp
    obtain ⟨ch, rfl, rfl, hq⟩ := receive_cases hd
    rw [List.append_nil]
    exact ⟨receive_relays hq, hc⟩
  | dropReceiver =>
    obtain ⟨rfl, rfl⟩ := Exec.returns_pure.1 h
    exact ⟨relays_quiet rfl rfl rfl rfl, hc⟩

theorem step_relays (hc : c.Sane) (h : (step c e).Returns c' es) :
    Relays c.state.inHand c.state.unwritten c es c' ∧ c'.Sane := by
  cases e with
  | task e => exact task_relays hc h
  | stream i =>
    obtain ⟨rfl, rfl⟩ := Exec.returns_pure.1 h
    exact ⟨relays_quiet rfl rfl rfl rfl, hc⟩

theorem run_relays (hc : c.Sane) (h : (run step c events).Returns c' tr) :
    Relays c.state.inHand c.state.unwritten c tr c' ∧ c'.Sane := by
  apply run_trace (P := fun _ tr c' => Relays c.state.inHand c.state.unwritten c tr c' ∧ c'.Sane)
    ⟨relays_quiet rfl rfl rfl rfl, hc⟩ ?_ h
  rintro is tr s i s' es ⟨hrel, hs⟩ h
  obtain ⟨hrel', hs'⟩ := step_relays hs h
  exact ⟨hrel.append hrel', hs'⟩

/-- What a loop has done, from its start: it wrote the frames of the messages that it took, in
order, and it is in step with the frames that it reads for as long as it drops no header. -/
theorem run_relays_messages (h : (run step (spawn d) events).Returns c tr) :
    tr.filterMap LoopEffect.queued? = tr.filterMap LoopEffect.took? ++ c.outbound.queue ∧
      frames 4 (tr.filterMap LoopEffect.took?) =
        tr.flatMap LoopEffect.written ++ c.state.unwritten ∧
      tr.filterMap LoopEffect.delivered? =
        tr.filterMap LoopEffect.received? ++ c.inbound.queue ∧
      (tr.flatMap LoopEffect.lost = [] ↔ tr.flatMap LoopEffect.bytesRead =
        frames 4 (tr.filterMap LoopEffect.delivered?) ++ c.state.inHand) := by
  have hrel := (run_relays (spawn_sane d) h).1
  have hreads : tr.flatMap LoopEffect.bytesRead =
      tr.flatMap LoopEffect.readAs ++ c.state.inHand := hrel.reads
  refine ⟨hrel.sends, hrel.writes, hrel.receives, fun hl => ?_, fun he => ?_⟩
  · rw [hreads, LoopEffect.readAs_eq hl]
  · have hlen := congrArg List.length (hreads.symm.trans he)
    rw [List.length_append, List.length_append, LoopEffect.readAs_length] at hlen
    exact List.length_eq_zero_iff.1 (by omega)

/-- A message to send comes between the bytes of a header, and the loop is out of step. -/
theorem run_relays_messages_dropped_header :
    let events := [.stream (.arrive [0]), .task .advance, .task (.send [65]), .task .advance,
      .stream (.grant 5), .task .advance, .stream (.arrive [0, 0, 1, 66]), .task .advance]
    ∃ c tr, (run step (spawn {}) events).Returns c tr ∧ c.state = .reading 322 [] ∧
      tr.flatMap LoopEffect.lost = [0] ∧ tr.flatMap LoopEffect.bytesRead ≠
        frames 4 (tr.filterMap LoopEffect.delivered?) ++ c.state.inHand := by
  intro events
  have hc : (run step (spawn {}) events).check (fun c tr =>
      c.state = .reading 322 [] ∧ tr.flatMap LoopEffect.lost = [0]) := by
    decide +kernel
  obtain ⟨c, tr, h, hp⟩ := Exec.exists_of_check hc
  obtain ⟨hs, hl⟩ := of_decide_eq_true hp
  refine ⟨c, tr, h, hs, hl, fun he => ?_⟩
  have hnil := (run_relays_messages h).2.2.2.2 he
  rw [hl] at hnil
  cases hnil

end ConnectionLoop

end HyperswarmRs
