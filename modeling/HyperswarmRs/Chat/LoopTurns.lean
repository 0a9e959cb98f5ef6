import HyperswarmRs.Chat.ConnectionLoop

namespace HyperswarmRs
open Async
set_option autoImplicit true

namespace LoopState

/-- What has been read of the message that is being read. -/
def inHand : LoopState → List UInt8
  | .selecting header => header
  | .reading len body => toBeBytes 4 len ++ body
  | .writing _ => []

def unwritten : LoopState → List UInt8
  | .selecting _ | .reading .. => []
  | .writing buf => buf

theorem unwritten_eq_nil {s : LoopState} (h : ∀ buf, s ≠ .writing buf) : s.unwritten = [] := by
  cases s with
  | writing buf => exact (h buf rfl).elim
  | _ => rfl

theorem reading_inHand_ne_nil (len : Nat) (body : List UInt8) :
    (LoopState.reading len body).inHand ≠ [] := by
  intro h
  have hl := congrArg List.length h
  rw [inHand, List.length_append, toBeBytes_length] at hl
  exact Nat.succ_ne_zero _ ((Nat.add_comm ..).trans hl)

end LoopState

namespace ConnectionLoop

/-- Where a loop can be between two of its turns. -/
def Sane (c : ConnectionLoop) : Prop :=
  match c.state with
  | .selecting header => header.length < 4
  | .reading len body => len < 256 ^ 4 ∧ (c.result = none → body.length < len)
  | .writing buf => buf ≠ []

theorem spawn_sane (d : Duplex IoError) : (spawn d).Sane := Nat.zero_lt_succ 3

/-- Nothing that the loop waits for is there. -/
inductive Blocked (c : ConnectionLoop) : Prop where
  | ended : c.result ≠ none → Blocked c
  | selecting : c.state = .selecting header → c.stream.arrived = [] → c.stream.readEnd = none →
      c.outbound.queue = [] → c.outbound.senders ≠ 0 → Blocked c
  | reading : c.state = .reading len body → c.stream.arrived = [] → c.stream.readEnd = none →
      Blocked c
  | writing : c.state = .writing buf → c.stream.room = 0 → c.stream.writeEnd = none → Blocked c

section Blocked

variable {c : ConnectionLoop} (h : c.Blocked) (hr : c.result = none)

include h hr

theorem Blocked.of_selecting (hs : c.state = .selecting header) : c.stream.arrived = [] ∧
    c.stream.readEnd = none ∧ c.outbound.queue = [] ∧ c.outbound.senders ≠ 0 := by
  cases h with
  | ended he => exact (he hr).elim
  | selecting _ ha he hq hn => exact ⟨ha, he, hq, hn⟩
  | reading hs' _ _ => cases hs.symm.trans hs'
  | writing hs' _ _ => cases hs.symm.trans hs'

theorem Blocked.of_reading (hs : c.state = .reading len body) :
    c.stream.arrived = [] ∧ c.stream.readEnd = none := by
  cases h with
  | ended he => exact (he hr).elim
  | selecting hs' _ _ _ _ => cases hs.symm.trans hs'
  | reading _ ha he => exact ⟨ha, he⟩
  | writing hs' _ _ => cases hs.symm.trans hs'

theorem Blocked.of_writing (hs : c.state = .writing buf) :
    c.stream.room = 0 ∧ c.stream.writeEnd = none := by
  cases h with
  | ended he => exact (he hr).elim
  | selecting hs' _ _ _ _ => cases hs.symm.trans hs'
  | reading hs' _ _ => cases hs.symm.trans hs'
  | writing _ ha he => exact ⟨ha, he⟩

end Blocked

/-- Nothing changes but who is woken. -/
structure Idles (c c' : ConnectionLoop) : Prop where
  stream : c'.stream = c.stream
  inbound : c'.inbound = c.inbound
  queue : c'.outbound.queue = c.outbound.queue
  senders : c'.outbound.senders = c.outbound.senders
  receiver : c'.outbound.receiver = c.outbound.receiver
  state : c'.state = c.state
  result : c'.result = c.result

theorem idles_refl (c : ConnectionLoop) : Idles c c := ⟨rfl, rfl, rfl, rfl, rfl, rfl, rfl⟩

theorem Idles.symm (h : Idles c c') : Idles c' c where
  stream := h.stream.symm
  inbound := h.inbound.symm
  queue := h.queue.symm
  senders := h.senders.symm
  receiver := h.receiver.symm
  state := h.state.symm
  result := h.result.symm

theorem Idles.trans (h : Idles c c') (h' : Idles c' c'') : Idles c c'' where
  stream := h'.stream.trans h.stream
  inbound := h'.inbound.trans h.inbound
  queue := h'.queue.trans h.queue
  senders := h'.senders.trans h.senders
  receiver := h'.receiver.trans h.receiver
  state := h'.state.trans h.state
  result := h'.result.trans h.result

theorem Idles.blocked (h : Idles c c') (hb : c.Blocked) : c'.Blocked := by
  cases hb with
  | ended hr => exact .ended (h.result ▸ hr)
  | selecting hs ha he hq hn =>
    exact .selecting (h.state.trans hs) (h.stream ▸ ha) (h.stream ▸ he) (h.queue.trans hq)
      (h.senders ▸ hn)
  | reading hs ha he => exact .reading (h.state.trans hs) (h.stream ▸ ha) (h.stream ▸ he)
  | writing hs ha he => exact .writing (h.state.trans hs) (h.stream ▸ ha) (h.stream ▸ he)

def unread (c : ConnectionLoop) (rest : List UInt8) : ConnectionLoop :=
  { c with stream := { c.stream with arrived := rest } }

def unused (c : ConnectionLoop) (room : Nat) : ConnectionLoop :=
  { c with stream := { c.stream with room } }

inductive OnBody (c : ConnectionLoop) (len : Nat) (body : List UInt8) :
    List LoopEffect → ConnectionLoop → Prop where
  | more : body.length < len → OnBody c len body [] { c with state := .reading len body }
  | delivered : body.length = len → c.inbound.trySend body = some ch →
      OnBody c len body [.delivered body] { c with inbound := ch, state := .selecting [] }
  | refused : body.length = len → c.inbound.trySend body = none →
      OnBody c len body [] ({ c with state := .reading len body }.finish (.send body))

inductive Turn (c : ConnectionLoop) : List LoopEffect → ConnectionLoop → Prop where
  | waits : c.Blocked → Idles c c' → Turn c [] c'
  | failed : c.result = none → ¬ c.Blocked → Idles c d → Turn c [] (d.finish err)
  | header : c.result = none → c.state = .selecting header → c.stream.arrived = bytes ++ rest →
      bytes ≠ [] → (header ++ bytes).length < 4 →
      Turn c [.read bytes] { c.unread rest with state := .selecting (header ++ bytes) }
  | body : c.result = none → c.stream.arrived = bytes ++ rest → bytes ≠ [] →
      c.state.inHand ++ bytes = toBeBytes 4 len ++ body → (∀ buf, c.state ≠ .writing buf) →
      len < 256 ^ 4 → OnBody (c.unread rest) len body es c' → Turn c (.read bytes :: es) c'
  | took : c.result = none → c.state = .selecting header → c.stream.arrived = [] →
      c.outbound.poll = (.ready (some message), ch) →
      Turn c [.dropped header, .took message]
        { c with outbound := ch, state := .writing (frame 4 message) }
  | wrote : c.result = none → c.state = .writing buf → c.stream.room = n + k → 0 < n →
      n ≤ buf.length → Turn c [.wrote (buf.take n)] ((c.unused k).onWritten (buf.drop n))

theorem onBody_cases (hl : body.length ≤ len) (h : (onBody c len body).Returns c' es) :
    OnBody c len body es c' := by
  rw [onBody] at h
  split at h
  · obtain ⟨rfl, rfl⟩ := Exec.returns_pure.1 h
    exact .more ‹_›
  · have hb : body.length = len := by omega
    split at h
    · obtain ⟨rfl, rfl⟩ := Exec.returns_pure.1 h
      exact .refused hb ‹_›
    · obtain ⟨_, _, _, he, hr, rfl⟩ := Exec.returns_bind.1 h
      obtain ⟨rfl, rfl⟩ := Exec.returns_pure.1 hr
      obtain rfl := Exec.returns_emit.1 he
      exact .delivered hb ‹_›

theorem poll_idles {c : ConnectionLoop} (h : c.outbound.poll = (r, ch)) (hr : r.item = none) :
    Idles c { c with outbound := ch } := by
  have hq := Channel.poll_queue h
  rw [hr] at hq
  obtain ⟨hs, hl⟩ := Channel.poll_senders h
  exact ⟨rfl, rfl, hq.symm, hs, hl, rfl, rfl⟩

theorem onOutbound_cases (hr : c.result = none) (hs : c.state = .selecting header)
    (ha : c.stream.arrived = []) (he : c.stream.readEnd = none)
    (h : (onOutbound c header).Returns c' es) : Turn c es c' := by
  rw [onOutbound] at h
  split at h
  · rename_i outbound hp
    obtain ⟨rfl, rfl⟩ := Exec.returns_pure.1 h
    obtain ⟨hq, hn⟩ := Channel.poll_pending hp
    exact .waits (.selecting hs ha he hq hn) (poll_idles hp rfl)
  · rename_i ch hp
    obtain ⟨rfl, rfl⟩ := Exec.returns_pure.1 h
    refine .failed hr (fun hb => ?_) (poll_idles hp rfl)
    exact (hb.of_selecting hr hs).2.2.2 (Channel.poll_end hp)
  · obtain ⟨_, _, _, hd, hm, rfl⟩ := Exec.returns_bind.1 h
    obtain ⟨_, _, _, ht, hp, rfl⟩ := Exec.returns_bind.1 hm
    obtain ⟨rfl, rfl⟩ := Exec.returns_pure.1 hp
    obtain rfl := Exec.returns_emit.1 hd
    obtain rfl := Exec.returns_emit.1 ht
    exact .took hr hs ha ‹_›

theorem onSelecting_cases (hl : header.length < 4) (hr : c.result = none)
    (hs : c.state = .selecting header) (h : (onSelecting c header).Returns c' es) :
    Turn c es c' := by
  have hc := c.stream.read_cases (n := 4 - header.length) (by omega)
  rw [onSelecting] at h
  split at h
  · rename_i bytes stream hread
    obtain ⟨_, _, _, he, hh, rfl⟩ := Exec.returns_bind.1 h
    obtain rfl := Exec.returns_emit.1 he
    rw [hread] at hc
    cases hc with
    | bytes ha hb hn _ =>
      rw [onHeader] at hh
      split at hh
      · obtain ⟨rfl, rfl⟩ := Exec.returns_pure.1 hh
        exact .header hr hs ha hb ‹_›
      · have hlen : (header ++ bytes).length = 4 := by
          rw [List.length_append] at *
          omega
        refine .body hr ha hb ?_ ?_ (hlen ▸ fromBeBytes_lt _) (onBody_cases (Nat.zero_le _) hh)
        · rw [hs, ← hlen, toBeBytes_fromBeBytes, List.append_nil]
          rfl
        · rw [hs]
          exact fun _ he => by cases he
  · rename_i e stream hread
    obtain ⟨rfl, rfl⟩ := Exec.returns_pure.1 h
    refine .failed hr (fun hb => ?_) (idles_refl c)
    rw [hread] at hc
    cases hc with
    | failed ha he => cases he.symm.trans (hb.of_selecting hr hs).2.1
  · rename_i stream hread
    rw [hread] at hc
    cases hc with
    | pending ha he => exact onOutbound_cases hr hs ha he h

theorem onReading_cases (hn : len < 256 ^ 4) (hl : body.length < len) (hr : c.result = none)
    (hs : c.state = .reading len body) (h : (onReading c len body).Returns c' es) :
    Turn c es c' := by
  have hc := c.stream.read_cases (n := len - body.length) (by omega)
  rw [onReading] at h
  split at h
  · rename_i bytes stream hread
    obtain ⟨_, _, _, he, hh, rfl⟩ := Exec.returns_bind.1 h
    obtain rfl := Exec.returns_emit.1 he
    rw [hread] at hc
    cases hc with
    | bytes ha hb hm _ =>
      have hlen : (body ++ bytes).length ≤ len := by
        rw [List.length_append]
        omega
      refine .body hr ha hb ?_ ?_ hn (onBody_cases hlen hh)
      · rw [hs]
        exact List.append_assoc ..
      · rw [hs]
        exact fun _ he => by cases he
  · rename_i e stream hread
    obtain ⟨rfl, rfl⟩ := Exec.returns_pure.1 h
    refine .failed hr (fun hb => ?_) (idles_refl c)
    rw [hread] at hc
    cases hc with
    | failed ha he => cases he.symm.trans (hb.of_reading hr hs).2
  · rename_i stream hread
    obtain ⟨rfl, rfl⟩ := Exec.returns_pure.1 h
    rw [hread] at hc
    cases hc with
    | pending ha he => exact .waits (.reading hs ha he) (idles_refl _)

theorem onWriting_cases (hb : buf ≠ []) (hr : c.result = none) (hs : c.state = .writing buf)
    (h : (onWriting c buf).Returns c' es) : Turn c es c' := by
  have hc := c.stream.write_cases hb
  rw [onWriting] at h
  split at h
  · rename_i n stream hwrite
    obtain ⟨_, _, _, he, hw, rfl⟩ := Exec.returns_bind.1 h
    obtain ⟨rfl, rfl⟩ := Exec.returns_pure.1 hw
    obtain rfl := Exec.returns_emit.1 he
    rw [hwrite] at hc
    cases hc with
    | wrote hroom _ hn hl _ => exact .wrote hr hs hroom hn hl
  · rename_i e stream hwrite
    obtain ⟨rfl, rfl⟩ := Exec.returns_pure.1 h
    refine .failed hr (fun hb => ?_) (idles_refl c)
    rw [hwrite] at hc
    cases hc with
    | failed he => cases he.symm.trans (hb.of_writing hr hs).2
  · rename_i stream hwrite
    obtain ⟨rfl, rfl⟩ := Exec.returns_pure.1 h
    rw [hwrite] at hc
    cases hc with
    | pending hroom he => exact .waits (.writing hs hroom he) (idles_refl _)

theorem advance_cases (hc : c.Sane) (h : c.advance.Returns c' es) : Turn c es c' := by
  rw [advance] at h
  split at h
  · obtain ⟨rfl, rfl⟩ := Exec.returns_pure.1 h
    exact .waits (.ended (Option.isSome_iff_ne_none.1 ‹_›)) (idles_refl _)
  · have hr : c.result = none := Option.not_isSome_iff_eq_none.1 ‹_›
    rw [Sane] at hc
    split at h
    · rename_i header hs
      rw [hs] at hc
      exact onSelecting_cases hc hr hs h
    · rename_i len body hs
      rw [hs] at hc
      exact onReading_cases hc.1 (hc.2 hr) hr hs h
    · rename_i buf hs
      rw [hs] at hc
      exact onWriting_cases hc hr hs h

end ConnectionLoop

end HyperswarmRs
