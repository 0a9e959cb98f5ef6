import HyperswarmRs.Chat.Delivery

namespace HyperswarmRs
open Async
set_option autoImplicit true

def ConnectionLoop.load (c : ConnectionLoop) : Nat :=
  4 * c.toWrite + c.outbound.queue.length + if c.result = none then 1 else 0

namespace Conversation

/-- What a conversation does by itself: each loop takes a turn, and the network carries a byte and
an acknowledgement of each. -/
def round : List ConversationEvent :=
  [.task true .advance, .task false .advance, .carry true 1, .carry false 1, .ack true 1,
    .ack false 1]

def Done : ConversationEvent → Conversation → Prop
  | .task b .advance, conv => (conv.ends b).Blocked
  | .carry b _, conv => conv.wire b = []
  | .ack b _, conv => conv.acks b = 0
  | _, _ => False

/-- Nothing changes but who is woken. -/
structure Still (conv conv' : Conversation) : Prop where
  ends : ∀ b, ConnectionLoop.Idles (conv.ends b) (conv'.ends b)
  wire : conv'.wire = conv.wire
  acks : conv'.acks = conv.acks

/-- How much is left to do at an end and on the way from it: each byte is written, carried, read
and acknowledged. -/
def load (conv : Conversation) (b : Bool) : Nat :=
  (conv.ends b).load + 3 * (conv.wire b).length + 2 * (conv.ends b).stream.arrived.length +
    conv.acks b

def weight (conv : Conversation) : Nat := conv.load true + conv.load false

theorem weight_eq (conv : Conversation) (b : Bool) : conv.weight = conv.load b + conv.load (!b) := by
  cases b
  · exact Nat.add_comm ..
  · rfl

theorem still_refl (conv : Conversation) : Still conv conv :=
  ⟨fun _ => ConnectionLoop.idles_refl _, rfl, rfl⟩

theorem Still.trans (h : Still conv conv') (h' : Still conv' conv'') : Still conv conv'' where
  ends b := (h.ends b).trans (h'.ends b)
  wire := h'.wire.trans h.wire
  acks := h'.acks.trans h.acks

theorem Still.done (h : Still conv conv') : Done e conv' ↔ Done e conv := by
  cases e with
  | task b e =>
    cases e with
    | advance => exact ⟨(h.ends b).symm.blocked, (h.ends b).blocked⟩
    | _ => exact Iff.rfl
  | stop b i => exact Iff.rfl
  | carry b n => rw [Done, Done, h.wire]
  | ack b n => rw [Done, Done, h.acks]

theorem Still.load (h : Still conv conv') (b : Bool) : conv'.load b = conv.load b := by
  have hb := h.ends b
  rw [Conversation.load, Conversation.load, ConnectionLoop.load, ConnectionLoop.load,
    ConnectionLoop.toWrite, ConnectionLoop.toWrite, h.wire, h.acks, hb.queue, hb.state, hb.result, hb.stream]

theorem Still.weight (h : Still conv conv') : conv'.weight = conv.weight := by
  rw [Conversation.weight, Conversation.weight, h.load, h.load]

theorem turn_weight {conv : Conversation} (ht : ConnectionLoop.Turn (conv.ends b) es c)
    (hg : ConnectionLoop.GetsOn (conv.ends b) es c) :
    ((conv.set b c).sent b es).weight < conv.weight := by
  have hw := ht.toWrite
  have ha := congrArg List.length ht.draws.arrived
  have hq := congrArg List.length ht.relays.sends
  rw [ht.queued] at hq
  simp only [List.length_append, List.length_nil, Nat.add_zero] at ha hq
  have halive : (if c.result = none then 1 else 0) ≤
      if (conv.ends b).result = none then 1 else 0 := by
    by_cases hc : c.result = none
    · have hn : (conv.ends b).result = none := not_not.1 fun h => ht.result h hc
      exact Nat.le_of_eq ((if_pos hc).trans (if_pos hn).symm)
    · rw [if_neg hc]
      exact Nat.zero_le _
  rw [weight_eq _ b, weight_eq conv b, load, load, load, load, sent_wire, sent_wire_not, sent_acks,
    sent_acks_not, sent_ends, set_self, set_not, List.length_append]
  change _ + 3 * ((conv.wire b).length + _) + _ + conv.acks b +
    (_ + 3 * (conv.wire !b).length + _ + (conv.acks (!b) + _)) < _
  simp only [ConnectionLoop.load]
  rcases hg with hr | hs | hm | ⟨hn, hn'⟩
  · have hpos := List.length_pos_iff.2 hr
    omega
  · have hpos := List.length_pos_iff.2 hs
    omega
  · have hpos := List.length_pos_iff.2 hm
    omega
  · rw [if_pos hn, if_neg hn'] at *
    omega

theorem carry_weight {conv : Conversation} (h : conv.wire b ≠ []) :
    (conv.carry b 1).weight < conv.weight := by
  have hpos := List.length_pos_iff.2 h
  have hb : (conv.carry b 1).load b + 3 = conv.load b := by
    rw [load, load, carry_ends, carry_wire, List.length_drop]
    change _ + conv.acks b + 3 = _
    omega
  have hn : (conv.carry b 1).load (!b) = conv.load (!b) + 2 := by
    rw [load, load, carry_ends_not, carry_wire_not]
    change (conv.ends (!b)).load + _ +
      2 * ((conv.ends (!b)).stream.arrived ++ (conv.wire b).take 1).length + conv.acks (!b) = _
    rw [List.length_append, List.length_take]
    omega
  rw [weight_eq _ b, weight_eq conv b, hn]
  omega

theorem ack_weight {conv : Conversation} (h : conv.acks b ≠ 0) :
    (conv.ack b 1).weight < conv.weight := by
  have hb : (conv.ack b 1).load b + 1 = conv.load b := by
    rw [load, load, ack_ends, ack_acks]
    change (conv.ends b).load + 3 * (conv.wire b).length +
      2 * (conv.ends b).stream.arrived.length + _ + 1 = _
    omega
  have hn : (conv.ack b 1).load (!b) = conv.load (!b) := by
    rw [load, load, ack_ends_not, ack_acks_not]
    rfl
  rw [weight_eq _ b, weight_eq conv b, hn]
  omega

theorem turn_settles (b : Bool) : Settles (fun conv => ∀ b, (conv.ends b).Sane)
    (Done (.task b .advance)) Still weight (step · (.task b .advance)) := by
  intro conv hs
  obtain ⟨c, es, ht⟩ := ConnectionLoop.advance_halts (conv.ends b)
  have hturn := ConnectionLoop.advance_cases (hs b) ht
  have hstep : (conv.step (.task b .advance)).Returns ((conv.set b c).sent b es)
      (es.map (b, ·) ++ []) :=
    ((Exec.returns_listen.2 ⟨ht, rfl⟩ : (Exec.listen _).Returns (c, es) es).embed _).of_bind
      (Exec.pure_returns _)
  refine ⟨_, _, hstep, fun a => ?_, fun hd => ?_, fun hd => turn_weight hturn (hturn.gets_on hd)⟩
  · by_cases ha : a = b
    · subst ha
      rw [sent_ends, set_self]
      exact hturn.sane (hs a)
    · rw [sent_ends, set_other _ _ _ ha]
      exact hs a
  · obtain ⟨hi, rfl⟩ := hturn.idles hd
    refine ⟨fun a => ?_, ?_, ?_⟩
    · by_cases ha : a = b
      · subst ha
        rw [sent_ends, set_self]
        exact hi
      · rw [sent_ends, set_other _ _ _ ha]
        exact ConnectionLoop.idles_refl _
    · change Function.update conv.wire b (conv.wire b ++ []) = conv.wire
      rw [List.append_nil, Function.update_eq_self]
    · exact Function.update_eq_self ..

theorem carry_settles (b : Bool) : Settles (fun conv => ∀ b, (conv.ends b).Sane)
    (Done (.carry b 1)) Still weight (step · (.carry b 1)) := by
  intro conv hs
  refine ⟨_, _, Exec.pure_returns _, fun a => ?_, fun hd => ?_, carry_weight⟩
  · rcases Bool.eq_or_eq_not a b with rfl | rfl
    · rw [carry_ends]
      exact hs a
    · rw [carry_ends_not]
      exact hs (!b)
  · change conv.wire b = [] at hd
    refine ⟨fun a => ?_, ?_, rfl⟩
    · rcases Bool.eq_or_eq_not a b with rfl | rfl
      · rw [carry_ends]
        exact ConnectionLoop.idles_refl _
      · rw [carry_ends_not, hd, List.take_nil, Duplex.act_arrive_nil]
        exact ConnectionLoop.idles_refl _
    · change Function.update conv.wire b ((conv.wire b).drop 1) = conv.wire
      rw [hd, List.drop_nil, ← hd, Function.update_eq_self]

theorem ack_settles (b : Bool) : Settles (fun conv => ∀ b, (conv.ends b).Sane)
    (Done (.ack b 1)) Still weight (step · (.ack b 1)) := by
  intro conv hs
  refine ⟨_, _, Exec.pure_returns _, fun a => ?_, fun hd => ?_, ack_weight⟩
  · rcases Bool.eq_or_eq_not a b with rfl | rfl
    · rw [ack_ends]
      exact hs a
    · rw [ack_ends_not]
      exact hs (!b)
  · change conv.acks b = 0 at hd
    refine ⟨fun a => ?_, rfl, ?_⟩
    · rcases Bool.eq_or_eq_not a b with rfl | rfl
      · rw [ack_ends, hd, Nat.min_zero, Duplex.act_grant_zero]
        exact ConnectionLoop.idles_refl _
      · rw [ack_ends_not]
        exact ConnectionLoop.idles_refl _
    · change Function.update conv.acks b (conv.acks b - 1) = conv.acks
      rw [hd, Nat.zero_sub, ← hd, Function.update_eq_self]

theorem move_settles (he : e ∈ round) :
    Settles (fun conv => ∀ b, (conv.ends b).Sane) (Done e) Still weight (step · e) := by
  simp only [round, List.mem_cons, List.not_mem_nil, or_false] at he
  rcases he with rfl | rfl | rfl | rfl | rfl | rfl
  · exact turn_settles true
  · exact turn_settles false
  · exact carry_settles true
  · exact carry_settles false
  · exact ack_settles true
  · exact ack_settles false

theorem done_iff {conv : Conversation} : (∀ e ∈ round, Done e conv) ↔ conv.AtRest := by
  simp only [round, List.forall_mem_cons, List.not_mem_nil, Done]
  constructor
  · rintro ⟨ht, hf, hwt, hwf, hat, haf, -⟩
    exact ⟨Bool.forall_bool.2 ⟨hf, ht⟩, Bool.forall_bool.2 ⟨hwf, hwt⟩, Bool.forall_bool.2 ⟨haf, hat⟩⟩
  · rintro ⟨hb, hw, ha⟩
    exact ⟨hb _, hb _, hw _, hw _, ha _, ha _, fun _ h => h.elim⟩

theorem run_rounds {conv : Conversation} (h : (run step (start room) events).Returns conv tr)
    (hn : conv.weight ≤ n) : ∃ conv' tr',
      (run step conv (List.replicate n round).flatten).Returns conv' tr' ∧ conv'.AtRest := by
  have hround : Settles (fun conv => ∀ b, (conv.ends b).Sane)
      (fun conv => ∀ e ∈ round, Done e conv) Still weight (run step · round) :=
    round_settles still_refl (fun h h' => h.trans h') (fun h => h.done)
      (fun h => Nat.le_of_eq h.weight) fun e he => move_settles he
  obtain ⟨conv', tr', hr, -, hd⟩ := run_settles hround
    (fun h hd e he => h.done.2 (hd e he)) (fun a => (run_end h a).2) hn
  exact ⟨conv', tr', returns_run_rounds.1 hr, done_iff.1 hd⟩

def Settled (room : Bool → Nat) (conv : Conversation) (tr : List (Bool × LoopEffect)) : Prop :=
  (∀ b, delivered (!b) tr = queued b tr) ∨
    ∀ b, conv.Writes b ∧ room b < (frames 4 (queued b tr)).length

/-- From wherever it has got, a conversation comes to rest. If both loops still run and have
dropped no header, everything that was sent has then been delivered, or each of them waits to
write more than the connection holds. -/
theorem run_settles_delivered {conv : Conversation}
    (h : (run step (start room) events).Returns conv tr) (hc : ∀ b, 0 < room b)
    (hn : conv.weight ≤ n) : ∃ conv' tr',
      (run step conv (List.replicate n round).flatten).Returns conv' tr' ∧ conv'.AtRest ∧
        ((∀ b, (conv'.ends b).result = none) → (∀ b, KeepsHeaders b (tr ++ tr')) →
          (∀ b, ∀ m ∈ queued b (tr ++ tr'), Fits 4 m) → Settled room conv' (tr ++ tr')) := by
  obtain ⟨conv', tr', hr, hrest⟩ := run_rounds h hn
  have hall : (run step (start room) (events ++ (List.replicate n round).flatten)).Returns conv'
      (tr ++ tr') := returns_run_append.2 ⟨conv, tr, tr', h, hr, rfl⟩
  exact ⟨conv', tr', hr, hrest, fun ha hl hf => run_rests hall hrest ha hc hf hl⟩

theorem run_settles_delivered_greetings :
    let events := [.task true (.send [72, 105]), .task false (.send [89]), .task true .advance]
    ∃ conv tr, (run step (start fun _ => 16) events).Returns conv tr ∧
      ∃ conv' tr', (run step conv (List.replicate 48 round).flatten).Returns conv' tr' ∧
        conv'.AtRest ∧ delivered false (tr ++ tr') = [[72, 105]] ∧
          delivered true (tr ++ tr') = [[89]] := by
  intro events
  have hc : (run step (start fun _ => 16) events).check (fun conv tr => conv.weight ≤ 48 ∧
      (run step conv (List.replicate 48 round).flatten).check fun conv' tr' =>
        (∀ b, (conv'.ends b).result = none) ∧ (∀ b, KeepsHeaders b (tr ++ tr')) ∧
          (∀ b, ∀ m ∈ queued b (tr ++ tr'), m.length < 3) ∧ (∀ b, ¬ conv'.Writes b) ∧
            queued true (tr ++ tr') = [[72, 105]] ∧ queued false (tr ++ tr') = [[89]]) := by
    decide +kernel
  obtain ⟨conv, tr, hr, hp⟩ := Exec.exists_of_check hc
  obtain ⟨hw, hc'⟩ := of_decide_eq_true hp
  obtain ⟨conv', tr', hr', hp'⟩ := Exec.exists_of_check hc'
  obtain ⟨ha, hl, hm, hn, ht, hf⟩ := of_decide_eq_true hp'
  obtain ⟨conv'', tr'', hr'', hrest, hd⟩ := run_settles_delivered hr (fun _ => by decide) hw
  obtain ⟨rfl, rfl⟩ := hr''.unique hr'
  refine ⟨conv, tr, hr, conv'', tr'', hr'', hrest, ?_⟩
  have hfit : ∀ b, ∀ m ∈ queued b (tr ++ tr''), Fits 4 m :=
    fun b m hb => Nat.lt_trans (hm b m hb) (by decide)
  rcases hd ha hl hfit with hd | hd
  · exact ⟨(hd true).trans ht, (hd false).trans hf⟩
  · exact (hn true (hd true).1).elim

/-- A message of one byte on each side stops both, if a frame does not fit into the connection. -/
example : (run step (start fun _ => 4) ([.task true (.send [1]), .task false (.send [2])] ++
    (List.replicate 5 round).flatten)).check fun conv _ => conv.Writes true ∧ conv.Writes false := by
  decide +kernel

end Conversation

end HyperswarmRs
