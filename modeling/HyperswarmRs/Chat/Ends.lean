import HyperswarmRs.Chat.Network

namespace HyperswarmRs
open Async
set_option autoImplicit true

namespace Conversation

def goOn (conv : Conversation) (c : Bool → ConnectionLoop) (es : Bool → List LoopEffect) :
    Conversation where
  ends := c
  wire b := conv.wire b ++ (es b).flatMap LoopEffect.written
  acks b := conv.acks b + ((es (!b)).flatMap LoopEffect.bytesRead).length

theorem sent_append (conv : Conversation) (b : Bool) (c d : ConnectionLoop)
    (es es' : List LoopEffect) :
    (((conv.set b d).sent b es).set b c).sent b es' = (conv.set b c).sent b (es ++ es') := by
  apply Conversation.ext
  · exact Function.update_idem ..
  · change Function.update (Function.update conv.wire b _) b (Function.update conv.wire b _ b ++ _) =
      Function.update conv.wire b _
    rw [Function.update_idem, Function.update_self, List.flatMap_append, List.append_assoc]
    rfl
  · change Function.update (Function.update conv.acks (!b) _) (!b)
      (Function.update conv.acks (!b) _ (!b) + _) = Function.update conv.acks (!b) _
    rw [Function.update_idem, Function.update_self, List.flatMap_append, List.length_append,
      Nat.add_assoc]
    rfl

theorem run_tasks {conv : Conversation}
    (h : (run ConnectionLoop.task (conv.ends b) events).Returns c es) :
    (run step conv (events.map (.task b))).Returns ((conv.set b c).sent b es)
      (es.map (b, ·)) := by
  induction events generalizing conv es with
  | nil =>
    obtain ⟨rfl, rfl⟩ := returns_run_nil.1 h
    have hs : (conv.set b (conv.ends b)).sent b [] = conv := by
      apply Conversation.ext
      · exact Function.update_eq_self ..
      · change Function.update conv.wire b (conv.wire b ++ []) = conv.wire
        rw [List.append_nil, Function.update_eq_self]
      · exact Function.update_eq_self ..
    rw [hs]
    exact Exec.pure_returns conv
  | cons e events ih =>
    obtain ⟨d, es₁, es₂, ht, hr, rfl⟩ := returns_run_cons.1 h
    have hstep : (conv.step (.task b e)).Returns ((conv.set b d).sent b es₁)
        (es₁.map (b, ·) ++ []) :=
      ((Exec.returns_listen.2 ⟨ht, rfl⟩ : (Exec.listen _).Returns (d, es₁) es₁).embed _).of_bind
        (Exec.pure_returns _)
    rw [List.append_nil] at hstep
    have hd : (run ConnectionLoop.task (((conv.set b d).sent b es₁).ends b) events).Returns c
        es₂ := by rwa [sent_ends, set_self]
    have hrest := ih hd
    rw [sent_append] at hrest
    rw [List.map_append]
    exact hstep.of_bind hrest

theorem run_goOn {conv : Conversation}
    (h : ∀ b, ∃ events, (run ConnectionLoop.task (conv.ends b) events).Returns (c b) (es b)) :
    ∃ events tr, (run step conv events).Returns (conv.goOn c es) tr ∧ ∀ b, part b tr = es b := by
  obtain ⟨events, ht⟩ := h true
  obtain ⟨events', hf⟩ := h false
  have hrt := run_tasks ht
  have hf' : (run ConnectionLoop.task (((conv.set true (c true)).sent true (es true)).ends false)
      events').Returns (c false) (es false) := hf
  have hrf := run_tasks hf'
  have he : (((conv.set true (c true)).sent true (es true)).set false (c false)).sent false
      (es false) = conv.goOn c es := by
    apply Conversation.ext
    · funext b
      cases b <;> rfl
    · funext b
      cases b <;> rfl
    · funext b
      cases b <;> rfl
  rw [he] at hrf
  refine ⟨_, _, returns_run_append.2 ⟨_, _, _, hrt, hrf, rfl⟩, fun b => ?_⟩
  rw [part_append]
  cases b with
  | true => rw [part_self, part_other (by decide), List.append_nil]
  | false => rw [part_self, part_other (by decide), List.nil_append]

end Conversation

namespace ChatLink

/-- The loop at an end, or the one that its node will start. -/
def loop (nodes : ν → HyperBroadcast) (k : ChatLink ν) (b : Bool) : ConnectionLoop :=
  match k.index b with
  | none => .spawn { room := k.room b }
  | some i =>
    match (nodes (k.link.node b)).tasks[i]? with
    | none => .spawn { room := k.room b }
    | some t => t.loop

def conversation (nodes : ν → HyperBroadcast) (k : ChatLink ν) : Conversation where
  ends := k.loop nodes
  wire := k.wire
  acks := k.acks

theorem loop_of_none {k : ChatLink ν} (h : k.index b = none) (nodes : ν → HyperBroadcast) :
    k.loop nodes b = .spawn { room := k.room b } := by
  rw [loop, h]

theorem loop_of_task {k : ChatLink ν} {nodes : ν → HyperBroadcast} (h : k.index b = some i)
    (ht : (nodes (k.link.node b)).tasks[i]? = some t) : k.loop nodes b = t.loop := by
  simp only [loop, h, ht]

variable [DecidableEq ν]

def trace (k : ChatLink ν) (tr : List (ν × BroadcastEffect)) (b : Bool) : List LoopEffect :=
  match k.index b with
  | none => []
  | some i => loopPart i (Async.part (k.link.node b) tr)

theorem part_of_ne {k : ChatLink ν} (h : k.link.node b ≠ n) (es : List BroadcastEffect) :
    k.part n es b = [] := if_neg h

theorem part_of_none {k : ChatLink ν} (h : k.index b = none) (n : ν)
    (es : List BroadcastEffect) : k.part n es b = [] := by
  rw [part, h]
  exact ite_self _

theorem part_of_index {k : ChatLink ν} (h : k.index b = some i) (es : List BroadcastEffect) :
    k.part (k.link.node b) es b = loopPart i es := by
  rw [part, if_pos rfl, h]

theorem trace_append (k : ChatLink ν) (tr : List (ν × BroadcastEffect)) (n : ν)
    (es : List BroadcastEffect) (b : Bool) :
    k.trace (tr ++ es.map (n, ·)) b = k.trace tr b ++ k.part n es b := by
  cases hi : k.index b with
  | none => rw [trace, trace, part_of_none hi, hi, List.append_nil]
  | some i =>
    by_cases hn : k.link.node b = n
    · subst hn
      rw [trace, trace, part_of_index hi, hi]
      simp only [part_append, part_self, loopPart_append]
    · rw [trace, trace, part_of_ne hn, hi]
      simp only [part_append, part_other (Ne.symm hn), List.append_nil]

/-- The two ends of a connection have a conversation. -/
def Talks (nodes : ν → HyperBroadcast) (tr : List (ν × BroadcastEffect)) (k : ChatLink ν) : Prop :=
  ∃ events ctr, (run Conversation.step (.start k.room) events).Returns (k.conversation nodes) ctr ∧
    ∀ b, Async.part b ctr = k.trace tr b

variable {k k' : ChatLink ν} {nodes nodes' : ν → HyperBroadcast} {es : Bool → List LoopEffect}

theorem Talks.run (h : k.Talks nodes tr) (hr : k'.room = k.room)
    (hrun : (run Conversation.step (k.conversation nodes) events).Returns
      (k'.conversation nodes') ctr)
    (ht : ∀ b, k'.trace tr' b = k.trace tr b ++ Async.part b ctr) : k'.Talks nodes' tr' := by
  obtain ⟨events₀, ctr₀, h₀, hp⟩ := h
  refine ⟨events₀ ++ events, ctr₀ ++ ctr, ?_, fun b => ?_⟩
  · rw [hr]
    exact returns_run_append.2 ⟨_, _, _, h₀, hrun, rfl⟩
  · rw [Async.part_append, hp, ht]

theorem Talks.goOn (h : k.Talks nodes tr) (hr : k'.room = k.room)
    (hrun : ∀ b, ∃ events, (Async.run ConnectionLoop.task (k.loop nodes b) events).Returns
      (k'.loop nodes' b) (es b))
    (hw : ∀ b, k'.wire b = k.wire b ++ (es b).flatMap LoopEffect.written)
    (ha : ∀ b, k'.acks b = k.acks b + ((es (!b)).flatMap LoopEffect.bytesRead).length)
    (ht : ∀ b, k'.trace tr' b = k.trace tr b ++ es b) : k'.Talks nodes' tr' := by
  have hends : ∀ b, ∃ events, (Async.run ConnectionLoop.task ((k.conversation nodes).ends b)
      events).Returns (k'.loop nodes' b) (es b) := hrun
  obtain ⟨events, ctr, hc, hp⟩ := Conversation.run_goOn hends
  have he : (k.conversation nodes).goOn (k'.loop nodes') es = k'.conversation nodes' := by
    apply Conversation.ext
    · rfl
    · exact (funext hw).symm
    · exact (funext ha).symm
  rw [he] at hc
  exact h.run hr hc fun b => (ht b).trans (congrArg _ (hp b).symm)

theorem Talks.same (h : k.Talks nodes tr) (hl : ∀ b, k.loop nodes' b = k.loop nodes b)
    (ht : ∀ b, k.trace tr' b = k.trace tr b) : k.Talks nodes' tr' := by
  have hc : k.conversation nodes' = k.conversation nodes := by
    rw [conversation, funext hl]
    rfl
  have hrun : (Async.run Conversation.step (k.conversation nodes) []).Returns
      (k.conversation nodes') [] := hc ▸ Exec.pure_returns _
  exact h.run rfl hrun fun b => (ht b).trans (List.append_nil _).symm

end ChatLink

end HyperswarmRs
