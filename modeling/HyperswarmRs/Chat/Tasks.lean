import HyperswarmRs.Chat.Broadcast
import HyperswarmRs.Chat.LoopRuns

namespace HyperswarmRs
open Async
set_option autoImplicit true

namespace BroadcastEffect

def ofLoop? (i : Nat) : BroadcastEffect → Option LoopEffect
  | .loop j e => if j = i then some e else none
  | _ => none

end BroadcastEffect

/-- What the loop of one connection does in a trace of its node. -/
def loopPart (i : Nat) (es : List BroadcastEffect) : List LoopEffect :=
  es.filterMap (BroadcastEffect.ofLoop? i)

@[simp] theorem loopPart_append (i : Nat) (es es' : List BroadcastEffect) :
    loopPart i (es ++ es') = loopPart i es ++ loopPart i es' := List.filterMap_append

theorem loopPart_self (i : Nat) (es : List LoopEffect) : loopPart i (es.map (.loop i)) = es := by
  induction es with
  | nil => rfl
  | cons e es ih =>
    have he : BroadcastEffect.ofLoop? i (.loop i e) = some e := if_pos rfl
    rw [List.map_cons, loopPart, List.filterMap_cons_some he]
    exact congrArg _ ih

theorem loopPart_other (h : j ≠ i) (es : List LoopEffect) : loopPart i (es.map (.loop j)) = [] := by
  induction es with
  | nil => rfl
  | cons e es ih =>
    have he : BroadcastEffect.ofLoop? i (.loop j e) = none := if_neg h
    rw [List.map_cons, loopPart, List.filterMap_cons_none he]
    exact ih

namespace HyperBroadcast

/-- Nothing changes but the main task, and the senders of the node's own messages. -/
structure Rests (s s' : HyperBroadcast) : Prop where
  initialMessage : s'.initialMessage = s.initialMessage
  peers : s'.peers = s.peers
  tasks : s'.tasks = s.tasks
  saving : s'.saving = s.saving
  receiver : s'.incoming.receiver = s.incoming.receiver

inductive Steps (display : SocketAddr → String) (s : HyperBroadcast) :
    BroadcastEvent → List BroadcastEffect → HyperBroadcast → Prop where
  | rests : Rests s s' → Steps display s e [] s'
  | connected : s.saving = none →
      ((ConnectionLoop.spawn conn.inner).sendMessage s.initialMessage).Returns loop es →
      peer = ⟨s.tasks.length, conn.peerAddr, conn.protocol⟩ →
      Steps display s (.next (some (.ok conn)))
        (es.map (.loop s.tasks.length) ++ [.connected s.tasks.length (peer.id display)])
        { s with
          tasks := s.tasks ++ [⟨peer.id display, loop, true, false⟩]
          incoming := s.incoming.cloneSender
          saving := some peer }
  | saved : s.saving = some peer → Steps display s .save [.saved peer.outboundTx]
      { s with peers := s.peers ++ [peer], saving := none }
  | broadcast : (sendAll message s s.peers).Returns s' es →
      Steps display s (.broadcast message) (.broadcast message :: es) s'
  | advanced : s.tasks[i]? = some t → t.loop.advance.Returns loop es →
      es' = (if t.loop.result.isNone && loop.result.isSome then [.disconnected i] else []) →
      Steps display s (.advance i) (es.map (.loop i) ++ es')
        { s with tasks := s.tasks.set i { t with loop := loop } }
  | forwarded : s.tasks[i]? = some t → t.loop.receive.Returns (r, loop) es →
      ch.receiver = s.incoming.receiver →
      Steps display s (.forward i)
        (es.map (.loop i) ++ r.item.toList.map fun m => .incoming i ⟨t.peerId, m⟩)
        { s with tasks := s.tasks.set i ⟨t.peerId, loop, f, t.removed⟩, incoming := ch }
  | removed : s.tasks[i]? = some t → t.loop.result ≠ none →
      Steps display s (.remove i) [.removed t.peerId]
        { s with
          peers := s.peers.filter (·.id display ≠ t.peerId)
          tasks := (s.peers.filter (·.id display = t.peerId)).foldl hangUp
            (s.tasks.set i { t with removed := true }) }
  | stream : Steps display s (.stream i input) [] (s.stream i input)

theorem stream_self {s : HyperBroadcast} {t : PeerTasks} (ht : s.tasks[i]? = some t)
    (input : DuplexInput IoError) : (s.stream i input).tasks[i]? =
      some { t with loop := { t.loop with stream := t.loop.stream.act input } } := by
  rw [HyperBroadcast.stream, List.getElem?_modify, ht, Option.map_eq_map, Option.map_some,
    if_pos rfl]

theorem stream_other (h : i ≠ j) (s : HyperBroadcast) (input : DuplexInput IoError) :
    (s.stream i input).tasks[j]? = s.tasks[j]? := by
  rw [HyperBroadcast.stream, List.getElem?_modify]
  simp only [if_neg h]
  exact Option.map_id' ..

theorem stream_inbound {s : HyperBroadcast} {t' : PeerTasks} {j : Nat}
    (h : (s.stream i input).tasks[j]? = some t') :
    ∃ t, s.tasks[j]? = some t ∧ t'.loop.inbound = t.loop.inbound := by
  by_cases hi : i = j
  · subst hi
    cases ht : s.tasks[i]? with
    | none =>
      rw [HyperBroadcast.stream, List.getElem?_modify, ht] at h
      cases h
    | some t =>
      rw [stream_self ht] at h
      cases h
      exact ⟨t, rfl, rfl⟩
  · exact ⟨t', (stream_other hi s input).symm.trans h, rfl⟩

/-- A task is one of the old ones, or the new one. -/
theorem task_concat {ts : List PeerTasks} {i : Nat} (h : (ts ++ [t])[i]? = some t') :
    i < ts.length ∧ ts[i]? = some t' ∨ i = ts.length ∧ t = t' := by
  by_cases hi : i < ts.length
  · exact .inl ⟨hi, (List.getElem?_append_left hi).symm.trans h⟩
  · have hlt := (List.getElem?_eq_some_iff.1 h).1
    rw [List.length_append, List.length_singleton] at hlt
    obtain rfl : i = ts.length := by omega
    rw [List.getElem?_concat_length] at h
    exact .inr ⟨rfl, Option.some.inj h⟩

theorem rests_refl (s : HyperBroadcast) : Rests s s := ⟨rfl, rfl, rfl, rfl, rfl⟩

theorem next_cases {s s' : HyperBroadcast} (h : (s.next display item).Returns s' es) :
    Steps display s (.next item) es s' := by
  unfold next at h
  split at h
  · obtain ⟨rfl, rfl⟩ := Exec.returns_pure.1 h
    exact .rests (rests_refl _)
  · rename_i hb
    have hs : s.saving = none := by
      cases hs : s.saving with
      | none => rfl
      | some peer =>
        rw [hs] at hb
        exact (hb rfl).elim
    split at h
    · obtain ⟨rfl, rfl⟩ := Exec.returns_pure.1 h
      exact .rests ⟨rfl, rfl, rfl, rfl, rfl⟩
    · obtain ⟨rfl, rfl⟩ := Exec.returns_pure.1 h
      exact .rests ⟨rfl, rfl, rfl, rfl, rfl⟩
    · obtain ⟨loop, _, _, he, hr, rfl⟩ := Exec.returns_bind.1 h
      obtain ⟨_, _, _, hc, hp, rfl⟩ := Exec.returns_bind.1 hr
      obtain ⟨rfl, rfl⟩ := Exec.returns_pure.1 hp
      obtain rfl := Exec.returns_emit.1 hc
      obtain ⟨es', hl, rfl⟩ := Exec.returns_embed.1 he
      rw [List.append_nil]
      exact .connected hs hl rfl

theorem save_cases {s s' : HyperBroadcast} (h : s.save.Returns s' es) :
    Steps display s .save es s' := by
  rw [save] at h
  split at h
  · obtain ⟨rfl, rfl⟩ := Exec.returns_pure.1 h
    exact .rests (rests_refl _)
  · obtain ⟨_, _, _, hc, hp, rfl⟩ := Exec.returns_bind.1 h
    obtain ⟨rfl, rfl⟩ := Exec.returns_pure.1 hp
    obtain rfl := Exec.returns_emit.1 hc
    exact .saved ‹_›

theorem advance_cases {s s' : HyperBroadcast} (h : (s.advance i).Returns s' es) :
    Steps display s (.advance i) es s' := by
  rw [advance] at h
  split at h
  · obtain ⟨rfl, rfl⟩ := Exec.returns_pure.1 h
    exact .rests (rests_refl _)
  · rename_i t ht
    obtain ⟨loop, _, _, he, hr, rfl⟩ := Exec.returns_bind.1 h
    obtain ⟨es', hl, rfl⟩ := Exec.returns_embed.1 he
    split at hr
    · rename_i hd
      obtain ⟨_, _, _, hc, hp, rfl⟩ := Exec.returns_bind.1 hr
      obtain ⟨rfl, rfl⟩ := Exec.returns_pure.1 hp
      obtain rfl := Exec.returns_emit.1 hc
      exact .advanced ht hl (if_pos hd).symm
    · obtain ⟨rfl, rfl⟩ := Exec.returns_pure.1 hr
      exact .advanced ht hl (if_neg ‹_›).symm

theorem forward_cases {s s' : HyperBroadcast} (h : (s.forward i).Returns s' es) :
    Steps display s (.forward i) es s' := by
  rw [forward] at h
  split at h
  · obtain ⟨rfl, rfl⟩ := Exec.returns_pure.1 h
    exact .rests (rests_refl _)
  · rename_i t ht
    split at h
    · obtain ⟨⟨r, loop⟩, _, _, he, hr, rfl⟩ := Exec.returns_bind.1 h
      obtain ⟨es', hl, rfl⟩ := Exec.returns_embed.1 he
      rcases r with _ | _ | content
      · obtain ⟨rfl, rfl⟩ := Exec.returns_pure.1 hr
        exact .forwarded ht hl rfl
      · obtain ⟨rfl, rfl⟩ := Exec.returns_pure.1 hr
        exact .forwarded ht hl rfl
      · dsimp only at hr
        split at hr
        · exact (Exec.returns_fail hr).elim
        · rename_i hsend
          obtain ⟨_, _, _, hc, hp, rfl⟩ := Exec.returns_bind.1 hr
          obtain ⟨rfl, rfl⟩ := Exec.returns_pure.1 hp
          obtain rfl := Exec.returns_emit.1 hc
          exact .forwarded ht hl (Channel.trySend_receiver hsend)
    · obtain ⟨rfl, rfl⟩ := Exec.returns_pure.1 h
      exact .rests (rests_refl _)

theorem remove_cases {s s' : HyperBroadcast} (h : (s.remove display i).Returns s' es) :
    Steps display s (.remove i) es s' := by
  rw [remove] at h
  split at h
  · obtain ⟨rfl, rfl⟩ := Exec.returns_pure.1 h
    exact .rests (rests_refl _)
  · rename_i t ht
    split at h
    · obtain ⟨rfl, rfl⟩ := Exec.returns_pure.1 h
      exact .rests (rests_refl _)
    · rename_i hb
      obtain ⟨_, _, _, hc, hp, rfl⟩ := Exec.returns_bind.1 h
      obtain ⟨rfl, rfl⟩ := Exec.returns_pure.1 hp
      obtain rfl := Exec.returns_emit.1 hc
      refine .removed ht fun hn => hb ?_
      rw [hn]
      rfl

theorem step_cases {s s' : HyperBroadcast} (h : (s.step display e).Returns s' es) :
    Steps display s e es s' := by
  cases e with
  | next item => exact next_cases h
  | save => exact save_cases h
  | broadcast message =>
    obtain ⟨_, _, _, hc, hp, rfl⟩ := Exec.returns_bind.1 h
    obtain rfl := Exec.returns_emit.1 hc
    exact .broadcast hp
  | advance i => exact advance_cases h
  | forward i => exact forward_cases h
  | remove i => exact remove_cases h
  | stream i input =>
    obtain ⟨rfl, rfl⟩ := Exec.returns_pure.1 h
    exact .stream

end HyperBroadcast

/-- What the tasks of a node do with the loop of a connection. -/
structure TaskRun (t : PeerTasks) (es : List LoopEffect) (t' : PeerTasks) : Prop where
  peerId : t'.peerId = t.peerId
  run : ∃ events, (run ConnectionLoop.task t.loop events).Returns t'.loop es

theorem taskRun_refl (t : PeerTasks) : TaskRun t [] t := ⟨rfl, [], Exec.pure_returns _⟩

theorem taskRun_one (hp : t'.peerId = t.peerId) (h : (t.loop.task e).Returns t'.loop es) :
    TaskRun t es t' := ⟨hp, [e], run_one h⟩

theorem TaskRun.append (h : TaskRun t es t') (h' : TaskRun t' es' t'') :
    TaskRun t (es ++ es') t'' := by
  obtain ⟨events, hr⟩ := h.run
  obtain ⟨events', hr'⟩ := h'.run
  exact ⟨h'.peerId.trans h.peerId, _, returns_run_append.2 ⟨_, _, _, hr, hr', rfl⟩⟩

theorem TaskRun.receives (h : TaskRun t es t') (hs : t.loop.Sane) :
    Fifo t.loop.inbound.queue (es.filterMap LoopEffect.delivered?)
      (es.filterMap LoopEffect.received?) t'.loop.inbound.queue := by
  obtain ⟨events, hr⟩ := h.run
  have hrel := run_trace (P := fun _ es c => ConnectionLoop.Relays t.loop.state.inHand
    t.loop.state.unwritten t.loop es c ∧ c.Sane)
    ⟨ConnectionLoop.relays_quiet rfl rfl rfl rfl, hs⟩ (fun hc hstep => by
      obtain ⟨hrel, hsane⟩ := ConnectionLoop.task_relays hc.2 hstep
      exact ⟨hc.1.append hrel, hsane⟩) hr
  exact hrel.1.receives

namespace HyperBroadcast

/-- The tasks of each connection go on from where they were. -/
def Continues (ts : List PeerTasks) (es : List BroadcastEffect) (ts' : List PeerTasks) : Prop :=
  ∀ i, (∀ t, ts[i]? = some t → ∃ t', ts'[i]? = some t' ∧ TaskRun t (loopPart i es) t') ∧
    (ts[i]? = none → ts'[i]? = none ∧ loopPart i es = [])

theorem continues_refl (ts : List PeerTasks) (hn : ∀ i, loopPart i es = []) :
    Continues ts es ts := by
  intro i
  rw [hn]
  exact ⟨fun t ht => ⟨t, ht, taskRun_refl t⟩, fun ht => ⟨ht, rfl⟩⟩

theorem Continues.append (h : Continues ts es ts') (h' : Continues ts' es' ts'') :
    Continues ts (es ++ es') ts'' := by
  intro i
  rw [loopPart_append]
  refine ⟨fun t ht => ?_, fun hn => ?_⟩
  · obtain ⟨t', ht', hr⟩ := (h i).1 t ht
    obtain ⟨t'', ht'', hr'⟩ := (h' i).1 t' ht'
    exact ⟨t'', ht'', hr.append hr'⟩
  · obtain ⟨hn', he⟩ := (h i).2 hn
    obtain ⟨hn'', he'⟩ := (h' i).2 hn'
    exact ⟨hn'', by rw [he, he', List.append_nil]⟩

theorem continues_set {ts : List PeerTasks} (ht : ts[i]? = some t)
    (h : TaskRun t (loopPart i es) t') (hn : ∀ j ≠ i, loopPart j es = []) :
    Continues ts es (ts.set i t') := by
  obtain ⟨hi, -⟩ := List.getElem?_eq_some_iff.1 ht
  intro j
  by_cases hj : i = j
  · subst hj
    rw [List.getElem?_set_self hi, ht]
    refine ⟨fun u hu => ⟨t', rfl, ?_⟩, fun hu => by cases hu⟩
    cases hu
    exact h
  · rw [List.getElem?_set_ne hj, hn j (Ne.symm hj)]
    exact ⟨fun u hu => ⟨u, hu, taskRun_refl u⟩, fun hu => ⟨hu, rfl⟩⟩

theorem hangUp_continues (ts : List PeerTasks) (peer : Peer) :
    Continues ts [] (hangUp ts peer) := by
  cases ht : ts[peer.outboundTx]? with
  | none =>
    have hm : hangUp ts peer = ts := by
      rw [hangUp, List.modify_eq_self]
      exact List.getElem?_eq_none_iff.1 ht
    rw [hm]
    exact continues_refl ts fun _ => rfl
  | some t =>
    have hm : hangUp ts peer = ts.set peer.outboundTx
        { t with loop := { t.loop with outbound := t.loop.outbound.dropSender } } := by
      rw [hangUp, List.modify_eq_set_getElem?, ht]
      rfl
    rw [hm]
    exact continues_set ht (taskRun_one (e := .hangUp) rfl (Exec.pure_returns _)) fun _ _ => rfl

theorem hangUps_continues (ts : List PeerTasks) (ps : List Peer) :
    Continues ts [] (ps.foldl hangUp ts) := by
  induction ps generalizing ts with
  | nil => exact continues_refl ts fun _ => rfl
  | cons peer ps ih => exact (hangUp_continues ts peer).append (ih _)

theorem sendMessage_continues {s s' : HyperBroadcast}
    (h : (s.sendMessage j message).Returns s' es) : Continues s.tasks es s'.tasks := by
  rw [sendMessage] at h
  split at h
  · obtain ⟨rfl, rfl⟩ := Exec.returns_pure.1 h
    exact continues_refl _ fun _ => rfl
  · rename_i t ht
    obtain ⟨loop, _, _, he, hr, rfl⟩ := Exec.returns_bind.1 h
    obtain ⟨rfl, rfl⟩ := Exec.returns_pure.1 hr
    obtain ⟨es', hl, rfl⟩ := Exec.returns_embed.1 he
    rw [List.append_nil]
    refine continues_set ht ?_ fun i hi => loopPart_other hi.symm es'
    rw [loopPart_self]
    exact taskRun_one (e := .send message) rfl hl

theorem sendAll_continues {s s' : HyperBroadcast} (h : (sendAll message s ps).Returns s' es) :
    Continues s.tasks es s'.tasks := by
  induction ps generalizing s es with
  | nil =>
    obtain ⟨rfl, rfl⟩ := Exec.returns_pure.1 h
    exact continues_refl _ fun _ => rfl
  | cons peer ps ih =>
    obtain ⟨t, _, _, hs, hr, rfl⟩ := Exec.returns_bind.1 h
    exact (sendMessage_continues hs).append (ih hr)

/-- A new connection, whose loop has the first message to send. -/
def Opens (s : HyperBroadcast) (d : Duplex IoError) (es : List BroadcastEffect)
    (s' : HyperBroadcast) : Prop :=
  ∃ peerId t, s'.tasks = s.tasks ++ [t] ∧
    TaskRun ⟨peerId, .spawn d, true, false⟩ (loopPart s.tasks.length es) t ∧
      ∀ i ≠ s.tasks.length, loopPart i es = []

theorem next_opens {s s' : HyperBroadcast} (hs : s.saving = none) (hr : s.result = none)
    (h : (s.next display (some (.ok conn))).Returns s' es) : ∃ loop es',
      ((ConnectionLoop.spawn conn.inner).sendMessage s.initialMessage).Returns loop es' ∧
        es = es'.map (.loop s.tasks.length) ++ [.connected s.tasks.length
          ((⟨s.tasks.length, conn.peerAddr, conn.protocol⟩ : Peer).id display)] ∧
        s'.tasks = s.tasks ++ [⟨(⟨s.tasks.length, conn.peerAddr, conn.protocol⟩ : Peer).id display,
          loop, true, false⟩] := by
  rw [next, hs, hr] at h
  obtain ⟨loop, _, _, he, hd, rfl⟩ := Exec.returns_bind.1 h
  obtain ⟨_, _, _, hc, hp, rfl⟩ := Exec.returns_bind.1 hd
  obtain ⟨rfl, rfl⟩ := Exec.returns_pure.1 hp
  obtain rfl := Exec.returns_emit.1 hc
  obtain ⟨es', hl, rfl⟩ := Exec.returns_embed.1 he
  exact ⟨loop, es', hl, rfl, rfl⟩

theorem Steps.tasks (h : Steps display s e es s') :
    (∃ conn, e = .next (some (.ok conn)) ∧ Opens s conn.inner es s') ∨
      (∃ i input, e = .stream i input ∧ es = [] ∧ s' = s.stream i input) ∨
        Continues s.tasks es s'.tasks := by
  cases h with
  | rests hr =>
    rw [hr.tasks]
    exact .inr (.inr (continues_refl _ fun _ => rfl))
  | connected hs hl hp =>
    rename_i loop es peer conn
    refine .inl ⟨conn, rfl, peer.id display, _, rfl, ?_, fun i hi => ?_⟩
    · rw [loopPart_append, loopPart_self]
      exact taskRun_one (e := .send s.initialMessage) rfl ((List.append_nil es).symm ▸ hl)
    · rw [loopPart_append, loopPart_other hi.symm]
      rfl
  | saved hs => exact .inr (.inr (continues_refl _ fun _ => rfl))
  | broadcast hb =>
    rename_i message es
    have hm : Continues s.tasks [.broadcast message] s.tasks := continues_refl _ fun _ => rfl
    exact .inr (.inr (hm.append (sendAll_continues hb)))
  | advanced ht hl he =>
    rename_i i t es' loop es
    have hn : ∀ j, loopPart j es' = [] := by
      intro j
      rw [he]
      split <;> rfl
    refine .inr (.inr (continues_set ht ?_ fun j hj => ?_))
    · rw [loopPart_append, loopPart_self, hn, List.append_nil]
      exact taskRun_one (e := .advance) rfl hl
    · rw [loopPart_append, loopPart_other hj.symm, hn]
      rfl
  | forwarded ht hl hrec =>
    rename_i i t r loop es f ch
    have hn : ∀ j, loopPart j (r.item.toList.map fun m => .incoming i ⟨t.peerId, m⟩) = [] := by
      intro j
      cases r.item <;> rfl
    refine .inr (.inr (continues_set ht ?_ fun j hj => ?_))
    · rw [loopPart_append, loopPart_self, hn]
      exact taskRun_one (e := .receive) rfl (hl.of_bind (Exec.pure_returns loop))
    · rw [loopPart_append, loopPart_other hj.symm, hn]
      rfl
  | @removed i t ht hr =>
    have hc : Continues s.tasks [.removed t.peerId] (s.tasks.set i { t with removed := true }) :=
      continues_set ht ⟨rfl, [], Exec.pure_returns _⟩ fun _ _ => rfl
    exact .inr (.inr (hc.append (hangUps_continues _ _)))
  | stream => exact .inr (.inl ⟨_, _, rfl, rfl, rfl⟩)

end HyperBroadcast

end HyperswarmRs
