import HyperswarmRs.Chat.Listeners

namespace HyperswarmRs
open Async
set_option autoImplicit true

namespace HyperBroadcast

/-- The senders for a connection that peers hold. -/
def held (i : Nat) (ps : List Peer) : Nat := ps.countP (·.outboundTx = i)

@[simp] theorem held_append (i : Nat) (ps ps' : List Peer) :
    held i (ps ++ ps') = held i ps + held i ps' := List.countP_append

theorem held_singleton (i : Nat) (peer : Peer) :
    held i [peer] = if peer.outboundTx = i then 1 else 0 := by
  rw [held, List.countP_singleton]
  simp only [decide_eq_true_eq]

/-- What the sends of one broadcast do for a connection. -/
structure Told (message : Message) (n : Nat) (t : PeerTasks) (es : List LoopEffect)
    (t' : PeerTasks) : Prop where
  peerId : t'.peerId = t.peerId
  state : t'.loop.state = t.loop.state
  result : t'.loop.result = t.loop.result
  senders : t'.loop.outbound.senders = t.loop.outbound.senders
  receiver : t'.loop.outbound.receiver = t.loop.outbound.receiver
  queues : es = if t.loop.outbound.receiver then List.replicate n (.queued message) else []

theorem told_none (message : Message) (t : PeerTasks) : Told message 0 t [] t :=
  ⟨rfl, rfl, rfl, rfl, rfl, (ite_self _).symm⟩

theorem Told.append (h : Told message n t es t') (h' : Told message n' t' es' t'') :
    Told message (n + n') t (es ++ es') t'' where
  peerId := h'.peerId.trans h.peerId
  state := h'.state.trans h.state
  result := h'.result.trans h.result
  senders := h'.senders.trans h.senders
  receiver := h'.receiver.trans h.receiver
  queues := by
    rw [h.queues, h'.queues, h.receiver, List.replicate_add]
    split <;> rfl

structure Tells (message : Message) (ps : List Peer) (s : HyperBroadcast)
    (es : List BroadcastEffect) (s' : HyperBroadcast) : Prop where
  initialMessage : s'.initialMessage = s.initialMessage
  peers : s'.peers = s.peers
  saving : s'.saving = s.saving
  incoming : s'.incoming = s.incoming
  length : s'.tasks.length = s.tasks.length
  effects : ∀ e ∈ es, ∃ i < s.tasks.length, e = .loop i (.queued message)
  told : ∀ i t, s.tasks[i]? = some t →
    ∃ t', s'.tasks[i]? = some t' ∧ Told message (held i ps) t (loopPart i es) t'

theorem tells_none (s : HyperBroadcast) (hn : ∀ i t, s.tasks[i]? = some t →
    Told message (held i ps) t [] t) : Tells message ps s [] s :=
  ⟨rfl, rfl, rfl, rfl, rfl, List.forall_mem_nil _, fun i t ht => ⟨t, ht, hn i t ht⟩⟩

theorem Tells.append (h : Tells message ps s es s') (h' : Tells message ps' s' es' s'') :
    Tells message (ps ++ ps') s (es ++ es') s'' where
  initialMessage := h'.initialMessage.trans h.initialMessage
  peers := h'.peers.trans h.peers
  saving := h'.saving.trans h.saving
  incoming := h'.incoming.trans h.incoming
  length := h'.length.trans h.length
  effects := by
    intro e he
    rcases List.mem_append.1 he with he | he
    · exact h.effects e he
    · exact h.length ▸ h'.effects e he
  told := by
    intro i t ht
    obtain ⟨t', ht', hold⟩ := h.told i t ht
    obtain ⟨t'', ht'', hold'⟩ := h'.told i t' ht'
    rw [loopPart_append, held_append]
    exact ⟨t'', ht'', hold.append hold'⟩

theorem sendMessage_tells {s s' : HyperBroadcast}
    (h : (s.sendMessage peer.outboundTx message).Returns s' es) :
    Tells message [peer] s es s' := by
  rw [sendMessage] at h
  split at h
  · rename_i hn
    obtain ⟨rfl, rfl⟩ := Exec.returns_pure.1 h
    refine tells_none _ fun i t ht => ?_
    rw [held_singleton, if_neg]
    · exact told_none _ _
    · rintro rfl
      rw [hn] at ht
      cases ht
  · rename_i t ht
    obtain ⟨loop, _, _, he, hr, rfl⟩ := Exec.returns_bind.1 h
    obtain ⟨rfl, rfl⟩ := Exec.returns_pure.1 hr
    obtain ⟨es', hl, rfl⟩ := Exec.returns_embed.1 he
    obtain ⟨hi, -⟩ := List.getElem?_eq_some_iff.1 ht
    rw [List.append_nil]
    refine ⟨rfl, rfl, rfl, rfl, List.length_set, fun e he => ?_, fun i u hu => ?_⟩
    · obtain ⟨e', he', rfl⟩ := List.mem_map.1 he
      rcases ConnectionLoop.sendMessage_cases hl with ⟨-, -, rfl⟩ | ⟨-, rfl, -⟩
      · cases he'
      · rw [List.mem_singleton.1 he']
        exact ⟨_, hi, rfl⟩
    · rw [held_singleton]
      by_cases hj : peer.outboundTx = i
      · subst hj
        cases ht.symm.trans hu
        rw [if_pos rfl, loopPart_self, List.getElem?_set_self hi]
        refine ⟨_, rfl, ?_⟩
        rcases ConnectionLoop.sendMessage_cases hl with ⟨hc, rfl, rfl⟩ | ⟨hc, rfl, rfl⟩
        · exact ⟨rfl, rfl, rfl, rfl, rfl, by rw [hc]; rfl⟩
        · exact ⟨rfl, rfl, rfl, rfl, rfl, by rw [hc]; rfl⟩
      · rw [if_neg hj, loopPart_other hj, List.getElem?_set_ne hj]
        exact ⟨u, hu, told_none _ _⟩

theorem sendAll_tells {s s' : HyperBroadcast} (h : (sendAll message s ps).Returns s' es) :
    Tells message ps s es s' := by
  induction ps generalizing s es with
  | nil =>
    obtain ⟨rfl, rfl⟩ := Exec.returns_pure.1 h
    exact tells_none _ fun i t _ => told_none _ _
  | cons peer ps ih =>
    obtain ⟨t, _, _, hs, hr, rfl⟩ := Exec.returns_bind.1 h
    exact (sendMessage_tells hs).append (ih hr)

theorem Steps.receiver (h : Steps display s e es s') :
    s'.incoming.receiver = s.incoming.receiver := by
  cases h with
  | rests hr => exact hr.receiver
  | broadcast hb => rw [(sendAll_tells hb).incoming]
  | forwarded ht hl hrec => exact hrec
  | _ => rfl

theorem sendMessage_halts (s : HyperBroadcast) (i : Nat) (message : Message) :
    (s.sendMessage i message).Halts := by
  rw [sendMessage]
  split
  · exact Exec.halts_pure _
  · obtain ⟨loop, es, h⟩ := ConnectionLoop.sendMessage_halts ..
    exact (h.embed _).halts_bind (Exec.halts_pure _)

theorem sendAll_halts (message : Message) (s : HyperBroadcast) (ps : List Peer) :
    (sendAll message s ps).Halts := by
  induction ps generalizing s with
  | nil => exact Exec.halts_pure s
  | cons peer ps ih =>
    obtain ⟨t, es, h⟩ := sendMessage_halts s peer.outboundTx message
    exact h.halts_bind (ih t)

theorem next_halts (s : HyperBroadcast)
    (item : Option (IoResult (Connection (Duplex IoError)))) : (s.next display item).Halts := by
  unfold next
  split
  · exact Exec.halts_pure _
  · split
    · exact Exec.halts_pure _
    · exact Exec.halts_pure _
    · obtain ⟨loop, es, h⟩ := ConnectionLoop.sendMessage_halts ..
      exact (h.embed _).halts_bind ((Exec.emit_returns _).halts_bind (Exec.halts_pure _))

theorem advance_halts (s : HyperBroadcast) (i : Nat) : (s.advance i).Halts := by
  rw [advance]
  split
  · exact Exec.halts_pure _
  · obtain ⟨loop, es, h⟩ := ConnectionLoop.advance_halts ..
    refine (h.embed _).halts_bind ?_
    split
    · exact (Exec.emit_returns _).halts_bind (Exec.halts_pure _)
    · exact Exec.halts_pure _

theorem forward_halts {s : HyperBroadcast} (hr : s.incoming.receiver = true) (i : Nat) :
    (s.forward i).Halts := by
  rw [forward]
  split
  · exact Exec.halts_pure _
  · split
    · obtain ⟨⟨r, loop⟩, es, h⟩ := ConnectionLoop.receive_halts ..
      refine (h.embed _).halts_bind ?_
      rcases r with _ | _ | content
      · exact Exec.halts_pure _
      · exact Exec.halts_pure _
      · simp only [Channel.trySend, hr, if_true]
        exact (Exec.emit_returns _).halts_bind (Exec.halts_pure _)
    · exact Exec.halts_pure _

theorem step_halts {s : HyperBroadcast} (hr : s.incoming.receiver = true) (e : BroadcastEvent) :
    (s.step display e).Halts := by
  cases e with
  | next item => exact next_halts s item
  | save =>
    simp only [step, save]
    split
    · exact Exec.halts_pure _
    · exact (Exec.emit_returns _).halts_bind (Exec.halts_pure _)
  | broadcast message => exact (Exec.emit_returns _).halts_bind (sendAll_halts ..)
  | advance i => exact advance_halts s i
  | forward i => exact forward_halts hr i
  | remove i =>
    simp only [step, remove]
    split
    · exact Exec.halts_pure _
    · split
      · exact Exec.halts_pure _
      · exact (Exec.emit_returns _).halts_bind (Exec.halts_pure _)
  | stream i input => exact Exec.halts_pure _

/-- Whatever happens at a node, none of its tasks panics. -/
theorem run_never_panics (display : SocketAddr → String) (initial : Message)
    (events : List BroadcastEvent) : (run (step display) (new initial) events).Halts :=
  run_halts (P := fun s => s.incoming.receiver = true) rfl
    (fun hr h => (step_cases h).receiver.trans hr) step_halts

/-- A connection loses so many of its senders. -/
structure Drops (n : Nat) (t t' : PeerTasks) : Prop where
  peerId : t'.peerId = t.peerId
  state : t'.loop.state = t.loop.state
  result : t'.loop.result = t.loop.result
  senders : t'.loop.outbound.senders = t.loop.outbound.senders - n
  receiver : t'.loop.outbound.receiver = t.loop.outbound.receiver

theorem Drops.append (h : Drops n t t') (h' : Drops n' t' t'') : Drops (n + n') t t'' where
  peerId := h'.peerId.trans h.peerId
  state := h'.state.trans h.state
  result := h'.result.trans h.result
  senders := by rw [h'.senders, h.senders, Nat.sub_sub]
  receiver := h'.receiver.trans h.receiver

theorem hangUp_drops {ts : List PeerTasks} (ht : ts[i]? = some t) (peer : Peer) :
    ∃ t', (hangUp ts peer)[i]? = some t' ∧ Drops (held i [peer]) t t' := by
  rw [hangUp, List.getElem?_modify, ht, held_singleton]
  by_cases hi : peer.outboundTx = i
  · simp only [if_pos hi, Option.map_eq_map, Option.map_some]
    exact ⟨_, rfl, rfl, rfl, rfl, rfl, rfl⟩
  · simp only [if_neg hi, Option.map_eq_map, Option.map_some]
    exact ⟨_, rfl, rfl, rfl, rfl, rfl, rfl⟩

theorem hangUps_drops {ts : List PeerTasks} (ht : ts[i]? = some t) (ps : List Peer) :
    ∃ t', (ps.foldl hangUp ts)[i]? = some t' ∧ Drops (held i ps) t t' := by
  induction ps generalizing ts t with
  | nil => exact ⟨t, ht, rfl, rfl, rfl, rfl, rfl⟩
  | cons peer ps ih =>
    obtain ⟨t', ht', hd⟩ := hangUp_drops ht peer
    obtain ⟨t'', ht'', hd'⟩ := ih ht'
    rw [← List.singleton_append, held_append]
    exact ⟨t'', ht'', hd.append hd'⟩

theorem hangUps_length (ts : List PeerTasks) (ps : List Peer) :
    (ps.foldl hangUp ts).length = ts.length := by
  induction ps generalizing ts with
  | nil => rfl
  | cons peer ps ih => exact (ih _).trans (List.length_modify ..)

end HyperBroadcast

end HyperswarmRs
