import HyperswarmRs.Chat.BroadcastRuns

namespace HyperswarmRs
open Async
set_option autoImplicit true

namespace HyperBroadcast

/-- Effects that are none of a connection's. -/
structure Spares (i : Nat) (es : List BroadcastEffect) : Prop where
  loopPart : loopPart i es = []
  incomingPart : incomingPart i es = []
  note : ∀ id l, es.foldl (Listener.note i id) l = l

theorem spares_nil (i : Nat) : Spares i [] := ⟨rfl, rfl, fun _ _ => rfl⟩

theorem Spares.append (h : Spares i es) (h' : Spares i es') : Spares i (es ++ es') where
  loopPart := by rw [loopPart_append, h.loopPart, h'.loopPart, List.append_nil]
  incomingPart := by rw [incomingPart_append, h.incomingPart, h'.incomingPart, List.append_nil]
  note id l := by rw [List.foldl_append, h.note, h'.note]

theorem spares_loops (h : j ≠ i) (es : List LoopEffect) : Spares i (es.map (.loop j)) :=
  ⟨loopPart_other h es, incomingPart_loops es, fun id l => note_loops id l es⟩

theorem spares_connected (i j : Nat) (peerId : PeerId) : Spares i [.connected j peerId] :=
  ⟨rfl, rfl, fun _ _ => rfl⟩

theorem spares_disconnected (h : j ≠ i) : Spares i [.disconnected j] :=
  ⟨rfl, rfl, fun _ _ => if_neg h⟩

theorem spares_incoming (h : j ≠ i) (message : IncomingMessage) :
    Spares i [.incoming j message] :=
  ⟨rfl, List.filterMap_cons_none (if_neg h), fun _ _ => rfl⟩

/-- What a node knows of one of its connections, and what it has done for it. -/
structure Accounts (i : Nat) (tr : List BroadcastEffect) (s : HyperBroadcast) (t : PeerTasks) :
    Prop where
  sane : t.loop.Sane
  live : t.loop.Live
  senders : t.loop.outbound.senders = held i (s.peers ++ s.saving.toList)
  ended : (listener i t.peerId tr).ended = t.loop.result.isSome
  listed : held i s.peers = if (listener i t.peerId tr).listed then 1 else 0
  queued : (loopPart i tr).filterMap LoopEffect.queued? =
    s.initialMessage :: (listener i t.peerId tr).told
  incoming : incomingPart i tr =
    ((loopPart i tr).filterMap LoopEffect.received?).map (IncomingMessage.mk t.peerId)

structure SamePeers (i : Nat) (s s' : HyperBroadcast) : Prop where
  initialMessage : s'.initialMessage = s.initialMessage
  peers : s'.peers = s.peers
  saving : held i s'.saving.toList = held i s.saving.toList

theorem Rests.samePeers (h : Rests s s') (i : Nat) : SamePeers i s s' := by
  refine ⟨h.initialMessage, h.peers, ?_⟩
  rw [h.saving]

/-- What the tasks of a connection do, when nothing is said. -/
structure Works (i : Nat) (t : PeerTasks) (es : List BroadcastEffect) (t' : PeerTasks) :
    Prop where
  peerId : t'.peerId = t.peerId
  sane : t'.loop.Sane
  live : t'.loop.Live
  senders : t'.loop.outbound.senders = t.loop.outbound.senders
  queued : (loopPart i es).filterMap LoopEffect.queued? = []
  incoming : incomingPart i es =
    ((loopPart i es).filterMap LoopEffect.received?).map (IncomingMessage.mk t.peerId)
  note : ∀ l, l.ended = t.loop.result.isSome →
    es.foldl (Listener.note i t.peerId) l = { l with ended := t'.loop.result.isSome }

theorem Spares.works (h : Spares i es) (hs : t.loop.Sane) (hl : t.loop.Live) :
    Works i t es t where
  peerId := rfl
  sane := hs
  live := hl
  senders := rfl
  queued := by
    rw [h.loopPart]
    rfl
  incoming := by
    rw [h.loopPart, h.incomingPart]
    rfl
  note l hl := by rw [h.note, ← hl]

theorem Accounts.works (h : Accounts i tr s t) (hs : SamePeers i s s') (hw : Works i t es t') :
    Accounts i (tr ++ es) s' t' := by
  have hl : listener i t'.peerId (tr ++ es) =
      { listener i t.peerId tr with ended := t'.loop.result.isSome } := by
    rw [listener_append, hw.peerId, hw.note _ h.ended]
  refine ⟨hw.sane, hw.live, ?_, ?_, ?_, ?_, ?_⟩
  · rw [hw.senders, h.senders, held_append, held_append, hs.peers, hs.saving]
  · rw [hl]
  · rw [hl, hs.peers]
    exact h.listed
  · rw [hl, loopPart_append, List.filterMap_append, hw.queued, List.append_nil, hs.initialMessage]
    exact h.queued
  · rw [incomingPart_append, loopPart_append, List.filterMap_append, List.map_append, hw.peerId,
      h.incoming, hw.incoming]

/-- The list of peers knows of the connections that there are. -/
structure Sound (display : SocketAddr → String) (tr : List BroadcastEffect)
    (s : HyperBroadcast) : Prop where
  bounded : ∀ e ∈ tr, ∀ i ∈ e.index?, i < s.tasks.length
  known : ∀ peer ∈ s.peers ++ s.saving.toList,
    ∃ t, s.tasks[peer.outboundTx]? = some t ∧ t.peerId = peer.id display
  saving : ∀ peer ∈ s.saving, held peer.outboundTx s.peers = 0
  accounts : ∀ i t, s.tasks[i]? = some t → Accounts i tr s t

theorem sound_new (display : SocketAddr → String) (initial : Message) :
    Sound display [] (new initial) where
  bounded := List.forall_mem_nil _
  known := List.forall_mem_nil _
  saving _ h := by cases h
  accounts _ _ h := by cases h

theorem works_advance {t : PeerTasks} (hs : t.loop.Sane) (hl : t.loop.Live)
    (h : t.loop.advance.Returns loop es)
    (he : es' = if t.loop.result.isNone && loop.result.isSome then [.disconnected i] else []) :
    Works i t (es.map (.loop i) ++ es') { t with loop } := by
  have ht := ConnectionLoop.advance_cases hs h
  have hn : loopPart i es' = [] ∧ incomingPart i es' = [] := by
    rw [he]
    split <;> exact ⟨rfl, rfl⟩
  have hp : loopPart i (es.map (.loop i) ++ es') = es := by
    rw [loopPart_append, loopPart_self, hn.1, List.append_nil]
  refine ⟨rfl, ht.sane hs, ht.live hl, ht.senders, ?_, ?_, fun l hd => ?_⟩
  · rw [hp, ht.queued]
  · rw [hp, ht.received, incomingPart_append, incomingPart_loops, hn.2]
    rfl
  · rw [List.foldl_append, note_loops, he]
    cases hr : t.loop.result with
    | none =>
      cases hr' : loop.result with
      | none =>
        rw [hr] at hd
        obtain ⟨listed, ended, told⟩ := l
        subst hd
        rfl
      | some err => exact if_pos rfl
    | some err =>
      have hsome : loop.result.isSome = true := by
        rw [Option.isSome_iff_ne_none]
        refine ht.result fun hn => ?_
        rw [hr] at hn
        cases hn
      rw [hr] at hd
      obtain ⟨listed, ended, told⟩ := l
      subst hd
      rw [hsome]
      rfl

theorem works_forward {t : PeerTasks} (hs : t.loop.Sane) (hl : t.loop.Live)
    (h : t.loop.receive.Returns (r, loop) es) :
    Works i t (es.map (.loop i) ++ r.item.toList.map fun m => .incoming i ⟨t.peerId, m⟩)
      ⟨t.peerId, loop, f, d⟩ := by
  obtain ⟨ch, rfl, rfl, -⟩ := ConnectionLoop.receive_cases h
  refine ⟨rfl, hs, hl, rfl, ?_, ?_, fun l hd => ?_⟩
  · rw [loopPart_append, loopPart_self]
    cases r.item <;> rfl
  · rw [loopPart_append, loopPart_self, incomingPart_append, incomingPart_loops]
    cases r.item with
    | none => rfl
    | some message =>
      have hi : incomingPart i [.incoming i ⟨t.peerId, message⟩] = [⟨t.peerId, message⟩] :=
        List.filterMap_cons_some (if_pos rfl)
      exact hi
  · rw [List.foldl_append, note_loops, ← hd]
    cases r.item <;> rfl

theorem Accounts.saved (h : Accounts i tr s t) (hs : s.saving = some peer)
    (hn : peer.outboundTx = i → held i s.peers = 0) :
    Accounts i (tr ++ [.saved peer.outboundTx])
      { s with peers := s.peers ++ [peer], saving := none } t := by
  have hl : listener i t.peerId (tr ++ [.saved peer.outboundTx]) = if peer.outboundTx = i then
      { listener i t.peerId tr with listed := true } else listener i t.peerId tr :=
    listener_append ..
  have hsend := h.senders
  rw [hs] at hsend
  refine ⟨h.sane, h.live, hsend.trans (congrArg _ (List.append_nil _).symm), ?_, ?_, ?_, ?_⟩
  · rw [hl]
    split <;> exact h.ended
  · rw [hl, held_append, held_singleton]
    by_cases hi : peer.outboundTx = i
    · rw [if_pos hi, if_pos hi, hn hi]
      rfl
    · rw [if_neg hi, if_neg hi]
      exact h.listed
  · rw [hl, loopPart_append]
    have hp : loopPart i [.saved peer.outboundTx] = [] := rfl
    rw [hp, List.append_nil, h.queued]
    split <;> rfl
  · rw [incomingPart_append, loopPart_append]
    have hp : loopPart i [.saved peer.outboundTx] = [] := rfl
    have hm : incomingPart i [.saved peer.outboundTx] = [] := rfl
    rw [hp, hm, List.append_nil, List.append_nil]
    exact h.incoming

theorem Told.received (h : Told message n t es t') : es.filterMap LoopEffect.received? = [] := by
  rw [h.queues]
  split
  · refine List.filterMap_eq_nil_iff.2 fun e he => ?_
    rw [List.eq_of_mem_replicate he]
    rfl
  · rfl

theorem Tells.spares (h : Tells message ps s es s') (i : Nat) :
    incomingPart i es = [] ∧ ∀ id l, es.foldl (Listener.note i id) l = l := by
  have he := h.effects
  clear h
  induction es with
  | nil => exact ⟨rfl, fun _ _ => rfl⟩
  | cons e es ih =>
    obtain ⟨j, -, rfl⟩ := he e List.mem_cons_self
    exact ih fun e' he' => he e' (List.mem_cons_of_mem _ he')

/-- What is said is queued for a connection that is listed, once. -/
theorem Accounts.told (h : Accounts i tr s t) (hs : Tells message s.peers s es s')
    (ht : Told message (held i s.peers) t (loopPart i es) t') :
    Accounts i (tr ++ .broadcast message :: es) s' t' := by
  obtain ⟨hin, hnote⟩ := hs.spares i
  have hp : loopPart i (.broadcast message :: es) = loopPart i es := rfl
  have hm : incomingPart i (.broadcast message :: es) = [] := hin
  have hl : listener i t'.peerId (tr ++ .broadcast message :: es) =
      (listener i t.peerId tr).note i t.peerId (.broadcast message) := by
    rw [listener_append, List.foldl_cons, hnote, ht.peerId]
  have hlisted : ((listener i t.peerId tr).note i t.peerId (.broadcast message)).listed =
      (listener i t.peerId tr).listed := by
    rw [Listener.note]
    split <;> rfl
  have hended : ((listener i t.peerId tr).note i t.peerId (.broadcast message)).ended =
      (listener i t.peerId tr).ended := by
    rw [Listener.note]
    split <;> rfl
  refine ⟨?_, ?_, ?_, ?_, ?_, ?_, ?_⟩
  · rw [ConnectionLoop.Sane, ht.state, ht.result]
    exact h.sane
  · rw [ConnectionLoop.Live, ht.receiver, ht.result]
    exact h.live
  · rw [ht.senders, hs.peers, hs.saving, h.senders]
  · rw [hl, hended, ht.result, h.ended]
  · rw [hl, hlisted, hs.peers, h.listed]
  · rw [hl, loopPart_append, List.filterMap_append, hp, ht.queues, h.live, h.queued, h.listed,
      hs.initialMessage, Listener.note, ← Option.not_isSome, ← h.ended]
    cases (listener i t.peerId tr).listed <;> cases (listener i t.peerId tr).ended
    · exact List.append_nil _
    · exact List.append_nil _
    · rfl
    · exact List.append_nil _
  · rw [incomingPart_append, loopPart_append, hp, hm, List.append_nil, List.filterMap_append,
      ht.received, List.append_nil, ht.peerId, h.incoming]

theorem held_filter (display : SocketAddr → String) (i : Nat) (peerId : PeerId)
    (ps : List Peer) : held i ps = held i (ps.filter (·.id display = peerId)) +
      held i (ps.filter (·.id display ≠ peerId)) := by
  simp only [held, ne_eq, decide_not]
  exact List.countP_eq_countP_filter_add ..

theorem held_kept {ps : List Peer}
    (h : ∀ peer ∈ ps, peer.outboundTx = i → peer.id display = own) (peerId : PeerId) :
    held i (ps.filter (·.id display ≠ peerId)) = if peerId = own then 0 else held i ps := by
  rw [held, List.countP_filter]
  split
  · rename_i heq
    refine List.countP_eq_zero.2 fun peer hp hd => ?_
    obtain ⟨hi, hne⟩ := Bool.and_eq_true_iff.1 hd
    exact of_decide_eq_true hne ((h peer hp (of_decide_eq_true hi)).trans heq.symm)
  · rename_i hne
    refine List.countP_congr fun peer hp => ?_
    simp only [Bool.and_eq_true, decide_eq_true_eq, and_iff_left_iff_imp]
    intro hi heq
    exact hne (heq.symm.trans (h peer hp hi))

theorem Accounts.removed {s s' : HyperBroadcast} (h : Accounts i tr s t)
    (hp : s'.peers = s.peers.filter (·.id display ≠ peerId)) (hs : s'.saving = s.saving)
    (hm : s'.initialMessage = s.initialMessage)
    (hi : ∀ peer ∈ s.peers, peer.outboundTx = i → peer.id display = t.peerId)
    (hd : Drops (held i (s.peers.filter (·.id display = peerId))) t t') :
    Accounts i (tr ++ [.removed peerId]) s' t' := by
  have hl : listener i t'.peerId (tr ++ [.removed peerId]) = if peerId = t.peerId then
      { listener i t.peerId tr with listed := false } else listener i t.peerId tr := by
    rw [listener_append, hd.peerId]
    rfl
  have hlp : loopPart i [.removed peerId] = [] := rfl
  have hip : incomingPart i [.removed peerId] = [] := rfl
  refine ⟨?_, ?_, ?_, ?_, ?_, ?_, ?_⟩
  · rw [ConnectionLoop.Sane, hd.state, hd.result]
    exact h.sane
  · rw [ConnectionLoop.Live, hd.receiver, hd.result]
    exact h.live
  · rw [hd.senders, h.senders, held_append, held_append, held_filter display i peerId s.peers, hp,
      hs]
    omega
  · rw [hl, hd.result, ← h.ended]
    split <;> rfl
  · rw [hl, hp, held_kept hi, h.listed]
    split <;> rfl
  · rw [hl, loopPart_append, hlp, List.append_nil, h.queued, hm]
    split <;> rfl
  · rw [incomingPart_append, loopPart_append, hlp, hip, List.append_nil, List.append_nil,
      hd.peerId, h.incoming]

theorem Steps.keeps {s s' : HyperBroadcast} {i : Nat} {t : PeerTasks} (h : Steps display s e es s')
    (ht : s.tasks[i]? = some t) : ∃ t', s'.tasks[i]? = some t' ∧ t'.peerId = t.peerId := by
  rcases h.tasks with ⟨conn, -, peerId, u, hu, -, -⟩ | ⟨j, input, -, -, rfl⟩ | hc
  · obtain ⟨hi, -⟩ := List.getElem?_eq_some_iff.1 ht
    exact ⟨t, by rw [hu, List.getElem?_append_left hi, ht], rfl⟩
  · by_cases hj : j = i
    · subst hj
      exact ⟨_, stream_self ht input, rfl⟩
    · exact ⟨t, (stream_other hj s input).trans ht, rfl⟩
  · obtain ⟨t', ht', hr⟩ := (hc i).1 t ht
    exact ⟨t', ht', hr.peerId⟩

theorem Steps.length (h : Steps display s e es s') : s.tasks.length ≤ s'.tasks.length := by
  by_contra hlt
  have hi : s'.tasks.length < s.tasks.length := Nat.lt_of_not_le hlt
  obtain ⟨t', ht', -⟩ := h.keeps (List.getElem?_eq_getElem hi)
  rw [List.getElem?_eq_none (Nat.le_refl _)] at ht'
  cases ht'

section Step

variable {s s' : HyperBroadcast} (h : Sound display tr s)

include h

theorem Sound.lt (hp : peer ∈ s.peers ++ s.saving.toList) : peer.outboundTx < s.tasks.length := by
  obtain ⟨t, ht, -⟩ := h.known peer hp
  exact (List.getElem?_eq_some_iff.1 ht).1

theorem Sound.held_new : held s.tasks.length s.peers = 0 := by
  refine List.countP_eq_zero.2 fun peer hp hi => ?_
  have hlt := h.lt (List.mem_append_left _ hp)
  rw [of_decide_eq_true hi] at hlt
  exact Nat.lt_irrefl _ hlt

theorem Sound.step_bounded (hs : Steps display s e es s') :
    ∀ e ∈ tr ++ es, ∀ i ∈ e.index?, i < s'.tasks.length := by
  intro e he i hi
  rcases List.mem_append.1 he with he | he
  · exact Nat.lt_of_lt_of_le (h.bounded e he i hi) hs.length
  · have hloops : ∀ {j : Nat} {es : List LoopEffect}, e ∈ es.map (.loop j) → j = i := by
      intro j es hm
      obtain ⟨e', -, rfl⟩ := List.mem_map.1 hm
      exact Option.some.inj hi
    cases hs with
    | rests hr => cases he
    | connected hs hl hp =>
      have heq : s.tasks.length = i := by
        rcases List.mem_append.1 he with he | he
        · exact hloops he
        · rw [List.mem_singleton.1 he] at hi
          exact Option.some.inj hi
      rw [← heq, List.length_append]
      exact Nat.lt_succ_self _
    | saved hs =>
      rw [List.mem_singleton.1 he] at hi
      cases hi
      exact h.lt (List.mem_append_right _ (hs ▸ List.mem_singleton_self _))
    | broadcast hb =>
      have ht := sendAll_tells hb
      rcases List.mem_cons.1 he with rfl | he
      · cases hi
      · obtain ⟨j, hj, rfl⟩ := ht.effects e he
        cases hi
        exact ht.length ▸ hj
    | @advanced j t es' loop es ht hl he' =>
      obtain ⟨hj, -⟩ := List.getElem?_eq_some_iff.1 ht
      have heq : j = i := by
        rcases List.mem_append.1 he with he | he
        · exact hloops he
        · rw [he'] at he
          split at he
          · rw [List.mem_singleton.1 he] at hi
            exact Option.some.inj hi
          · cases he
      rw [← heq, List.length_set]
      exact hj
    | forwarded ht hl hrec =>
      obtain ⟨hj, -⟩ := List.getElem?_eq_some_iff.1 ht
      rw [List.length_set]
      rcases List.mem_append.1 he with he | he
      · exact hloops he ▸ hj
      · obtain ⟨m, -, rfl⟩ := List.mem_map.1 he
        cases hi
        exact hj
    | removed ht hr =>
      rw [List.mem_singleton.1 he] at hi
      cases hi
    | stream => cases he

theorem Sound.step_known (hs : Steps display s e es s') :
    ∀ peer ∈ s'.peers ++ s'.saving.toList,
      ∃ t, s'.tasks[peer.outboundTx]? = some t ∧ t.peerId = peer.id display := by
  have hkeep : ∀ peer ∈ s.peers ++ s.saving.toList,
      ∃ t, s'.tasks[peer.outboundTx]? = some t ∧ t.peerId = peer.id display := by
    intro peer hp
    obtain ⟨t, ht, hid⟩ := h.known peer hp
    obtain ⟨t', ht', hid'⟩ := hs.keeps ht
    exact ⟨t', ht', hid'.trans hid⟩
  cases hs with
  | rests hr =>
    rw [hr.peers, hr.saving]
    exact hkeep
  | connected hs hl hp =>
    rename_i loop es peer conn
    intro q hq
    rcases List.mem_append.1 hq with hq | hq
    · exact hkeep q (List.mem_append_left _ hq)
    · cases List.mem_singleton.1 hq
      rw [hp]
      exact ⟨_, List.getElem?_concat_length .., rfl⟩
  | saved hs =>
    rename_i peer
    rw [hs] at hkeep
    exact fun q hq => hkeep q ((List.append_nil _).subst hq)
  | broadcast hb =>
    have ht := sendAll_tells hb
    rw [ht.peers, ht.saving]
    exact hkeep
  | advanced ht hl he => exact hkeep
  | forwarded ht hl hrec => exact hkeep
  | removed ht hr =>
    intro q hq
    refine hkeep q ?_
    rcases List.mem_append.1 hq with hq | hq
    · exact List.mem_append_left _ (List.mem_filter.1 hq).1
    · exact List.mem_append_right _ hq
  | stream => exact hkeep

theorem Sound.step_saving (hs : Steps display s e es s') :
    ∀ peer ∈ s'.saving, held peer.outboundTx s'.peers = 0 := by
  cases hs with
  | rests hr =>
    rw [hr.peers, hr.saving]
    exact h.saving
  | connected hs hl hp =>
    intro q hq
    cases hq
    rw [hp]
    exact h.held_new
  | saved hs =>
    intro q hq
    cases hq
  | broadcast hb =>
    have ht := sendAll_tells hb
    rw [ht.peers, ht.saving]
    exact h.saving
  | advanced ht hl he => exact h.saving
  | forwarded ht hl hrec => exact h.saving
  | removed ht hr =>
    intro q hq
    exact Nat.le_zero.1 (h.saving q hq ▸ List.Sublist.countP_le List.filter_sublist)
  | stream => exact h.saving

theorem Sound.spared (ht : s.tasks[i]? = some t) (hs : SamePeers i s s') (he : Spares i es) :
    Accounts i (tr ++ es) s' t := by
  have ha := h.accounts i t ht
  exact ha.works hs (he.works ha.sane ha.live)

theorem Sound.accounts_set (ht : s.tasks[j]? = some t) (hw : Works j t es u)
    (hn : ∀ i, j ≠ i → Spares i es) (ht' : (s.tasks.set j u)[i]? = some t') :
    Accounts i (tr ++ es) { s with tasks := s.tasks.set j u, incoming := ch } t' := by
  obtain ⟨hj, -⟩ := List.getElem?_eq_some_iff.1 ht
  by_cases hi : j = i
  · subst hi
    rw [List.getElem?_set_self hj] at ht'
    cases ht'
    exact (h.accounts j t ht).works ⟨rfl, rfl, rfl⟩ hw
  · rw [List.getElem?_set_ne hi] at ht'
    exact h.spared ht' ⟨rfl, rfl, rfl⟩ (hn i hi)

theorem Sound.accounts_connected
    (hl : ((ConnectionLoop.spawn d).sendMessage s.initialMessage).Returns loop es)
    (hp : peer.outboundTx = s.tasks.length) :
    Accounts s.tasks.length
      (tr ++ (es.map (.loop s.tasks.length) ++ [.connected s.tasks.length peerId]))
      { s with
        tasks := s.tasks ++ [⟨peerId, loop, true, false⟩]
        incoming := s.incoming.cloneSender
        saving := some peer } ⟨peerId, loop, true, false⟩ := by
  obtain ⟨hlp, hip, hlis⟩ := parts_of_unknown s.tasks.length tr fun e he j hj =>
    Nat.ne_of_lt (h.bounded e he j hj)
  have hp' : loopPart s.tasks.length
      (tr ++ (es.map (.loop s.tasks.length) ++ [.connected s.tasks.length peerId])) = es := by
    rw [loopPart_append, loopPart_append, loopPart_self, hlp]
    exact List.append_nil _
  have hm : incomingPart s.tasks.length
      (tr ++ (es.map (.loop s.tasks.length) ++ [.connected s.tasks.length peerId])) = [] := by
    rw [incomingPart_append, incomingPart_append, incomingPart_loops, hip]
    rfl
  have hlis' : listener s.tasks.length peerId
      (tr ++ (es.map (.loop s.tasks.length) ++ [.connected s.tasks.length peerId])) = {} := by
    rw [listener_append, List.foldl_append, note_loops, hlis]
    rfl
  rcases ConnectionLoop.sendMessage_cases hl with ⟨hr, -, -⟩ | ⟨-, rfl, rfl⟩
  · cases hr
  · refine ⟨ConnectionLoop.spawn_sane d, rfl, ?_, ?_, ?_, ?_, ?_⟩
    · change 1 = held s.tasks.length (s.peers ++ [peer])
      rw [held_append, h.held_new, held_singleton, if_pos hp]
    · rw [hlis']
      rfl
    · rw [hlis']
      exact h.held_new
    · rw [hlis', hp']
      rfl
    · rw [hm, hp']
      rfl

theorem Sound.step_accounts (hs : Steps display s e es s') :
    ∀ i t', s'.tasks[i]? = some t' → Accounts i (tr ++ es) s' t' := by
  intro i t' ht'
  have hold : i < s.tasks.length → ∃ t, s.tasks[i]? = some t ∧ Accounts i tr s t := fun hi =>
    ⟨_, List.getElem?_eq_getElem hi, h.accounts i _ (List.getElem?_eq_getElem hi)⟩
  obtain ⟨hi, -⟩ := List.getElem?_eq_some_iff.1 ht'
  cases hs with
  | rests hr =>
    rw [hr.tasks] at ht'
    exact h.spared ht' (hr.samePeers i) (spares_nil i)
  | @connected loop es peer conn hs hl hp =>
    rcases task_concat ht' with ⟨hlt, ht'⟩ | ⟨rfl, rfl⟩
    · have hne := Nat.ne_of_gt hlt
      have hq : Spares i (es.map (.loop s.tasks.length) ++
          [.connected s.tasks.length (peer.id display)]) :=
        (spares_loops hne es).append (spares_connected ..)
      refine h.spared ht' ⟨rfl, rfl, ?_⟩ hq
      rw [hs, Option.toList_some, held_singleton, hp, if_neg hne]
      rfl
    · exact h.accounts_connected hl (congrArg Peer.outboundTx hp)
  | @saved peer hs =>
    refine (h.accounts i t' ht').saved hs ?_
    rintro rfl
    exact h.saving peer hs
  | broadcast hb =>
    have hall := sendAll_tells hb
    obtain ⟨t, ht, ha⟩ := hold (hall.length ▸ hi)
    obtain ⟨u, hu, htold⟩ := hall.told i t ht
    cases hu.symm.trans ht'
    exact ha.told hall htold
  | @advanced j t es' loop es ht hl he =>
    have ha := h.accounts j t ht
    refine h.accounts_set ht (works_advance ha.sane ha.live hl he) (fun k hk => ?_) ht'
    refine (spares_loops hk es).append ?_
    rw [he]
    split
    · exact spares_disconnected hk
    · exact spares_nil k
  | @forwarded j t r loop es f ch ht hl hrec =>
    have ha := h.accounts j t ht
    refine h.accounts_set ht (works_forward ha.sane ha.live hl) (fun k hk => ?_) ht'
    refine (spares_loops hk es).append ?_
    cases r.item with
    | none => exact spares_nil k
    | some message => exact spares_incoming hk _
  | @removed j u hu hr =>
    rw [hangUps_length, List.length_set] at hi
    obtain ⟨t, ht, ha⟩ := hold hi
    have hset : ∃ t₁, (s.tasks.set j { u with removed := true })[i]? = some t₁ ∧ Drops 0 t t₁ := by
      by_cases hj : j = i
      · subst hj
        cases hu.symm.trans ht
        exact ⟨_, List.getElem?_set_self hi, rfl, rfl, rfl, rfl, rfl⟩
      · exact ⟨t, (List.getElem?_set_ne hj).trans ht, rfl, rfl, rfl, rfl, rfl⟩
    obtain ⟨t₁, ht₁, hd₁⟩ := hset
    obtain ⟨t₂, ht₂, hd₂⟩ := hangUps_drops ht₁ (s.peers.filter (·.id display = u.peerId))
    cases ht₂.symm.trans ht'
    have hd := hd₁.append hd₂
    rw [Nat.zero_add] at hd
    refine ha.removed rfl rfl rfl (fun peer hp hi => ?_) hd
    obtain ⟨t₃, ht₃, hid⟩ := h.known peer (List.mem_append_left _ hp)
    rw [hi, ht] at ht₃
    cases ht₃
    exact hid.symm
  | @stream j input =>
    rw [HyperBroadcast.stream, List.length_modify] at hi
    obtain ⟨t, ht, ha⟩ := hold hi
    by_cases hj : j = i
    · subst hj
      rw [stream_self ht] at ht'
      cases ht'
      refine ha.works ⟨rfl, rfl, rfl⟩ ⟨rfl, ha.sane, ha.live, rfl, rfl, rfl, fun l hl => ?_⟩
      obtain ⟨listed, ended, told⟩ := l
      subst hl
      rfl
    · rw [stream_other hj] at ht'
      exact h.spared ht' ⟨rfl, rfl, rfl⟩ (spares_nil i)

theorem Sound.step (hs : (s.step display e).Returns s' es) : Sound display (tr ++ es) s' :=
  have hs := step_cases hs
  ⟨h.step_bounded hs, h.step_known hs, h.step_saving hs, h.step_accounts hs⟩

end Step

theorem run_sound {s : HyperBroadcast} (h : (run (step display) (new initial) events).Returns s tr) :
    Sound display tr s :=
  run_trace (P := fun _ => Sound display) (sound_new display initial) (fun hs h => hs.step h) h

theorem Steps.initialMessage (h : Steps display s e es s') :
    s'.initialMessage = s.initialMessage := by
  cases h with
  | rests hr => exact hr.initialMessage
  | broadcast hb => exact (sendAll_tells hb).initialMessage
  | _ => rfl

theorem run_initialMessage {s : HyperBroadcast}
    (h : (run (step display) (new initial) events).Returns s tr) : s.initialMessage = initial :=
  run_invariant (P := fun s => s.initialMessage = initial) rfl
    (fun hs h => (step_cases h).initialMessage.trans hs) h

/-- What a loop has delivered is taken in that order, and what is not taken yet waits. -/
def Receives (tr : List BroadcastEffect) (s : HyperBroadcast) : Prop :=
  ∀ i t, s.tasks[i]? = some t → Fifo [] ((loopPart i tr).filterMap LoopEffect.delivered?)
    ((loopPart i tr).filterMap LoopEffect.received?) t.loop.inbound.queue

theorem Sound.step_receives {s s' : HyperBroadcast} (h : Sound display tr s) (hr : Receives tr s)
    (hs : Steps display s e es s') : Receives (tr ++ es) s' := by
  intro i t' ht'
  rw [loopPart_append, List.filterMap_append, List.filterMap_append]
  rcases hs.tasks with ⟨conn, -, peerId, u, hu, ho, hn⟩ | ⟨j, input, -, rfl, rfl⟩ | hc
  · rw [hu] at ht'
    rcases task_concat ht' with ⟨hi, ht⟩ | ⟨rfl, rfl⟩
    · rw [hn i (Nat.ne_of_lt hi)]
      exact (hr i t' ht).append (.refl _)
    · rw [(parts_of_unknown s.tasks.length tr fun e he j hj =>
        Nat.ne_of_lt (h.bounded e he j hj)).1]
      exact ho.receives (ConnectionLoop.spawn_sane _)
  · obtain ⟨t, ht, hq⟩ := stream_inbound ht'
    rw [hq]
    exact (hr i t ht).append (.refl _)
  · cases ht : s.tasks[i]? with
    | none =>
      rw [((hc i).2 ht).1] at ht'
      cases ht'
    | some t =>
      obtain ⟨u, hu, htask⟩ := (hc i).1 t ht
      cases hu.symm.trans ht'
      exact (hr i t ht).append (htask.receives (h.accounts i t ht).sane)

theorem run_receives {s : HyperBroadcast}
    (h : (run (step display) (new initial) events).Returns s tr) : Receives tr s :=
  (run_trace (P := fun _ tr s => Sound display tr s ∧ Receives tr s)
    ⟨sound_new display initial, fun _ _ ht => by cases ht⟩
    (fun hs h => ⟨hs.1.step h, hs.1.step_receives hs.2 (step_cases h)⟩) h).2

/-- What is queued for a connection is the first message, and after it what is said while its peer
is in the list and its loop runs; what comes from it is what its loop has read, under the identity
of the peer and in order, but for what still waits. A loop to which nobody can send any more has lost its peer, maybe through the end of
another connection with that identity. -/
theorem run_tells_listeners (h : (run (step display) (new initial) events).Returns s tr)
    (ht : s.tasks[i]? = some t) :
    (loopPart i tr).filterMap LoopEffect.queued? = initial :: (listener i t.peerId tr).told ∧
      incomingPart i tr = ((loopPart i tr).filterMap LoopEffect.received?).map
        (IncomingMessage.mk t.peerId) ∧
      (loopPart i tr).filterMap LoopEffect.delivered? =
        (loopPart i tr).filterMap LoopEffect.received? ++ t.loop.inbound.queue ∧
      ((∃ peer ∈ s.peers, peer.outboundTx = i) ↔ (listener i t.peerId tr).listed = true) ∧
      (t.loop.outbound.senders = 0 ↔ (listener i t.peerId tr).listed = false ∧
        ∀ peer ∈ s.saving, peer.outboundTx ≠ i) := by
  have ha := (run_sound h).accounts i t ht
  have hheld : ∀ ps, held i ps = 0 ↔ ∀ peer ∈ ps, peer.outboundTx ≠ i := by
    intro ps
    simp only [held, List.countP_eq_zero, decide_eq_true_eq, ne_eq]
  have hlisted : held i s.peers = 0 ↔ (listener i t.peerId tr).listed = false := by
    rw [ha.listed]
    cases (listener i t.peerId tr).listed <;> decide
  refine ⟨run_initialMessage h ▸ ha.queued, ha.incoming, run_receives h i t ht, ?_, ?_⟩
  · rw [← Bool.not_eq_false, ← hlisted, hheld]
    simp only [ne_eq, not_forall, not_not, exists_prop]
  · rw [ha.senders, held_append, Nat.add_eq_zero_iff, hlisted, hheld]
    simp only [Option.mem_toList]
    exact Iff.rfl

/-- Of two connections with one identity, the end of the first takes away both peers; of two
messages that the second has read, one is forwarded before. -/
theorem run_tells_listeners_same_id :
    let conn : Connection (Duplex IoError) := ⟨{}, loopback 9, true, "tcp"⟩
    let events := [.next (some (.ok conn)), .save, .next (some (.ok conn)), .save,
      .broadcast [65], .stream 1 (.arrive [0, 0, 0, 1, 67, 0, 0, 0, 0]), .advance 1, .advance 1,
      .advance 1, .forward 1, .stream 0 (.stop (.read (.ok ()))), .advance 0, .remove 0,
      .broadcast [66]]
    ∃ s tr, (run (step fun _ => "") (new [72]) events).Returns s tr ∧
      (loopPart 1 tr).filterMap LoopEffect.queued? = [[72], [65]] ∧
        (loopPart 1 tr).filterMap LoopEffect.delivered? = [[67], []] ∧
          incomingPart 1 tr = [⟨"tcp:", [67]⟩] ∧ ¬ ∃ peer ∈ s.peers, peer.outboundTx = 1 := by
  intro conn events
  have hc : (run (step fun _ => "") (new [72]) events).check (fun s tr =>
      s.tasks[1]?.map (fun t => (t.peerId, t.loop.inbound.queue)) = some ("tcp:", [[]]) ∧
        listener 1 "tcp:" tr = ⟨false, false, [[65]]⟩ ∧
          (loopPart 1 tr).filterMap LoopEffect.received? = [[67]]) := by
    decide +kernel
  obtain ⟨s, tr, h, hp⟩ := Exec.exists_of_check hc
  obtain ⟨ht, hl, hr⟩ := of_decide_eq_true hp
  obtain ⟨t, ht, hid⟩ := Option.map_eq_some_iff.1 ht
  obtain ⟨hid, hw⟩ := Prod.mk.inj hid
  obtain ⟨hq, hi, hd, hlisted, -⟩ := run_tells_listeners h ht
  rw [hid, hl] at hq hlisted
  rw [hid, hr] at hi
  rw [hr, hw] at hd
  refine ⟨s, tr, h, hq, hd, hi, fun hp => ?_⟩
  cases hlisted.1 hp

end HyperBroadcast

end HyperswarmRs
