import HyperswarmRs.Chat.Ends

namespace HyperswarmRs
open Async
set_option autoImplicit true

namespace Chat

variable {ν : Type} [DecidableEq ν] {chat : Chat ν} {initial : ν → Message} {n : ν}
  {tr : List (ν × BroadcastEffect)} {k k' : ChatLink ν} {l : Nat}

/-- How the connections of a chat hang together with its nodes: the nodes run as they do alone,
each end is a connection of its node and of no other end, and the two ends of each connection have
a conversation. -/
structure Joined (display : SocketAddr → String) (initial : ν → Message)
    (tr : List (ν × BroadcastEffect)) (chat : Chat ν) : Prop where
  nodes : ∀ n, ∃ events, (run (HyperBroadcast.step display) (.new (initial n)) events).Returns
    (chat.nodes n) (part n tr)
  known : ∀ {l : Nat} {k b i}, chat.links[l]? = some k → k.index b = some i →
    ∃ t, (chat.nodes (k.link.node b)).tasks[i]? = some t ∧ t.peerId = k.peerId display b
  distinct : ∀ {l l' : Nat} {k k' b b' i}, chat.links[l]? = some k → chat.links[l']? = some k' →
    k.link.node b = k'.link.node b' → k.index b = some i → k'.index b' = some i →
      l = l' ∧ b = b'
  talks : ∀ {l : Nat} {k}, chat.links[l]? = some k → k.Talks chat.nodes tr

theorem joined_start (display : SocketAddr → String) (initial : ν → Message) :
    Joined display initial [] (start initial) where
  nodes n := ⟨[], Exec.pure_returns _⟩
  known h := by cases h
  distinct h := by cases h
  talks h := by cases h

theorem run_set {e : BroadcastEvent} {m : ν} (h : ∀ n, ∃ events,
      (run (HyperBroadcast.step display) (.new (initial n)) events).Returns (chat.nodes n)
        (part n tr)) (hs : ((chat.nodes m).step display e).Returns s es) (n : ν) : ∃ events,
      (run (HyperBroadcast.step display) (.new (initial n)) events).Returns ((chat.set m s).nodes n)
        (part n (tr ++ es.map (m, ·))) := by
  obtain ⟨events, hr⟩ := h n
  by_cases hn : n = m
  · subst hn
    refine ⟨events ++ [e], ?_⟩
    rw [set_self, part_append, part_self]
    exact returns_run_append.2 ⟨_, _, _, hr, run_one hs, rfl⟩
  · refine ⟨events, ?_⟩
    rw [set_other _ _ hn, part_append, part_other (Ne.symm hn), List.append_nil]
    exact hr

section Node

variable (h : Joined display initial tr chat) (hs : ((chat.nodes n).step display e).Returns s es)
  (hc : HyperBroadcast.Continues (chat.nodes n).tasks es s.tasks)

include h hc

theorem Joined.end_run (hk : chat.links[l]? = some k) (b : Bool) : ∃ events,
    (run ConnectionLoop.task (k.loop chat.nodes b) events).Returns
      ((k.sent n es).loop (chat.set n s).nodes b) (k.part n es b) := by
  cases hi : k.index b with
  | none =>
    refine ⟨[], ?_⟩
    have hl : (k.sent n es).loop (chat.set n s).nodes b = .spawn { room := k.room b } :=
      ChatLink.loop_of_none hi _
    rw [ChatLink.loop_of_none hi, ChatLink.part_of_none hi, hl]
    exact Exec.pure_returns _
  | some i =>
    obtain ⟨t, ht, -⟩ := h.known hk hi
    by_cases hn : k.link.node b = n
    · subst hn
      obtain ⟨t', ht', -, hr⟩ := (hc i).1 t ht
      rw [ChatLink.loop_of_task hi ht, ChatLink.part_of_index hi]
      have hl : (k.sent (k.link.node b) es).loop (chat.set (k.link.node b) s).nodes b = t'.loop := by
        refine ChatLink.loop_of_task hi ?_
        exact (set_self chat (k.link.node b) s).symm ▸ ht'
      rw [hl]
      exact hr
    · refine ⟨[], ?_⟩
      rw [ChatLink.part_of_ne hn, ChatLink.loop_of_task hi ht]
      have hl : (k.sent n es).loop (chat.set n s).nodes b = t.loop := by
        refine ChatLink.loop_of_task hi ?_
        exact (set_other chat s hn).symm ▸ ht
      rw [hl]
      exact Exec.pure_returns _

include hs

theorem Joined.node : Joined display initial (tr ++ es.map (n, ·))
    { chat.set n s with links := chat.links.map (·.sent n es) } where
  nodes := run_set h.nodes hs
  known hk hi := by
    obtain ⟨k, hk₀, rfl⟩ := Option.map_eq_some_iff.1 (List.getElem?_map.symm.trans hk)
    obtain ⟨t, ht, hid⟩ := h.known hk₀ hi
    rename_i b i
    by_cases hn : k.link.node b = n
    · subst hn
      obtain ⟨t', ht', hid', -⟩ := (hc i).1 t ht
      exact ⟨t', (set_self chat (k.link.node b) s).symm ▸ ht', hid'.trans hid⟩
    · exact ⟨t, (set_other chat s hn).symm ▸ ht, hid⟩
  distinct hk hk' hn hi hi' := by
    obtain ⟨k, hk₀, rfl⟩ := Option.map_eq_some_iff.1 (List.getElem?_map.symm.trans hk)
    obtain ⟨k', hk₀', rfl⟩ := Option.map_eq_some_iff.1 (List.getElem?_map.symm.trans hk')
    exact h.distinct hk₀ hk₀' hn hi hi'
  talks hk := by
    obtain ⟨k, hk₀, rfl⟩ := Option.map_eq_some_iff.1 (List.getElem?_map.symm.trans hk)
    exact (h.talks hk₀).goOn rfl (h.end_run hc hk₀) (fun _ => rfl) (fun _ => rfl)
      (fun b => k.trace_append tr n es b)

end Node

theorem Joined.connect (h : Joined display initial tr chat) (link : Link ν) (room : Bool → Nat) :
    Joined display initial tr { chat with links := chat.links ++ [{ link, room }] } := by
  have hold : ∀ {l : Nat} {k : ChatLink ν},
      (chat.links ++ [{ link, room : ChatLink ν }])[l]? = some k →
        chat.links[l]? = some k ∨ k = { link, room } := by
    intro l k hk
    by_cases hl : l < chat.links.length
    · rw [List.getElem?_append_left hl] at hk
      exact .inl hk
    · rw [List.getElem?_append_right (Nat.le_of_not_lt hl)] at hk
      exact .inr (List.mem_singleton.1 (List.mem_of_getElem? hk))
  refine ⟨h.nodes, fun hk hi => ?_, fun hk hk' hn hi hi' => ?_, fun hk => ?_⟩
  · rcases hold hk with hk | rfl
    · exact h.known hk hi
    · cases hi
  · rcases hold hk with hk | rfl
    · rcases hold hk' with hk' | rfl
      · exact h.distinct hk hk' hn hi hi'
      · cases hi'
    · cases hi
  · rcases hold hk with hk | rfl
    · exact h.talks hk
    · exact ⟨[], [], Exec.pure_returns _, fun _ => rfl⟩

section Stream

variable {b : Bool} {i : Nat} {input : DuplexInput IoError}

theorem loop_stream (hi : k.index b = some i)
    (ht : (chat.nodes (k.link.node b)).tasks[i]? = some t) :
    k.loop (chat.set (k.link.node b) ((chat.nodes (k.link.node b)).stream i input)).nodes b =
      { k.loop chat.nodes b with stream := (k.loop chat.nodes b).stream.act input } := by
  have ht' := HyperBroadcast.stream_self ht input
  rw [← set_self chat (k.link.node b) ((chat.nodes (k.link.node b)).stream i input)] at ht'
  rw [ChatLink.loop_of_task hi ht]
  exact ChatLink.loop_of_task hi ht'

theorem loop_stream_other {a : Bool}
    (hn : k'.link.node a = k.link.node b → k'.index a ≠ some i) :
    k'.loop (chat.set (k.link.node b) ((chat.nodes (k.link.node b)).stream i input)).nodes a =
      k'.loop chat.nodes a := by
  by_cases he : k'.link.node a = k.link.node b
  · have hne := hn he
    rw [ChatLink.loop, ChatLink.loop, he, set_self]
    cases hj : k'.index a with
    | none => rfl
    | some j =>
      have hji : i ≠ j := by
        rintro rfl
        exact hne hj
      simp only [HyperBroadcast.stream_other hji]
  · rw [ChatLink.loop, ChatLink.loop, set_other _ _ he]

variable (h : Joined display initial tr chat) (hk : chat.links[l]? = some k)
  (hi : k.index b = some i)

include h hk hi

theorem Joined.loops_stream (input : DuplexInput IoError) :
    k.loop (chat.set (k.link.node b) ((chat.nodes (k.link.node b)).stream i input)).nodes =
      ((k.conversation chat.nodes).stream b input).ends := by
  obtain ⟨t, ht, -⟩ := h.known hk hi
  funext a
  by_cases ha : a = b
  · subst ha
    rw [loop_stream hi ht, Conversation.stream, Conversation.set_self]
    rfl
  · rw [Conversation.stream, Conversation.set_other _ _ _ ha]
    refine loop_stream_other fun hn hj => ha ?_
    exact (h.distinct hk hk hn hj hi).2

theorem Joined.stream {input : DuplexInput IoError} (hl : k'.link = k.link)
    (hx : k'.index = k.index) (hr : k'.room = k.room)
    (hs : (Conversation.step (k.conversation chat.nodes) e).Returns (k'.conversation
      (chat.set (k.link.node b) ((chat.nodes (k.link.node b)).stream i input)).nodes) []) :
    Joined display initial tr
      { chat.set (k.link.node b) ((chat.nodes (k.link.node b)).stream i input) with
        links := chat.links.set l k' } := by
  have hlinks : ∀ {l₁ : Nat} {k₁}, (chat.links.set l k')[l₁]? = some k₁ → ∃ k₀,
      chat.links[l₁]? = some k₀ ∧ k₁.link = k₀.link ∧ k₁.index = k₀.index ∧
        (l₁ = l ∧ k₁ = k' ∨ l₁ ≠ l ∧ k₁ = k₀) := by
    intro l₁ k₁ hk₁
    obtain ⟨hlt, -⟩ := List.getElem?_eq_some_iff.1 hk
    by_cases he : l = l₁
    · subst he
      rw [List.getElem?_set_self hlt] at hk₁
      cases hk₁
      exact ⟨k, hk, hl, hx, .inl ⟨rfl, rfl⟩⟩
    · rw [List.getElem?_set_ne he] at hk₁
      exact ⟨k₁, hk₁, rfl, rfl, .inr ⟨Ne.symm he, rfl⟩⟩
  refine ⟨?_, fun {l₁ k₁ b₁ i₁} hk₁ hi₁ => ?_, fun hk₁ hk₂ hn hi₁ hi₂ => ?_, fun hk₁ => ?_⟩
  · have hstep : ((chat.nodes (k.link.node b)).step display (.stream i input)).Returns
        ((chat.nodes (k.link.node b)).stream i input) [] := Exec.pure_returns _
    have hrun := run_set h.nodes hstep
    rw [List.map_nil, List.append_nil] at hrun
    exact hrun
  · obtain ⟨k₀, hk₀, hl₀, hx₀, -⟩ := hlinks hk₁
    rw [hx₀] at hi₁
    obtain ⟨t, ht, hid⟩ := h.known hk₀ hi₁
    rw [hl₀, ChatLink.peerId_of_link hl₀]
    by_cases hn : k₀.link.node b₁ = k.link.node b
    · rw [hn] at ht ⊢
      rw [set_self]
      by_cases hj : i = i₁
      · subst hj
        exact ⟨_, HyperBroadcast.stream_self ht input, hid⟩
      · exact ⟨t, (HyperBroadcast.stream_other hj _ input).trans ht, hid⟩
    · exact ⟨t, (set_other chat _ hn).symm ▸ ht, hid⟩
  · obtain ⟨k₀, hk₀, hl₀, hx₀, -⟩ := hlinks hk₁
    obtain ⟨k₃, hk₃, hl₃, hx₃, -⟩ := hlinks hk₂
    rw [hl₀, hl₃] at hn
    rw [hx₀] at hi₁
    rw [hx₃] at hi₂
    exact h.distinct hk₀ hk₃ hn hi₁ hi₂
  · obtain ⟨k₀, hk₀, -, -, ⟨rfl, rfl⟩ | ⟨hne, rfl⟩⟩ := hlinks hk₁
    · refine (h.talks hk).run hr (run_one hs) fun a => ?_
      rw [ChatLink.trace, ChatLink.trace, hl, hx]
      exact (List.append_nil _).symm
    · refine (h.talks hk₀).same (fun a => loop_stream_other fun hn hj => hne ?_) fun _ => rfl
      exact (h.distinct hk₀ hk hn hj hi).1

end Stream

section Yield

variable (h : Joined display initial tr chat) (hk : chat.links[l]? = some k) {b : Bool}

include h

/-- A connection that its node has not taken has done nothing there. -/
theorem Joined.loopPart_new (n : ν) : loopPart (chat.nodes n).tasks.length (part n tr) = [] := by
  obtain ⟨events, hr⟩ := h.nodes n
  exact (parts_of_unknown _ _ fun e he j hj =>
    Nat.ne_of_lt ((HyperBroadcast.run_sound hr).bounded e he j hj)).1

include hk

theorem Joined.part_new (n : ν) (es : List LoopEffect) (peerId : PeerId) (b : Bool) :
    k.part n (es.map (.loop (chat.nodes n).tasks.length) ++
      [.connected (chat.nodes n).tasks.length peerId]) b = [] := by
  cases hi : k.index b with
  | none => exact ChatLink.part_of_none hi ..
  | some i =>
    by_cases hn : k.link.node b = n
    · subst hn
      obtain ⟨t, ht, -⟩ := h.known hk hi
      obtain ⟨hlt, -⟩ := List.getElem?_eq_some_iff.1 ht
      rw [ChatLink.part_of_index hi, loopPart_append, loopPart_other (Nat.ne_of_gt hlt)]
      rfl
    · exact ChatLink.part_of_ne hn _

theorem Joined.loop_new {s : HyperBroadcast} (hs : s.tasks = (chat.nodes n).tasks ++ [t])
    (b : Bool) : k.loop (chat.set n s).nodes b = k.loop chat.nodes b := by
  cases hi : k.index b with
  | none => rw [ChatLink.loop_of_none hi, ChatLink.loop_of_none hi]
  | some i =>
    obtain ⟨u, hu, -⟩ := h.known hk hi
    rw [ChatLink.loop_of_task hi hu]
    refine ChatLink.loop_of_task hi ?_
    by_cases hn : k.link.node b = n
    · subst hn
      obtain ⟨hlt, -⟩ := List.getElem?_eq_some_iff.1 hu
      rw [set_self, hs, List.getElem?_append_left hlt, hu]
    · rw [set_other _ _ hn, hu]

theorem Joined.talks_new {s : HyperBroadcast} {es' : List BroadcastEffect}
    (hi : k.index b = none)
    (hl : ((ConnectionLoop.spawn (k.stream b).inner).sendMessage
      (chat.nodes (k.link.node b)).initialMessage).Returns loop es)
    (hes : es' = es.map (.loop (chat.nodes (k.link.node b)).tasks.length) ++
      [.connected (chat.nodes (k.link.node b)).tasks.length peerId])
    (hs : s.tasks = (chat.nodes (k.link.node b)).tasks ++ [⟨peerId, loop, true, false⟩]) :
    (k.take b (chat.nodes (k.link.node b)).tasks.length).Talks (chat.set (k.link.node b) s).nodes
      (tr ++ es'.map (k.link.node b, ·)) := by
  have hquiet : es.flatMap LoopEffect.written = [] ∧ es.flatMap LoopEffect.bytesRead = [] := by
    rcases ConnectionLoop.sendMessage_cases hl with ⟨-, -, rfl⟩ | ⟨-, rfl, -⟩ <;> exact ⟨rfl, rfl⟩
  have hpart : ∀ a, (k.take b (chat.nodes (k.link.node b)).tasks.length).part (k.link.node b) es' a =
      if a = b then es else [] := by
    intro a
    by_cases ha : a = b
    · subst ha
      rw [if_pos rfl, hes]
      refine (ChatLink.part_of_index (k.take_self a _) _).trans ?_
      rw [loopPart_append, loopPart_self]
      exact List.append_nil _
    · rw [if_neg ha, ChatLink.part, ChatLink.take_other ha, hes]
      exact h.part_new hk (k.link.node b) es peerId a
  have htrace : ∀ a, (k.take b (chat.nodes (k.link.node b)).tasks.length).trace tr a =
      k.trace tr a := by
    intro a
    by_cases ha : a = b
    · subst ha
      rw [ChatLink.trace, ChatLink.take_self, ChatLink.trace, hi]
      exact h.loopPart_new (k.link.node a)
    · rw [ChatLink.trace, ChatLink.take_other ha]
      rfl
  have hrun : ∀ a, ∃ events, (run ConnectionLoop.task (k.loop chat.nodes a) events).Returns
      ((k.take b (chat.nodes (k.link.node b)).tasks.length).loop
        (chat.set (k.link.node b) s).nodes a) (if a = b then es else []) := by
    intro a
    by_cases ha : a = b
    · subst ha
      refine ⟨[.send (chat.nodes (k.link.node a)).initialMessage], ?_⟩
      have ht : ((chat.set (k.link.node a) s).nodes (k.link.node a)).tasks[
          (chat.nodes (k.link.node a)).tasks.length]? = some ⟨peerId, loop, true, false⟩ := by
        rw [set_self, hs, List.getElem?_concat_length]
      have hloop := ChatLink.loop_of_task (k.take_self a _) ht
      rw [hloop, ChatLink.loop_of_none hi, if_pos rfl]
      exact run_one hl
    · refine ⟨[], ?_⟩
      have hloop : (k.take b (chat.nodes (k.link.node b)).tasks.length).loop
          (chat.set (k.link.node b) s).nodes a = k.loop chat.nodes a := by
        rw [← h.loop_new hk hs a, ChatLink.loop, ChatLink.take_other ha]
        rfl
      rw [if_neg ha, hloop]
      exact Exec.pure_returns _
  refine (h.talks hk).goOn rfl hrun (fun a => ?_) (fun a => ?_) (fun a => ?_)
  · split
    · rw [hquiet.1]
      exact (List.append_nil _).symm
    · exact (List.append_nil _).symm
  · split
    · rw [hquiet.2]
      rfl
    · rfl
  · rw [ChatLink.trace_append, htrace, hpart]

theorem Joined.yield {s : HyperBroadcast} (hi : k.index b = none)
    (hs : (chat.nodes (k.link.node b)).saving = none)
    (hr : (chat.nodes (k.link.node b)).result = none)
    (hst : ((chat.nodes (k.link.node b)).step display
      (.next (some (.ok (k.stream b))))).Returns s es) :
    Joined display initial (tr ++ es.map (k.link.node b, ·))
      { chat.set (k.link.node b) s with
        links := chat.links.set l (k.take b (chat.nodes (k.link.node b)).tasks.length) } := by
  obtain ⟨loop, es', hl, hes, htasks⟩ := HyperBroadcast.next_opens hs hr hst
  obtain ⟨hlt, -⟩ := List.getElem?_eq_some_iff.1 hk
  have hlinks : ∀ {l₁ : Nat} {k₁}, (chat.links.set l
      (k.take b (chat.nodes (k.link.node b)).tasks.length))[l₁]? = some k₁ →
        l₁ = l ∧ k₁ = k.take b (chat.nodes (k.link.node b)).tasks.length ∨
          l₁ ≠ l ∧ chat.links[l₁]? = some k₁ := by
    intro l₁ k₁ hk₁
    by_cases he : l = l₁
    · subst he
      rw [List.getElem?_set_self hlt] at hk₁
      exact .inl ⟨rfl, (Option.some.inj hk₁).symm⟩
    · rw [List.getElem?_set_ne he] at hk₁
      exact .inr ⟨Ne.symm he, hk₁⟩
  -- an end was taken before, or it is the new one
  have hends : ∀ {l₁ : Nat} {k₁ b₁ i₁}, (chat.links.set l
      (k.take b (chat.nodes (k.link.node b)).tasks.length))[l₁]? = some k₁ →
        k₁.index b₁ = some i₁ → (∃ k₀, chat.links[l₁]? = some k₀ ∧ k₁.link = k₀.link ∧
          k₀.index b₁ = some i₁) ∨
            l₁ = l ∧ b₁ = b ∧ k₁.link = k.link ∧
              i₁ = (chat.nodes (k.link.node b)).tasks.length := by
    intro l₁ k₁ b₁ i₁ hk₁ hi₁
    rcases hlinks hk₁ with ⟨rfl, rfl⟩ | ⟨-, hk₁⟩
    · by_cases hb : b₁ = b
      · subst hb
        rw [ChatLink.take_self] at hi₁
        exact .inr ⟨rfl, rfl, rfl, (Option.some.inj hi₁).symm⟩
      · rw [ChatLink.take_other hb] at hi₁
        exact .inl ⟨k, hk, rfl, hi₁⟩
    · exact .inl ⟨k₁, hk₁, rfl, hi₁⟩
  have hnew : ∀ {l₁ : Nat} {k₁ b₁ i₁}, chat.links[l₁]? = some k₁ → k₁.index b₁ = some i₁ →
      k₁.link.node b₁ = k.link.node b → i₁ ≠ (chat.nodes (k.link.node b)).tasks.length := by
    intro l₁ k₁ b₁ i₁ hk₁ hi₁ hn
    obtain ⟨t, ht, -⟩ := h.known hk₁ hi₁
    rw [hn] at ht
    exact Nat.ne_of_lt (List.getElem?_eq_some_iff.1 ht).1
  refine ⟨run_set h.nodes hst, fun {_ _ b₁ _} hk₁ hi₁ => ?_, fun hk₁ hk₂ hn hi₁ hi₂ => ?_, fun hk₁ => ?_⟩
  · rcases hends hk₁ hi₁ with ⟨k₀, hk₀, hl₀, hi₀⟩ | ⟨-, rfl, hl₀, rfl⟩
    · obtain ⟨t, ht, hid⟩ := h.known hk₀ hi₀
      rw [ChatLink.peerId_of_link hl₀, hl₀]
      refine ⟨t, ?_, hid⟩
      by_cases hn : k₀.link.node b₁ = k.link.node b
      · rw [hn] at ht ⊢
        rw [set_self, htasks, List.getElem?_append_left (List.getElem?_eq_some_iff.1 ht).1, ht]
      · rw [set_other _ _ hn, ht]
    · rw [ChatLink.peerId_of_link hl₀, hl₀, set_self, htasks, List.getElem?_concat_length]
      exact ⟨_, rfl, rfl⟩
  · rcases hends hk₁ hi₁ with ⟨k₃, hk₃, hl₃, hi₃⟩ | ⟨rfl, rfl, hl₃, rfl⟩
    · rcases hends hk₂ hi₂ with ⟨k₄, hk₄, hl₄, hi₄⟩ | ⟨rfl, rfl, hl₄, rfl⟩
      · rw [hl₃, hl₄] at hn
        exact h.distinct hk₃ hk₄ hn hi₃ hi₄
      · rw [hl₃, hl₄] at hn
        exact (hnew hk₃ hi₃ hn rfl).elim
    · rcases hends hk₂ hi₂ with ⟨k₄, hk₄, hl₄, hi₄⟩ | ⟨rfl, rfl, hl₄, -⟩
      · rw [hl₃, hl₄] at hn
        exact (hnew hk₄ hi₄ hn.symm rfl).elim
      · exact ⟨rfl, rfl⟩
  · rcases hlinks hk₁ with ⟨rfl, rfl⟩ | ⟨-, hk₁⟩
    · exact h.talks_new hk hi hl hes htasks
    · refine (h.talks hk₁).same (h.loop_new hk₁ htasks) fun a => ?_
      rw [ChatLink.trace_append, hes, h.part_new hk₁, List.append_nil]

end Yield

theorem Joined.step (h : Joined display initial tr chat) {chat' : Chat ν}
    (hs : (chat.step display e).Returns chat' es) : Joined display initial (tr ++ es) chat' := by
  cases step_cases hs with
  | idle =>
    rw [List.append_nil]
    exact h
  | @node n e s es ho hst =>
    rcases (HyperBroadcast.step_cases hst).tasks with ⟨conn, rfl, -⟩ | ⟨i, input, rfl, -, -⟩ | hc
    · cases ho
    · cases ho
    · exact h.node hst hc
  | connect =>
    rw [List.append_nil]
    exact h.connect ..
  | yield hk hi hsaving hr hst => exact h.yield hk hi hsaving hr hst
  | @stop l k i b e hk hi =>
    have hc : k.conversation _ = (k.conversation chat.nodes).stream b (.stop e) :=
      Conversation.ext (h.loops_stream hk hi _) rfl rfl
    have hlinks : chat.links.set l k = chat.links := by
      obtain ⟨hlt, rfl⟩ := List.getElem?_eq_some_iff.1 hk
      exact List.set_getElem_self ..
    have hst : (Conversation.step (k.conversation chat.nodes) (.stop b e)).Returns
        (k.conversation _) [] := Exec.returns_pure.2 ⟨hc, rfl⟩
    have hj := h.stream hk hi rfl rfl rfl hst
    rw [hlinks] at hj
    rw [List.append_nil]
    exact hj
  | @carry l k i b n hk hi =>
    rw [List.append_nil]
    have hc : ({ k with wire := Function.update k.wire b ((k.wire b).drop n) } :
        ChatLink ν).conversation _ = (k.conversation chat.nodes).carry b n :=
      Conversation.ext (h.loops_stream hk hi _) rfl rfl
    exact h.stream (e := .carry b n) hk hi rfl rfl rfl (Exec.returns_pure.2 ⟨hc, rfl⟩)
  | @ack l k i b n hk hi =>
    rw [List.append_nil]
    have hc : ({ k with acks := Function.update k.acks b (k.acks b - n) } :
        ChatLink ν).conversation _ = (k.conversation chat.nodes).ack b n :=
      Conversation.ext (h.loops_stream hk hi _) rfl rfl
    exact h.stream (e := .ack b n) hk hi rfl rfl rfl (Exec.returns_pure.2 ⟨hc, rfl⟩)

theorem run_joined (h : (run (step display) (start initial) events).Returns chat tr) :
    Joined display initial tr chat :=
  run_trace (P := fun _ => Joined display initial) (joined_start display initial)
    (fun hj h => hj.step h) h

end Chat

end HyperswarmRs
