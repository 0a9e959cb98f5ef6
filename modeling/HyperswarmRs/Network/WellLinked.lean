import HyperswarmRs.Network.Links
import HyperswarmRs.Async.Run

namespace HyperswarmRs
open Async
set_option autoImplicit true

namespace Link

@[simp] theorem half_isInitiator (l : Link ι) (b : Bool) : (l.half b).isInitiator = b := by
  rw [half]
  split <;> rfl

@[simp] theorem half_peerAddr (l : Link ι) (b : Bool) : (l.half b).peerAddr = l.peerAddr b := by
  rw [half]
  split <;> rfl

theorem half_inj {l l' : Link ι} (h : l.half b = l'.half b') :
    l.id = l'.id ∧ l.port b = l'.port b' := by
  have hb : b = b' := by rw [← half_isInitiator l b, h, half_isInitiator]
  subst hb
  obtain ⟨id, n, m, p, dialled, source⟩ := l
  obtain ⟨id', n', m', p', dialled', source'⟩ := l'
  cases p <;> cases p' <;> simp only [half, tcpStream, utpSocket, Connection.mk.injEq,
    CombinedStream.tcp.injEq, CombinedStream.utp.injEq, TcpStream.mk.injEq, UtpStream.mk.injEq,
    UtpSocket.mk.injEq, reduceCtorEq, false_and] at h <;>
    exact ⟨h.1.1, rfl⟩

end Link

namespace Network

def Delivered (net : Network ι D) (l : Link ι) (isInitiator : Bool) : Prop :=
  l.half isInitiator ∈ net.apps (l.node isInitiator)

/-- Its node has not polled the end yet. -/
def Waiting (net : Network ι D) (l : Link ι) (isInitiator : Bool) : Prop :=
  l.half isInitiator ∈
    (net.nodes (l.node isInitiator)).transport.undelivered (l.port isInitiator)

def Held (net : Network ι D) (l : Link ι) (isInitiator : Bool) : Prop :=
  net.Delivered l isInitiator ∨ net.Waiting l isInitiator

def copies (net : Network ι D) (l : Link ι) (isInitiator : Bool) : Nat :=
  (net.apps (l.node isInitiator)).count (l.half isInitiator) +
    ((net.nodes (l.node isInitiator)).transport.undelivered (l.port isInitiator)).count
      (l.half isInitiator)

/-- The connections at the nodes are ends of links, and an end is missing only where its initiator
had a connection to the same address before. -/
structure WellLinked (owner : SocketAddr → Option ι) (net : Network ι D) : Prop where
  live : ∀ n, (net.nodes n).transport.Live
  ids : ∀ {i : Nat} {l : Link ι}, net.links[i]? = some l → l.id = i
  owned : ∀ l ∈ net.links, owner l.dialled = some l.responder
  undelivered : ∀ {n port conn}, conn ∈ (net.nodes n).transport.undelivered port →
    ∃ l ∈ net.links, l.node port.isInitiator = n ∧ l.port port.isInitiator = port ∧
      l.half port.isInitiator = conn
  apps : ∀ {n conn}, conn ∈ net.apps n →
    ∃ l ∈ net.links, l.node conn.isInitiator = n ∧ l.half conn.isInitiator = conn
  held : ∀ l ∈ net.links, ∀ b,
    net.Held l b ∨ b = true ∧ l.dialled ∈ (net.nodes l.initiator).transport.connected
  connected : ∀ {n a}, a ∈ (net.nodes n).transport.connected →
    ∃ l ∈ net.links, l.initiator = n ∧ l.dialled = a ∧ net.Delivered l true
  once : ∀ l ∈ net.links, ∀ b, net.copies l b ≤ 1

theorem copies_eq_zero {net : Network ι D} : net.copies l b = 0 ↔ ¬ net.Held l b := by
  rw [copies, Nat.add_eq_zero_iff, List.count_eq_zero, List.count_eq_zero, Held, not_or]
  rfl

theorem WellLinked.id_lt {net : Network ι D} (h : WellLinked owner net) (hl : l ∈ net.links) :
    l.id < net.links.length := by
  obtain ⟨i, hi, rfl⟩ := List.mem_iff_getElem.1 hl
  rw [h.ids (List.getElem?_eq_getElem hi)]
  exact hi

theorem WellLinked.eq_of_id {net : Network ι D} (h : WellLinked owner net) (hl : l ∈ net.links)
    (hl' : l' ∈ net.links) (hid : l.id = l'.id) : l = l' := by
  obtain ⟨i, hi, rfl⟩ := List.mem_iff_getElem.1 hl
  obtain ⟨j, hj, rfl⟩ := List.mem_iff_getElem.1 hl'
  rw [h.ids (List.getElem?_eq_getElem hi), h.ids (List.getElem?_eq_getElem hj)] at hid
  subst hid
  rfl

theorem WellLinked.port_eq {net : Network ι D} {l : Link ι} (h : WellLinked owner net)
    (hm : l.half b ∈ (net.nodes n).transport.undelivered port) :
    port = l.port b ∧ ∃ l' ∈ net.links, l'.node b = n ∧ l'.half b = l.half b := by
  obtain ⟨l', hl', hn, hp, he⟩ := h.undelivered hm
  have hb : port.isInitiator = b := by
    rw [← Link.half_isInitiator l' port.isInitiator, he, Link.half_isInitiator]
  rw [hb] at hn hp he
  exact ⟨hp.symm.trans (Link.half_inj he).2, l', hl', hn, he⟩

theorem bind_wellLinked (owner : SocketAddr → Option ι) (discovery : ι → D)
    (localAddr : ι → SocketAddr) : WellLinked owner (bind discovery localAddr) where
  live _ := CombinedTransport.bind_live _ _
  ids h := by cases h
  owned _ h := by cases h
  undelivered {_ port _} h := by
    obtain ⟨p, b⟩ := port
    cases p <;> cases b <;> cases h
  apps h := by cases h
  held _ h := by cases h
  connected h := (Finset.notMem_empty _ h).elim
  once _ h := by cases h

section Advances

variable {net net' : Network ι D} {y : ι → Option (Connection CombinedStream)}
  {consumed : ι → Port → List (Connection CombinedStream)}

theorem Advances.mem_apps (h : Advances net net' y consumed) :
    conn ∈ net'.apps n ↔ conn ∈ net.apps n ∨ y n = some conn := by
  rw [h.apps, List.mem_append, Option.mem_toList]

theorem Advances.mem_undelivered (h : Advances net net' y consumed) :
    conn ∈ (net.nodes n).transport.undelivered port ↔
      conn ∈ consumed n port ∨ conn ∈ (net'.nodes n).transport.undelivered port := by
  rw [(h.took n).served, List.mem_append]

theorem Advances.delivered (h : Advances net net' y consumed) (hd : net.Delivered l b) :
    net'.Delivered l b := h.mem_apps.2 (.inl hd)

/-- An end stays held unless its node takes it as a repeat. -/
theorem Advances.held (h : Advances net net' y consumed) (hh : net.Held l b) :
    net'.Held l b ∨ l.half b ∈ consumed (l.node b) (l.port b) ∧
      (net.nodes (l.node b)).transport.Repeats (l.half b) := by
  rcases hh with hd | hw
  · exact .inl (.inl (h.delivered hd))
  · rcases h.mem_undelivered.1 hw with hc | hw'
    · rcases (h.took _).kept hc with hy | hr
      · exact .inl (.inl (h.mem_apps.2 (.inr hy)))
      · exact .inr ⟨hc, hr⟩
    · exact .inl (.inr hw')

theorem Advances.copies_le (h : Advances net net' y consumed) (hs : WellLinked owner net)
    (l : Link ι) (b : Bool) : net'.copies l b ≤ net.copies l b := by
  have hy : (y (l.node b)).toList.count (l.half b) ≤
      (consumed (l.node b) (l.port b)).count (l.half b) := by
    cases hy : y (l.node b) with
    | none => exact Nat.zero_le _
    | some conn =>
      rcases eq_or_ne conn (l.half b) with rfl | hne
      · obtain ⟨port, hc⟩ := (h.took _).origin hy
        obtain ⟨rfl, -⟩ := hs.port_eq (h.mem_undelivered.2 (.inl hc))
        rw [Option.toList_some, List.count_singleton_self]
        exact List.count_pos_iff.2 hc
      · rw [Option.toList_some, List.count_eq_zero.2]
        · exact Nat.zero_le _
        · rw [List.mem_singleton]
          exact hne.symm
  rw [copies, copies, h.apps, (h.took _).served, List.count_append, List.count_append]
  omega

theorem Advances.end_of_handed (h : Advances net net' y consumed) (hs : WellLinked owner net)
    (hy : y n = some conn) :
    ∃ l ∈ net.links, l.node conn.isInitiator = n ∧ l.half conn.isInitiator = conn := by
  obtain ⟨port, hc⟩ := (h.took n).origin hy
  obtain ⟨l, hl, hn, -, he⟩ := hs.undelivered (h.mem_undelivered.2 (.inl hc))
  have hb : conn.isInitiator = port.isInitiator := by rw [← he, Link.half_isInitiator]
  rw [hb]
  exact ⟨l, hl, hn, he⟩

theorem Advances.connected (h : Advances net net' y consumed)
    (ha : a ∈ (net.nodes n).transport.connected) : a ∈ (net'.nodes n).transport.connected :=
  (h.took n).connected.2 (.inl ha)

theorem Advances.held_or_connected (h : Advances net net' y consumed)
    (hs : WellLinked owner net) (hl : l ∈ net.links) (b : Bool) : net'.Held l b ∨
      b = true ∧ l.dialled ∈ (net'.nodes l.initiator).transport.connected := by
  rcases hs.held l hl b with hh | ⟨hb, ha⟩
  · rcases h.held hh with hh' | ⟨-, hi, ha⟩
    · exact .inl hh'
    · rw [Link.half_isInitiator] at hi
      subst hi
      rw [Link.half_peerAddr] at ha
      exact .inr ⟨rfl, h.connected ha⟩
  · exact .inr ⟨hb, h.connected ha⟩

theorem Advances.link_of_connected (h : Advances net net' y consumed)
    (hs : WellLinked owner net) (ha : a ∈ (net'.nodes n).transport.connected) :
    ∃ l ∈ net.links, l.initiator = n ∧ l.dialled = a ∧ net'.Delivered l true := by
  rcases (h.took n).connected.1 ha with ha | ⟨conn, hy, hi, rfl⟩
  · obtain ⟨l, hl, hn, hd, hdel⟩ := hs.connected ha
    exact ⟨l, hl, hn, hd, h.delivered hdel⟩
  · obtain ⟨l, hl, hn, he⟩ := h.end_of_handed hs hy
    rw [hi] at hn he
    subst hn
    have hd : l.dialled = conn.peerAddr := by
      rw [← he, Link.half_peerAddr]
      rfl
    have hdel : net'.Delivered l true := by
      rw [Delivered, he]
      exact h.mem_apps.2 (.inr hy)
    exact ⟨l, hl, rfl, hd, hdel⟩

theorem Advances.wellLinked (h : Advances net net' y consumed) (hs : WellLinked owner net) :
    WellLinked owner net' := by
  refine ⟨fun n => (h.took n).live (hs.live n), ?_, ?_, ?_, ?_, ?_, ?_, ?_⟩ <;> rw [h.links]
  · exact hs.ids
  · exact hs.owned
  · exact fun hm => hs.undelivered (h.mem_undelivered.2 (.inr hm))
  · intro n conn hm
    exact (h.mem_apps.1 hm).elim hs.apps (h.end_of_handed hs)
  · exact fun l hl => h.held_or_connected hs hl
  · exact h.link_of_connected hs
  · exact fun l hl b => (h.copies_le hs l b).trans (hs.once l hl b)

/-- Taking an end as a repeat loses it. -/
theorem Advances.loses (h : Advances net net' y consumed) (hs : WellLinked owner net)
    (hc : conn ∈ consumed n port) (hr : (net.nodes n).transport.Repeats conn) :
    ∃ l ∈ net.links, ¬ net'.Held l true := by
  obtain ⟨l, hl, hn, hp, he⟩ := hs.undelivered (h.mem_undelivered.2 (.inl hc))
  have hb : port.isInitiator = true := by rw [← hr.1, ← he, Link.half_isInitiator]
  rw [hb] at hn hp he
  subst hn hp he
  refine ⟨l, hl, copies_eq_zero.1 ?_⟩
  have ho := hs.once l hl true
  have hy : (y (l.node true)).toList.count (l.half true) = 0 := by
    rw [List.count_eq_zero, Option.mem_toList]
    exact fun hy => (h.took _).fresh hy hr
  have hc' := List.count_pos_iff.2 hc
  rw [copies, (h.took _).served, List.count_append] at ho
  rw [copies, h.apps, List.count_append, hy]
  omega

end Advances

section Establishes

variable [DecidableEq ι] {owner : SocketAddr → Option ι} {net net' : Network ι D} {l₀ : Link ι}

theorem Establishes.mem_undelivered (h : Establishes owner net net' l₀) :
    conn ∈ (net'.nodes n).transport.undelivered port ↔
      conn ∈ (net.nodes n).transport.undelivered port ∨ l₀.node port.isInitiator = n ∧
        l₀.port port.isInitiator = port ∧ l₀.half port.isInitiator = conn := by
  rw [h.undelivered, List.mem_append]
  split
  · next hp => simp only [List.mem_singleton, hp.1, hp.2, true_and, eq_comm]
  · next hp =>
    simp only [List.not_mem_nil, or_false, iff_self_or]
    exact fun ⟨hn, hq, _⟩ => (hp ⟨hn, hq⟩).elim

theorem Establishes.delivered_iff (h : Establishes owner net net' l₀) {l : Link ι} :
    net'.Delivered l b ↔ net.Delivered l b := by
  rw [Delivered, h.apps, Delivered]

theorem Establishes.held (h : Establishes owner net net' l₀) {l : Link ι}
    (hh : net.Held l b) : net'.Held l b :=
  hh.imp h.delivered_iff.2 fun hw => h.mem_undelivered.2 (.inl hw)

theorem Establishes.waiting (h : Establishes owner net net' l₀) (b : Bool) :
    net'.Waiting l₀ b := h.mem_undelivered.2 (.inr ⟨rfl, rfl, rfl⟩)

theorem Establishes.half_ne (h : Establishes owner net net' l₀) (hs : WellLinked owner net)
    (hl : l ∈ net.links) : l.half b ≠ l₀.half b' := by
  intro he
  have hid := hs.id_lt hl
  rw [(Link.half_inj he).1, h.id] at hid
  exact Nat.lt_irrefl _ hid

theorem Establishes.copies_of_mem (h : Establishes owner net net' l₀)
    (hs : WellLinked owner net) (hl : l ∈ net.links) (b : Bool) :
    net'.copies l b = net.copies l b := by
  rw [copies, copies, h.apps, h.undelivered, List.count_append]
  split
  · have hne : l.half b ∉ [l₀.half (l.port b).isInitiator] :=
      fun he => h.half_ne hs hl (List.mem_singleton.1 he)
    rw [List.count_eq_zero.2 hne, Nat.add_zero]
  · rw [List.count_nil, Nat.add_zero]

theorem Establishes.copies_new (h : Establishes owner net net' l₀) (hs : WellLinked owner net)
    (b : Bool) : net.copies l₀ b = 0 := by
  rw [copies_eq_zero]
  rintro (hd | hw)
  · obtain ⟨l, hl, -, he⟩ := hs.apps hd
    exact h.half_ne hs hl he
  · obtain ⟨l, hl, -, -, he⟩ := hs.undelivered hw
    exact h.half_ne hs hl he

theorem Establishes.copies_le (h : Establishes owner net net' l₀) (hs : WellLinked owner net)
    (b : Bool) : net'.copies l₀ b ≤ 1 := by
  have hz := h.copies_new hs b
  rw [copies] at hz
  rw [copies, h.apps, h.undelivered, List.count_append]
  split
  · have hone := List.count_le_length (a := l₀.half b) (l := [l₀.half (l₀.port b).isInitiator])
    rw [List.length_singleton] at hone
    omega
  · rw [List.count_nil]
    omega

theorem Establishes.ids (h : Establishes owner net net' l₀) (hs : WellLinked owner net)
    {l : Link ι} (hi : net'.links[i]? = some l) : l.id = i := by
  rw [h.links, List.getElem?_append] at hi
  split at hi
  · exact hs.ids hi
  · next hlt =>
    obtain ⟨hi', rfl⟩ := List.getElem?_eq_some_iff.1 hi
    rw [List.length_singleton, Nat.lt_one_iff, Nat.sub_eq_zero_iff_le] at hi'
    rw [List.getElem_singleton, h.id]
    exact Nat.le_antisymm (Nat.le_of_not_lt hlt) hi'

theorem Establishes.mem_links (h : Establishes owner net net' l₀) :
    l ∈ net'.links ↔ l ∈ net.links ∨ l = l₀ := by
  rw [h.links, List.mem_append, List.mem_singleton]

theorem Establishes.wellLinked (h : Establishes owner net net' l₀) (hs : WellLinked owner net) :
    WellLinked owner net' := by
  refine ⟨h.live, h.ids hs, ?_, ?_, ?_, ?_, ?_, ?_⟩
  · intro l hl
    rcases h.mem_links.1 hl with hl | rfl
    · exact hs.owned l hl
    · exact h.owned
  · intro n port conn hm
    rcases h.mem_undelivered.1 hm with hm | hm
    · obtain ⟨l, hl, hl'⟩ := hs.undelivered hm
      exact ⟨l, h.mem_links.2 (.inl hl), hl'⟩
    · exact ⟨l₀, h.mem_links.2 (.inr rfl), hm⟩
  · intro n conn hm
    rw [h.apps] at hm
    obtain ⟨l, hl, hl'⟩ := hs.apps hm
    exact ⟨l, h.mem_links.2 (.inl hl), hl'⟩
  · intro l hl b
    rcases h.mem_links.1 hl with hl | rfl
    · rw [h.connected]
      exact (hs.held l hl b).imp_left h.held
    · exact .inl (.inr (h.waiting b))
  · intro n a ha
    rw [h.connected] at ha
    obtain ⟨l, hl, hn, hd, hdel⟩ := hs.connected ha
    exact ⟨l, h.mem_links.2 (.inl hl), hn, hd, h.delivered_iff.2 hdel⟩
  · intro l hl b
    rcases h.mem_links.1 hl with hl | rfl
    · rw [h.copies_of_mem hs hl]
      exact hs.once l hl b
    · exact h.copies_le hs b

end Establishes

variable [DecidableEq ι] [Discovery D δ] [Environment D ιD]

section Step

variable {owner : SocketAddr → Option ι} {net net' : Network ι D} {e : NetworkEvent ι ιD}
  {es : List (ι × SwarmEffect δ TransportEffect)}

theorem step_wellLinked (hs : WellLinked owner net) (h : (net.step owner e).Returns net' es) :
    WellLinked owner net' := by
  cases step_cases hs.live h with
  | advance ha hd => exact ha.wellLinked hs
  | establish hd he => exact he.wellLinked hs

theorem step_links (hs : WellLinked owner net) (h : (net.step owner e).Returns net' es)
    (hl : l ∈ net.links) : l ∈ net'.links := by
  cases step_cases hs.live h with
  | advance ha hd =>
    rw [ha.links]
    exact hl
  | establish hd he => exact he.mem_links.2 (.inl hl)

/-- An end that is missing stays missing. -/
theorem step_held (hs : WellLinked owner net) (h : (net.step owner e).Returns net' es)
    (hl : l ∈ net.links) (hh : net'.Held l b) : net.Held l b := by
  have hc : net'.copies l b ≤ net.copies l b := by
    cases step_cases hs.live h with
    | advance ha hd => exact ha.copies_le hs l b
    | establish hd he => exact (he.copies_of_mem hs hl b).le
  by_contra hn
  rw [copies_eq_zero.2 hn, Nat.le_zero, copies_eq_zero] at hc
  exact hc hh

theorem step_keeps (hs : WellLinked owner net) (h : (net.step owner e).Returns net' es)
    (hk : ∀ l ∈ net.links, net.Held l true) (hn : ¬ net.Discards e) :
    ∀ l ∈ net'.links, net'.Held l true := by
  intro l hl
  cases step_cases hs.live h with
  | advance ha hd =>
    rw [ha.links] at hl
    rcases ha.held (hk l hl) with hh | ⟨hc, hr⟩
    · exact hh
    · exact (hn (hd.1 ⟨_, _, _, hc, hr⟩)).elim
  | establish hd he =>
    rcases he.mem_links.1 hl with hl | rfl
    · exact he.held (hk l hl)
    · exact .inr (he.waiting true)

theorem step_loses (hs : WellLinked owner net) (h : (net.step owner e).Returns net' es)
    (hd : net.Discards e) : ∃ l ∈ net.links, ¬ net'.Held l true := by
  cases step_cases hs.live h with
  | advance ha hd' =>
    obtain ⟨n, port, conn, hc, hr⟩ := hd'.2 hd
    exact ha.loses hs hc hr
  | establish hd' he => exact (hd' hd).elim

theorem run_held (hs : WellLinked owner net) {events : List (NetworkEvent ι ιD)}
    (h : (run (step owner) net events).Returns net' es) (hl : l ∈ net.links) :
    l ∈ net'.links ∧ (net'.Held l b → net.Held l b) := by
  induction events generalizing net es with
  | nil =>
    obtain ⟨rfl, -⟩ := returns_run_nil.1 h
    exact ⟨hl, id⟩
  | cons e events ih =>
    obtain ⟨net₁, es₁, es₂, hs₁, hr, -⟩ := returns_run_cons.1 h
    obtain ⟨hl', hh⟩ := ih (step_wellLinked hs hs₁) hr (step_links hs hs₁ hl)
    exact ⟨hl', fun hh' => step_held hs hs₁ hl (hh hh')⟩

/-- A run after which no end of an initiator is missing has discarded none. -/
theorem along_of_held (hs : WellLinked owner net) {events : List (NetworkEvent ι ιD)}
    (h : (run (step owner) net events).Returns net' es)
    (hk : ∀ l ∈ net'.links, net'.Held l true) :
    Along (step owner) (fun net e => ¬ net.Discards e) net events := by
  induction events generalizing net es with
  | nil => trivial
  | cons e events ih =>
    obtain ⟨net₁, es₁, es₂, hs₁, hr, -⟩ := returns_run_cons.1 h
    have hs' := step_wellLinked hs hs₁
    refine ⟨fun hd => ?_, fun s es hu => ?_⟩
    · obtain ⟨l, hl, hn⟩ := step_loses hs hs₁ hd
      obtain ⟨hl', hh⟩ := run_held hs' hr (step_links hs hs₁ hl)
      exact hn (hh (hk l hl'))
    · obtain ⟨rfl, -⟩ := hs₁.unique hu
      exact ih hs' hr

end Step

end Network

end HyperswarmRs
