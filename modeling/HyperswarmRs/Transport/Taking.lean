import HyperswarmRs.Transport.Polling

namespace HyperswarmRs
open Async
set_option autoImplicit true

theorem handed_eq_some {r : Poll (Option Item)} :
    handed r = some conn ↔ r.item = some (.ok conn) := by
  rw [handed]
  rcases r.item with _ | _ | c
  · simp only [Option.bind_none, reduceCtorEq]
  · simp only [Option.bind_some, Except.toOption, reduceCtorEq, Option.some.injEq]
  · simp only [Option.bind_some, Except.toOption, Option.some.injEq, Except.ok.injEq]

theorem initiatorAddr_ok {conn : Connection CombinedStream} :
    initiatorAddr (.ok conn) = some a ↔ conn.isInitiator = true ∧ conn.peerAddr = a := by
  rw [initiatorAddr, Option.ite_none_right_eq_some, Option.some.injEq]

/-- The connections ready at a leaf source that nobody has taken yet. -/
def CombinedTransport.undelivered (self : CombinedTransport) (port : Port) :
    List (Connection CombinedStream) :=
  (self.waiting port).filterMap fun x => x.bind Except.toOption

theorem mem_toConnections {xs : List (Option Item)} :
    conn ∈ xs.filterMap (fun x => x.bind Except.toOption) ↔ some (.ok conn) ∈ xs := by
  rw [List.mem_filterMap]
  constructor
  · rintro ⟨x, hx, he⟩
    rcases x with _ | _ | c
    · cases he
    · cases he
    · cases he
      exact hx
  · intro h
    exact ⟨_, h, rfl⟩

/-- A connection initiated to an address that is connected already. -/
def CombinedTransport.Repeats (self : CombinedTransport) (conn : Connection CombinedStream) :
    Prop := conn.isInitiator = true ∧ conn.peerAddr ∈ self.connected

/-- What a transport takes from its sources: of the connections consumed at them, the one handed
on, and those that repeat an earlier one. -/
structure Took (t t' : CombinedTransport) (y : Option (Connection CombinedStream))
    (consumed : Port → List (Connection CombinedStream)) : Prop where
  live : t.Live → t'.Live
  served : ∀ port, t.undelivered port = consumed port ++ t'.undelivered port
  kept : ∀ {port conn}, conn ∈ consumed port → y = some conn ∨ t.Repeats conn
  origin : ∀ {conn}, y = some conn → ∃ port, conn ∈ consumed port
  fresh : ∀ {conn}, y = some conn → ¬ t.Repeats conn
  connected : ∀ {a}, a ∈ t'.connected ↔
    a ∈ t.connected ∨ ∃ conn, y = some conn ∧ conn.isInitiator = true ∧ conn.peerAddr = a

theorem took_nothing {t t' : CombinedTransport} (hl : t.Live → t'.Live)
    (hu : ∀ port, t'.undelivered port = t.undelivered port) (hc : t'.connected = t.connected) :
    Took t t' none fun _ => [] := by
  refine ⟨hl, fun port => (hu port).symm, ?_, ?_, ?_, ?_⟩
  · intro port conn hm
    cases hm
  · intro conn hy
    cases hy
  · intro conn hy
    cases hy
  · intro a
    rw [hc]
    exact (or_iff_left fun ⟨conn, hy, _⟩ => by cases hy).symm

namespace CombinedTransport

theorem next_kept {self : CombinedTransport} (h : (self.next p).toList = known taken)
    (hm : (port, x) ∈ taken) : keepFirst initiatorAddr self.connected (taken.map Prod.snd) = [x] ∨
      ∃ a ∈ self.connected, initiatorAddr x = some a := by
  rcases next_cases h with ⟨-, rfl⟩ | ⟨port', y, -, rfl⟩
  · cases hm
  · cases List.mem_singleton.1 hm
    rw [List.map_singleton]
    rcases List.sublist_singleton.1 (keepFirst_sublist initiatorAddr self.connected [x]) with hk | hk
    · obtain ⟨a, ha, hx⟩ := keepFirst_singleton.1 hk
      exact .inr ⟨a, ha, hx⟩
    · exact .inl hk

theorem pollNext_kept {self self' : CombinedTransport} (h : self.pollNext.Returns (r, self') es) :
    ∃ taken, PollTakes self r self' es taken ∧ ∀ port x, (port, x) ∈ taken →
      r.item = some x ∨ ∃ a ∈ self.connected, initiatorAddr x = some a := by
  obtain ⟨-, taken₁, taken₂, ht, hn₁, hn₂⟩ := pollNext_takes h
  refine ⟨_, ht, ?_⟩
  have hr := ht.result
  rw [List.map_append, keepFirst_append] at hr
  have hitem : ∀ {x xs}, r.item.toList = x :: xs → r.item = some x :=
    fun he => Option.mem_toList.1 (he ▸ List.mem_cons_self)
  intro port x hm
  rcases List.mem_append.1 hm with hm | hm
  · rcases next_kept hn₁ hm with hk | hk
    · rw [hk] at hr
      exact .inl (hitem hr)
    · exact .inr hk
  · rcases hn₂ with ⟨-, rfl⟩ | ⟨hk₁, hn₂⟩
    · cases hm
    · rw [hk₁, seenAfter_of_keepFirst_nil hk₁, List.nil_append] at hr
      rcases next_kept hn₂ hm with hk | hk
      · rw [hk] at hr
        exact .inl (hitem hr)
      · exact .inr hk

theorem pollNext_fresh {self self' : CombinedTransport} {taken : List (Port × Item)}
    (ht : PollTakes self r self' es taken) (hr : r.item = some x)
    (hx : initiatorAddr x = some a) : a ∉ self.connected := by
  have hm : x ∈ keepFirst initiatorAddr self.connected (taken.map Prod.snd) := by
    rw [← ht.result, hr]
    exact List.mem_singleton_self x
  exact keepFirst_fresh hm hx

/-- The next poll takes a connection that repeats an earlier one. -/
def TakesRepeat (self : CombinedTransport) : Prop :=
  ∃ a, self.Duplicate .tcp a ∨ self.Passes .tcp ∧ self.Duplicate .utp a

theorem pushConnects_undelivered (self : CombinedTransport) (a : SocketAddr) :
    (self.pushConnects a).undelivered = self.undelivered := by
  funext port
  rw [undelivered, pushConnects_waiting, undelivered]

theorem pushConnects_takesRepeat (self : CombinedTransport) (a : SocketAddr) :
    (self.pushConnects a).TakesRepeat ↔ self.TakesRepeat := by
  have hn := pushConnects_next self a
  simp only [TakesRepeat, Duplicate, Passes, nextAddr, hn]
  rfl

theorem pollNext_took {self self' : CombinedTransport} (h : self.pollNext.Returns (r, self') es) :
    ∃ consumed, Took self self' (handed r) consumed ∧
      ((∃ port, ∃ conn ∈ consumed port, self.Repeats conn) ↔ self.TakesRepeat) := by
  obtain ⟨taken, ht, hk⟩ := pollNext_kept h
  have hmem : ∀ {port conn}, conn ∈ (takenAt port taken).filterMap (fun x => x.bind Except.toOption) ↔
      (port, .ok conn) ∈ taken := mem_toConnections.trans mem_takenAt
  refine ⟨fun port => (takenAt port taken).filterMap fun x => x.bind Except.toOption,
    ⟨fun _ => pollNext_live h, ?_, ?_, ?_, ?_, ?_⟩, ?_⟩
  · intro port
    rw [undelivered, ht.served port, List.filterMap_append, undelivered]
  · intro port conn hm
    rcases hk _ _ (hmem.1 hm) with hr | ⟨a, ha, hx⟩
    · exact .inl (handed_eq_some.2 hr)
    · obtain ⟨hi, rfl⟩ := initiatorAddr_ok.1 hx
      exact .inr ⟨hi, ha⟩
  · intro conn hy
    have hm : .ok conn ∈ keepFirst initiatorAddr self.connected (taken.map Prod.snd) := by
      rw [← ht.result, handed_eq_some.1 hy]
      exact List.mem_singleton_self _
    obtain ⟨⟨port, x⟩, hm', rfl⟩ := List.mem_map.1 ((keepFirst_sublist _ _ _).subset hm)
    exact ⟨port, hmem.2 hm'⟩
  · rintro conn hy ⟨hi, ha⟩
    exact pollNext_fresh ht (handed_eq_some.1 hy) (initiatorAddr_ok.2 ⟨hi, rfl⟩) ha
  · intro a
    rw [mem_connected h, handed_initiator]
  · have hd : self.TakesRepeat ↔ ∃ a ∈ self.connected, a ∈ initiated es := by
      simp only [TakesRepeat, Duplicate, mem_initiated h]
      constructor
      · rintro ⟨a, ⟨ha, hn⟩ | ⟨hp, ha, hn⟩⟩
        · exact ⟨a, ha, .inl hn⟩
        · exact ⟨a, ha, .inr ⟨hp, hn⟩⟩
      · rintro ⟨a, ha, hn | ⟨hp, hn⟩⟩
        · exact ⟨a, .inl ⟨ha, hn⟩⟩
        · exact ⟨a, .inr ⟨hp, ha, hn⟩⟩
    rw [hd, initiated_known ht.effects]
    constructor
    · rintro ⟨port, conn, hm, hi, ha⟩
      exact ⟨_, ha, List.mem_filterMap.2 ⟨_, List.mem_map.2 ⟨_, hmem.1 hm, rfl⟩,
        initiatorAddr_ok.2 ⟨hi, rfl⟩⟩⟩
    · rintro ⟨a, ha, hm⟩
      obtain ⟨x, hx, hxa⟩ := List.mem_filterMap.1 hm
      obtain ⟨⟨port, y⟩, ht', rfl⟩ := List.mem_map.1 hx
      cases y with
      | error e => cases hxa
      | ok conn =>
        obtain ⟨hi, rfl⟩ := initiatorAddr_ok.1 hxa
        exact ⟨port, conn, hmem.2 ht', hi, ha⟩

end CombinedTransport

theorem Took.of_pushConnects {consumed : Port → List (Connection CombinedStream)}
    (h : Took (t.pushConnects a) t' y consumed) : Took t t' y consumed := by
  refine ⟨h.live, fun port => ?_, h.kept, h.origin, h.fresh, h.connected⟩
  rw [← h.served, CombinedTransport.pushConnects_undelivered]

end HyperswarmRs
