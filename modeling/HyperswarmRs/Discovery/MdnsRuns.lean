import HyperswarmRs.Discovery.Mdns

namespace HyperswarmRs
open Async
set_option autoImplicit true

namespace MdnsEffect

def commands? : MdnsEffect → Option (Poll (Option MdnsCommand))
  | .commands r => some r
  | _ => none

def announcer? : MdnsEffect → Option (Poll (Option Unit))
  | .announcer r => some r
  | _ => none

def locator? : MdnsEffect → Option (Poll (Option (List UInt8 × SocketAddr)))
  | .locator r => some r
  | _ => none

end MdnsEffect

def dropped (es : List MdnsEffect) : List MdnsCommand :=
  (es.filterMap MdnsEffect.commands?).filterMap Poll.item

def located (es : List MdnsEffect) : List (List UInt8 × SocketAddr) :=
  (es.filterMap MdnsEffect.locator?).filterMap Poll.item

theorem dropped_append (es es' : List MdnsEffect) :
    dropped (es ++ es') = dropped es ++ dropped es' := by
  rw [dropped, List.filterMap_append, List.filterMap_append, dropped, dropped]

theorem located_append (es es' : List MdnsEffect) :
    located (es ++ es') = located es ++ located es' := by
  rw [located, List.filterMap_append, List.filterMap_append, located, located]

/-- What a result of the locator becomes for the caller. -/
def locatedItem (found : List UInt8 × SocketAddr) : IoResult PeerInfo :=
  match Topic.ofBytes? found.1 with
  | some topic => .ok ⟨found.2, some topic, .mdns⟩
  | none => .error ⟨.other, "Received invalid topic"⟩

theorem locatedItem_ok {found : List UInt8 × SocketAddr} : locatedItem found = .ok peer ↔
    peer.addr = found.2 ∧ peer.topic.map Subtype.val = some found.1 ∧
      peer.discoveryMethod = .mdns := by
  obtain ⟨bytes, addr⟩ := found
  obtain ⟨a, topic, method⟩ := peer
  rw [locatedItem, Topic.ofBytes?]
  by_cases hl : bytes.length = 32
  · simp only [hl, dite_true, Except.ok.injEq, PeerInfo.mk.injEq]
    constructor
    · rintro ⟨rfl, rfl, rfl⟩
      exact ⟨rfl, rfl, rfl⟩
    · rintro ⟨rfl, ht, rfl⟩
      obtain ⟨t, rfl, rfl⟩ := Option.map_eq_some_iff.1 ht
      exact ⟨rfl, rfl, rfl⟩
  · simp only [hl, dite_false, reduceCtorEq, false_iff]
    rintro ⟨-, ht, -⟩
    obtain ⟨t, -, ht⟩ := Option.map_eq_some_iff.1 ht
    exact hl (ht ▸ t.2)

theorem locatedItem_isOk (found : List UInt8 × SocketAddr) :
    (∃ peer, locatedItem found = .ok peer) ↔ found.1.length = 32 := by
  constructor
  · rintro ⟨peer, h⟩
    obtain ⟨-, ht, -⟩ := locatedItem_ok.1 h
    obtain ⟨t, -, ht⟩ := Option.map_eq_some_iff.1 ht
    exact ht ▸ t.2
  · intro h
    exact ⟨⟨found.2, some ⟨found.1, h⟩, .mdns⟩, locatedItem_ok.2 ⟨rfl, rfl, rfl⟩⟩

namespace MdnsDiscovery

theorem pollPendingFuture_none {s : MdnsDiscovery A L} (hn : s.pendingFuture = none) :
    s.pollPendingFuture = (.ready (.ok ()), s) := by
  rw [pollPendingFuture, hn]

section Polls

variable [Answering A Unit] [Answering L (List UInt8 × SocketAddr)]

/-- As long as no future is pending, a poll asks each source once. -/
theorem returns_pollNext {s s' : MdnsDiscovery A L} (hn : s.pendingFuture = none) :
    s.pollNext.Returns (r, s') es ↔ ∃ c commands a announcer l locator,
      (Async.pollNext s.pendingCommands).Returns (c, commands) [c] ∧
      (Async.pollNext s.announcer).Returns (a, announcer) [a] ∧
      (Async.pollNext s.locator).Returns (l, locator) [l] ∧
      r = .ofItem (l.item.map locatedItem) ∧
      s' = { s with announcer, locator, pendingCommands := commands } ∧
      es = [.commands c, .announcer a, .locator l] := by
  have hn' : ∀ commands, ({ s with pendingCommands := commands }).pollPendingFuture =
      (.ready (.ok ()), { s with pendingCommands := commands }) := fun _ => pollPendingFuture_none hn
  rw [pollNext, pollPendingFuture_none hn]
  constructor
  · intro h
    obtain ⟨⟨c, commands⟩, _, _, hc, hr, rfl⟩ := Exec.returns_bind.1 h
    obtain ⟨es₁, hc', rfl⟩ := Exec.returns_embed.1 hc
    obtain rfl := Answering.records hc'
    dsimp only at hr
    rw [hn'] at hr
    obtain ⟨⟨a, announcer⟩, _, _, ha, hr', rfl⟩ := Exec.returns_bind.1 hr
    obtain ⟨es₂, ha', rfl⟩ := Exec.returns_embed.1 ha
    obtain rfl := Answering.records ha'
    obtain ⟨⟨l, locator⟩, _, _, hl, hr'', rfl⟩ := Exec.returns_bind.1 hr'
    obtain ⟨es₃, hl', rfl⟩ := Exec.returns_embed.1 hl
    obtain rfl := Answering.records hl'
    refine ⟨c, commands, a, announcer, l, locator, hc', ha', hl', ?_⟩
    rcases l with _ | _ | ⟨topic, addr⟩
    · cases hr''
      exact ⟨rfl, rfl, rfl⟩
    · cases hr''
      exact ⟨rfl, rfl, rfl⟩
    · dsimp only at hr''
      rw [Poll.item_ready, Option.map_some, locatedItem]
      split at hr'' <;>
        · next ht =>
          cases hr''
          rw [ht]
          exact ⟨rfl, rfl, rfl⟩
  · rintro ⟨c, commands, a, announcer, l, locator, hc, ha, hl, rfl, rfl, rfl⟩
    refine (hc.embed MdnsEffect.commands).of_bind ?_
    dsimp only
    rw [hn']
    refine (ha.embed MdnsEffect.announcer).of_bind ((hl.embed MdnsEffect.locator).of_bind ?_)
    rcases l with _ | _ | ⟨topic, addr⟩
    · exact Exec.pure_returns _
    · exact Exec.pure_returns _
    · rw [Poll.item_ready, Option.map_some, locatedItem]
      dsimp only
      cases Topic.ofBytes? topic <;> exact Exec.pure_returns _

end Polls

end MdnsDiscovery

def DiscoveryEvent.mdnsCommand? : DiscoveryEvent ι → Option MdnsCommand
  | .lookup topic => some (.lookup topic)
  | .announce topic => some (.announce topic)
  | .poll | .env _ => none

def MdnsInput.found? : MdnsInput → Option (List UInt8 × SocketAddr)
  | .locator (.push found) => some found
  | .locator .finish | .announcer _ => none

def DiscoveryEvent.input? (f : ι → Option α) : DiscoveryEvent ι → Option α
  | .env i => f i
  | .lookup _ | .announce _ | .poll => none

namespace MdnsDiscovery

theorem send_cases {s s' : MdnsDiscovery A L} (h : (s.send command).Returns s' es) :
    ∃ commands, s.pendingCommands.trySend command = some commands ∧
      s' = { s with pendingCommands := commands } ∧ es = [] := by
  rw [send] at h
  split at h
  · exact (Exec.returns_fail h).elim
  · next commands hc =>
    obtain ⟨rfl, rfl⟩ := Exec.returns_pure.1 h
    exact ⟨commands, hc, rfl, rfl⟩

section Steps

variable [Answering A Unit] [Answering L (List UInt8 × SocketAddr)] [Environment A ιA]
  [Environment L ιL]

inductive Stepped (s : MdnsDiscovery A L) : DiscoveryEvent (MdnsInput ιA ιL) →
    MdnsDiscovery A L → List (DiscoveryObs MdnsEffect) → Prop where
  | call : e.mdnsCommand? = some command → s.pendingCommands.trySend command = some commands →
      Stepped s e { s with pendingCommands := commands } []
  | poll : s.pollNext.Returns (r, s') es → Stepped s .poll s' (es.map .effect ++ [.returned r])
  | env : Stepped s (.env i) (Environment.act s i) []

theorem step_cases {s s' : MdnsDiscovery A L} {e : DiscoveryEvent (MdnsInput ιA ιL)}
    (h : (Discovery.step s e).Returns s' tr) : Stepped s e s' tr := by
  cases e with
  | lookup topic =>
    obtain ⟨es, hs, rfl⟩ := Exec.returns_embed.1 h
    obtain ⟨commands, hc, rfl, rfl⟩ := send_cases hs
    exact .call rfl hc
  | announce topic =>
    obtain ⟨es, hs, rfl⟩ := Exec.returns_embed.1 h
    obtain ⟨commands, hc, rfl, rfl⟩ := send_cases hs
    exact .call rfl hc
  | poll =>
    obtain ⟨r, es, hp, rfl⟩ := returns_observed.1 h
    exact .poll hp
  | env i =>
    obtain ⟨rfl, rfl⟩ := Exec.returns_pure.1 h
    exact .env

theorem step_pendingFuture {s s' : MdnsDiscovery A L} {e : DiscoveryEvent (MdnsInput ιA ιL)}
    (hn : s.pendingFuture = none) (h : (Discovery.step s e).Returns s' tr) :
    s'.pendingFuture = none := by
  cases step_cases h with
  | call he hc => exact hn
  | poll hp =>
    obtain ⟨c, commands, a, announcer, l, locator, -, -, -, -, rfl, -⟩ := (returns_pollNext hn).1 hp
    exact hn
  | @env i => cases i <;> exact hn

end Steps

/-- The commands and results of a run are accounted for: what was queued or pushed is taken, in
order, or still there. -/
structure History (s₀ : MdnsDiscovery) (is : List (DiscoveryEvent MdnsInput))
    (tr : List (DiscoveryObs MdnsEffect)) (s : MdnsDiscovery) : Prop where
  pendingFuture : s.pendingFuture = none
  commands : s₀.pendingCommands.queue ++ is.filterMap DiscoveryEvent.mdnsCommand? =
    dropped (effects tr) ++ s.pendingCommands.queue
  found : s₀.locator.ready ++ is.filterMap (DiscoveryEvent.input? MdnsInput.found?) =
    located (effects tr) ++ s.locator.ready
  items : (results tr).filterMap Poll.item = (located (effects tr)).map locatedItem

variable {s₀ s : MdnsDiscovery} {is : List (DiscoveryEvent MdnsInput)}
  {tr : List (DiscoveryObs MdnsEffect)}

theorem History.call (h : History s₀ is tr s) (he : e.mdnsCommand? = some command)
    (hc : s.pendingCommands.trySend command = some c) :
    History s₀ (is ++ [e]) (tr ++ []) { s with pendingCommands := c } := by
  have hf : e.input? MdnsInput.found? = none := by
    cases e <;> first | rfl | cases he
  rw [List.append_nil]
  refine ⟨h.pendingFuture, ?_, ?_, h.items⟩
  · rw [Channel.trySend_queue hc, List.filterMap_append, List.filterMap_cons_some he,
      List.filterMap_nil, ← List.append_assoc, h.commands, List.append_assoc]
  · rw [List.filterMap_append, List.filterMap_cons_none hf, List.filterMap_nil, List.append_nil]
    exact h.found

theorem History.env (h : History s₀ is tr s) (i : MdnsInput) :
    History s₀ (is ++ [.env i]) (tr ++ []) (Environment.act s i) := by
  have hr : (Environment.act s i).locator.ready =
      s.locator.ready ++ [i].filterMap MdnsInput.found? := by
    rcases i with i | (_ | _)
    · exact (List.append_nil _).symm
    · rfl
    · exact (List.append_nil _).symm
  have hs : (Environment.act s i).pendingFuture = s.pendingFuture ∧
      (Environment.act s i).pendingCommands = s.pendingCommands := by
    cases i <;> exact ⟨rfl, rfl⟩
  rw [List.append_nil]
  refine ⟨hs.1.trans h.pendingFuture, ?_, ?_, h.items⟩
  · rw [hs.2, ← h.commands, List.filterMap_append]
    exact congrArg _ (List.append_nil _)
  · rw [hr, List.filterMap_append, ← List.append_assoc, h.found, List.append_assoc]
    rfl

theorem History.poll (h : History s₀ is tr s) (hp : s.pollNext.Returns (r, s') es) :
    History s₀ (is ++ [.poll]) (tr ++ (es.map .effect ++ [.returned r])) s' := by
  obtain ⟨c, commands', a, announcer, l, locator, hc, -, hl, rfl, rfl, rfl⟩ :=
    (returns_pollNext h.pendingFuture).1 hp
  have hcs : s.pendingCommands.queue = c.item.toList ++ commands'.queue := Leaf.items_eq hc
  have hls : s.locator.ready = l.item.toList ++ locator.ready := Leaf.items_eq hl
  have hd : dropped [.commands c, .announcer a, .locator l] = c.item.toList := filterMap_item c
  have hf : located [.commands c, .announcer a, .locator l] = l.item.toList := filterMap_item l
  refine ⟨h.pendingFuture, ?_, ?_, ?_⟩
  · rw [effects_append_returns, dropped_append, hd, List.append_assoc, ← hcs, ← h.commands,
      List.filterMap_append]
    exact congrArg _ (List.append_nil _)
  · rw [effects_append_returns, located_append, hf, List.append_assoc, ← hls, ← h.found,
      List.filterMap_append]
    exact congrArg _ (List.append_nil _)
  · rw [effects_append_returns, results_append_returns, List.filterMap_append, h.items,
      located_append, hf, List.map_append, filterMap_item, Poll.item_ofItem]
    cases l.item <;> rfl

theorem run_has_history (hn : s₀.pendingFuture = none)
    (h : (run Discovery.step s₀ is).Returns s tr) : History s₀ is tr s := by
  apply run_trace (P := History s₀) ?_ ?_ h
  · exact ⟨hn, List.append_nil _, List.append_nil _, rfl⟩
  · intro is tr s e s' tr' hh hs
    cases step_cases hs with
    | call he hc => exact hh.call he hc
    | poll hp => exact hh.poll hp
    | env => exact hh.env _

end MdnsDiscovery

end HyperswarmRs
