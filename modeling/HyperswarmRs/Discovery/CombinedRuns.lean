import HyperswarmRs.Async.Trace
import HyperswarmRs.Discovery.DhtRuns
import HyperswarmRs.Discovery.MdnsRuns
import HyperswarmRs.Discovery.CombinedPolling

namespace HyperswarmRs
open Async
set_option autoImplicit true

def DiscoveryEvent.restrict (f : ι → Option κ) : DiscoveryEvent ι → Option (DiscoveryEvent κ)
  | .lookup topic => some (.lookup topic)
  | .announce topic => some (.announce topic)
  | .poll => some .poll
  | .env i => (f i).map .env

theorem filterMap_restrict_command (f : ι → Option κ) (port : UInt16)
    (is : List (DiscoveryEvent ι)) :
    (is.filterMap (DiscoveryEvent.restrict f)).filterMap (·.command? port) =
      is.filterMap (·.command? port) := by
  rw [List.filterMap_filterMap]
  apply List.filterMap_congr
  intro e _
  cases e with
  | env i =>
    rw [DiscoveryEvent.restrict]
    cases f i <;> rfl
  | _ => rfl

namespace CombinedInput

def dht? : CombinedInput → Option (SourceInput HyperDhtEvent)
  | .dht i => some i
  | .mdns _ => none

def found? : CombinedInput → Option (List UInt8 × SocketAddr)
  | .dht _ => none
  | .mdns i => i.found?

end CombinedInput

def dhtEffects (es : List CombinedEffect) : List DhtEffect := es.filterMap CombinedEffect.dht?

def mdnsEffects (es : List CombinedEffect) : List MdnsEffect := es.filterMap CombinedEffect.mdns?

theorem dhtEffects_append (es es' : List CombinedEffect) :
    dhtEffects (es ++ es') = dhtEffects es ++ dhtEffects es' := List.filterMap_append

theorem mdnsEffects_append (es es' : List CombinedEffect) :
    mdnsEffects (es ++ es') = mdnsEffects es ++ mdnsEffects es' := List.filterMap_append

namespace CombinedDiscovery

/-- The runs that the two backends take in a run of the whole. -/
structure Backends (d₀ : CombinedDiscovery) (is : List (DiscoveryEvent CombinedInput))
    (tr : List (DiscoveryObs CombinedEffect)) (d : CombinedDiscovery)
    (ks : List (DiscoveryEvent MdnsInput)) (trd : List (DiscoveryObs DhtEffect))
    (trm : List (DiscoveryObs MdnsEffect)) : Prop where
  dht : (run Discovery.step d₀.dht
    (is.filterMap (DiscoveryEvent.restrict CombinedInput.dht?))).Returns d.dht trd
  mdns : (run Discovery.step d₀.mdns ks).Returns d.mdns trm
  dhtEffects : effects trd = dhtEffects (effects tr)
  mdnsEffects : effects trm = mdnsEffects (effects tr)
  commands : ks.filterMap DiscoveryEvent.mdnsCommand? = is.filterMap DiscoveryEvent.mdnsCommand?
  found : ks.filterMap (DiscoveryEvent.input? MdnsInput.found?) =
    is.filterMap (DiscoveryEvent.input? CombinedInput.found?)
  items : Interleaves ((results trd).filterMap Poll.item) ((results trm).filterMap Poll.item)
    ((results tr).filterMap Poll.item)

theorem Backends.append (h : Backends d₀ is tr d ks trd trm)
    (h' : Backends d is' tr' d' ks' trd' trm') :
    Backends d₀ (is ++ is') (tr ++ tr') d' (ks ++ ks') (trd ++ trd') (trm ++ trm') := by
  refine ⟨?_, ?_, ?_, ?_, ?_, ?_, ?_⟩
  · rw [List.filterMap_append]
    exact returns_run_append.2 ⟨_, _, _, h.dht, h'.dht, rfl⟩
  · exact returns_run_append.2 ⟨_, _, _, h.mdns, h'.mdns, rfl⟩
  · rw [effects_append, effects_append, dhtEffects_append, h.dhtEffects, h'.dhtEffects]
  · rw [effects_append, effects_append, mdnsEffects_append, h.mdnsEffects, h'.mdnsEffects]
  · rw [List.filterMap_append, List.filterMap_append, h.commands, h'.commands]
  · rw [List.filterMap_append, List.filterMap_append, h.found, h'.found]
  · simp only [results_append, List.filterMap_append]
    exact h.items.append h'.items

theorem backends_refl (d : CombinedDiscovery) : Backends d [] [] d [] [] [] :=
  ⟨Exec.pure_returns _, Exec.pure_returns _, rfl, rfl, rfl, rfl, .nil⟩

theorem Polled.backends {d d' : CombinedDiscovery} (h : Polled d r d' es) :
    ∃ ks trd trm, Backends d [.poll] (es.map .effect ++ [.returned r]) d' ks trd trm := by
  cases h with
  | @dht x dht' es hd =>
    have hd' : (Discovery.step d.dht (.poll : DiscoveryEvent (SourceInput HyperDhtEvent))).Returns
      dht' (es.map .effect ++ [.returned (.ready x)]) := returns_observed.2 ⟨_, _, hd, rfl⟩
    refine ⟨[], _, [], run_one hd', Exec.pure_returns _, ?_, ?_, rfl, rfl, ?_⟩
    · rw [effects_returns, effects_returns, dhtEffects, CombinedEffect.filterMap_dht]
    · rw [effects_returns, mdnsEffects, filterMap_map_none fun _ => rfl]
      rfl
    · rw [results_returns, results_returns]
      exact interleaves_left _
  | @mdns dht' es r mdns' es' hd hm =>
    have hd' : (Discovery.step d.dht (.poll : DiscoveryEvent (SourceInput HyperDhtEvent))).Returns
      dht' (es.map .effect ++ [.returned .pending]) := returns_observed.2 ⟨_, _, hd, rfl⟩
    have hm' : (Discovery.step d.mdns (.poll : DiscoveryEvent MdnsInput)).Returns
      mdns' (es'.map .effect ++ [.returned r]) := returns_observed.2 ⟨_, _, hm, rfl⟩
    refine ⟨[.poll], _, _, run_one hd', run_one hm', ?_, ?_, rfl, rfl, ?_⟩
    · rw [effects_returns, effects_returns, dhtEffects, List.filterMap_append,
        CombinedEffect.filterMap_dht, filterMap_map_none fun _ => rfl, List.append_nil]
    · rw [effects_returns, effects_returns, mdnsEffects, List.filterMap_append,
        CombinedEffect.filterMap_mdns, filterMap_map_none fun _ => rfl, List.nil_append]
    · rw [results_returns, results_returns, results_returns]
      exact interleaves_right _

theorem told_backends {d d' : CombinedDiscovery} {dht' : DhtDiscovery}
    (h : Exec.Returns (do
      let mdns ← (d.mdns.send command).embed CombinedEffect.mdns
      let dht ← (pure dht' : Exec DhtEffect DhtDiscovery).embed CombinedEffect.dht
      return (⟨dht, mdns⟩ : CombinedDiscovery)) d' es) :
    (d.mdns.send command).Returns d'.mdns [] ∧ d'.dht = dht' ∧ es = [] := by
  obtain ⟨mdns', _, _, hm, hr, rfl⟩ := Exec.returns_bind.1 h
  obtain ⟨es₁, hm', rfl⟩ := Exec.returns_embed.1 hm
  obtain ⟨c, -, -, rfl⟩ := MdnsDiscovery.send_cases hm'
  cases hr
  exact ⟨hm', rfl, rfl⟩

theorem step_backends {d d' : CombinedDiscovery} (h : (Discovery.step d e).Returns d' tr) :
    ∃ ks trd trm, Backends d [e] tr d' ks trd trm := by
  cases e with
  | lookup topic =>
    obtain ⟨es, hc, rfl⟩ := Exec.returns_embed.1 h
    obtain ⟨hm, hd, rfl⟩ := told_backends hc
    refine ⟨[.lookup topic], [], [], run_one ?_, run_one (hm.embed Obs.effect), rfl, rfl, rfl, rfl,
      .nil⟩
    rw [hd]
    exact Exec.pure_returns _
  | announce topic =>
    obtain ⟨es, hc, rfl⟩ := Exec.returns_embed.1 h
    obtain ⟨hm, hd, rfl⟩ := told_backends hc
    refine ⟨[.announce topic], [], [], run_one ?_, run_one (hm.embed Obs.effect), rfl, rfl, rfl,
      rfl, .nil⟩
    rw [hd]
    exact Exec.pure_returns _
  | poll =>
    obtain ⟨r, es, hp, rfl⟩ := returns_observed.1 h
    exact (pollNext_polled hp).backends
  | env i =>
    obtain ⟨rfl, rfl⟩ := Exec.returns_pure.1 h
    cases i with
    | dht i =>
      exact ⟨[], [], [], run_one (Exec.pure_returns _), Exec.pure_returns _, rfl, rfl, rfl, rfl,
        .nil⟩
    | mdns i =>
      exact ⟨[.env i], [], [], Exec.pure_returns _, run_one (Exec.pure_returns _), rfl, rfl, rfl,
        rfl, .nil⟩

theorem run_backends {d₀ d : CombinedDiscovery} (h : (run Discovery.step d₀ is).Returns d tr) :
    ∃ ks trd trm, Backends d₀ is tr d ks trd trm := by
  apply run_trace (P := fun is tr d => ∃ ks trd trm, Backends d₀ is tr d ks trd trm)
    ⟨[], [], [], backends_refl d₀⟩ ?_ h
  rintro is tr d e d' tr' ⟨ks, trd, trm, hb⟩ hs
  obtain ⟨ks', trd', trm', hb'⟩ := step_backends hs
  exact ⟨_, _, _, hb.append hb'⟩

/-- What a run of the combined discovery yields. -/
structure Merges (d₀ : CombinedDiscovery) (is : List (DiscoveryEvent CombinedInput))
    (tr : List (DiscoveryObs CombinedEffect)) (d : CombinedDiscovery) : Prop where
  items : ∃ peers : List PeerInfo,
    peers ++ d.dht.pendingEvents =
      (received (dhtEffects (effects tr))).flatMap HyperDhtEvent.peers ∧
    Interleaves (peers.map .ok) ((located (mdnsEffects (effects tr))).map locatedItem)
      ((results tr).filterMap Poll.item)
  found : d₀.mdns.locator.ready ++ is.filterMap (DiscoveryEvent.input? CombinedInput.found?) =
    located (mdnsEffects (effects tr)) ++ d.mdns.locator.ready

/-- Which backend answers a poll: the DHT if it has something, else the locator, whatever commands
are queued. -/
structure Answers (d : CombinedDiscovery) (r : Poll (Option (IoResult PeerInfo)))
    (d' : CombinedDiscovery) (es : List CombinedEffect) : Prop where
  dht : ∀ x dht' es', d.dht.pollNext.Returns (.ready x, dht') es' →
    r = .ready x ∧ d'.mdns = d.mdns ∧ mdnsEffects es = []
  mdns : ∀ dht' es', d.dht.pollNext.Returns (.pending, dht') es' →
    r = .ofItem (d.mdns.locator.ready.head?.map locatedItem) ∧
      d'.mdns.locator.ready = d.mdns.locator.ready.tail

theorem pollNext_answers {d d' : CombinedDiscovery} (hn : d.mdns.pendingFuture = none)
    (h : d.pollNext.Returns (r, d') es) : Answers d r d' es := by
  cases pollNext_polled h with
  | dht hd =>
    constructor
    · intro x dht' es' hd'
      cases (hd.unique hd').1
      exact ⟨rfl, rfl, filterMap_map_none (fun _ => rfl) _⟩
    · intro dht' es' hd'
      cases (hd.unique hd').1
  | mdns hd hm =>
    constructor
    · intro x dht' es' hd'
      cases (hd.unique hd').1
    · intro dht' es' hd'
      obtain ⟨c, commands, a, announcer, l, locator, -, -, hl, rfl, rfl, rfl⟩ :=
        (MdnsDiscovery.returns_pollNext hn).1 hm
      obtain ⟨-, hi, hs, -⟩ := pollNext_spec hl
      rw [hi]
      exact ⟨rfl, hs⟩

section Bound

variable {dht : Source HyperDhtEvent} {announcer : Source Unit}
  {locator : Source (List UInt8 × SocketAddr)} {port : UInt16}

theorem run_merges {d : CombinedDiscovery}
    (h : (run Discovery.step (bind dht announcer locator port) is).Returns d tr) :
    Merges (bind dht announcer locator port) is tr d ∧ d.mdns.pendingFuture = none := by
  obtain ⟨ks, trd, trm, hb⟩ := run_backends h
  have hd := DhtDiscovery.run_has_history hb.dht
  have hm := MdnsDiscovery.run_has_history rfl hb.mdns
  obtain ⟨peers, hy, hp⟩ := hd.peers
  refine ⟨⟨⟨peers, ?_, ?_⟩, ?_⟩, hm.pendingFuture⟩
  · rw [hp, hb.dhtEffects]
  · rw [← hy, ← hb.mdnsEffects, ← hm.items]
    exact hb.items
  · rw [← hb.mdnsEffects, ← hb.found]
    exact hm.found

/-- The yielded items interleave those of the two backends, each in its order and once; a result of
the locator is a peer exactly when its topic has 32 bytes, and waits while the DHT answers. -/
theorem items_merge {d : CombinedDiscovery}
    (h : (run Discovery.step (bind dht announcer locator port) is).Returns d tr) :
    Merges (bind dht announcer locator port) is tr d ∧
      (∀ r d' es, d.pollNext.Returns (r, d') es → Answers d r d' es) ∧
      ∀ found : List UInt8 × SocketAddr,
        ((∃ peer, locatedItem found = .ok peer) ↔ found.1.length = 32) ∧
        ∀ peer, locatedItem found = .ok peer ↔ peer.addr = found.2 ∧
          peer.topic.map Subtype.val = some found.1 ∧ peer.discoveryMethod = .mdns := by
  obtain ⟨hm, hn⟩ := run_merges h
  refine ⟨hm, fun r d' es hp => pollNext_answers hn hp, fun found => ?_⟩
  exact ⟨locatedItem_isOk found, fun peer => locatedItem_ok⟩

end Bound

theorem items_merge_both_backends :
    let topic : Topic := ⟨List.replicate 32 7, rfl⟩
    let events := [.lookup topic, .announce topic,
      .env (.mdns (.locator (.push ([1, 2, 3], loopback 4003)))),
      .env (.dht (.push (.lookupResult ⟨topic, [loopback 4001, loopback 4002]⟩))), .poll, .poll,
      .env (.mdns (.locator (.push (topic.val, loopback 4004)))), .poll, .poll]
    ∃ d tr, (run Discovery.step (bind {} {} {} 4000) events).Returns d tr ∧
      Merges (bind {} {} {} 4000) events tr d ∧ (results tr).filterMap Poll.item =
        [.ok ⟨loopback 4001, some topic, .dht⟩, .ok ⟨loopback 4002, some topic, .dht⟩,
          .error ⟨.other, "Received invalid topic"⟩, .ok ⟨loopback 4004, some topic, .mdns⟩] := by
  intro topic events
  have hr : ∃ d tr, (run Discovery.step (bind {} {} {} 4000) events).Returns d tr ∧
      (results tr).filterMap Poll.item =
        [.ok ⟨loopback 4001, some topic, .dht⟩, .ok ⟨loopback 4002, some topic, .dht⟩,
          .error ⟨.other, "Received invalid topic"⟩, .ok ⟨loopback 4004, some topic, .mdns⟩] :=
    ⟨_, _, rfl, rfl⟩
  obtain ⟨d, tr, hr, hi⟩ := hr
  exact ⟨d, tr, hr, (items_merge hr).1, hi⟩

end CombinedDiscovery

end HyperswarmRs
