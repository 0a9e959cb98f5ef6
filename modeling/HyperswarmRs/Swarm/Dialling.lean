import HyperswarmRs.Swarm.Configures
import HyperswarmRs.Transport.Polling

namespace HyperswarmRs
open Async
set_option autoImplicit true

def DhtEffect.lookup? : DhtEffect → Option QueryOpts
  | .lookup opts => some opts
  | .announce _ | .polled _ => none

def HyperDhtEvent.lookup? : HyperDhtEvent → Option Lookup
  | .lookupResult lookup => some lookup
  | .bootstrapped | .announceResult | .unAnnounceResult | .other => none

def DhtEffect.found? (e : DhtEffect) : Option Lookup := e.event?.bind HyperDhtEvent.lookup?

/-- A `HyperDht` reports only topics that it was asked to look up. -/
def HonestDht : List DhtEffect → Prop :=
  Follows DhtEffect.found? fun before lookup =>
    lookup.topic ∈ (before.filterMap DhtEffect.lookup?).map QueryOpts.topic

instance : DecidablePred HonestDht :=
  decidableFollows _ _

def MdnsEffect.found? : MdnsEffect → Option (List UInt8 × SocketAddr)
  | .locator r => r.item
  | .commands _ | .announcer _ => none

/-- No effect adds a topic to the locator: the code that would is commented out. -/
def MdnsEffect.added? : MdnsEffect → Option (List UInt8)
  | .commands _ | .announcer _ | .locator _ => none

/-- A locator reports only topics that were added to it. -/
def HonestLocator : List MdnsEffect → Prop :=
  Follows MdnsEffect.found? fun before found => found.1 ∈ before.filterMap MdnsEffect.added?

instance : DecidablePred HonestLocator :=
  decidableFollows _ _

theorem HonestLocator.located (h : HonestLocator es) : located es = [] := by
  have hl : HyperswarmRs.located es = es.filterMap MdnsEffect.found? := by
    rw [HyperswarmRs.located, List.filterMap_filterMap]
    apply List.filterMap_congr
    intro e _
    cases e <;> rfl
  rw [hl, List.eq_nil_iff_forall_not_mem]
  intro found hf
  obtain ⟨before, -, ha⟩ := Follows.mem h hf
  obtain ⟨e, -, he⟩ := List.mem_filterMap.1 ha
  cases e <;> cases he

theorem Gated.follows (h : Gated False es) :
    Follows DhtEffect.command? (fun before _ => .bootstrapped ∈ received before) es := by
  intro before e after command he hc
  exact (h before e after he (Option.ne_none_iff_exists'.2 ⟨command, hc⟩)).resolve_left id

def dhtTrace (es : List (SwarmEffect CombinedEffect τ)) : List DhtEffect :=
  dhtEffects (discoveryEffects es)

def mdnsTrace (es : List (SwarmEffect CombinedEffect τ)) : List MdnsEffect :=
  mdnsEffects (discoveryEffects es)

namespace SwarmEffect

def dht? (e : SwarmEffect CombinedEffect τ) : Option DhtEffect :=
  e.ofDiscovery?.bind CombinedEffect.dht?

def command? (e : SwarmEffect CombinedEffect τ) : Option Command := e.dht?.bind DhtEffect.command?

def lookup? (e : SwarmEffect CombinedEffect τ) : Option QueryOpts := e.dht?.bind DhtEffect.lookup?

def found? (e : SwarmEffect CombinedEffect τ) : Option Lookup := e.dht?.bind DhtEffect.found?

def peer? : SwarmEffect δ τ → Option PeerInfo
  | .discovery (.ready (some (.ok peer))) => some peer
  | _ => none

def dialled? : SwarmEffect δ TransportEffect → Option SocketAddr
  | .connect a => some a
  | .ofTransport (.tcp (.dial a)) => some a
  | .ofTransport (.utp (.dial a)) => some a
  | _ => none

end SwarmEffect

theorem dhtTrace_eq (es : List (SwarmEffect CombinedEffect τ)) :
    dhtTrace es = es.filterMap SwarmEffect.dht? := List.filterMap_filterMap

theorem dhtTrace_append (es es' : List (SwarmEffect CombinedEffect τ)) :
    dhtTrace (es ++ es') = dhtTrace es ++ dhtTrace es' := by
  rw [dhtTrace_eq, dhtTrace_eq, dhtTrace_eq, List.filterMap_append]

theorem dhtTrace_mono {es es' : List (SwarmEffect CombinedEffect τ)} (h : es <+: es') :
    dhtTrace es <+: dhtTrace es' := by
  obtain ⟨rest, rfl⟩ := h
  rw [dhtTrace_append]
  exact List.prefix_append _ _

theorem filterMap_found (es : List (SwarmEffect CombinedEffect τ)) :
    es.filterMap SwarmEffect.found? = (received (dhtTrace es)).filterMap HyperDhtEvent.lookup? := by
  rw [received, dhtTrace_eq, List.filterMap_filterMap, List.filterMap_filterMap]
  rfl

theorem received_mono (h : es <+: es') (hm : event ∈ received es) : event ∈ received es' :=
  (h.filterMap _).subset hm

theorem mem_queuedEdges {topics : Finmap fun _ : Topic => TopicConfig}
    (h : call ∈ queuedEdges topics calls) :
    ∃ config, (call.topic, config) ∈ calls ∧ call.flag config = true := by
  induction calls generalizing topics with
  | nil => cases h
  | cons c calls ih =>
    obtain ⟨topic, config⟩ := c
    rcases List.mem_append.1 h with h | h
    · refine ⟨config, ?_, ?_⟩
      · rw [Hyperswarm.edges_topic _ _ _ call h]
        exact List.mem_cons_self
      · rcases List.mem_append.1 h with h | h
        · obtain ⟨hc, hm⟩ := List.mem_ite_nil_right.1 h
          obtain rfl := List.mem_singleton.1 hm
          exact (Bool.and_eq_true_iff.1 hc).1
        · obtain ⟨hc, hm⟩ := List.mem_ite_nil_right.1 h
          obtain rfl := List.mem_singleton.1 hm
          exact (Bool.and_eq_true_iff.1 hc).1
    · obtain ⟨config', hm, hf⟩ := ih h
      exact ⟨config', List.mem_cons_of_mem _ hm, hf⟩

theorem schedule_calls (events : List (SwarmEvent ιD ιT)) :
    (schedule events).applied ++ (schedule events).queued ⊆ events.filterMap SwarmEvent.call? := by
  induction events using List.reverseRecOn with
  | nil => exact List.Subset.refl _
  | append_singleton events e ih =>
    have ih' := List.append_subset.1 ih
    rw [schedule_concat, List.filterMap_append]
    cases e with
    | configure topic config =>
      refine List.append_subset.2 ⟨?_, List.subset_append_of_subset_left _ ih'.2⟩
      exact List.append_subset.2 ⟨List.subset_append_of_subset_left _ ih'.1,
        List.subset_append_right _ _⟩
    | handleConfigure topic config =>
      refine List.append_subset.2 ⟨List.subset_append_of_subset_left _ ih'.1, ?_⟩
      exact List.append_subset.2 ⟨List.subset_append_of_subset_left _ ih'.2,
        List.subset_append_right _ _⟩
    | poll =>
      rw [Schedule.step, List.append_nil]
      exact List.subset_append_of_subset_left _ ih
    | discovery i => exact List.subset_append_of_subset_left _ ih
    | transport i => exact List.subset_append_of_subset_left _ ih

namespace Hyperswarm

theorem no_dialled {t t' : CombinedTransport} (h : t.pollNext.Returns (r, t') es) :
    ∀ e ∈ (SwarmEffect.answered es r : List (SwarmEffect δ TransportEffect)),
      e.dialled? = none := by
  intro e he
  obtain ⟨ht, hu⟩ := (CombinedTransport.pollNext_cases h).no_dial
  rw [List.filterMap_eq_nil_iff] at ht hu
  rcases List.mem_append.1 he with he | he
  · obtain ⟨e, he', rfl⟩ := List.mem_map.1 he
    rcases e with (a | _ | _) | (a | _ | _)
    · cases ht _ he'
    · rfl
    · rfl
    · cases hu _ he'
    · rfl
    · rfl
  · obtain rfl := List.mem_singleton.1 he
    rfl

theorem Polled.dials [Discovery D δ] {s s' : Hyperswarm D CombinedTransport}
    {es : List (SwarmEffect δ TransportEffect)} (h : Polled s r s' es) :
    ∃ s₁ es₁ next es₂ rest, Asks s s₁ s' es₁ next es₂ rest ∧
      es = es₁ ++ (SwarmEffect.asked es₂ next ++ rest) ∧ ∀ e ∈ rest, ∀ a, e.dialled? = some a →
        ∃ peer, next = .ready (some (.ok peer)) ∧ peer.addr = a := by
  cases h with
  | failed s₁ hs hd =>
    refine ⟨s₁, _, _, _, [], ⟨pollCommands_drains hs, hd, rfl, rfl, ?_⟩, ?_, ?_⟩
    · exact fun e he => by cases he
    · rw [List.append_nil]
    · exact fun e he => by cases he
  | quiet s₁ hs hd hn ht =>
    refine ⟨s₁, _, _, _, _, ⟨pollCommands_drains hs, hd, rfl, rfl,
      SwarmEffect.ofTransport_answered _ _⟩, rfl, ?_⟩
    intro e he a ha
    rw [no_dialled ht e he] at ha
    cases ha
  | @dialled _ peer _ _ _ _ _ _ _ s₁ hs hd ht ht' =>
    refine ⟨s₁, _, _, _, _, ⟨pollCommands_drains hs, hd, rfl, rfl, fun e he => ?_⟩, rfl, ?_⟩
    · exact (List.mem_append.1 he).elim (SwarmEffect.ofTransport_dialling _ _ e)
        (SwarmEffect.ofTransport_answered _ _ e)
    · intro e he a ha
      refine ⟨peer, rfl, ?_⟩
      rcases List.mem_append.1 he with he | he
      · obtain ⟨rfl, rfl⟩ := ht.unique (CombinedTransport.connect_returns _ _)
        simp only [SwarmEffect.dialling, List.map_cons, List.map_nil, List.mem_cons,
          List.not_mem_nil, or_false] at he
        rcases he with rfl | rfl | rfl <;> exact Option.some.inj ha
      · rw [no_dialled ht' e he] at ha
        cases ha

theorem shows_none {shows : SwarmEffect δ τ → Option α} (hc : ∀ r, shows (.commands r) = none)
    (hc' : ∀ call, shows (.called call) = none) {es : List (SwarmEffect δ τ)}
    (ho : ∀ e ∈ es, e.OfCommands) (hd : es.filterMap SwarmEffect.ofDiscovery? = []) :
    es.filterMap shows = [] := by
  rw [List.filterMap_eq_nil_iff] at hd ⊢
  intro e he
  cases e with
  | commands r => exact hc r
  | called call => exact hc' call
  | ofDiscovery e => cases hd _ he
  | _ => cases ho _ he

/-- What comes of a poll: after the effects before it and those of the queued commands, it asks the
discovery, and dials only the peer that this answers. -/
structure Causes (d : CombinedDiscovery) (past : List (SwarmEffect CombinedEffect TransportEffect))
    (next : Poll (Option (IoResult PeerInfo))) (es₂ : List CombinedEffect)
    (rest : List (SwarmEffect CombinedEffect TransportEffect)) : Prop where
  discovers : ∃ (d' : CombinedDiscovery) (ds : List (DiscoveryEvent CombinedInput)) (trd : _),
    Discovers d (past ++ SwarmEffect.asked es₂ next) d' ds trd
  transport : ∀ e ∈ rest, e.OfTransport
  dials : ∀ e ∈ rest, ∀ a, e.dialled? = some a → ∃ peer,
    next = .ready (some (.ok peer)) ∧ peer.addr = a

theorem Causes.shows_none {shows : SwarmEffect CombinedEffect TransportEffect → Option α}
    (h : Causes d past next es₂ rest) (hn : ∀ e : SwarmEffect CombinedEffect TransportEffect,
      e.OfTransport → shows e = none) : rest.filterMap shows = [] :=
  List.filterMap_eq_nil_iff.2 fun e he => hn e (h.transport e he)

theorem run_follows {shows : SwarmEffect CombinedEffect TransportEffect → Option α}
    {Q : List (SwarmEffect CombinedEffect TransportEffect) → α → Prop}
    {s₀ s : Hyperswarm CombinedDiscovery CombinedTransport}
    {events : List (SwarmEvent CombinedInput TransportInput)}
    {tr : List (SwarmObs CombinedEffect TransportEffect)}
    (hc : ∀ r, shows (.commands r) = none) (hc' : ∀ call, shows (.called call) = none)
    (hp : ∀ {past next es₂ rest}, Causes s₀.discovery past next es₂ rest →
      Follows shows (fun before => Q (past ++ before)) (SwarmEffect.asked es₂ next ++ rest))
    (h : (run Hyperswarm.step s₀ events).Returns s tr) : Follows shows Q (effects tr) := by
  have ha : (∃ (ds : List (DiscoveryEvent CombinedInput)) (trd : _),
      Discovers s₀.discovery (effects tr) s.discovery ds trd) ∧ Follows shows Q (effects tr) := by
    apply run_trace (P := fun _ tr s => (∃ (ds : List (DiscoveryEvent CombinedInput)) (trd : _),
      Discovers s₀.discovery (effects tr) s.discovery ds trd) ∧ Follows shows Q (effects tr))
      ⟨⟨[], [], discovers_refl _⟩, follows_nil⟩ ?_ h
    rintro is tr s e s' tr' ⟨⟨ds, trd, hd⟩, hf⟩ hs
    obtain ⟨ds', trd', hd'⟩ := step_discovers hs
    rw [effects_append]
    refine ⟨⟨_, _, hd.append hd'⟩, hf.append ?_⟩
    cases step_cases hs with
    | configure hcf =>
      obtain ⟨-, hcd, -, ho⟩ := configure_returns hcf
      rw [effects_map_effect]
      exact follows_of_none (shows_none hc hc' (fun e he => (ho e he).ofCommands) hcd.silent)
    | handleConfigure => exact follows_nil
    | poll hpl =>
      obtain ⟨s₁, es₁, next, es₂, rest, hask, rfl, hdial⟩ := hpl.dials
      obtain ⟨ds₁, trd₁, hd₁⟩ : ∃ (ds : List (DiscoveryEvent CombinedInput)) (trd : _),
          Discovers _ _ _ ds trd := hask.discovers
      have hca : Causes s₀.discovery (effects tr ++ es₁) next es₂ rest := by
        have hda := hd.append hd₁
        rw [← List.append_assoc] at hda
        exact ⟨⟨_, _, _, hda⟩, hask.rest, hdial⟩
      rw [effects_returns]
      apply Follows.append (Q := fun before => Q (effects tr ++ before))
      · exact follows_of_none (shows_none hc hc' hask.drains.effects hask.drains.called.silent)
      · simpa only [List.append_assoc] using hp hca
    | discovery => exact follows_nil
    | transport => exact follows_nil
  exact ha.2

section Run

variable {dht : Source HyperDhtEvent} {announcer : Source Unit}
  {locator : Source (List UInt8 × SocketAddr)} {port : UInt16} {transport : CombinedTransport}
  {s : Hyperswarm CombinedDiscovery CombinedTransport}
  {events : List (SwarmEvent CombinedInput TransportInput)}
  {tr : List (SwarmObs CombinedEffect TransportEffect)}

theorem mem_called {call : Call} {es : List (SwarmEffect δ τ)} :
    call ∈ requested es ↔ .called call ∈ es := by
  rw [requested, List.mem_filterMap]
  constructor
  · rintro ⟨e, he, hc⟩
    cases e <;> cases hc
    exact he
  · exact fun h => ⟨_, h, rfl⟩

theorem run_commands
    (h : (run Hyperswarm.step (bind (.bind dht announcer locator port) transport) events).Returns
      s tr) :
    Follows SwarmEffect.command? (fun before command => ∃ call : Call, .called call ∈ before ∧
      command = call.command port) (effects tr) := by
  refine run_follows (fun _ => rfl) (fun _ => rfl) ?_ h
  intro past next es₂ rest hca
  refine Follows.append (follows_of_forall ?_ ?_) (follows_of_none (hca.shows_none fun e he => ?_))
  · rintro before before' command ⟨call, hm, hc⟩
    rw [← List.append_assoc]
    exact ⟨call, List.mem_append_left _ hm, hc⟩
  · intro e he command ho
    obtain ⟨d', ds, trd, hd⟩ := hca.discovers
    obtain ⟨x, hx, hl⟩ := Option.bind_eq_some_iff.1 ho
    have hi : command ∈ issued (dhtTrace (past ++ SwarmEffect.asked es₂ next)) := by
      rw [dhtTrace_eq]
      exact List.mem_filterMap.2
        ⟨x, List.mem_filterMap.2 ⟨e, List.mem_append_right _ he, hx⟩, hl⟩
    have hr : (requested (past ++ SwarmEffect.asked es₂ next)).map (Call.command port) =
        issued (dhtTrace (past ++ SwarmEffect.asked es₂ next)) ++ d'.dht.pendingCommands :=
      hd.reaches.dht
    obtain ⟨call, hm, hcall⟩ := List.mem_map.1 (hr ▸ List.mem_append_left _ hi)
    have hn : requested (SwarmEffect.asked es₂ next :
        List (SwarmEffect CombinedEffect TransportEffect)) = [] :=
      SwarmEffect.filterMap_asked (fun _ => rfl) es₂ next
    rw [requested_append, hn, List.append_nil] at hm
    rw [List.append_nil]
    exact ⟨call, mem_called.1 hm, hcall.symm⟩
  · cases e <;> first | rfl | cases he

theorem run_lookups
    (h : (run Hyperswarm.step (bind (.bind dht announcer locator port) transport) events).Returns
      s tr) :
    Follows SwarmEffect.lookup? (fun before opts => .called (.lookup opts.topic) ∈ before)
      (effects tr) := by
  intro before e after opts he ho
  obtain ⟨x, hx, hl⟩ := Option.bind_eq_some_iff.1 ho
  have hc : e.command? = some (.lookup opts) := by
    refine Option.bind_eq_some_iff.2 ⟨x, hx, ?_⟩
    cases x <;> cases hl
    rfl
  obtain ⟨call, hm, hcall⟩ := run_commands h before e after _ he hc
  cases call with
  | announce topic => cases hcall
  | lookup topic =>
    cases hcall
    exact hm

theorem run_peers
    (h : (run Hyperswarm.step (bind (.bind dht announcer locator port) transport) events).Returns
      s tr) :
    Follows SwarmEffect.peer? (fun before peer =>
      peer ∈ (received (dhtTrace before)).flatMap HyperDhtEvent.peers ∨
        .ok peer ∈ (located (mdnsTrace before)).map locatedItem) (effects tr) := by
  refine run_follows (fun _ => rfl) (fun _ => rfl) ?_ h
  intro past next es₂ rest hca
  refine Follows.append (Follows.append (follows_of_none (filterMap_map_none (fun _ => rfl) es₂))
    (follows_cons.2 ⟨?_, follows_nil⟩)) (follows_of_none (hca.shows_none fun e he => ?_))
  · intro peer hp
    obtain ⟨d', ds, trd, hd⟩ := hca.discovers
    obtain rfl : next = .ready (some (.ok peer)) := by
      rcases next with _ | _ | _ | p <;> cases hp
      rfl
    obtain ⟨peers, hpe, hi⟩ := (CombinedDiscovery.run_merges hd.run).1.items
    have he : effects trd = discoveryEffects (past ++ es₂.map .ofDiscovery) := by
      rw [hd.effects, SwarmEffect.asked, ← List.append_assoc, List.filterMap_append]
      exact List.append_nil _
    have hm : .ok peer ∈ (results trd).filterMap Poll.item := by
      rw [hd.results, List.filterMap_append, SwarmEffect.filterMap_asked fun _ => rfl,
        List.filterMap_append]
      exact List.mem_append_right _ List.mem_cons_self
    rw [he] at hpe hi
    rw [List.append_nil]
    rcases hi.mem.1 hm with hm | hm
    · obtain ⟨peer', hm', he'⟩ := List.mem_map.1 hm
      cases he'
      left
      rw [dhtTrace, ← hpe]
      exact List.mem_append_left _ hm'
    · exact .inr hm
  · cases e <;> first | rfl | cases he

theorem run_dials {s₀ : Hyperswarm CombinedDiscovery CombinedTransport}
    (h : (run Hyperswarm.step s₀ events).Returns s tr) :
    Follows SwarmEffect.dialled? (fun before a =>
      ∃ peer ∈ before.filterMap SwarmEffect.peer?, peer.addr = a) (effects tr) := by
  refine run_follows (fun _ => rfl) (fun _ => rfl) ?_ h
  intro past next es₂ rest hca
  refine Follows.append (follows_of_none ?_) (follows_of_forall ?_ ?_)
  · exact SwarmEffect.filterMap_asked (fun _ => rfl) es₂ next
  · rintro before before' a ⟨peer, hp, ha⟩
    refine ⟨peer, ?_, ha⟩
    rw [← List.append_assoc, ← List.append_assoc, List.filterMap_append, List.append_assoc]
    exact List.mem_append_left _ hp
  · intro e he a ha
    obtain ⟨peer, rfl, ha'⟩ := hca.dials e he a ha
    refine ⟨peer, ?_, ha'⟩
    rw [List.append_nil, List.filterMap_append, SwarmEffect.filterMap_asked fun _ => rfl]
    exact List.mem_append_right _ List.mem_cons_self

theorem run_gated
    (h : (run Hyperswarm.step (bind (.bind dht announcer locator port) transport) events).Returns
      s tr) : Gated False (dhtTrace (effects tr)) := by
  obtain ⟨ds, trd, hd⟩ := run_discovers h
  obtain ⟨ks, trd', trm, hb⟩ := CombinedDiscovery.run_backends hd.run
  have hg := (DhtDiscovery.run_has_history hb.dht).gated
  rwa [hb.dhtEffects, hd.effects] at hg

structure LookedUp (topic : Topic) (es : List (SwarmEffect CombinedEffect TransportEffect)) :
    Prop where
  called : .called (.lookup topic) ∈ es
  bootstrapped : .bootstrapped ∈ received (dhtTrace es)

theorem LookedUp.mono (h : LookedUp topic es) (hp : es <+: es') : LookedUp topic es' :=
  ⟨hp.subset h.called, received_mono (dhtTrace_mono hp) h.bootstrapped⟩

theorem run_results
    (h : (run Hyperswarm.step (bind (.bind dht announcer locator port) transport) events).Returns
      s tr) (hd : HonestDht (dhtTrace (effects tr))) :
    Follows SwarmEffect.found? (fun before lookup => LookedUp lookup.topic before)
      (effects tr) := by
  intro before e after lookup he hf
  have hl := run_lookups h
  have hg := run_gated h
  have hh : Follows DhtEffect.found? _ (dhtTrace (effects tr)) := hd
  rw [dhtTrace_eq] at hh
  obtain ⟨opts, ho, ht⟩ := List.mem_map.1 (hh.of_filterMap before e after lookup he hf)
  rw [he] at hl hg
  rw [dhtTrace_append] at hg
  rw [← ht]
  constructor
  · rw [List.filterMap_filterMap] at ho
    obtain ⟨es, hp, hc⟩ := hl.of_append.mem ho
    exact hp.subset hc
  · have hc : .lookup opts ∈ issued (dhtTrace before) := by
      obtain ⟨x, hx, hxo⟩ := List.mem_filterMap.1 ho
      rw [dhtTrace_eq]
      refine List.mem_filterMap.2 ⟨x, hx, ?_⟩
      cases x <;> cases hxo
      rfl
    obtain ⟨es, hp, hb⟩ := hg.follows.of_append.mem hc
    exact received_mono hp hb

/-- Why the swarm dials: an address is found in a lookup that a configuration has asked for. -/
structure DialsLookups (events : List (SwarmEvent CombinedInput TransportInput))
    (es : List (SwarmEffect CombinedEffect TransportEffect)) : Prop where
  dials : Follows SwarmEffect.dialled? (fun before a => ∃ lookup : Lookup, a ∈ lookup.remotes ∧
    .lookupResult lookup ∈ received (dhtTrace before) ∧ LookedUp lookup.topic before) es
  results : Follows SwarmEffect.found? (fun before lookup => LookedUp lookup.topic before) es
  configured : ∀ topic, .called (.lookup topic) ∈ es →
    ∃ config, (topic, config) ∈ (schedule events).applied ∧ config.lookup = true
  unasked : ∀ topic, (∀ config, (topic, config) ∈ events.filterMap SwarmEvent.call? →
    config.lookup = false) → ∀ lookup, .lookupResult lookup ∈ received (dhtTrace es) →
      lookup.topic ≠ topic

/-- The swarm dials only peers of topics that it was asked to look up. -/
theorem run_dials_lookups
    (h : (run Hyperswarm.step (bind (.bind dht announcer locator port) transport) events).Returns
      s tr) (hd : HonestDht (dhtTrace (effects tr))) (hm : HonestLocator (mdnsTrace (effects tr))) :
    DialsLookups events (effects tr) := by
  have hr := run_results h hd
  have hl : ∀ es lookup, es <+: effects tr → .lookupResult lookup ∈ received (dhtTrace es) →
      LookedUp lookup.topic es := by
    rintro es lookup ⟨rest, he⟩ hf
    rw [← he] at hr
    have hmem : lookup ∈ es.filterMap SwarmEffect.found? := by
      rw [filterMap_found]
      exact List.mem_filterMap.2 ⟨_, hf, rfl⟩
    obtain ⟨es', hp, hlu⟩ := hr.of_append.mem hmem
    exact hlu.mono hp
  have hc : ∀ topic, .called (.lookup topic) ∈ effects tr →
      ∃ config, (topic, config) ∈ (schedule events).applied ∧ config.lookup = true := by
    intro topic ht
    have hq := mem_called.2 ht
    rw [(run_scheduled rfl h).requested] at hq
    exact mem_queuedEdges hq
  refine ⟨?_, hr, hc, ?_⟩
  · intro before e after a he ha
    have hb : before <+: effects tr := ⟨e :: after, he.symm⟩
    obtain ⟨peer, hp, rfl⟩ := run_dials h before e after a he ha
    have hpe := run_peers h
    rw [he] at hpe
    obtain ⟨es, hes, hq⟩ := hpe.of_append.mem hp
    rcases hq with hq | hq
    · obtain ⟨event, hev, hpr⟩ := List.mem_flatMap.1 hq
      cases event with
      | lookupResult lookup =>
        obtain ⟨a, ham, rfl⟩ := List.mem_map.1 hpr
        have hf := received_mono (dhtTrace_mono hes) hev
        exact ⟨lookup, ham, hf, hl before lookup hb hf⟩
      | _ => cases hpr
    · have hn : located (mdnsTrace es) <+: located (mdnsTrace (effects tr)) :=
        ((((hes.trans hb).filterMap _).filterMap _).filterMap _).filterMap _
      rw [hm.located] at hn
      rw [List.prefix_nil.1 hn] at hq
      cases hq
  · rintro topic hoff lookup hf rfl
    obtain ⟨config, ha, hon⟩ := hc _ (hl _ lookup (List.prefix_refl _) hf).called
    have hcall := schedule_calls events (List.mem_append_left _ ha)
    rw [hoff config hcall] at hon
    cases hon

end Run

theorem run_dials_lookups_found :
    let start : Hyperswarm CombinedDiscovery CombinedTransport :=
      bind (.bind {} {} {} 4000) .fresh
    let topic : Topic := ⟨List.replicate 32 7, rfl⟩
    let other : Topic := ⟨List.replicate 32 8, rfl⟩
    let events := [.configure other { announce := true }, .handleConfigure topic .both,
      .discovery (.dht (.push .bootstrapped)), .poll,
      .discovery (.dht (.push (.lookupResult ⟨topic, [loopback 4001]⟩))), .poll]
    ∃ s tr, (run Hyperswarm.step start events).Returns s tr ∧ DialsLookups events (effects tr) ∧
      (effects tr).filterMap SwarmEffect.dialled? =
        [loopback 4001, loopback 4001, loopback 4001] := by
  intro start topic other events
  have hc : (run Hyperswarm.step start events).check (fun _ tr =>
      HonestDht (dhtTrace (effects tr)) ∧ HonestLocator (mdnsTrace (effects tr)) ∧
        (effects tr).filterMap SwarmEffect.dialled? =
          [loopback 4001, loopback 4001, loopback 4001]) := by
    decide +kernel
  obtain ⟨s, tr, hr, hp⟩ := Exec.exists_of_check hc
  obtain ⟨hd, hm, hdial⟩ := of_decide_eq_true hp
  exact ⟨s, tr, hr, run_dials_lookups hr hd hm, hdial⟩

end Hyperswarm

end HyperswarmRs
