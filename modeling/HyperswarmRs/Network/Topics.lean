import HyperswarmRs.Network.Agreement
import HyperswarmRs.Network.Nodes
import HyperswarmRs.Swarm.Dialling

namespace HyperswarmRs
open Async
set_option autoImplicit true

def DhtEffect.announce? : DhtEffect → Option QueryOpts
  | .announce opts => some opts
  | .lookup _ | .polled _ => none

def SwarmEffect.announced? (e : SwarmEffect CombinedEffect τ) : Option QueryOpts :=
  e.dht?.bind DhtEffect.announce?

theorem CombinedTransport.act_inFlight (t : CombinedTransport) (i : TransportInput)
    (p : Protocol) : (t.act i).inFlight p ⊆ t.inFlight p := by
  have hf : ∀ {S : Type} (c : PendingConnects S) k, (c.act k).inFlight ⊆ c.inFlight := by
    intro S c k
    rw [FuturesUnordered.act]
    split
    · exact List.eraseIdx_subset
    · exact List.Subset.refl _
  cases i <;> cases p <;> first | exact List.Subset.refl _ | exact hf _ _

namespace Hyperswarm

variable [Discovery D δ] [Environment D ιD]

theorem step_inFlight {s s' : Hyperswarm D CombinedTransport} {e : SwarmEvent ιD TransportInput}
    {tr : List (SwarmObs δ TransportEffect)} (h : (s.step e).Returns s' tr) (p : Protocol) :
    s'.transport.inFlight p ⊆
      s.transport.inFlight p ++ (effects tr).filterMap SwarmEffect.dialled? := by
  cases step_cases h with
  | configure hc =>
    rw [(configure_returns hc).1]
    exact List.subset_append_left _ _
  | handleConfigure => exact List.subset_append_left _ _
  | poll hp =>
    rw [effects_returns]
    cases hp with
    | failed s₁ hs hd =>
      change s₁.transport.inFlight p ⊆ _
      rw [(pollCommands_drains hs).transport]
      exact List.subset_append_left _ _
    | quiet s₁ hs hd hn ht =>
      rw [CombinedTransport.pollNext_inFlight ht, (pollCommands_drains hs).transport]
      exact List.subset_append_left _ _
    | dialled s₁ hs hd ht ht' =>
      obtain ⟨rfl, rfl⟩ := ht.unique (CombinedTransport.connect_returns _ _)
      rw [CombinedTransport.pollNext_inFlight ht', (pollCommands_drains hs).transport]
      have hpush : ∀ a, (s.transport.pushConnects a).inFlight p = s.transport.inFlight p ++ [a] := by
        intro a
        cases p <;> rfl
      rw [hpush]
      apply List.append_subset.2 ⟨List.subset_append_left _ _, ?_⟩
      intro a ha
      refine List.mem_append_right _ (List.mem_filterMap.2 ⟨.connect a, ?_, rfl⟩)
      rw [List.mem_singleton.1 ha]
      exact List.mem_append_right _ (List.mem_append_right _
        (List.mem_append_left _ List.mem_cons_self))
  | discovery => exact List.subset_append_left _ _
  | transport =>
    exact List.subset_append_of_subset_left _ (CombinedTransport.act_inFlight _ _ p)

theorem run_inFlight {s s' : Hyperswarm D CombinedTransport}
    {events : List (SwarmEvent ιD TransportInput)} {tr : List (SwarmObs δ TransportEffect)}
    (h : (run Hyperswarm.step s events).Returns s' tr) (p : Protocol) :
    s'.transport.inFlight p ⊆
      s.transport.inFlight p ++ (effects tr).filterMap SwarmEffect.dialled? := by
  apply run_composes (R := fun s _ tr s' => s'.transport.inFlight p ⊆
    s.transport.inFlight p ++ (effects tr).filterMap SwarmEffect.dialled?)
    (fun s => List.subset_append_left _ _) ?_ (fun hs => step_inFlight hs p) h
  intro s is tr t is' tr' u ht hu
  rw [effects_append, List.filterMap_append, ← List.append_assoc]
  refine List.Subset.trans hu (List.append_subset.2 ⟨?_, List.subset_append_right _ _⟩)
  exact List.subset_append_of_subset_left _ ht

structure Announced (topic : Topic) (es : List (SwarmEffect CombinedEffect TransportEffect)) :
    Prop where
  called : .called (.announce topic) ∈ es
  bootstrapped : .bootstrapped ∈ received (dhtTrace es)

theorem Announced.mono (h : Announced topic es) (hp : es <+: es') : Announced topic es' :=
  ⟨hp.subset h.called, received_mono (dhtTrace_mono hp) h.bootstrapped⟩

section Bound

variable {dht : Source HyperDhtEvent} {announcer : Source Unit}
  {locator : Source (List UInt8 × SocketAddr)} {port : UInt16} {transport : CombinedTransport}
  {s : Hyperswarm CombinedDiscovery CombinedTransport}
  {events : List (SwarmEvent CombinedInput TransportInput)}
  {tr : List (SwarmObs CombinedEffect TransportEffect)}

theorem run_dials_remotes
    (h : (run Hyperswarm.step (bind (.bind dht announcer locator port) transport) events).Returns
      s tr) (hm : HonestLocator (mdnsTrace (effects tr))) :
    Follows SwarmEffect.dialled? (fun before a =>
      ∃ lookup ∈ before.filterMap SwarmEffect.found?, a ∈ lookup.remotes) (effects tr) := by
  intro before e after a he ha
  obtain ⟨peer, hp, rfl⟩ := run_dials h before e after a he ha
  have hpe := run_peers h
  rw [he] at hpe
  obtain ⟨es, hes, hq⟩ := hpe.of_append.mem hp
  rcases hq with hq | hq
  · obtain ⟨event, hev, hpr⟩ := List.mem_flatMap.1 hq
    cases event with
    | lookupResult lookup =>
      obtain ⟨a, ham, rfl⟩ := List.mem_map.1 hpr
      refine ⟨lookup, ?_, ham⟩
      rw [filterMap_found]
      exact List.mem_filterMap.2 ⟨_, received_mono (dhtTrace_mono hes) hev, rfl⟩
    | _ => cases hpr
  · have hb : es <+: effects tr := hes.trans ⟨e :: after, he.symm⟩
    have hn : located (mdnsTrace es) <+: located (mdnsTrace (effects tr)) :=
      (((hb.filterMap _).filterMap _).filterMap _).filterMap _
    rw [hm.located] at hn
    rw [List.prefix_nil.1 hn] at hq
    cases hq

theorem run_announces
    (h : (run Hyperswarm.step (bind (.bind dht announcer locator port) transport) events).Returns
      s tr) :
    Follows SwarmEffect.announced? (fun before opts =>
      opts.port = some port.toUInt32 ∧ Announced opts.topic before) (effects tr) := by
  intro before e after opts he ho
  obtain ⟨x, hx, hl⟩ := Option.bind_eq_some_iff.1 ho
  have hx' : x.command? = some (.announce opts) := by
    cases x <;> cases hl
    rfl
  have hc : e.command? = some (.announce opts) := Option.bind_eq_some_iff.2 ⟨x, hx, hx'⟩
  obtain ⟨call, hm, hcall⟩ := run_commands h before e after _ he hc
  have hg := (run_gated h).follows
  rw [dhtTrace_eq] at hg
  have hb : .bootstrapped ∈ received (dhtTrace before) := by
    rw [dhtTrace_eq]
    exact hg.of_filterMap before e after _ he hc
  cases call with
  | lookup topic => cases hcall
  | announce topic =>
    cases hcall
    exact ⟨rfl, hm, hb⟩

theorem run_called
    (h : (run Hyperswarm.step (bind (.bind dht announcer locator port) transport) events).Returns
      s tr) (hc : .called call ∈ effects tr) :
    ∃ config, (call.topic, config) ∈ events.filterMap SwarmEvent.call? ∧
      call.flag config = true := by
  have hq := mem_called.2 hc
  rw [(run_scheduled rfl h).requested] at hq
  obtain ⟨config, ha, hf⟩ := mem_queuedEdges hq
  exact ⟨config, schedule_calls events (List.mem_append_left _ ha), hf⟩

end Bound

end Hyperswarm

namespace Network

/-- The topic and the address under which an announcement lets a node be found: its host, with the
port that it gives. -/
def announcedAddr (host : ι → UInt16 → SocketAddr)
    (e : ι × SwarmEffect CombinedEffect TransportEffect) : Option (Topic × SocketAddr) :=
  e.2.announced?.bind fun opts => opts.port.map fun port => (opts.topic, host e.1 port.toUInt16)

theorem announcedAddr_eq_some {host : ι → UInt16 → SocketAddr}
    {e : ι × SwarmEffect CombinedEffect TransportEffect} :
    announcedAddr host e = some (topic, a) ↔ ∃ opts port, e.2.announced? = some opts ∧
      opts.port = some port ∧ opts.topic = topic ∧ host e.1 port.toUInt16 = a := by
  simp only [announcedAddr, Option.bind_eq_some_iff, Option.map_eq_some_iff, Prod.mk.injEq]
  constructor
  · rintro ⟨opts, ho, port, hp, ht, ha⟩
    exact ⟨opts, port, ho, hp, ht, ha⟩
  · rintro ⟨opts, port, ho, hp, ht, ha⟩
    exact ⟨opts, ho, port, hp, ht, ha⟩

variable [DecidableEq ι]

/-- The distributed hash table keeps its word: a node gets results for topics it has asked about,
and what it finds under a topic has been announced there; and no locator finds what was not added. -/
structure Honest (host : ι → UInt16 → SocketAddr)
    (tr : List (ι × SwarmEffect CombinedEffect TransportEffect)) : Prop where
  asked : ∀ n, HonestDht (dhtTrace (part n tr))
  announced : Follows (showsAt SwarmEffect.found?) (fun before found =>
    ∀ a ∈ found.2.remotes, (found.2.topic, a) ∈ before.filterMap (announcedAddr host)) tr
  located : ∀ n, HonestLocator (mdnsTrace (part n tr))

instance [Fintype ι] (host : ι → UInt16 → SocketAddr) : DecidablePred (Honest host) := fun tr =>
  have : Decidable (Follows (showsAt SwarmEffect.found?) (fun before found =>
      ∀ a ∈ found.2.remotes, (found.2.topic, a) ∈ before.filterMap (announcedAddr host)) tr) :=
    decidableFollows _ _ _
  decidable_of_iff ((∀ n, HonestDht (dhtTrace (part n tr))) ∧
      Follows (showsAt SwarmEffect.found?) (fun before found =>
        ∀ a ∈ found.2.remotes, (found.2.topic, a) ∈ before.filterMap (announcedAddr host)) tr ∧
      ∀ n, HonestLocator (mdnsTrace (part n tr)))
    ⟨fun ⟨ha, hf, hl⟩ => ⟨ha, hf, hl⟩, fun ⟨ha, hf, hl⟩ => ⟨ha, hf, hl⟩⟩

/-- A topic that one node has looked up, and under which the other has announced itself. -/
structure Meets (tr : List (ι × SwarmEffect CombinedEffect TransportEffect)) (n m : ι)
    (topic : Topic) : Prop where
  lookedUp : Hyperswarm.LookedUp topic (part n tr)
  announced : Hyperswarm.Announced topic (part m tr)

theorem Meets.mono {tr tr' : List (ι × SwarmEffect CombinedEffect TransportEffect)}
    (h : Meets tr n m topic) (hp : tr <+: tr') : Meets tr' n m topic :=
  ⟨h.lookedUp.mono (part_mono n hp), h.announced.mono (part_mono m hp)⟩

def calls (n : ι) (is : List (NetworkEvent ι ιD)) : List ConfigureCommand :=
  (is.filterMap (NetworkEvent.own? n)).filterMap SwarmEvent.call?

/-- The node has been told to use the topic, with the flag of the call on. -/
def Tells (is : List (NetworkEvent ι ιD)) (n : ι) (call : Call) : Prop :=
  ∃ config, (call.topic, config) ∈ calls n is ∧ call.flag config = true

theorem filterMap_own (events : List (SwarmEvent ιD ιT)) :
    (events.filterMap SwarmEvent.own?).filterMap SwarmEvent.call? =
      events.filterMap SwarmEvent.call? := by
  rw [List.filterMap_filterMap]
  apply List.filterMap_congr
  intro e _
  cases e <;> rfl

theorem link_links {net : Network ι D}
    (hl : l ∈ (net.link owner n p index source).links) :
    l ∈ net.links ∨ l.dialled ∈ (net.nodes l.initiator).transport.inFlight p := by
  rw [link] at hl
  split at hl
  · exact .inl hl
  · next dialled hi =>
    split at hl
    · exact .inl hl
    · rcases List.mem_append.1 hl with hl | hl
      · exact .inl hl
      · rw [List.mem_singleton.1 hl]
        exact .inr (List.mem_of_getElem? hi)

theorem step_new_link [Discovery D δ] [Environment D ιD] {owner : SocketAddr → Option ι}
    {net net' : Network ι D} {e : NetworkEvent ι ιD} {es : List (ι × SwarmEffect δ TransportEffect)}
    (h : (net.step owner e).Returns net' es) (hl : l ∈ net'.links) :
    l ∈ net.links ∨ ∃ p, l.dialled ∈ (net.nodes l.initiator).transport.inFlight p := by
  cases e with
  | configure n topic config =>
    obtain ⟨s, _, _, -, hr, -⟩ := Exec.returns_bind.1 h
    obtain ⟨rfl, -⟩ := Exec.returns_pure.1 hr
    exact .inl hl
  | handleConfigure n topic config =>
    obtain ⟨s, _, _, -, hr, -⟩ := Exec.returns_bind.1 h
    obtain ⟨rfl, -⟩ := Exec.returns_pure.1 hr
    exact .inl hl
  | discovery n i =>
    obtain ⟨rfl, -⟩ := Exec.returns_pure.1 h
    exact .inl hl
  | poll n =>
    obtain ⟨⟨r, s⟩, _, _, -, hr, -⟩ := Exec.returns_bind.1 h
    obtain ⟨rfl, -⟩ := Exec.returns_pure.1 hr
    exact .inl hl
  | link n p index source =>
    obtain ⟨rfl, -⟩ := Exec.returns_pure.1 h
    exact (link_links hl).imp_right fun hd => ⟨p, hd⟩
  | fault n f =>
    obtain ⟨rfl, -⟩ := Exec.returns_pure.1 h
    exact .inl hl

def bindAll (dht : ι → Source HyperDhtEvent) (announcer : ι → Source Unit)
    (locator : ι → Source (List UInt8 × SocketAddr)) (localAddr : ι → SocketAddr) :
    Network ι CombinedDiscovery :=
  bind (fun n => .bind (dht n) (announcer n) (locator n) (localAddr n).port) localAddr

section Runs

variable {dht : ι → Source HyperDhtEvent} {announcer : ι → Source Unit}
  {locator : ι → Source (List UInt8 × SocketAddr)} {localAddr : ι → SocketAddr}
  {owner : SocketAddr → Option ι} {host : ι → UInt16 → SocketAddr}
  {is : List (NetworkEvent ι CombinedInput)} {net : Network ι CombinedDiscovery}
  {tr : List (ι × SwarmEffect CombinedEffect TransportEffect)}

theorem run_swarm (h : (run (step owner) (bindAll dht announcer locator localAddr) is).Returns net tr)
    (n : ι) : ∃ events trn, (run Hyperswarm.step (.bind (.bind (dht n) (announcer n) (locator n)
        (localAddr n).port) (.bind (.bind { localAddr := localAddr n }) {})) events).Returns
      (net.nodes n) trn ∧ effects trn = part n tr ∧
        events.filterMap SwarmEvent.call? = calls n is := by
  obtain ⟨events, trn, hr⟩ := run_nodeRun h n
  refine ⟨events, trn, hr.run, hr.effects, ?_⟩
  rw [calls, ← hr.own, filterMap_own]

theorem run_tells (h : (run (step owner) (bindAll dht announcer locator localAddr) is).Returns net tr)
    (hc : .called call ∈ part n tr) : Tells is n call := by
  obtain ⟨events, trn, hr, he, hcalls⟩ := run_swarm h n
  rw [← he] at hc
  rw [Tells, ← hcalls]
  exact Hyperswarm.run_called hr hc

theorem run_links_dialled
    (h : (run (step owner) (bindAll dht announcer locator localAddr) is).Returns net tr) :
    (∀ n p, (net.nodes n).transport.inFlight p ⊆
      (part n tr).filterMap SwarmEffect.dialled?) ∧
    ∀ l ∈ net.links, l.dialled ∈ (part l.initiator tr).filterMap SwarmEffect.dialled? := by
  apply run_trace (P := fun _ tr net => (∀ n p, (net.nodes n).transport.inFlight p ⊆
      (part n tr).filterMap SwarmEffect.dialled?) ∧
    ∀ l ∈ net.links, l.dialled ∈ (part l.initiator tr).filterMap SwarmEffect.dialled?) ?_ ?_ h
  · refine ⟨fun n p => ?_, fun l hl => by cases hl⟩
    cases p <;> exact List.nil_subset _
  · rintro is tr net e net' es ⟨hf, hl⟩ hs
    refine ⟨fun n p => ?_, ?_⟩
    · obtain ⟨events, trn, hr⟩ := step_nodeRun hs n
      have hsub := Hyperswarm.run_inFlight hr.run p
      rw [hr.effects] at hsub
      rw [part_append, List.filterMap_append]
      refine List.Subset.trans hsub (List.append_subset.2 ⟨?_, List.subset_append_right _ _⟩)
      exact List.subset_append_of_subset_left _ (hf n p)
    · intro l hl'
      rw [part_append, List.filterMap_append]
      apply List.mem_append_left
      rcases step_new_link hs hl' with hl' | ⟨p, hd⟩
      · exact hl l hl'
      · exact hf l.initiator p hd

/-- A remote that is found is the address of a node that has announced itself under the topic
before. -/
theorem run_found_announced
    (h : (run (step owner) (bindAll dht announcer locator localAddr) is).Returns net
      (before ++ after)) (hh : Honest host (before ++ after))
    (hl : lookup ∈ (part n before).filterMap SwarmEffect.found?) (ha : a ∈ lookup.remotes) :
    ∃ m, a = host m (localAddr m).port ∧ Hyperswarm.Announced lookup.topic (part m before) := by
  obtain ⟨e, he, hf⟩ := List.mem_filterMap.1 hl
  obtain ⟨b, b', rfl⟩ := List.append_of_mem (mem_part.1 he)
  have hshow : showsAt SwarmEffect.found? (n, e) = some (n, lookup) :=
    showsAt_eq_some.2 ⟨e, rfl, hf⟩
  have hann := hh.announced b (n, e) (b' ++ after) (n, lookup)
    (by rw [List.append_assoc, List.cons_append]) hshow a ha
  obtain ⟨⟨m, x⟩, hx, hax⟩ := List.mem_filterMap.1 hann
  obtain ⟨opts, port, ho, hport, ht, rfl⟩ := announcedAddr_eq_some.1 hax
  obtain ⟨c, c', rfl⟩ := List.append_of_mem hx
  obtain ⟨events, trm, hr, hem, -⟩ := run_swarm h m
  have hcalled := Hyperswarm.run_announces hr
  simp only [hem, List.append_assoc, List.cons_append, part_append, part_cons_self] at hcalled
  obtain ⟨hp, ha'⟩ := hcalled _ x _ opts rfl ho
  rw [hport, Option.some.injEq] at hp
  refine ⟨m, ?_, ?_⟩
  · rw [hp, UInt16.toUInt16_toUInt32]
  · rw [← ht]
    refine ha'.mono ?_
    rw [part_append, part_append, List.append_assoc]
    exact List.prefix_append _ _

/-- Whoever dials has looked up a topic under which the owner of the address has announced itself
before, at the port on which it listens. -/
theorem run_dials_announced
    (h : (run (step owner) (bindAll dht announcer locator localAddr) is).Returns net tr)
    (hh : Honest host tr) : Follows (showsAt SwarmEffect.dialled?) (fun before dial =>
      ∃ m topic, dial.2 = host m (localAddr m).port ∧ Meets before dial.1 m topic) tr := by
  rintro before e after ⟨n, a⟩ rfl hs
  obtain ⟨e', rfl, ha⟩ := showsAt_eq_some.1 hs
  obtain ⟨events, trn, hr, he, -⟩ := run_swarm h n
  have hdial := Hyperswarm.run_dials_remotes hr (by rw [he]; exact hh.located n)
  have hres := Hyperswarm.run_results hr (by rw [he]; exact hh.asked n)
  rw [he, part_append, part_cons_self] at hdial hres
  obtain ⟨lookup, hl, hm⟩ := hdial _ e' _ a rfl ha
  obtain ⟨es, hp, hlook⟩ := hres.of_append.mem hl
  obtain ⟨m, ha, hann⟩ := run_found_announced h hh hl hm
  exact ⟨m, lookup.topic, ha, hlook.mono hp, hann⟩

theorem run_links_meet (howner : ∀ m, owner (host m (localAddr m).port) = some m)
    (h : (run (step owner) (bindAll dht announcer locator localAddr) is).Returns net tr)
    (hh : Honest host tr) (hl : l ∈ net.links) :
    ∃ topic, Meets tr l.initiator l.responder topic ∧
      Tells is l.initiator (.lookup topic) ∧ Tells is l.responder (.announce topic) := by
  have hs : WellLinked owner net := run_wellLinked h
  obtain ⟨e, he, hd⟩ := List.mem_filterMap.1 ((run_links_dialled h).2 l hl)
  obtain ⟨before, after, htr⟩ := List.append_of_mem (mem_part.1 he)
  obtain ⟨m, topic, ha, hm⟩ := run_dials_announced h hh before _ after (l.initiator, l.dialled)
    htr (showsAt_eq_some.2 ⟨e, rfl, hd⟩)
  have ho := hs.owned l hl
  dsimp only at ha
  rw [ha, howner, Option.some.injEq] at ho
  subst ho
  have hmt : Meets tr l.initiator l.responder topic := hm.mono ⟨_, htr.symm⟩
  exact ⟨topic, hmt, run_tells h hmt.lookedUp.called, run_tells h hmt.announced.called⟩

/-- Applications are handed only connections between nodes that have a topic in common: one was told
to look it up and did, and the other was told to announce it and did, before it was dialled. -/
theorem run_rendezvous (howner : ∀ m, owner (host m (localAddr m).port) = some m)
    (h : (run (step owner) (bindAll dht announcer locator localAddr) is).Returns net tr)
    (hh : Honest host tr) :
    Follows (showsAt SwarmEffect.dialled?) (fun before dial =>
      ∃ m topic, dial.2 = host m (localAddr m).port ∧ Meets before dial.1 m topic) tr ∧
    ∀ n, ∀ conn ∈ net.apps n, ∃ l ∈ net.links, l.node conn.isInitiator = n ∧
      l.half conn.isInitiator = conn ∧ ∃ topic, Meets tr l.initiator l.responder topic ∧
        Tells is l.initiator (.lookup topic) ∧ Tells is l.responder (.announce topic) := by
  have hs : WellLinked owner net := run_wellLinked h
  refine ⟨run_dials_announced h hh, fun n conn hc => ?_⟩
  obtain ⟨l, hl, hn, he⟩ := hs.apps hc
  exact ⟨l, hl, hn, he, run_links_meet howner h hh hl⟩

end Runs

instance : Fintype Party := ⟨{.alice, .bob}, fun p => by cases p <;> decide⟩

theorem run_rendezvous_alice_finds_bob :
    let topic : Topic := ⟨List.replicate 32 7, rfl⟩
    let boots := fun p => .discovery p (.dht (.push .bootstrapped))
    let events := [.configure .bob topic { announce := true },
      .handleConfigure .alice topic { lookup := true }, boots .bob, .poll .bob, boots .alice,
      .poll .alice, Party.alice.finds .bob, .poll .alice,
      .link .alice .tcp 0 (loopback 4001), .poll .alice, .poll .bob]
    ∃ net tr, (run (step Party.owner) Party.network events).Returns net tr ∧
      ∀ p, ∃ conn ∈ net.apps p, ∃ l ∈ net.links, l.half conn.isInitiator = conn ∧
        ∃ topic, Meets tr l.initiator l.responder topic := by
  intro topic boots events
  have hc : (run (step Party.owner) Party.network events).check (fun net tr =>
      Honest (fun _ port => loopback port) tr ∧ ∀ p, (net.apps p).length = 1) := by
    decide +kernel
  obtain ⟨net, tr, hr, hp⟩ := Exec.exists_of_check hc
  obtain ⟨hh, hl⟩ := of_decide_eq_true hp
  obtain ⟨-, happs⟩ := run_rendezvous (by decide) hr hh
  refine ⟨net, tr, hr, fun p => ?_⟩
  obtain ⟨conn, hconn⟩ := List.exists_mem_of_length_pos (Nat.lt_of_lt_of_eq Nat.one_pos (hl p).symm)
  obtain ⟨l, hl, -, he, topic, hm, -⟩ := happs p conn hconn
  exact ⟨conn, hconn, l, hl, he, topic, hm⟩

end Network

end HyperswarmRs
