import HyperswarmRs.Network.Topics
import HyperswarmRs.Swarm.Draining

namespace HyperswarmRs
open Async
set_option autoImplicit true

namespace CombinedTransport

theorem act_named {t : CombinedTransport} (hl : t.Live) (hn : t.Named)
    (hi : ∀ port x, t.arrival i = some (port, x) → x ≠ none) : (t.act i).Named := by
  intro port
  cases ha : t.arrival i with
  | none =>
    rw [act_of_no_arrival ha]
    exact hn port
  | some a =>
    obtain ⟨port', x⟩ := a
    rw [act_waiting hl ha, List.mem_append]
    rintro (hm | hm)
    · exact hn port hm
    · obtain ⟨-, hm⟩ := List.mem_ite_nil_right.1 hm
      exact hi port' x ha (List.mem_singleton.1 hm).symm

theorem arrival_fault_some {t : CombinedTransport} {f : TransportFault}
    (h : t.arrival f.input = some (port, x)) : x ≠ none := by
  cases f with
  | connect p index err =>
    cases p <;>
    · simp only [TransportFault.input, arrival] at h
      split at h <;> cases h
      exact Option.some_ne_none _
  | accept p err => cases p <;> cases h <;> exact Option.some_ne_none _

end CombinedTransport

namespace Network

variable [DecidableEq ι]

/-- All streams of a network can tell their peers. -/
def Named (net : Network ι D) : Prop := ∀ n, (net.nodes n).transport.Live ∧
  (net.nodes n).transport.Named

theorem Named.set {net : Network ι D} {s : Hyperswarm D CombinedTransport} (h : net.Named)
    (hs : s.transport.Live ∧ s.transport.Named) : (net.set n s).Named := by
  intro m
  rcases eq_or_ne m n with rfl | hm
  · rw [set_self]
    exact hs
  · rw [set_other _ _ hm]
    exact h m

theorem Named.act {net : Network ι D} (h : net.Named)
    (hi : ∀ port x, (net.nodes n).transport.arrival i = some (port, x) → x ≠ none) :
    (net.act n i).Named :=
  h.set ⟨CombinedTransport.act_live (h n).1 i, CombinedTransport.act_named (h n).1 (h n).2 hi⟩

theorem Named.establish {net : Network ι D} (h : net.Named)
    (hi : index < ((net.nodes l.initiator).transport.inFlight l.protocol).length) :
    (net.establish l index).Named := by
  have hc : (net.act l.initiator (l.connectInput index)).Named := by
    refine h.act fun port x ha => ?_
    rw [CombinedTransport.arrival_connect hi] at ha
    cases ha
    exact Option.some_ne_none _
  refine hc.act fun port x ha => ?_
  rw [CombinedTransport.arrival_accept] at ha
  cases ha
  exact Option.some_ne_none _

theorem Named.link {owner : SocketAddr → Option ι} {net : Network ι D} (h : net.Named) (n : ι)
    (p : Protocol) (index : Nat) (source : SocketAddr) :
    (net.link owner n p index source).Named := by
  rw [Network.link]
  split
  · exact h
  · next hi =>
    split
    · exact h
    · exact h.establish (List.getElem?_eq_some_iff.1 hi).1

section Step

variable [Discovery D δ] [Environment D ιD]

theorem pollNext_named {s s' : Hyperswarm D CombinedTransport}
    {es : List (SwarmEffect δ TransportEffect)} (hn : s.transport.Live ∧ s.transport.Named)
    (h : s.pollNext.Returns (r, s') es) : s'.transport.Live ∧ s'.transport.Named := by
  cases Hyperswarm.pollNext_cases h with
  | failed s₁ hc hd =>
    change s₁.transport.Live ∧ s₁.transport.Named
    rw [(Hyperswarm.pollCommands_drains hc).transport]
    exact hn
  | quiet s₁ hc hd hi ht =>
    obtain ⟨taken, htk, -⟩ := CombinedTransport.pollNext_drains ht
    rw [(Hyperswarm.pollCommands_drains hc).transport] at htk
    exact ⟨CombinedTransport.pollNext_live ht, htk.named hn.2⟩
  | dialled s₁ hc hd ht ht' =>
    obtain ⟨rfl, -⟩ := ht.unique (CombinedTransport.connect_returns _ _)
    obtain ⟨taken, htk, -⟩ := CombinedTransport.pollNext_drains ht'
    refine ⟨CombinedTransport.pollNext_live ht', htk.named fun port => ?_⟩
    rw [CombinedTransport.pushConnects_waiting, (Hyperswarm.pollCommands_drains hc).transport]
    exact hn.2 port

theorem step_named {owner : SocketAddr → Option ι} {net net' : Network ι D}
    {e : NetworkEvent ι ιD} {es : List (ι × SwarmEffect δ TransportEffect)} (hn : net.Named)
    (h : (net.step owner e).Returns net' es) : net'.Named := by
  cases e with
  | configure n topic config =>
    obtain ⟨s, _, _, hs, hr, -⟩ := Exec.returns_bind.1 h
    obtain ⟨rfl, -⟩ := Exec.returns_pure.1 hr
    obtain ⟨_, hs', -⟩ := Exec.returns_embed.1 hs
    refine hn.set ?_
    rw [(Hyperswarm.configure_returns hs').1]
    exact hn n
  | handleConfigure n topic config =>
    obtain ⟨s, _, _, hs, hr, -⟩ := Exec.returns_bind.1 h
    obtain ⟨rfl, -⟩ := Exec.returns_pure.1 hr
    obtain ⟨c, -, rfl, -⟩ := Hyperswarm.handleConfigure_returns.1 hs
    exact hn.set (hn n)
  | discovery n i =>
    obtain ⟨rfl, -⟩ := Exec.returns_pure.1 h
    exact hn.set (hn n)
  | poll n =>
    obtain ⟨⟨r, s⟩, _, _, hs, hr, -⟩ := Exec.returns_bind.1 h
    obtain ⟨rfl, -⟩ := Exec.returns_pure.1 hr
    obtain ⟨_, hs', -⟩ := Exec.returns_embed.1 hs
    have hset : (net.set n s).Named := hn.set (pollNext_named (hn n) hs')
    exact fun m => hset m
  | link n p index source =>
    obtain ⟨rfl, -⟩ := Exec.returns_pure.1 h
    exact hn.link n p index source
  | fault n f =>
    obtain ⟨rfl, -⟩ := Exec.returns_pure.1 h
    exact hn.act fun port x ha => CombinedTransport.arrival_fault_some ha

omit [DecidableEq ι] in
theorem bind_named (discovery : ι → D) (localAddr : ι → SocketAddr) :
    (bind discovery localAddr).Named := by
  refine fun n => ⟨CombinedTransport.bind_live _ _, ?_⟩
  rintro ⟨p, b⟩
  cases p <;> cases b <;> exact List.not_mem_nil

theorem poll_nodes {owner : SocketAddr → Option ι} {net net' : Network ι D} {n : ι}
    {es : List (ι × SwarmEffect δ TransportEffect)}
    (h : (net.step owner (.poll n : NetworkEvent ι ιD)).Returns net' es) (m : ι) :
    ∃ trm, (run Hyperswarm.step (net.nodes m) (List.replicate ([n].count m)
      (.poll : SwarmEvent ιD TransportInput))).Returns (net'.nodes m) trm := by
  obtain ⟨⟨r, s⟩, _, _, hs, hr, -⟩ := Exec.returns_bind.1 h
  obtain ⟨rfl, -⟩ := Exec.returns_pure.1 hr
  obtain ⟨es', hs', -⟩ := Exec.returns_embed.1 hs
  change ∃ trm, Exec.Returns _ ((net.set n s).nodes m) trm
  rcases eq_or_ne m n with rfl | hm
  · rw [List.count_singleton_self, set_self]
    exact ⟨_, run_one (returns_observed.2 ⟨r, es', hs', rfl⟩)⟩
  · rw [List.count_singleton, beq_false_of_ne hm.symm, set_other _ _ hm]
    exact ⟨[], Exec.pure_returns _⟩

/-- In a run of polls, each node takes its own, in whichever order those of the others come. -/
theorem polls_nodes {owner : SocketAddr → Option ι} {net net' : Network ι D} {order : List ι}
    {tr : List (ι × SwarmEffect δ TransportEffect)}
    (h : (run (step owner) net (order.map (.poll : ι → NetworkEvent ι ιD))).Returns net' tr)
    (m : ι) : ∃ trm, (run Hyperswarm.step (net.nodes m) (List.replicate (order.count m)
      (.poll : SwarmEvent ιD TransportInput))).Returns (net'.nodes m) trm := by
  induction order generalizing net tr with
  | nil =>
    obtain ⟨rfl, -⟩ := returns_run_nil.1 h
    exact ⟨[], Exec.pure_returns _⟩
  | cons n order ih =>
    obtain ⟨net₁, _, _, hs, hr, -⟩ := returns_run_cons.1 h
    obtain ⟨tr₁, h₁⟩ := poll_nodes hs m
    obtain ⟨tr₂, h₂⟩ := ih hr
    refine ⟨tr₁ ++ tr₂, ?_⟩
    rw [← List.singleton_append, List.count_append, List.replicate_add]
    exact returns_run_append.2 ⟨_, _, _, h₁, h₂, rfl⟩

end Step

theorem polls_halt (owner : SocketAddr → Option ι) {net : Network ι CombinedDiscovery}
    {order : List ι} (hd : ∀ n ∈ order, (net.nodes n).Drainable) :
    (run (step owner) net (order.map .poll)).Halts := by
  induction order generalizing net with
  | nil => exact Exec.halts_pure _
  | cons n order ih =>
    obtain ⟨r, s, es, hp⟩ := (hd n List.mem_cons_self).poll_returns
    have hs : (net.step owner (.poll n)).Returns ((net.set n s).deliver n (handed r))
        (es.map (n, ·) ++ []) := (hp.returns.embed _).of_bind (Exec.pure_returns _)
    refine hs.halts_bind (ih fun m hm => ?_)
    change ((net.set n s).nodes m).Drainable
    rcases eq_or_ne m n with rfl | hne
    · rw [set_self]
      exact (hp.progress (hd m List.mem_cons_self)).1.drainable
    · rw [set_other _ _ hne]
      exact hd m (List.mem_cons_of_mem _ hm)

omit [DecidableEq ι] in
theorem not_waiting {net : Network ι CombinedDiscovery} {l : Link ι} (hn : l.node b = n)
    (h : (net.nodes n).AtRest) : ¬ net.Waiting l b := by
  intro hw
  rw [Waiting, hn, CombinedTransport.undelivered, h.transport] at hw
  cases hw

omit [DecidableEq ι] in
theorem WellLinked.shared {net : Network ι CombinedDiscovery} (hs : WellLinked owner net)
    (hl : l ∈ net.links) (hi : (net.nodes l.initiator).AtRest)
    (hr : (net.nodes l.responder).AtRest) : net.Delivered l false ∧
      ∃ l' ∈ net.links, l'.initiator = l.initiator ∧ l'.responder = l.responder ∧
        l'.dialled = l.dialled ∧ net.Delivered l' true ∧ net.Delivered l' false := by
  have hend : ∀ l' ∈ net.links, l'.responder = l.responder → net.Delivered l' false := by
    intro l' hl' he
    rcases hs.held l' hl' false with hh | ⟨hb, -⟩
    · exact hh.resolve_right (not_waiting he hr)
    · cases hb
  refine ⟨hend l hl rfl, ?_⟩
  rcases hs.held l hl true with hh | ⟨-, ha⟩
  · exact ⟨l, hl, rfl, rfl, rfl, hh.resolve_right (not_waiting rfl hi), hend l hl rfl⟩
  · obtain ⟨l', hl', hn, hd, hdel⟩ := hs.connected ha
    have ho := hs.owned l' hl'
    rw [hd, hs.owned l hl, Option.some.injEq] at ho
    exact ⟨l', hl', hn, ho.symm, hd, hdel, hend l' hl' ho.symm⟩

section Runs

variable {dht : ι → Source HyperDhtEvent} {announcer : ι → Source Unit}
  {locator : ι → Source (List UInt8 × SocketAddr)} {localAddr : ι → SocketAddr}
  {owner : SocketAddr → Option ι} {is : List (NetworkEvent ι CombinedInput)}
  {net : Network ι CombinedDiscovery}
  {tr : List (ι × SwarmEffect CombinedEffect TransportEffect)}

theorem run_drainable
    (h : (run (step owner) (bindAll dht announcer locator localAddr) is).Returns net tr)
    (he : (net.nodes n).discovery.dht.state.ended = false) : (net.nodes n).Drainable := by
  obtain ⟨events, trn, hr, -⟩ := run_swarm h n
  have hn : net.Named := run_invariant (bind_named _ localAddr) step_named h
  obtain ⟨ds, trd, hd⟩ := Hyperswarm.run_discovers hr
  refine ⟨?_, he, (CombinedDiscovery.run_merges hd.run).2, (hn n).2⟩
  have hs := Hyperswarm.bindAll_sound { localAddr := localAddr n } {} (dht n) (announcer n)
    (locator n)
  exact run_invariant hs Hyperswarm.step_sound hr

/-- Whatever a run has brought about, polling the nodes in any order, each often enough, returns, and
leaves every linked pair of nodes with a connection that both applications hold. -/
theorem run_delivers
    (h : (run (step owner) (bindAll dht announcer locator localAddr) is).Returns net tr)
    (order : List ι) (he : ∀ n ∈ order, (net.nodes n).discovery.dht.state.ended = false) :
    ∃ net' tr', (run (step owner) net (order.map .poll)).Returns net' tr' ∧
      (∀ n, (net.nodes n).weight < order.count n → (net'.nodes n).AtRest) ∧
      ∀ l ∈ net.links, (net.nodes l.initiator).weight < order.count l.initiator →
        (net.nodes l.responder).weight < order.count l.responder → net'.Delivered l false ∧
          ∃ l' ∈ net'.links, l'.initiator = l.initiator ∧ l'.responder = l.responder ∧
            l'.dialled = l.dialled ∧ net'.Delivered l' true ∧ net'.Delivered l' false := by
  have hd : ∀ n ∈ order, (net.nodes n).Drainable := fun n hn => run_drainable h (he n hn)
  obtain ⟨net', tr', hr⟩ := polls_halt owner hd
  have hrest : ∀ n, (net.nodes n).weight < order.count n → (net'.nodes n).AtRest := by
    intro n hw
    have hm : n ∈ order := List.count_pos_iff.1 (Nat.zero_lt_of_lt hw)
    obtain ⟨s, trn, hrun, hat, -⟩ := (hd n hm).comes_to_rest hw
    obtain ⟨trn', hrun'⟩ := polls_nodes hr n
    rw [(hrun'.unique hrun).1]
    exact hat
  have hs : WellLinked owner net := run_wellLinked h
  have hs' : WellLinked owner net' := run_invariant hs step_wellLinked hr
  refine ⟨net', tr', hr, hrest, fun l hl hi hr' => ?_⟩
  exact hs'.shared (run_held (b := true) hs hr hl).1 (hrest _ hi) (hrest _ hr')

end Runs

theorem run_delivers_both_protocols :
    let events := [Party.alice.finds .bob, .poll .alice, .link .alice .tcp 0 (loopback 4001),
      .link .alice .utp 0 (loopback 4002)]
    let order := [Party.bob, .alice, .alice, .bob, .alice, .bob]
    ∃ net tr, (run (step Party.owner) Party.network events).Returns net tr ∧
      ∃ net' tr', (run (step Party.owner) net (order.map .poll)).Returns net' tr' ∧
        net.links.length = 2 ∧ ∀ l ∈ net.links, net'.Shared l.initiator l.responder := by
  intro events order
  have hc : (run (step Party.owner) Party.network events).check (fun net _ =>
      (∀ n, (net.nodes n).discovery.dht.state.ended = false) ∧ net.links.length = 2 ∧
        ∀ n, (net.nodes n).weight < order.count n) := by
    decide +kernel
  obtain ⟨net, tr, hr, hp⟩ := Exec.exists_of_check hc
  obtain ⟨he, hl, hw⟩ := of_decide_eq_true hp
  obtain ⟨net', tr', hr', -, hd⟩ := run_delivers hr order fun n _ => he n
  refine ⟨net, tr, hr, net', tr', hr', hl, fun l hl => ?_⟩
  obtain ⟨-, l', hl', hi, hm, -, ht, hf⟩ := hd l hl (hw _) (hw _)
  exact ⟨l', hl', hi, hm, ht, hf⟩

end Network

end HyperswarmRs
