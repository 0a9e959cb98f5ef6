import HyperswarmRs.Network.Basic
import HyperswarmRs.Swarm.Polling
import HyperswarmRs.Async.Trace

namespace HyperswarmRs
open Async
set_option autoImplicit true

/-- What a node does itself, or its discovery meets; not what the network does at its transport. -/
def SwarmEvent.own? : SwarmEvent ιD ιT → Option (SwarmEvent ιD ιT)
  | .transport _ => none
  | e => some e

namespace NetworkEvent

variable [DecidableEq ι]

def own? (n : ι) : NetworkEvent ι ιD → Option (SwarmEvent ιD TransportInput)
  | .configure m topic config => if m = n then some (.configure topic config) else none
  | .handleConfigure m topic config => if m = n then some (.handleConfigure topic config) else none
  | .discovery m i => if m = n then some (.discovery i) else none
  | .poll m => if m = n then some .poll else none
  | .link .. | .fault .. => none

end NetworkEvent

namespace Network

variable {ι D δ ιD : Type} [DecidableEq ι] [Discovery D δ] [Environment D ιD]

/-- The run that a node takes in a run of its network. -/
structure NodeRun (n : ι) (net : Network ι D) (is : List (NetworkEvent ι ιD))
    (tr : List (ι × SwarmEffect δ TransportEffect)) (net' : Network ι D)
    (events : List (SwarmEvent ιD TransportInput)) (trn : List (SwarmObs δ TransportEffect)) :
    Prop where
  run : (Async.run Hyperswarm.step (net.nodes n) events).Returns (net'.nodes n) trn
  effects : effects trn = part n tr
  apps : net'.apps n = net.apps n ++ (results trn).filterMap handed
  own : events.filterMap SwarmEvent.own? = is.filterMap (NetworkEvent.own? n)

theorem nodeRun_refl (n : ι) {net net' : Network ι D} (hn : net'.nodes n = net.nodes n)
    (ha : net'.apps n = net.apps n) {is : List (NetworkEvent ι ιD)}
    (hi : is.filterMap (NetworkEvent.own? n) = [])
    {tr : List (ι × SwarmEffect δ TransportEffect)} (ht : part n tr = []) :
    NodeRun n net is tr net' [] [] := by
  refine ⟨?_, ht.symm, ?_, hi.symm⟩
  · rw [hn]
    exact Exec.pure_returns _
  · rw [ha]
    exact (List.append_nil _).symm

theorem NodeRun.append {n : ι} {net net' net'' : Network ι D} {is is' : List (NetworkEvent ι ιD)}
    {tr tr' : List (ι × SwarmEffect δ TransportEffect)} (h : NodeRun n net is tr net' events trn)
    (h' : NodeRun n net' is' tr' net'' events' trn') :
    NodeRun n net (is ++ is') (tr ++ tr') net'' (events ++ events') (trn ++ trn') := by
  refine ⟨returns_run_append.2 ⟨_, _, _, h.run, h'.run, rfl⟩, ?_, ?_, ?_⟩
  · rw [effects_append, part_append, h.effects, h'.effects]
  · rw [h'.apps, h.apps, results_append, List.filterMap_append, List.append_assoc]
  · rw [List.filterMap_append, List.filterMap_append, h.own, h'.own]

theorem nodeRun_step {net net' : Network ι D} {m : ι} {e : NetworkEvent ι ιD}
    {e' : SwarmEvent ιD TransportInput} {tr' : List (SwarmObs δ TransportEffect)}
    (h : ((net.nodes m).step e').Returns (net'.nodes m) tr')
    (ha : net'.apps m = net.apps m ++ (results tr').filterMap handed)
    (ho : ∀ n ≠ m, net'.nodes n = net.nodes n ∧ net'.apps n = net.apps n)
    (he : ∀ n, e.own? n = if m = n then SwarmEvent.own? e' else none) (n : ι) :
    ∃ events trn, NodeRun n net [e] ((effects tr').map (m, ·)) net' events trn := by
  rcases eq_or_ne m n with rfl | hne
  · refine ⟨[e'], tr', run_one h, (part_self m _).symm, ha, ?_⟩
    rw [List.filterMap_cons, List.filterMap_cons, he, if_pos rfl]
    rfl
  · refine ⟨[], [], nodeRun_refl n (ho n hne.symm).1 (ho n hne.symm).2 ?_ (part_other hne _)⟩
    rw [List.filterMap_cons, he, if_neg hne]
    rfl

variable (δ ιD) in
theorem nodeRun_act (net : Network ι D) (m : ι) (i : TransportInput) (n : ι) :
    ∃ events trn, NodeRun n net ([] : List (NetworkEvent ι ιD))
      ([] : List (ι × SwarmEffect δ TransportEffect)) (net.act m i) events trn := by
  rcases eq_or_ne n m with rfl | hne
  · refine ⟨[.transport i], [], run_one ?_, rfl, (List.append_nil _).symm, rfl⟩
    rw [act, set_self]
    exact Exec.pure_returns _
  · exact ⟨[], [], nodeRun_refl n (set_other _ _ hne) rfl rfl rfl⟩

variable (δ ιD) in
theorem nodeRun_establish (net : Network ι D) (l : Link ι) (index : Nat) (n : ι) :
    ∃ events trn, NodeRun n net ([] : List (NetworkEvent ι ιD))
      ([] : List (ι × SwarmEffect δ TransportEffect)) (net.establish l index) events trn := by
  obtain ⟨events, trn, h⟩ := nodeRun_act δ ιD net l.initiator
    (l.connectInput index) n
  obtain ⟨events', trn', h'⟩ := nodeRun_act δ ιD
    (net.act l.initiator (l.connectInput index)) l.responder l.acceptInput n
  obtain ⟨hr, he, ha, ho⟩ := h.append h'
  exact ⟨_, _, hr, he, ha, ho⟩

variable (δ ιD) in
theorem nodeRun_link (owner : SocketAddr → Option ι) (net : Network ι D) (m : ι) (p : Protocol)
    (index : Nat) (source : SocketAddr) (n : ι) :
    ∃ events trn, NodeRun n net ([] : List (NetworkEvent ι ιD))
      ([] : List (ι × SwarmEffect δ TransportEffect)) (net.link owner m p index source) events trn := by
  have hsame : ∃ events trn, NodeRun n net ([] : List (NetworkEvent ι ιD))
      ([] : List (ι × SwarmEffect δ TransportEffect)) net events trn := ⟨[], [], nodeRun_refl n rfl rfl rfl rfl⟩
  rw [link]
  split
  · exact hsame
  · split
    · exact hsame
    · exact nodeRun_establish δ ιD net _ index n

theorem step_nodeRun {owner : SocketAddr → Option ι} {net net' : Network ι D}
    {e : NetworkEvent ι ιD} {es : List (ι × SwarmEffect δ TransportEffect)}
    (h : (net.step owner e).Returns net' es) (n : ι) :
    ∃ events trn, NodeRun n net [e] es net' events trn := by
  cases e with
  | configure m topic config =>
    obtain ⟨s, _, _, hs, hr, rfl⟩ := Exec.returns_bind.1 h
    obtain ⟨rfl, rfl⟩ := Exec.returns_pure.1 hr
    obtain ⟨es', hs', rfl⟩ := Exec.returns_embed.1 hs
    have hst : ((net.nodes m).step (.configure topic config)).Returns ((net.set m s).nodes m)
        (es'.map .effect) := by
      rw [set_self]
      exact hs'.embed Obs.effect
    have hrun := nodeRun_step hst (e := .configure m topic config) ?_
      (fun n hn => ⟨set_other _ _ hn, rfl⟩) (fun n => rfl) n
    · rw [List.append_nil]
      rwa [effects_map_effect] at hrun
    · rw [results_map_effect]
      exact (List.append_nil _).symm
  | handleConfigure m topic config =>
    obtain ⟨s, _, _, hs, hr, rfl⟩ := Exec.returns_bind.1 h
    obtain ⟨rfl, rfl⟩ := Exec.returns_pure.1 hr
    obtain ⟨c, hc, rfl, rfl⟩ := Hyperswarm.handleConfigure_returns.1 hs
    have hst : ((net.nodes m).step (.handleConfigure topic config)).Returns
        ((net.set m { net.nodes m with commands := c }).nodes m)
        ([] : List (SwarmObs δ TransportEffect)) := by
      rw [set_self]
      exact Hyperswarm.handleConfigure_returns.2 ⟨c, hc, rfl, rfl⟩
    exact nodeRun_step hst (e := .handleConfigure m topic config) (List.append_nil _).symm
      (fun n hn => ⟨set_other _ _ hn, rfl⟩) (fun n => rfl) n
  | discovery m i =>
    obtain ⟨rfl, rfl⟩ := Exec.returns_pure.1 h
    have hst : ((net.nodes m).step (.discovery i : SwarmEvent ιD TransportInput)).Returns
        ((net.set m { net.nodes m with
          discovery := Environment.act (net.nodes m).discovery i }).nodes m)
        ([] : List (SwarmObs δ TransportEffect)) := by
      rw [set_self]
      exact Exec.pure_returns _
    exact nodeRun_step hst (e := .discovery m i) (List.append_nil _).symm
      (fun n hn => ⟨set_other _ _ hn, rfl⟩) (fun n => rfl) n
  | poll m =>
    obtain ⟨⟨r, s⟩, _, _, hs, hr, rfl⟩ := Exec.returns_bind.1 h
    obtain ⟨rfl, rfl⟩ := Exec.returns_pure.1 hr
    obtain ⟨es', hs', rfl⟩ := Exec.returns_embed.1 hs
    have hst : ((net.nodes m).step (.poll : SwarmEvent ιD TransportInput)).Returns
        (((net.set m s).deliver m (handed r)).nodes m) (es'.map .effect ++ [.returned r]) := by
      change Exec.Returns _ ((net.set m s).nodes m) _
      rw [set_self]
      exact returns_observed.2 ⟨r, es', hs', rfl⟩
    have hrun := nodeRun_step hst (e := .poll m) ?_
      (fun n hn => ⟨set_other _ _ hn, deliver_other _ _ hn⟩) (fun n => rfl) n
    · rw [List.append_nil]
      rwa [effects_returns] at hrun
    · rw [deliver_self, results_returns, List.filterMap_cons, List.filterMap_nil]
      cases handed r <;> rfl
  | link m p index source =>
    obtain ⟨rfl, rfl⟩ := Exec.returns_pure.1 h
    obtain ⟨events, trn, hrun⟩ := nodeRun_link δ ιD owner net m p index source n
    exact ⟨events, trn, hrun.run, hrun.effects, hrun.apps, hrun.own⟩
  | fault m f =>
    obtain ⟨rfl, rfl⟩ := Exec.returns_pure.1 h
    obtain ⟨events, trn, hrun⟩ := nodeRun_act δ ιD net m f.input n
    exact ⟨events, trn, hrun.run, hrun.effects, hrun.apps, hrun.own⟩

/-- Every run of a network is a run of each of its nodes. -/
theorem run_nodeRun {owner : SocketAddr → Option ι} {net net' : Network ι D}
    {is : List (NetworkEvent ι ιD)} {tr : List (ι × SwarmEffect δ TransportEffect)}
    (h : (run (step owner) net is).Returns net' tr) (n : ι) :
    ∃ events trn, NodeRun n net is tr net' events trn := by
  apply run_composes (R := fun net is tr net' => ∃ events trn, NodeRun n net is tr net' events trn)
    (fun net => ⟨[], [], nodeRun_refl n rfl rfl rfl rfl⟩) ?_ (fun hs => step_nodeRun hs n) h
  rintro net is tr net' is' tr' net'' ⟨events, trn, h⟩ ⟨events', trn', h'⟩
  exact ⟨_, _, h.append h'⟩

end Network

end HyperswarmRs
