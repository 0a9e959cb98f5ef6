import HyperswarmRs.Network.Basic
import HyperswarmRs.Swarm.Taking

namespace HyperswarmRs
open Async
set_option autoImplicit true

namespace CombinedTransport

theorem act_undelivered {self : CombinedTransport} (hl : self.Live)
    (h : self.arrival i = some (port, some (.ok conn))) (port' : Port) :
    (self.act i).undelivered port' =
      self.undelivered port' ++ if port = port' then [conn] else [] := by
  rw [undelivered, act_waiting hl h, List.filterMap_append, undelivered]
  split <;> rfl

theorem act_undelivered_of_no_connection {self : CombinedTransport} (hl : self.Live)
    (h : ∀ port x, self.arrival i = some (port, x) → x.bind Except.toOption = none)
    (port' : Port) : (self.act i).undelivered port' = self.undelivered port' := by
  cases ha : self.arrival i with
  | none => rw [undelivered, act_of_no_arrival ha, undelivered]
  | some t =>
    obtain ⟨port, x⟩ := t
    have hx := h port x ha
    rw [undelivered, act_waiting hl ha, List.filterMap_append, undelivered]
    split
    · rw [List.filterMap_cons, hx]
      exact List.append_nil _
    · exact List.append_nil _

theorem arrival_fault (self : CombinedTransport) (f : TransportFault) (port : Port)
    (x : Option Item) (h : self.arrival f.input = some (port, x)) :
    x.bind Except.toOption = none := by
  cases f with
  | connect p index err =>
    cases p <;>
    · simp only [TransportFault.input, arrival] at h
      split at h <;> cases h
      rfl
  | accept p err => cases p <;> cases h <;> rfl

theorem arrival_connect {self : CombinedTransport} {l : Link ι}
    (h : index < (self.inFlight l.protocol).length) :
    self.arrival (l.connectInput index) = some (l.port true, some (.ok (l.half true))) := by
  obtain ⟨id, n, m, p, dialled, source⟩ := l
  cases p <;> exact if_pos h

theorem arrival_accept (self : CombinedTransport) (l : Link ι) :
    self.arrival l.acceptInput = some (l.port false, some (.ok (l.half false))) := by
  obtain ⟨id, n, m, p, dialled, source⟩ := l
  cases p <;> rfl

end CombinedTransport

namespace Network

def Discards [Discovery D δ] (net : Network ι D) : NetworkEvent ι ιD → Prop
  | .poll n => (net.nodes n).Discards
  | _ => False

/-- Every node takes what it takes from its own sources, and no connection is made. -/
structure Advances (net net' : Network ι D) (y : ι → Option (Connection CombinedStream))
    (consumed : ι → Port → List (Connection CombinedStream)) : Prop where
  links : net'.links = net.links
  apps : ∀ n, net'.apps n = net.apps n ++ (y n).toList
  took : ∀ n, Took (net.nodes n).transport (net'.nodes n).transport (y n) (consumed n)

variable [DecidableEq ι]

/-- A connection is made, whose ends become ready at their nodes. -/
structure Establishes (owner : SocketAddr → Option ι) (net net' : Network ι D) (l : Link ι) :
    Prop where
  links : net'.links = net.links ++ [l]
  id : l.id = net.links.length
  owned : owner l.dialled = some l.responder
  apps : net'.apps = net.apps
  live : ∀ n, (net'.nodes n).transport.Live
  connected : ∀ n, (net'.nodes n).transport.connected = (net.nodes n).transport.connected
  undelivered : ∀ n port, (net'.nodes n).transport.undelivered port =
    (net.nodes n).transport.undelivered port ++
      if l.node port.isInitiator = n ∧ l.port port.isInitiator = port then
        [l.half port.isInitiator] else []

theorem advances_quiet {net : Network ι D} {s : Hyperswarm D CombinedTransport}
    (hl : (net.nodes n).transport.Live → s.transport.Live)
    (hu : ∀ port, s.transport.undelivered port = (net.nodes n).transport.undelivered port)
    (hc : s.transport.connected = (net.nodes n).transport.connected) :
    Advances net (net.set n s) (fun _ => none) fun _ _ => [] := by
  refine ⟨rfl, fun m => (List.append_nil _).symm, fun m => ?_⟩
  rcases eq_or_ne m n with rfl | hm
  · rw [set_self]
    exact took_nothing hl hu hc
  · rw [set_other net s hm]
    exact took_nothing id (fun _ => rfl) rfl

theorem advances_polled {net : Network ι D} {s : Hyperswarm D CombinedTransport}
    {consumed : Port → List (Connection CombinedStream)}
    (h : Took (net.nodes n).transport s.transport y consumed) :
    Advances net ((net.set n s).deliver n y) (Function.update (fun _ => none) n y)
      (Function.update (fun _ _ => []) n consumed) := by
  refine ⟨rfl, fun m => ?_, fun m => ?_⟩
  · rcases eq_or_ne m n with rfl | hm
    · rw [deliver_self, Function.update_self]
      rfl
    · rw [deliver_other _ y hm, Function.update_of_ne hm]
      exact (List.append_nil _).symm
  · change Took _ ((net.set n s).nodes m).transport _ _
    rcases eq_or_ne m n with rfl | hm
    · rw [set_self, Function.update_self, Function.update_self]
      exact h
    · rw [set_other net s hm, Function.update_of_ne hm, Function.update_of_ne hm]
      exact took_nothing id (fun _ => rfl) rfl

theorem act_nodes (net : Network ι D) (n m : ι) (i : TransportInput) :
    ((net.act n i).nodes m).transport =
      if m = n then (net.nodes m).transport.act i else (net.nodes m).transport := by
  split
  · next h =>
    subst h
    rw [act, set_self]
  · next h => rw [act, set_other _ _ h]

theorem act_live {net : Network ι D} (hl : ∀ n, (net.nodes n).transport.Live) (n : ι)
    (i : TransportInput) (m : ι) : ((net.act n i).nodes m).transport.Live := by
  rw [act_nodes]
  split
  · exact CombinedTransport.act_live (hl m) i
  · exact hl m

theorem act_connected (net : Network ι D) (n : ι) (i : TransportInput) (m : ι) :
    ((net.act n i).nodes m).transport.connected = (net.nodes m).transport.connected := by
  rw [act_nodes]
  split
  · exact CombinedTransport.act_connected _ i
  · rfl

theorem act_undelivered {net : Network ι D} (hl : (net.nodes n).transport.Live)
    (h : (net.nodes n).transport.arrival i = some (port, some (.ok conn))) (m : ι) (port' : Port) :
    ((net.act n i).nodes m).transport.undelivered port' =
      (net.nodes m).transport.undelivered port' ++
        if n = m ∧ port = port' then [conn] else [] := by
  rw [act_nodes]
  rcases eq_or_ne m n with rfl | hm
  · rw [if_pos rfl, CombinedTransport.act_undelivered hl h]
    simp only [true_and]
  · rw [if_neg hm, if_neg fun he => hm he.1.symm, List.append_nil]

theorem establish_establishes {owner : SocketAddr → Option ι} {net : Network ι D} {l : Link ι}
    (hl : ∀ n, (net.nodes n).transport.Live) (hid : l.id = net.links.length)
    (ho : owner l.dialled = some l.responder)
    (hi : index < ((net.nodes l.initiator).transport.inFlight l.protocol).length) :
    Establishes owner net (net.establish l index) l := by
  refine ⟨rfl, hid, ho, rfl, act_live (act_live hl _ _) _ _, fun n => ?_, fun n port => ?_⟩
  · exact (act_connected _ _ _ _).trans (act_connected _ _ _ _)
  · have hu := act_undelivered (act_live hl l.initiator (l.connectInput index) l.responder)
      (CombinedTransport.arrival_accept _ l) n port
    rw [act_undelivered (hl _) (CombinedTransport.arrival_connect hi)] at hu
    refine hu.trans ?_
    rw [List.append_assoc]
    congr 1
    obtain ⟨p, b⟩ := port
    cases b <;> simp [Link.node, Link.port]

inductive Stepped [Discovery D δ] (owner : SocketAddr → Option ι) (net : Network ι D)
    (e : NetworkEvent ι ιD) (net' : Network ι D) : Prop where
  | advance {consumed : ι → Port → List (Connection CombinedStream)} :
      Advances net net' y consumed →
      ((∃ n port, ∃ conn ∈ consumed n port, (net.nodes n).transport.Repeats conn) ↔
        net.Discards e) → Stepped owner net e net'
  | establish : ¬ net.Discards e → Establishes owner net net' l → Stepped owner net e net'

theorem stepped_quiet [Discovery D δ] {owner : SocketAddr → Option ι} {net net' : Network ι D}
    {e : NetworkEvent ι ιD} (h : Advances net net' (fun _ => none) fun _ _ => [])
    (he : ¬ net.Discards e) : Stepped owner net e net' := by
  refine .advance h ⟨?_, fun hd => (he hd).elim⟩
  rintro ⟨n, port, conn, hm, -⟩
  cases hm

theorem link_stepped [Discovery D δ] (owner : SocketAddr → Option ι) (net : Network ι D)
    (hl : ∀ n, (net.nodes n).transport.Live) (n : ι) (p : Protocol) (index : Nat)
    (source : SocketAddr) : Stepped owner net (.link n p index source : NetworkEvent ι ιD)
      (net.link owner n p index source) := by
  have hsame : Stepped owner net (.link n p index source : NetworkEvent ι ιD) net := by
    refine stepped_quiet ⟨rfl, fun _ => (List.append_nil _).symm, fun _ => ?_⟩ id
    exact took_nothing id (fun _ => rfl) rfl
  rw [link]
  split
  · exact hsame
  · next dialled hi =>
    split
    · exact hsame
    · next m ho =>
      exact .establish id (establish_establishes hl rfl ho (List.getElem?_eq_some_iff.1 hi).1)

theorem step_cases [Discovery D δ] [Environment D ιD] {owner : SocketAddr → Option ι}
    {net net' : Network ι D} {e : NetworkEvent ι ιD} {es : List (ι × SwarmEffect δ TransportEffect)}
    (hl : ∀ n, (net.nodes n).transport.Live) (h : (net.step owner e).Returns net' es) :
    Stepped owner net e net' := by
  cases e with
  | configure n topic config =>
    obtain ⟨s, _, _, hs, hr, -⟩ := Exec.returns_bind.1 h
    obtain ⟨rfl, -⟩ := Exec.returns_pure.1 hr
    obtain ⟨_, hs', -⟩ := Exec.returns_embed.1 hs
    have ht : s.transport = (net.nodes n).transport := by rw [(Hyperswarm.configure_returns hs').1]
    refine stepped_quiet (advances_quiet ?_ (fun port => ?_) ?_) id
    · rw [ht]
      exact id
    · rw [ht]
    · rw [ht]
  | handleConfigure n topic config =>
    obtain ⟨s, _, _, hs, hr, -⟩ := Exec.returns_bind.1 h
    obtain ⟨rfl, -⟩ := Exec.returns_pure.1 hr
    obtain ⟨c, -, rfl, -⟩ := Hyperswarm.handleConfigure_returns.1 hs
    exact stepped_quiet (advances_quiet id (fun _ => rfl) rfl) id
  | discovery n i =>
    obtain ⟨rfl, -⟩ := Exec.returns_pure.1 h
    exact stepped_quiet (advances_quiet id (fun _ => rfl) rfl) id
  | poll n =>
    obtain ⟨⟨r, s⟩, _, _, hs, hr, -⟩ := Exec.returns_bind.1 h
    obtain ⟨rfl, -⟩ := Exec.returns_pure.1 hr
    obtain ⟨_, hs', -⟩ := Exec.returns_embed.1 hs
    obtain ⟨consumed, ht, hd⟩ := (Hyperswarm.pollNext_cases hs').took
    refine .advance (advances_polled ht) (Iff.trans ⟨?_, ?_⟩ hd)
    · rintro ⟨m, port, conn, hm, hrep⟩
      rcases eq_or_ne m n with rfl | hne
      · rw [Function.update_self] at hm
        exact ⟨port, conn, hm, hrep⟩
      · rw [Function.update_of_ne hne] at hm
        cases hm
    · rintro ⟨port, conn, hm, hrep⟩
      refine ⟨n, port, conn, ?_, hrep⟩
      rw [Function.update_self]
      exact hm
  | link n p index source =>
    obtain ⟨rfl, -⟩ := Exec.returns_pure.1 h
    exact link_stepped owner net hl n p index source
  | fault n f =>
    obtain ⟨rfl, -⟩ := Exec.returns_pure.1 h
    refine stepped_quiet (advances_quiet ?_ (fun port => ?_) ?_) id
    · exact fun hl => CombinedTransport.act_live hl _
    · exact CombinedTransport.act_undelivered_of_no_connection (hl n)
        (CombinedTransport.arrival_fault _ f) port
    · exact CombinedTransport.act_connected _ _

end Network

end HyperswarmRs
