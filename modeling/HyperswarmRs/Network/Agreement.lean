import HyperswarmRs.Network.WellLinked
import HyperswarmRs.Discovery.Combined

namespace HyperswarmRs
open Async
set_option autoImplicit true

inductive Party where
  | alice
  | bob
  deriving DecidableEq, Repr

namespace Party

def addr : Party → SocketAddr
  | .alice => loopback 4000
  | .bob => loopback 5000

def owner (a : SocketAddr) : Option Party :=
  if a = alice.addr then some alice else if a = bob.addr then some bob else none

def finds (p q : Party) : NetworkEvent Party CombinedInput :=
  .discovery p (.dht (.push (.lookupResult ⟨⟨List.replicate 32 7, rfl⟩, [q.addr]⟩)))

def network : Network Party CombinedDiscovery :=
  .bind (fun p => .bind {} {} {} p.addr.port) addr

end Party

namespace Network

/-- The initiator of every connection that a node has accepted and handed to its application has
handed on its own end, or not polled it yet. -/
def Agrees (net : Network ι D) : Prop :=
  ∀ n, ∀ conn ∈ net.apps n, conn.isInitiator = false →
    ∃ l ∈ net.links, l.responder = n ∧ l.half false = conn ∧ net.Held l true

theorem agrees_of_held {net : Network ι D} (hs : WellLinked owner net)
    (hk : ∀ l ∈ net.links, net.Held l true) : net.Agrees := by
  intro n conn hm hi
  obtain ⟨l, hl, hn, he⟩ := hs.apps hm
  rw [hi] at hn he
  exact ⟨l, hl, hn, he, hk l hl⟩

theorem Agrees.held {net : Network ι D} (h : net.Agrees) (hs : WellLinked owner net)
    (hd : ∀ l ∈ net.links, ¬ net.Waiting l false) : ∀ l ∈ net.links, net.Held l true := by
  intro l hl
  rcases hs.held l hl false with hh | ⟨hb, -⟩
  · obtain ⟨l', hl', -, he, hh'⟩ := h _ _ (hh.resolve_right (hd l hl)) (Link.half_isInitiator l false)
    rw [← hs.eq_of_id hl' hl (Link.half_inj he).1]
    exact hh'
  · cases hb

def Shared (net : Network ι D) (n m : ι) : Prop :=
  ∃ l ∈ net.links, l.initiator = n ∧ l.responder = m ∧ net.Delivered l true ∧ net.Delivered l false

instance (net : Network ι D) (l : Link ι) (b : Bool) : Decidable (net.Waiting l b) :=
  inferInstanceAs (Decidable (_ ∈ _))

instance (net : Network ι D) (l : Link ι) (b : Bool) : Decidable (net.Held l b) :=
  inferInstanceAs (Decidable (_ ∈ _ ∨ _ ∈ _))

section Runs

variable [DecidableEq ι] [Discovery D δ] [Environment D ιD] {owner : SocketAddr → Option ι}
  {discovery : ι → D} {localAddr : ι → SocketAddr} {events : List (NetworkEvent ι ιD)}

theorem run_wellLinked {net : Network ι D} {tr : List (ι × SwarmEffect δ TransportEffect)}
    (h : (run (step owner) (bind discovery localAddr) events).Returns net tr) :
    WellLinked owner net :=
  run_invariant (bind_wellLinked owner discovery localAddr) step_wellLinked h

theorem run_keeps {net : Network ι D} {tr : List (ι × SwarmEffect δ TransportEffect)}
    (hn : Along (step owner) (fun net e => ¬ net.Discards e) (bind discovery localAddr) events)
    (h : (run (step owner) (bind discovery localAddr) events).Returns net tr) :
    ∀ l ∈ net.links, net.Held l true := by
  have hs : WellLinked owner net ∧ ∀ l ∈ net.links, net.Held l true := by
    apply run_history (P := fun _ _ net => WellLinked owner net ∧ ∀ l ∈ net.links, net.Held l true)
      ?_ ?_ hn h
    · exact ⟨bind_wellLinked owner discovery localAddr, fun l hl => by cases hl⟩
    · intro is tr net e net' es hp hd hr
      exact ⟨step_wellLinked hp.1 hr, step_keeps hp.1 hr hp.2 hd⟩
  exact hs.2

/-- A run in which no poll discards a connection keeps the nodes in agreement, and once all accepted
connections are delivered, they agree only after such a run. -/
theorem run_agrees (owner : SocketAddr → Option ι) (discovery : ι → D)
    (localAddr : ι → SocketAddr) (events : List (NetworkEvent ι ιD)) :
    let start : Network ι D := bind discovery localAddr
    let keeps := Along (step owner) (fun net e => ¬ net.Discards e) start events
    ∀ net (tr : List (ι × SwarmEffect δ TransportEffect)),
      (run (step owner) start events).Returns net tr →
        (keeps → net.Agrees) ∧
        ((∀ l ∈ net.links, ¬ net.Waiting l false) → net.Agrees → keeps) := by
  intro start keeps net tr h
  have hs := run_wellLinked h
  refine ⟨fun hn => agrees_of_held hs (run_keeps hn h), fun hd ha => ?_⟩
  exact along_of_held (bind_wellLinked owner discovery localAddr) h (ha.held hs hd)

theorem run_agrees_one_link :
    let events := [Party.alice.finds .bob, .poll .alice, .link .alice .tcp 0 (loopback 4001),
      .poll .alice, .poll .bob]
    ∃ net tr, (run (step Party.owner) Party.network events).Returns net tr ∧ net.Agrees ∧
      Along (step Party.owner) (fun net e => ¬ net.Discards e) Party.network events := by
  intro events
  have hc : (run (step Party.owner) Party.network events).check (fun net _ =>
      ∀ l ∈ net.links, net.Held l true ∧ ¬ net.Waiting l false) := by
    decide +kernel
  obtain ⟨net, tr, hr, hp⟩ := Exec.exists_of_check hc
  have hh := of_decide_eq_true hp
  have hk := along_of_held (bind_wellLinked Party.owner _ Party.addr) hr fun l hl => (hh l hl).1
  exact ⟨net, tr, hr, (run_agrees _ _ _ events net tr hr).1 hk, hk⟩

/-- Alice reaches Bob over both protocols and skips the second connection, of which Bob is handed
the other end. -/
theorem skipped_connection_is_handed_on :
    let events := [Party.alice.finds .bob, .poll .alice, .link .alice .tcp 0 (loopback 4001),
      .link .alice .utp 0 (loopback 4002), .poll .alice, .poll .alice, .poll .bob, .poll .bob]
    ∃ net tr, (run (step Party.owner) Party.network events).Returns net tr ∧ ¬ net.Agrees := by
  intro events
  have hc : (run (step Party.owner) Party.network events).check (fun net _ =>
      ∃ conn ∈ net.apps .bob, conn.isInitiator = false ∧
        ∀ l ∈ net.links, l.half false = conn → ¬ net.Held l true) := by
    decide +kernel
  obtain ⟨net, tr, hr, hp⟩ := Exec.exists_of_check hc
  obtain ⟨conn, hm, hi, hn⟩ := of_decide_eq_true hp
  refine ⟨net, tr, hr, fun ha => ?_⟩
  obtain ⟨l, hl, -, he, hh⟩ := ha .bob conn hm hi
  exact hn l hl he hh

/-- The other end of an initiated connection that was handed on is never skipped; a node that has
taken a completed connect has handed on a connection to the same node; and once the accept queue
of that node is empty, both hold one. -/
theorem run_keeps_a_link {net : Network ι D} {tr : List (ι × SwarmEffect δ TransportEffect)}
    (h : (run (step owner) (bind discovery localAddr) events).Returns net tr) :
    (∀ n, ∀ conn ∈ net.apps n, conn.isInitiator = true →
      ∃ l ∈ net.links, l.initiator = n ∧ l.half true = conn ∧ net.Held l false) ∧
    ∀ l ∈ net.links, ¬ net.Waiting l true →
      (∃ l' ∈ net.links, l'.initiator = l.initiator ∧ l'.responder = l.responder ∧
        net.Delivered l' true ∧ net.Held l' false) ∧
      ((∀ l' ∈ net.links, l'.responder = l.responder → ¬ net.Waiting l' false) →
        net.Shared l.initiator l.responder) := by
  have hs := run_wellLinked h
  have hr : ∀ l ∈ net.links, net.Held l false := by
    intro l hl
    rcases hs.held l hl false with hh | ⟨hb, -⟩
    · exact hh
    · cases hb
  refine ⟨?_, fun l hl hw => ?_⟩
  · intro n conn hm hi
    obtain ⟨l, hl, hn, he⟩ := hs.apps hm
    rw [hi] at hn he
    exact ⟨l, hl, hn, he, hr l hl⟩
  · have hkept : ∃ l' ∈ net.links, l'.initiator = l.initiator ∧ l'.responder = l.responder ∧
        net.Delivered l' true := by
      rcases hs.held l hl true with hh | ⟨-, ha⟩
      · exact ⟨l, hl, rfl, rfl, hh.resolve_right hw⟩
      · obtain ⟨l', hl', hn, hd, hdel⟩ := hs.connected ha
        refine ⟨l', hl', hn, ?_, hdel⟩
        have ho := hs.owned l' hl'
        rw [hd, hs.owned l hl] at ho
        exact (Option.some.inj ho).symm
    obtain ⟨l', hl', hn, hm, hd⟩ := hkept
    refine ⟨⟨l', hl', hn, hm, hd, hr l' hl'⟩, fun he => ?_⟩
    exact ⟨l', hl', hn, hm, hd, (hr l' hl').resolve_right (he l' hl' hm)⟩

theorem run_keeps_a_link_simultaneous_open :
    let events := [Party.alice.finds .bob, Party.bob.finds .alice, .poll .alice, .poll .bob,
      .link .alice .tcp 0 (loopback 4001), .link .bob .tcp 0 (loopback 5001),
      .link .alice .utp 0 (loopback 4002), .link .bob .utp 0 (loopback 5002), .poll .alice,
      .poll .bob, .poll .alice, .poll .bob, .poll .alice, .poll .bob, .poll .alice, .poll .bob]
    ∃ net tr, (run (step Party.owner) Party.network events).Returns net tr ∧
      net.Shared .alice .bob ∧ net.Shared .bob .alice := by
  intro events
  have hc : (run (step Party.owner) Party.network events).check (fun net _ =>
      (∃ l ∈ net.links, l.initiator = .alice ∧ l.responder = .bob ∧ ¬ net.Waiting l true) ∧
      (∃ l ∈ net.links, l.initiator = .bob ∧ l.responder = .alice ∧ ¬ net.Waiting l true) ∧
      ∀ l ∈ net.links, ¬ net.Waiting l false) := by
    decide +kernel
  obtain ⟨net, tr, hr, hp⟩ := Exec.exists_of_check hc
  obtain ⟨⟨l, hl, hn, hm, hw⟩, ⟨l', hl', hn', hm', hw'⟩, he⟩ := of_decide_eq_true hp
  have hk := (run_keeps_a_link hr).2
  refine ⟨net, tr, hr, ?_, ?_⟩
  · rw [← hn, ← hm]
    exact (hk l hl hw).2 fun l'' hl'' _ => he l'' hl''
  · rw [← hn', ← hm']
    exact (hk l' hl' hw').2 fun l'' hl'' _ => he l'' hl''

end Runs

end Network

end HyperswarmRs
