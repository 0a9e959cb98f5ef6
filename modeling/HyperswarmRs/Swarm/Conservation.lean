import HyperswarmRs.Swarm.Polling
import HyperswarmRs.Transport.Polling
import HyperswarmRs.Discovery.Dht

namespace HyperswarmRs
open Async
set_option autoImplicit true

def errorOf : IoResult α → Option IoError
  | .error e => some e
  | .ok _ => none

def found (es : List (SwarmEffect δ τ)) : List (IoResult PeerInfo) :=
  (es.filterMap SwarmEffect.discovery?).filterMap Poll.item

def delivered (es : List (SwarmEffect δ τ)) : List Item :=
  (es.filterMap SwarmEffect.transport?).filterMap Poll.item

def tcpDials (es : List (SwarmEffect δ TransportEffect)) : List SocketAddr :=
  (es.filterMap SwarmEffect.ofTransport?).filterMap TransportEffect.tcpDial?

def utpDials (es : List (SwarmEffect δ TransportEffect)) : List SocketAddr :=
  (es.filterMap SwarmEffect.ofTransport?).filterMap TransportEffect.utpDial?

/-- What a run has consumed, dialled and yielded agrees. -/
structure Conserves (es : List (SwarmEffect δ TransportEffect)) (rs : List (Poll (Option Item))) :
    Prop where
  tcp : tcpDials es = (found es).filterMap fun x => x.toOption.map PeerInfo.addr
  utp : utpDials es = (found es).filterMap fun x => x.toOption.map PeerInfo.addr
  connections : (rs.filterMap Poll.item).filterMap Except.toOption =
    (delivered es).filterMap Except.toOption
  errors : (rs.filterMap Poll.item).filterMap errorOf = (found es).filterMap errorOf
  noEnd : .ready none ∉ rs

theorem conserves_nil : Conserves ([] : List (SwarmEffect δ TransportEffect)) [] :=
  ⟨rfl, rfl, rfl, rfl, List.not_mem_nil⟩

theorem Conserves.append {es es' : List (SwarmEffect δ TransportEffect)} (h : Conserves es rs)
    (h' : Conserves es' rs') : Conserves (es ++ es') (rs ++ rs') := by
  have hf : found (es ++ es') = found es ++ found es' := by
    rw [found, List.filterMap_append, List.filterMap_append, found, found]
  have hd : delivered (es ++ es') = delivered es ++ delivered es' := by
    rw [delivered, List.filterMap_append, List.filterMap_append, delivered, delivered]
  refine ⟨?_, ?_, ?_, ?_, ?_⟩
  · rw [hf, List.filterMap_append, ← h.tcp, ← h'.tcp, tcpDials, List.filterMap_append,
      List.filterMap_append, tcpDials, tcpDials]
  · rw [hf, List.filterMap_append, ← h.utp, ← h'.utp, utpDials, List.filterMap_append,
      List.filterMap_append, utpDials, utpDials]
  · rw [hd, List.filterMap_append, List.filterMap_append, h.connections, h'.connections,
      List.filterMap_append]
  · rw [hf, List.filterMap_append, List.filterMap_append, h.errors, h'.errors,
      List.filterMap_append]
  · rw [List.mem_append]
    exact fun hm => hm.elim h.noEnd h'.noEnd

theorem conserves_of_reply {es : List (SwarmEffect δ TransportEffect)}
    (h : SwarmEffect.Reads es [next] [res] effs)
    (ht : effs.filterMap TransportEffect.tcpDial? =
      (next.item.bind fun x => x.toOption.map PeerInfo.addr).toList)
    (hu : effs.filterMap TransportEffect.utpDial? =
      (next.item.bind fun x => x.toOption.map PeerInfo.addr).toList)
    (he : next.item.bind errorOf = none) : Conserves es [reply res] := by
  have hf : ∀ {β} (g : IoResult PeerInfo → Option β),
      (found es).filterMap g = (next.item.bind g).toList := by
    intro β g
    rw [found, h.discovery, filterMap_item]
    cases next.item with
    | none => rfl
    | some x =>
      rw [Option.toList_some, List.filterMap_cons, List.filterMap_nil, Option.bind_some]
      cases g x <;> rfl
  refine ⟨?_, ?_, ?_, ?_, ?_⟩
  · rw [hf, ← ht, tcpDials, h.ofTransport]
  · rw [hf, ← hu, utpDials, h.ofTransport]
  · rw [delivered, h.transport, filterMap_item, filterMap_item, reply_item]
    rcases res with _ | _ | _ | conn <;> rfl
  · rw [hf, he, filterMap_item, reply_item]
    cases handed res <;> rfl
  · rw [List.mem_singleton]
    exact (Poll.ofItem_ne_end _).symm

namespace Hyperswarm

variable [Discovery D δ] [Environment D ιD]

theorem Polled.conserves {s s' : Hyperswarm D CombinedTransport}
    {es : List (SwarmEffect δ TransportEffect)} (h : Polled s r s' es) : Conserves es [r] := by
  cases h with
  | failed s₁ hs hd =>
    have hr := reads_failed (pollCommands_drains hs).effects
    refine ⟨?_, ?_, ?_, ?_, ?_⟩
    · rw [tcpDials, (hr _ _).ofTransport, found, (hr _ _).discovery]
      rfl
    · rw [utpDials, (hr _ _).ofTransport, found, (hr _ _).discovery]
      rfl
    · rw [delivered, (hr _ _).transport]
      rfl
    · rw [found, (hr _ _).discovery]
      rfl
    · rw [List.mem_singleton]
      exact fun he => by cases he
  | quiet s₁ hs hd hn ht =>
    obtain ⟨ht', hu'⟩ := (CombinedTransport.pollNext_cases ht).no_dial
    apply conserves_of_reply (reads_quiet (pollCommands_drains hs).effects _ _ _ _)
    · rw [ht', hn]
      rfl
    · rw [hu', hn]
      rfl
    · rw [hn]
      rfl
  | dialled s₁ hs hd ht ht' =>
    obtain ⟨hdt, hdu⟩ := (CombinedTransport.pollNext_cases ht').no_dial
    cases ht
    apply conserves_of_reply (reads_dialled (pollCommands_drains hs).effects _ _ _ _ _ _)
    · rw [List.filterMap_append, hdt]
      rfl
    · rw [List.filterMap_append, hdu]
      rfl
    · rfl

end Hyperswarm

end HyperswarmRs
