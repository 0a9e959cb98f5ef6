import HyperswarmRs.Discovery.Combined
import HyperswarmRs.Discovery.Polling

namespace HyperswarmRs
open Async
set_option autoImplicit true

namespace CombinedEffect

def dht? : CombinedEffect → Option DhtEffect
  | .dht e => some e
  | .mdns _ => none

def mdns? : CombinedEffect → Option MdnsEffect
  | .dht _ => none
  | .mdns e => some e

theorem filterMap_dht (es : List DhtEffect) : (es.map dht).filterMap dht? = es := by
  rw [List.filterMap_map]
  exact List.filterMap_some

theorem filterMap_mdns (es : List MdnsEffect) : (es.map mdns).filterMap mdns? = es := by
  rw [List.filterMap_map]
  exact List.filterMap_some

end CombinedEffect

namespace CombinedDiscovery

/-- The DHT is polled first, and the mDNS discovery only when the DHT is pending. -/
inductive Polled (d : CombinedDiscovery) : Poll (Option (IoResult PeerInfo)) →
    CombinedDiscovery → List CombinedEffect → Prop where
  | dht : d.dht.pollNext.Returns (.ready x, dht') es →
      Polled d (.ready x) { d with dht := dht' } (es.map .dht)
  | mdns : d.dht.pollNext.Returns (.pending, dht') es → d.mdns.pollNext.Returns (r, mdns') es' →
      Polled d r ⟨dht', mdns'⟩ (es.map .dht ++ es'.map .mdns)

theorem pollNext_polled {d d' : CombinedDiscovery} (h : d.pollNext.Returns (r, d') es) :
    Polled d r d' es := by
  obtain ⟨⟨q, dht'⟩, _, _, hd, hr, rfl⟩ := Exec.returns_bind.1 h
  obtain ⟨es₁, hd', rfl⟩ := Exec.returns_embed.1 hd
  cases q with
  | ready x =>
    cases hr
    rw [List.append_nil]
    exact .dht hd'
  | pending =>
    obtain ⟨⟨q, mdns'⟩, _, _, hm, hr', rfl⟩ := Exec.returns_bind.1 hr
    obtain ⟨es₂, hm', rfl⟩ := Exec.returns_embed.1 hm
    cases q <;>
      · cases hr'
        rw [List.append_nil]
        exact .mdns hd' hm'

theorem pollNext_cases {d d' : CombinedDiscovery} (h : d.pollNext.Returns (next, d') es) :
    ∃ r, DhtDiscovery.Looped d.dht r d'.dht (es.filterMap CombinedEffect.dht?) ∧
      (r = next ∧ d'.mdns = d.mdns ∨
        r = .pending ∧ ∃ es', d.mdns.pollNext.Returns (next, d'.mdns) es') := by
  cases pollNext_polled h with
  | dht hd =>
    rw [CombinedEffect.filterMap_dht]
    exact ⟨_, DhtDiscovery.pollLoop_cases hd, .inl ⟨rfl, rfl⟩⟩
  | mdns hd hm =>
    rw [List.filterMap_append, CombinedEffect.filterMap_dht, filterMap_map_none fun _ => rfl,
      List.append_nil]
    exact ⟨_, DhtDiscovery.pollLoop_cases hd, .inr ⟨rfl, _, hm⟩⟩

theorem pollNext_receiving {d d' : CombinedDiscovery} (hs : d.mdns.Receiving)
    (h : d.pollNext.Returns (next, d') es) : d'.mdns.Receiving := by
  obtain ⟨r, -, ⟨-, hm⟩ | ⟨-, es', hm⟩⟩ := pollNext_cases h
  · rw [hm]
    exact hs
  · exact MdnsDiscovery.pollNext_receiving hs hm

theorem pollNext_buffered {d : CombinedDiscovery} (h : d.dht.pendingEvents = peer :: rest) :
    d.pollNext.Returns (.ready (some (.ok peer)),
      { d with dht.pendingEvents := rest }) [] := by
  have hd : d.dht.pollNext.Returns (.ready (some (.ok peer)),
      { d.dht with pendingEvents := rest }) [] := by
    rw [DhtDiscovery.pollNext, DhtDiscovery.pollLoop.eq_def]
    simp only [h]
    rfl
  exact (hd.embed CombinedEffect.dht).of_bind (Exec.pure_returns _)

end CombinedDiscovery

end HyperswarmRs
