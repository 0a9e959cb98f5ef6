import HyperswarmRs.Chat.Delivery
import HyperswarmRs.Chat.Joined

namespace HyperswarmRs
open Async
set_option autoImplicit true

namespace ChatLink

variable {ν : Type} [DecidableEq ν] {k : ChatLink ν} {tr : List (ν × BroadcastEffect)}

/-- What the node at an end has had to say there. -/
def said (display : SocketAddr → String) (initial : ν → Message) (k : ChatLink ν)
    (tr : List (ν × BroadcastEffect)) (b : Bool) : List Message :=
  match k.index b with
  | none => []
  | some i => initial (k.link.node b) ::
      (listener i (k.peerId display b) (Async.part (k.link.node b) tr)).told

/-- What the node at an end has shown its users from there. -/
def heard (k : ChatLink ν) (tr : List (ν × BroadcastEffect)) (b : Bool) : List IncomingMessage :=
  match k.index b with
  | none => []
  | some i => incomingPart i (Async.part (k.link.node b) tr)

def KeepsHeaders (k : ChatLink ν) (tr : List (ν × BroadcastEffect)) (b : Bool) : Prop :=
  (k.trace tr b).flatMap LoopEffect.lost = []

instance : Decidable (k.KeepsHeaders tr b) := inferInstanceAs (Decidable (_ = _))

end ChatLink

namespace Chat

section Links

variable {ν : Type} [DecidableEq ν] {chat : Chat ν} {initial : ν → Message}
  {tr : List (ν × BroadcastEffect)} {k : ChatLink ν} {l : Nat}
  (h : Joined display initial tr chat) (hk : chat.links[l]? = some k) (b : Bool)

include h hk

theorem Joined.said : (k.trace tr b).filterMap LoopEffect.queued? = k.said display initial tr b := by
  rw [ChatLink.trace, ChatLink.said]
  cases hi : k.index b with
  | none => rfl
  | some i =>
    obtain ⟨t, ht, hid⟩ := h.known hk hi
    obtain ⟨events, hr⟩ := h.nodes (k.link.node b)
    have hq := ((HyperBroadcast.run_sound hr).accounts i t ht).queued
    rw [HyperBroadcast.run_initialMessage hr, hid] at hq
    exact hq

theorem Joined.heard : k.heard tr b = ((k.trace tr b).filterMap LoopEffect.received?).map
    (IncomingMessage.mk (k.peerId display b)) := by
  rw [ChatLink.heard, ChatLink.trace]
  cases hi : k.index b with
  | none => rfl
  | some i =>
    obtain ⟨t, ht, hid⟩ := h.known hk hi
    obtain ⟨events, hr⟩ := h.nodes (k.link.node b)
    have hq := ((HyperBroadcast.run_sound hr).accounts i t ht).incoming
    rw [hid] at hq
    exact hq

end Links

/-- In a chat of any number of nodes, what users are shown from a connection is the name of the
node at its other end, and then what was said there while this one was listed: in order, and each
of it once. -/
theorem run_hears {ν : Type} [DecidableEq ν] {chat : Chat ν} {initial : ν → Message}
    {events : List (ChatEvent ν)} {tr : List (ν × BroadcastEffect)} {k : ChatLink ν} {b : Bool}
    (h : (run (step display) (start initial) events).Returns chat tr) (hk : k ∈ chat.links)
    (hf : ∀ m ∈ k.said display initial tr (!b), Fits 4 m) (hl : k.KeepsHeaders tr b) :
    ∃ ms, k.heard tr b = ms.map (IncomingMessage.mk (k.peerId display b)) ∧
      ms <+: k.said display initial tr (!b) := by
  have hj := run_joined h
  obtain ⟨l, hl₀⟩ := List.mem_iff_getElem?.1 hk
  obtain ⟨events', ctr, hc, hp⟩ := hj.talks hl₀
  refine ⟨_, hj.heard hl₀ b, ?_⟩
  have hq : Conversation.queued (!b) ctr = k.said display initial tr (!b) := by
    rw [Conversation.queued, hp, hj.said hl₀]
  have hr : Conversation.received b ctr = (k.trace tr b).filterMap LoopEffect.received? := by
    rw [Conversation.received, hp]
  have hkeep : Conversation.KeepsHeaders (!!b) ctr := by
    rw [Conversation.KeepsHeaders, hp, Bool.not_not]
    exact hl
  have hd := Conversation.run_delivers_queued hc (!b) (hq ▸ hf) hkeep
  rw [Bool.not_not, hq, Conversation.run_delivered hc b] at hd
  rw [← hr]
  exact (List.prefix_append ..).trans hd

theorem run_hears_two :
    let link : Link Bool := ⟨0, true, false, .tcp, loopback 1, loopback 2⟩
    let events := [.connect link fun _ => 16, .yield 0 true, .yield 0 false, .node true .save,
      .node true (.broadcast [65]), .node true (.advance 0), .node true (.advance 0),
      .node true (.advance 0), .node true (.advance 0), .carry 0 true 16,
      .node false (.advance 0), .node false (.advance 0), .node false (.forward 0),
      .node false (.advance 0), .node false (.advance 0), .node false (.forward 0)]
    ∃ chat tr, (run (step fun _ => "") (start fun b => if b then [72] else [89]) events).Returns
        chat tr ∧ ∃ k ∈ chat.links, k.heard tr false = [⟨"tcp:", [72]⟩, ⟨"tcp:", [65]⟩] ∧
          ∃ ms, k.heard tr false = ms.map (IncomingMessage.mk (k.peerId (fun _ => "") false)) ∧
            ms <+: [[72], [65]] := by
  intro link events
  have hc : (run (step fun _ => "") (start fun b => if b then [72] else [89]) events).check
      (fun chat tr => chat.links.any fun k =>
        k.heard tr false = [⟨"tcp:", [72]⟩, ⟨"tcp:", [65]⟩] ∧ k.KeepsHeaders tr false ∧
          k.said (fun _ => "") (fun b => if b then [72] else [89]) tr true = [[72], [65]]) := by
    decide +kernel
  obtain ⟨chat, tr, h, hp⟩ := Exec.exists_of_check hc
  obtain ⟨k, hk, hq⟩ := List.any_eq_true.1 hp
  obtain ⟨hh, hl, hs⟩ := of_decide_eq_true hq
  refine ⟨chat, tr, h, k, hk, hh, ?_⟩
  have hf : ∀ m ∈ k.said (fun _ => "") (fun b => if b then [72] else [89]) tr (!false),
      Fits 4 m := by
    have hlen : ∀ m ∈ ([[72], [65]] : List Message), m.length < 256 ^ 4 := by decide
    rw [Bool.not_false, hs]
    exact hlen
  have hm := run_hears h hk hf hl
  rw [Bool.not_false, hs] at hm
  exact hm

end Chat

end HyperswarmRs
