import HyperswarmRs.Chat.Conversation
import HyperswarmRs.Chat.Telling
import HyperswarmRs.Network.Basic

namespace HyperswarmRs
open Async
set_option autoImplicit true

/-- A connection between two nodes of a chat: by which number each of them knows its end, once its
swarm has yielded it, and what is on the way from each end. -/
structure ChatLink (ν : Type) where
  link : Link ν
  room : Bool → Nat
  index : Bool → Option Nat := fun _ => none
  wire : Bool → List UInt8 := fun _ => []
  acks : Bool → Nat := fun _ => 0

structure Chat (ν : Type) where
  nodes : ν → HyperBroadcast
  links : List (ChatLink ν)

/-- A node acts by itself, a connection is made, the swarm of a node yields its end, or the network
acts on it. -/
inductive ChatEvent (ν : Type) where
  | node (n : ν) (e : BroadcastEvent)
  | connect (link : Link ν) (room : Bool → Nat)
  | yield (l : Nat) (b : Bool)
  | stop (l : Nat) (b : Bool) (i : DuplexEnd IoError)
  | carry (l : Nat) (b : Bool) (n : Nat)
  | ack (l : Nat) (b : Bool) (n : Nat)

def BroadcastEvent.isOwn : BroadcastEvent → Bool
  | .next (some (.ok _)) | .stream .. => false
  | _ => true

namespace ChatLink

def stream (k : ChatLink ν) (b : Bool) : Connection (Duplex IoError) where
  inner := { room := k.room b }
  peerAddr := (k.link.half b).peerAddr
  isInitiator := (k.link.half b).isInitiator
  protocol := (k.link.half b).protocol

def peerId (display : SocketAddr → String) (k : ChatLink ν) (b : Bool) : PeerId :=
  (⟨0, (k.stream b).peerAddr, (k.stream b).protocol⟩ : Peer).id display

theorem peerId_of_link {k k' : ChatLink ν} (h : k'.link = k.link) (display : SocketAddr → String)
    (b : Bool) : k'.peerId display b = k.peerId display b := by
  rw [peerId, peerId, stream, stream, h]

def take (k : ChatLink ν) (b : Bool) (i : Nat) : ChatLink ν :=
  { k with index := Function.update k.index b (some i) }

theorem take_self (k : ChatLink ν) (b : Bool) (i : Nat) : (k.take b i).index b = some i :=
  Function.update_self ..

theorem take_other (h : a ≠ b) (k : ChatLink ν) (i : Nat) :
    (k.take b i).index a = k.index a := Function.update_of_ne h ..

variable [DecidableEq ν]

def part (k : ChatLink ν) (n : ν) (es : List BroadcastEffect) (b : Bool) : List LoopEffect :=
  if k.link.node b = n then
    match k.index b with
    | none => []
    | some i => loopPart i es
  else []

/-- What an end writes goes to the other one, and what it reads makes room there. -/
def sent (k : ChatLink ν) (n : ν) (es : List BroadcastEffect) : ChatLink ν :=
  { k with
    wire := fun b => k.wire b ++ (k.part n es b).flatMap LoopEffect.written
    acks := fun b => k.acks b + ((k.part n es (!b)).flatMap LoopEffect.bytesRead).length }

end ChatLink

namespace Chat

def start (initial : ν → Message) : Chat ν where
  nodes n := .new (initial n)
  links := []

variable [DecidableEq ν]

def set (chat : Chat ν) (n : ν) (s : HyperBroadcast) : Chat ν :=
  { chat with nodes := Function.update chat.nodes n s }

/-- The network acts on the stream of an end, if its node has it. -/
def stream (chat : Chat ν) (k : ChatLink ν) (b : Bool) (input : DuplexInput IoError) : Chat ν :=
  match k.index b with
  | none => chat
  | some i => chat.set (k.link.node b) ((chat.nodes (k.link.node b)).stream i input)

/-- The node takes its end, unless it is busy with another connection. -/
def yield (display : SocketAddr → String) (chat : Chat ν) (l : Nat) (k : ChatLink ν) (b : Bool) :
    Exec (ν × BroadcastEffect) (Chat ν) :=
  let s := chat.nodes (k.link.node b)
  if (k.index b).isSome || s.saving.isSome || s.result.isSome then pure chat
  else do
    let s' ← (s.step display (.next (some (.ok (k.stream b))))).embed (k.link.node b, ·)
    return { chat.set (k.link.node b) s' with
      links := chat.links.set l (k.take b s.tasks.length) }

def carry (chat : Chat ν) (l : Nat) (k : ChatLink ν) (b : Bool) (n : Nat) : Chat ν :=
  if (k.index (!b)).isNone then chat
  else { chat.stream k (!b) (.arrive ((k.wire b).take n)) with
    links := chat.links.set l
      { k with wire := Function.update k.wire b ((k.wire b).drop n) } }

def ack (chat : Chat ν) (l : Nat) (k : ChatLink ν) (b : Bool) (n : Nat) : Chat ν :=
  if (k.index b).isNone then chat
  else { chat.stream k b (.grant (min n (k.acks b))) with
    links := chat.links.set l { k with acks := Function.update k.acks b (k.acks b - n) } }

def step (display : SocketAddr → String) (chat : Chat ν) :
    ChatEvent ν → Exec (ν × BroadcastEffect) (Chat ν)
  | .node n e =>
    if e.isOwn then do
      let (s, es) ← ((chat.nodes n).step display e).listen.embed (n, ·)
      return { chat.set n s with links := chat.links.map (·.sent n es) }
    else pure chat
  | .connect link room => pure { chat with links := chat.links ++ [{ link, room }] }
  | .yield l b =>
    match chat.links[l]? with
    | none => pure chat
    | some k => chat.yield display l k b
  | .stop l b i =>
    match chat.links[l]? with
    | none => pure chat
    | some k => pure (chat.stream k b (.stop i))
  | .carry l b n =>
    match chat.links[l]? with
    | none => pure chat
    | some k => pure (chat.carry l k b n)
  | .ack l b n =>
    match chat.links[l]? with
    | none => pure chat
    | some k => pure (chat.ack l k b n)

@[simp] theorem set_self (chat : Chat ν) (n : ν) (s : HyperBroadcast) :
    (chat.set n s).nodes n = s := Function.update_self ..

theorem set_other (chat : Chat ν) (s : HyperBroadcast) (h : m ≠ n) :
    (chat.set n s).nodes m = chat.nodes m := Function.update_of_ne h ..

inductive Steps (display : SocketAddr → String) (chat : Chat ν) :
    ChatEvent ν → List (ν × BroadcastEffect) → Chat ν → Prop where
  | idle : Steps display chat e [] chat
  | node : e.isOwn = true → ((chat.nodes n).step display e).Returns s es →
      Steps display chat (.node n e) (es.map (n, ·))
        { chat.set n s with links := chat.links.map (·.sent n es) }
  | connect : Steps display chat (.connect link room) []
      { chat with links := chat.links ++ [{ link, room }] }
  | yield : chat.links[l]? = some k → k.index b = none →
      (chat.nodes (k.link.node b)).saving = none →
      (chat.nodes (k.link.node b)).result = none →
      ((chat.nodes (k.link.node b)).step display (.next (some (.ok (k.stream b))))).Returns s es →
      Steps display chat (.yield l b) (es.map (k.link.node b, ·))
        { chat.set (k.link.node b) s with
          links := chat.links.set l (k.take b (chat.nodes (k.link.node b)).tasks.length) }
  | stop : chat.links[l]? = some k → k.index b = some i → Steps display chat (.stop l b e) []
      (chat.set (k.link.node b) ((chat.nodes (k.link.node b)).stream i (.stop e)))
  | carry : chat.links[l]? = some k → k.index (!b) = some i → Steps display chat (.carry l b n) []
      { chat.set (k.link.node (!b))
          ((chat.nodes (k.link.node (!b))).stream i (.arrive ((k.wire b).take n))) with
        links := chat.links.set l
          { k with wire := Function.update k.wire b ((k.wire b).drop n) } }
  | ack : chat.links[l]? = some k → k.index b = some i → Steps display chat (.ack l b n) []
      { chat.set (k.link.node b)
          ((chat.nodes (k.link.node b)).stream i (.grant (min n (k.acks b)))) with
        links := chat.links.set l
          { k with acks := Function.update k.acks b (k.acks b - n) } }

theorem yield_cases {chat chat' : Chat ν} (hk : chat.links[l]? = some k)
    (h : (chat.yield display l k b).Returns chat' es) :
    Steps display chat (.yield l b) es chat' := by
  rw [yield] at h
  split at h
  · obtain ⟨rfl, rfl⟩ := Exec.returns_pure.1 h
    exact .idle
  · rename_i hn
    simp only [Bool.or_eq_true, not_or, Option.not_isSome_iff_eq_none] at hn
    obtain ⟨⟨hi, hs⟩, hr⟩ := hn
    obtain ⟨s, _, _, he, hp, rfl⟩ := Exec.returns_bind.1 h
    obtain ⟨rfl, rfl⟩ := Exec.returns_pure.1 hp
    obtain ⟨es', hstep, rfl⟩ := Exec.returns_embed.1 he
    rw [List.append_nil]
    exact .yield hk hi hs hr hstep

theorem step_cases {chat chat' : Chat ν} (h : (chat.step display e).Returns chat' es) :
    Steps display chat e es chat' := by
  cases e with
  | node n e =>
    rw [step] at h
    split at h
    · obtain ⟨⟨s, es'⟩, _, _, he, hp, rfl⟩ := Exec.returns_bind.1 h
      obtain ⟨rfl, rfl⟩ := Exec.returns_pure.1 hp
      obtain ⟨es₁, hl, rfl⟩ := Exec.returns_embed.1 he
      obtain ⟨hs, hes⟩ := Exec.returns_listen.1 hl
      cases hes
      rw [List.append_nil]
      exact .node ‹_› hs
    · obtain ⟨rfl, rfl⟩ := Exec.returns_pure.1 h
      exact .idle
  | connect link room =>
    obtain ⟨rfl, rfl⟩ := Exec.returns_pure.1 h
    exact .connect
  | yield l b =>
    rw [step] at h
    split at h
    · obtain ⟨rfl, rfl⟩ := Exec.returns_pure.1 h
      exact .idle
    · exact yield_cases ‹_› h
  | stop l b i =>
    rw [step] at h
    split at h
    · obtain ⟨rfl, rfl⟩ := Exec.returns_pure.1 h
      exact .idle
    · rename_i k hk
      obtain ⟨rfl, rfl⟩ := Exec.returns_pure.1 h
      rw [stream]
      split
      · exact .idle
      · exact .stop hk ‹_›
  | carry l b n =>
    rw [step] at h
    split at h
    · obtain ⟨rfl, rfl⟩ := Exec.returns_pure.1 h
      exact .idle
    · rename_i k hk
      obtain ⟨rfl, rfl⟩ := Exec.returns_pure.1 h
      rw [carry, stream]
      cases hi : k.index (!b) with
      | none => exact .idle
      | some i => exact .carry hk hi
  | ack l b n =>
    rw [step] at h
    split at h
    · obtain ⟨rfl, rfl⟩ := Exec.returns_pure.1 h
      exact .idle
    · rename_i k hk
      obtain ⟨rfl, rfl⟩ := Exec.returns_pure.1 h
      rw [ack, stream]
      cases hi : k.index b with
      | none => exact .idle
      | some i => exact .ack hk hi

end Chat

end HyperswarmRs
