import HyperswarmRs.Swarm.Basic
import HyperswarmRs.Transport.Served

namespace HyperswarmRs
open Async
set_option autoImplicit true

/-- What the swarm answers once the transport has been polled. -/
def reply (res : Poll (Option Item)) : Poll (Option Item) := .ofItem ((handed res).map .ok)

theorem reply_pending {res : Poll (Option Item)} : reply res = .pending ↔ handed res = none := by
  rw [reply]
  cases handed res <;> simp only [Option.map_none, Option.map_some, Poll.ofItem, reduceCtorEq]

theorem reply_item (res : Poll (Option Item)) : (reply res).item = (handed res).map .ok :=
  Poll.item_ofItem _

theorem handed_reply (res : Poll (Option Item)) : handed (reply res) = handed res := by
  rw [handed, reply_item]
  cases handed res <;> rfl

/-- A discovery is reached from another by calls, which have the given effects. -/
inductive Called [Discovery D δ] : D → List Call → D → List δ → Prop where
  | refl : Called d [] d []
  | cons : (call.run d).Returns d' es → Called d' calls d'' es' →
      Called d (call :: calls) d'' (es ++ es')

theorem Called.append [Discovery D δ] {d d' d'' : D} (h : Called d calls d' es)
    (h' : Called d' calls' d'' es') : Called d (calls ++ calls') d'' (es ++ es') := by
  induction h with
  | refl => exact h'
  | cons hc hs ih =>
    rw [List.append_assoc]
    exact .cons hc (ih h')

/-- The calls that applying a configuration makes: one for each flag that was off before. -/
def edges (old : TopicConfig) (topic : Topic) (config : TopicConfig) : List Call :=
  (if config.announce && !old.announce then [.announce topic] else []) ++
    if config.lookup && !old.lookup then [.lookup topic] else []

/-- The calls that applying queued commands makes, in order. -/
def queuedEdges (topics : Finmap fun _ : Topic => TopicConfig) : List ConfigureCommand → List Call
  | [] => []
  | (topic, config) :: rest => edges ((topics.lookup topic).getD {}) topic config ++
      queuedEdges ((topics.erase topic).insert topic config) rest

/-- The table once queued commands are applied, in order. -/
def queuedTopics (topics : Finmap fun _ : Topic => TopicConfig) :
    List ConfigureCommand → Finmap fun _ : Topic => TopicConfig
  | [] => topics
  | (topic, config) :: rest => queuedTopics ((topics.erase topic).insert topic config) rest

namespace SwarmEffect

def commands? : SwarmEffect δ τ → Option (Poll (Option ConfigureCommand))
  | .commands r => some r
  | _ => none

def discovery? : SwarmEffect δ τ → Option (Poll (Option (IoResult PeerInfo)))
  | .discovery r => some r
  | _ => none

def transport? : SwarmEffect δ τ → Option (Poll (Option Item))
  | .transport r => some r
  | _ => none

def ofTransport? : SwarmEffect δ τ → Option τ
  | .ofTransport e => some e
  | _ => none

def called? : SwarmEffect δ τ → Option Call
  | .called call => some call
  | _ => none

def ofDiscovery? : SwarmEffect δ τ → Option δ
  | .ofDiscovery e => some e
  | _ => none

def OfCall : SwarmEffect δ τ → Prop
  | .called _ | .ofDiscovery _ => True
  | _ => False

def OfCommands : SwarmEffect δ τ → Prop
  | .commands _ => True
  | e => e.OfCall

def OfTransport : SwarmEffect δ τ → Prop
  | .connect _ | .transport _ | .ofTransport _ => True
  | _ => False

theorem OfCall.ofCommands {e : SwarmEffect δ τ} (h : e.OfCall) : e.OfCommands := by
  cases e <;> first | exact h | trivial

def asked (es : List δ) (next : Poll (Option (IoResult PeerInfo))) : List (SwarmEffect δ τ) :=
  es.map ofDiscovery ++ [discovery next]

def dialling (a : SocketAddr) (es : List τ) : List (SwarmEffect δ τ) :=
  connect a :: es.map ofTransport

def answered (es : List τ) (res : Poll (Option Item)) : List (SwarmEffect δ τ) :=
  es.map ofTransport ++ [transport res]

theorem filterMap_asked {g : SwarmEffect δ τ → Option α} (h : ∀ e, g (ofDiscovery e) = none)
    (es : List δ) (next : Poll (Option (IoResult PeerInfo))) :
    (asked es next).filterMap g = (g (discovery next)).toList := by
  rw [asked, List.filterMap_append, filterMap_map_none h, List.nil_append, List.filterMap_cons,
    List.filterMap_nil]
  cases g (discovery next) <;> rfl

theorem filterMap_answered {g : SwarmEffect δ τ → Option α} (h : ∀ e, g (ofTransport e) = none)
    (es : List τ) (res : Poll (Option Item)) :
    (answered es res).filterMap g = (g (transport res)).toList := by
  rw [answered, List.filterMap_append, filterMap_map_none h, List.nil_append,
    List.filterMap_cons, List.filterMap_nil]
  cases g (transport res) <;> rfl

theorem filterMap_dialling {g : SwarmEffect δ τ → Option α} (h : ∀ e, g (ofTransport e) = none)
    (a : SocketAddr) (es : List τ) :
    (dialling a es).filterMap g = (g (connect a)).toList := by
  rw [dialling, List.filterMap_cons, filterMap_map_none h]
  cases g (connect a) <;> rfl

theorem filterMap_ofDiscovery (es : List δ) :
    (es.map (ofDiscovery : δ → SwarmEffect δ τ)).filterMap ofDiscovery? = es := by
  rw [List.filterMap_map]
  exact List.filterMap_some

theorem filterMap_asked_ofDiscovery (es : List δ) (next : Poll (Option (IoResult PeerInfo))) :
    (asked es next : List (SwarmEffect δ τ)).filterMap ofDiscovery? = es := by
  rw [asked, List.filterMap_append, filterMap_ofDiscovery]
  exact List.append_nil es

theorem filterMap_ofTransport (es : List τ) :
    (es.map (ofTransport : τ → SwarmEffect δ τ)).filterMap ofTransport? = es := by
  rw [List.filterMap_map]
  exact List.filterMap_some

theorem filterMap_ofCommands {es : List (SwarmEffect δ τ)} (h : ∀ e ∈ es, e.OfCommands) :
    es.filterMap discovery? = [] ∧ es.filterMap transport? = [] ∧
      es.filterMap ofTransport? = [] := by
  have hn : ∀ e : SwarmEffect δ τ, e.OfCommands →
      e.discovery? = none ∧ e.transport? = none ∧ e.ofTransport? = none := by
    intro e he
    cases e <;> first | exact ⟨rfl, rfl, rfl⟩ | cases he
  refine ⟨?_, ?_, ?_⟩ <;> apply List.filterMap_eq_nil_iff.2 <;> intro e he
  · exact (hn e (h e he)).1
  · exact (hn e (h e he)).2.1
  · exact (hn e (h e he)).2.2

theorem filterMap_onlyTransport {es : List (SwarmEffect δ τ)} (h : ∀ e ∈ es, e.OfTransport) :
    es.filterMap commands? = [] ∧ es.filterMap called? = [] ∧ es.filterMap ofDiscovery? = [] ∧
      es.filterMap discovery? = [] := by
  have hn : ∀ e : SwarmEffect δ τ, e.OfTransport → e.commands? = none ∧ e.called? = none ∧
      e.ofDiscovery? = none ∧ e.discovery? = none := by
    intro e he
    cases e <;> first | exact ⟨rfl, rfl, rfl, rfl⟩ | cases he
  refine ⟨?_, ?_, ?_, ?_⟩ <;> apply List.filterMap_eq_nil_iff.2 <;> intro e he
  · exact (hn e (h e he)).1
  · exact (hn e (h e he)).2.1
  · exact (hn e (h e he)).2.2.1
  · exact (hn e (h e he)).2.2.2

theorem ofTransport_answered (es : List τ) (res : Poll (Option Item)) :
    ∀ e ∈ (answered es res : List (SwarmEffect δ τ)), e.OfTransport := by
  intro e he
  rcases List.mem_append.1 he with he | he
  · obtain ⟨_, -, rfl⟩ := List.mem_map.1 he
    trivial
  · obtain rfl := List.mem_singleton.1 he
    trivial

theorem ofTransport_dialling (a : SocketAddr) (es : List τ) :
    ∀ e ∈ (dialling a es : List (SwarmEffect δ τ)), e.OfTransport := by
  intro e he
  rcases List.mem_cons.1 he with rfl | he
  · trivial
  · obtain ⟨_, -, rfl⟩ := List.mem_map.1 he
    trivial

structure Reads (es : List (SwarmEffect δ τ)) (next : List (Poll (Option (IoResult PeerInfo))))
    (res : List (Poll (Option Item))) (es' : List τ) : Prop where
  discovery : es.filterMap discovery? = next
  transport : es.filterMap transport? = res
  ofTransport : es.filterMap ofTransport? = es'

theorem Reads.append {es es' : List (SwarmEffect δ τ)} (h : Reads es next res effs)
    (h' : Reads es' next' res' effs') :
    Reads (es ++ es') (next ++ next') (res ++ res') (effs ++ effs') := by
  refine ⟨?_, ?_, ?_⟩
  · rw [List.filterMap_append, h.discovery, h'.discovery]
  · rw [List.filterMap_append, h.transport, h'.transport]
  · rw [List.filterMap_append, h.ofTransport, h'.ofTransport]

theorem reads_ofCommands {es : List (SwarmEffect δ τ)} (h : ∀ e ∈ es, e.OfCommands) :
    Reads es [] [] [] := ⟨(filterMap_ofCommands h).1, (filterMap_ofCommands h).2.1,
  (filterMap_ofCommands h).2.2⟩

theorem reads_asked (es : List δ) (next : Poll (Option (IoResult PeerInfo))) :
    Reads (asked es next : List (SwarmEffect δ τ)) [next] [] [] :=
  ⟨filterMap_asked (fun _ => rfl) es next, filterMap_asked (fun _ => rfl) es next,
    filterMap_asked (fun _ => rfl) es next⟩

theorem reads_dialling (a : SocketAddr) (es : List τ) :
    Reads (dialling a es : List (SwarmEffect δ τ)) [] [] es :=
  ⟨filterMap_dialling (fun _ => rfl) a es, filterMap_dialling (fun _ => rfl) a es,
    filterMap_ofTransport es⟩

theorem reads_answered (es : List τ) (res : Poll (Option Item)) :
    Reads (answered es res : List (SwarmEffect δ τ)) [] [res] es := by
  refine ⟨filterMap_answered (fun _ => rfl) es res, filterMap_answered (fun _ => rfl) es res, ?_⟩
  rw [answered, List.filterMap_append, filterMap_ofTransport]
  exact List.append_nil es

end SwarmEffect

/-- The commands that are taken from the channel. -/
def commandsTaken (es : List (SwarmEffect δ τ)) : List ConfigureCommand :=
  (es.filterMap SwarmEffect.commands?).filterMap Poll.item

theorem commandsTaken_append (es es' : List (SwarmEffect δ τ)) :
    commandsTaken (es ++ es') = commandsTaken es ++ commandsTaken es' := by
  rw [commandsTaken, List.filterMap_append, List.filterMap_append, commandsTaken, commandsTaken]

theorem commandsTaken_commands (rs : List (Poll (Option ConfigureCommand))) :
    commandsTaken (rs.map (.commands : _ → SwarmEffect δ τ)) = rs.filterMap Poll.item := by
  rw [commandsTaken, List.filterMap_map]
  exact congrArg (List.filterMap Poll.item) List.filterMap_some

theorem item_none_of_handed {res : Poll (Option Item)} (h : handed res = none)
    (he : ∀ err, res ≠ .ready (some (.error err))) : res.item = none := by
  rcases res with _ | _ | err | conn
  · rfl
  · rfl
  · exact (he err rfl).elim
  · cases h

theorem commandsTaken_ofCall {es : List (SwarmEffect δ τ)} (h : ∀ e ∈ es, e.OfCall) :
    commandsTaken es = [] := by
  have hn : es.filterMap SwarmEffect.commands? = [] := by
    rw [List.filterMap_eq_nil_iff]
    intro e he
    cases e <;> first | rfl | cases h _ he
  rw [commandsTaken, hn, List.filterMap_nil]

namespace Hyperswarm

def requested (es : List (SwarmEffect δ τ)) : List Call := es.filterMap SwarmEffect.called?

theorem requested_append (es es' : List (SwarmEffect δ τ)) :
    requested (es ++ es') = requested es ++ requested es' := List.filterMap_append

section Configure

variable [Discovery D δ]

theorem callWhen_returns {s s' : Hyperswarm D T} {es : List (SwarmEffect δ τ)} {cond : Bool}
    (h : (s.callWhen cond call).Returns s' es) : s' = { s with discovery := s'.discovery } ∧
      Called s.discovery (if cond then [call] else []) s'.discovery
        (es.filterMap SwarmEffect.ofDiscovery?) ∧
      es.filterMap SwarmEffect.called? = (if cond then [call] else []) ∧ ∀ e ∈ es, e.OfCall := by
  cases cond with
  | false =>
    obtain ⟨rfl, rfl⟩ := Exec.returns_pure.1 h
    exact ⟨rfl, .refl, rfl, fun e he => by cases he⟩
  | true =>
    obtain ⟨_, _, _, he, hr, rfl⟩ := Exec.returns_bind.1 h
    obtain rfl := Exec.returns_emit.1 he
    obtain ⟨d, _, _, hd, hr', rfl⟩ := Exec.returns_bind.1 hr
    obtain ⟨es', hd', rfl⟩ := Exec.returns_embed.1 hd
    obtain ⟨rfl, rfl⟩ := Exec.returns_pure.1 hr'
    have he' : ([.called call] ++ (es'.map .ofDiscovery ++ []) : List (SwarmEffect δ τ)).filterMap
        SwarmEffect.ofDiscovery? = es' ++ [] := by
      rw [List.append_nil, List.append_nil]
      exact SwarmEffect.filterMap_ofDiscovery es'
    refine ⟨rfl, ?_, ?_, ?_⟩
    · rw [he']
      exact .cons hd' .refl
    · rw [List.append_nil]
      exact congrArg (call :: ·) (filterMap_map_none (fun _ => rfl) es')
    · intro e he
      rw [List.append_nil, List.singleton_append, List.mem_cons, List.mem_map] at he
      rcases he with rfl | ⟨_, -, rfl⟩
      · trivial
      · trivial

theorem configure_returns {s s' : Hyperswarm D T} {es : List (SwarmEffect δ τ)}
    (h : (s.configure topic config).Returns s' es) :
    let calls := edges ((s.topics.lookup topic).getD {}) topic config
    s' = { s with topics := (s.topics.erase topic).insert topic config, discovery := s'.discovery } ∧
      Called s.discovery calls s'.discovery (es.filterMap SwarmEffect.ofDiscovery?) ∧
      es.filterMap SwarmEffect.called? = calls ∧
      ∀ e ∈ es, e.OfCall := by
  obtain ⟨s₁, es₁, _, h₁, hr, rfl⟩ := Exec.returns_bind.1 h
  obtain ⟨s₂, es₂, _, h₂, hr', rfl⟩ := Exec.returns_bind.1 hr
  obtain ⟨rfl, rfl⟩ := Exec.returns_pure.1 hr'
  obtain ⟨he₁, hd₁, hc₁, ho₁⟩ := callWhen_returns h₁
  obtain ⟨he₂, hd₂, hc₂, ho₂⟩ := callWhen_returns h₂
  refine ⟨?_, ?_, ?_, ?_⟩
  · rw [he₂, he₁]
  · rw [List.append_nil, List.filterMap_append]
    exact hd₁.append hd₂
  · rw [List.append_nil, List.filterMap_append, hc₁, hc₂]
    rfl
  · intro e he
    rw [List.append_nil, List.mem_append] at he
    exact he.elim (ho₁ e) (ho₂ e)

theorem configure_halts {I : D → Prop} (hI : ∀ d (call : Call), I d → (call.run d).Halts)
    (hp : ∀ d (call : Call) d' es, I d → (call.run d).Returns d' es → I d')
    (s : Hyperswarm D T) (hs : I s.discovery) (topic : Topic) (config : TopicConfig) :
    ∃ s' es, (s.configure topic config : Exec (SwarmEffect δ τ) _).Returns s' es ∧
      I s'.discovery := by
  have hc : ∀ (s : Hyperswarm D T) cond call, I s.discovery →
      ∃ s' es, (s.callWhen cond call : Exec (SwarmEffect δ τ) _).Returns s' es ∧
        I s'.discovery := by
    intro s cond call hs
    cases cond with
    | false => exact ⟨s, [], Exec.pure_returns _, hs⟩
    | true =>
      obtain ⟨d, es, hd⟩ := hI s.discovery call hs
      exact ⟨{ s with discovery := d }, _, (Exec.emit_returns _).of_bind
        ((hd.embed SwarmEffect.ofDiscovery).of_bind (Exec.pure_returns _)), hp _ _ _ _ hs hd⟩
  obtain ⟨s₁, es₁, h₁, hs₁⟩ := hc { s with topics := s.topics.erase topic } (config.announce &&
    !((s.topics.lookup topic).getD {}).announce) (.announce topic) hs
  obtain ⟨s₂, es₂, h₂, hs₂⟩ := hc s₁ (config.lookup &&
    !((s.topics.lookup topic).getD {}).lookup) (.lookup topic) hs₁
  exact ⟨_, _, h₁.of_bind (h₂.of_bind (Exec.pure_returns _)), hs₂⟩

theorem pollCommands_halts {I : D → Prop} (hI : ∀ d (call : Call), I d → (call.run d).Halts)
    (hp : ∀ d (call : Call) d' es, I d → (call.run d).Returns d' es → I d')
    {s : Hyperswarm D T} (hs : I s.discovery) (hf : s.commands.queue.length < fuel) :
    (pollCommands fuel s : Exec (SwarmEffect δ τ) _).Halts := by
  induction fuel generalizing s with
  | zero => exact (Nat.not_lt_zero _ hf).elim
  | succ fuel ih =>
    have hc : (Async.pollNext s.commands).Returns s.commands.poll [s.commands.poll.1] :=
      returns_answering.2 ⟨rfl, rfl⟩
    cases hq : s.commands.poll with
    | mk next commands =>
      rw [hq] at hc
      rw [pollCommands.eq_def]
      apply (hc.embed SwarmEffect.commands).halts_bind
      rcases next with _ | _ | ⟨topic, config⟩
      · exact Exec.halts_pure _
      · exact Exec.halts_pure _
      · obtain ⟨s₁, es₁, h₁, hs₁⟩ := configure_halts (τ := τ) hI hp
          { s with commands := commands } hs topic config
        refine h₁.halts_bind (ih hs₁ ?_)
        obtain ⟨he, -⟩ := configure_returns h₁
        obtain ⟨-, hi⟩ := Leaf.items_of_item hc rfl
        change s.commands.queue = (topic, config) :: commands.queue at hi
        rw [he]
        rw [hi, List.length_cons] at hf
        exact Nat.lt_of_succ_lt_succ hf

structure Drains (s s' : Hyperswarm D T) (es : List (SwarmEffect δ τ)) : Prop where
  transport : s'.transport = s.transport
  queue : s'.commands.queue = []
  ends : s'.commands.senders = s.commands.senders ∧ s'.commands.receiver = s.commands.receiver
  unended : s.commands.senders ≠ 0 → .commands (.ready none) ∉ es
  topics : s'.topics = queuedTopics s.topics s.commands.queue
  taken : commandsTaken es = s.commands.queue
  settled : LastSettled SwarmEffect.commands? es
  called : Called s.discovery (queuedEdges s.topics s.commands.queue) s'.discovery
    (es.filterMap SwarmEffect.ofDiscovery?)
  calls : es.filterMap SwarmEffect.called? = queuedEdges s.topics s.commands.queue
  effects : ∀ e ∈ es, e.OfCommands

theorem Drains.done {s : Hyperswarm D T}
    (h : (Async.pollNext s.commands).Returns (r, c) es) (hr : r.item = none) :
    Drains s { s with commands := c } (es.map (.commands : _ → SwarmEffect δ τ)) := by
  obtain ⟨rfl, hq, hq'⟩ := Leaf.items_of_none h hr
  change s.commands.queue = [] at hq
  refine ⟨rfl, hq', ⟨Channel.pollNext_senders h, Channel.pollNext_receiver h⟩, ?_, ?_, ?_,
    ⟨r, rfl, hr⟩, ?_, ?_, ?_⟩
  · intro hs he
    cases List.mem_singleton.1 he
    exact Channel.pollNext_ne_end hs h rfl
  · rw [hq]
    rfl
  · rw [hq, commandsTaken_commands, filterMap_item, hr, Option.toList_none]
  · rw [hq, filterMap_map_none fun _ => rfl]
    exact .refl
  · rw [hq]
    rfl
  · intro e he
    obtain ⟨_, -, rfl⟩ := List.mem_map.1 he
    trivial

theorem pollCommands_drains {s s' : Hyperswarm D T} {es : List (SwarmEffect δ τ)}
    (h : (pollCommands fuel s).Returns s' es) : Drains s s' es := by
  induction fuel generalizing s es with
  | zero => exact (Exec.returns_fail h).elim
  | succ fuel ih =>
    rw [pollCommands.eq_def] at h
    obtain ⟨⟨next, commands⟩, _, _, hc, hr, rfl⟩ := Exec.returns_bind.1 h
    obtain ⟨es₁, hc', rfl⟩ := Exec.returns_embed.1 hc
    rcases next with _ | _ | ⟨topic, config⟩
    · obtain ⟨rfl, rfl⟩ := Exec.returns_pure.1 hr
      rw [List.append_nil]
      exact .done hc' rfl
    · obtain ⟨rfl, rfl⟩ := Exec.returns_pure.1 hr
      rw [List.append_nil]
      exact .done hc' rfl
    · obtain ⟨s₁, es₂, es₃, hs, hr', rfl⟩ := Exec.returns_bind.1 hr
      obtain ⟨he, hd, hl, ho⟩ := configure_returns hs
      obtain ⟨rfl, hq⟩ := Leaf.items_of_item hc' rfl
      change s.commands.queue = (topic, config) :: commands.queue at hq
      have hi := ih hr'
      rw [he] at hi
      refine ⟨hi.transport, hi.queue, ⟨hi.ends.1.trans (Channel.pollNext_senders hc'),
        hi.ends.2.trans (Channel.pollNext_receiver hc')⟩, ?_, ?_, ?_, ?_, ?_, ?_, ?_⟩
      · intro hs hm
        rw [List.mem_append, List.mem_append] at hm
        rcases hm with hm | hm | hm
        · cases List.mem_singleton.1 hm
        · cases ho _ hm
        · exact hi.unended (Channel.pollNext_senders hc' ▸ hs) hm
      · rw [hq]
        exact hi.topics
      · rw [hq, commandsTaken_append, commandsTaken_append, commandsTaken_commands, hi.taken,
          commandsTaken_ofCall ho]
        rfl
      · exact lastSettled_append (lastSettled_append hi.settled es₂) _
      · rw [hq, List.filterMap_append, List.filterMap_append, filterMap_map_none fun _ => rfl,
          List.nil_append]
        exact hd.append hi.called
      · rw [hq, List.filterMap_append, List.filterMap_append, hl, hi.calls]
        rfl
      · intro e hm
        rw [List.mem_append, List.mem_append] at hm
        rcases hm with hm | hm | hm
        · obtain ⟨_, -, rfl⟩ := List.mem_map.1 hm
          trivial
        · exact (ho e hm).ofCommands
        · exact hi.effects e hm

/-- What all polls do first: they drain the command receiver, and then poll the discovery. -/
structure Asks (s s₁ s' : Hyperswarm D T) (es₁ : List (SwarmEffect δ τ))
    (next : Poll (Option (IoResult PeerInfo))) (es₂ : List δ) (rest : List (SwarmEffect δ τ)) :
    Prop where
  drains : Drains s s₁ es₁
  discovery : (Async.pollNext s₁.discovery).Returns (next, s'.discovery) es₂
  topics : s'.topics = s₁.topics
  commands : s'.commands = s₁.commands
  rest : ∀ e ∈ rest, e.OfTransport

theorem Asks.requested {s s₁ s' : Hyperswarm D T} {es₁ rest : List (SwarmEffect δ τ)}
    (h : Asks s s₁ s' es₁ next es₂ rest) :
    Hyperswarm.requested (es₁ ++ (SwarmEffect.asked es₂ next ++ rest)) =
      queuedEdges s.topics s.commands.queue := by
  rw [Hyperswarm.requested, List.filterMap_append, List.filterMap_append, h.drains.calls,
    SwarmEffect.filterMap_asked fun _ => rfl, (SwarmEffect.filterMap_onlyTransport h.rest).2.1]
  exact List.append_nil _

theorem Asks.taken {s s₁ s' : Hyperswarm D T} {es₁ rest : List (SwarmEffect δ τ)}
    (h : Asks s s₁ s' es₁ next es₂ rest) :
    commandsTaken (es₁ ++ (SwarmEffect.asked es₂ next ++ rest)) = s.commands.queue := by
  have hr : commandsTaken (SwarmEffect.asked es₂ next ++ rest) = [] := by
    rw [commandsTaken, List.filterMap_append, SwarmEffect.filterMap_asked fun _ => rfl,
      (SwarmEffect.filterMap_onlyTransport h.rest).1]
    rfl
  rw [commandsTaken_append, h.drains.taken, hr, List.append_nil]

end Configure

section Transport

variable [Transport T τ CombinedStream]

theorem dial_returns {s s' : Hyperswarm D T} {es : List (SwarmEffect δ τ)} :
    (s.dial a).Returns s' es ↔ ∃ t es', (Transport.connect s.transport a).Returns t es' ∧
      s' = { s with transport := t } ∧ es = SwarmEffect.dialling a es' := by
  simp only [dial, Exec.returns_bind, Exec.returns_embed, Exec.returns_emit, Exec.returns_pure]
  constructor
  · rintro ⟨_, _, _, rfl, ⟨t, _, _, ⟨es', ht, rfl⟩, ⟨rfl, rfl⟩, rfl⟩, rfl⟩
    exact ⟨t, es', ht, rfl, by rw [List.append_nil]; rfl⟩
  · rintro ⟨t, es', ht, rfl, rfl⟩
    exact ⟨(), _, _, rfl, ⟨t, _, _, ⟨es', ht, rfl⟩, ⟨rfl, rfl⟩, rfl⟩, by rw [List.append_nil]; rfl⟩

theorem pollConnections_returns {s s' : Hyperswarm D T} {es : List (SwarmEffect δ τ)} :
    s.pollConnections.Returns (r, s') es ↔ ∃ res t es',
      (Async.pollNext s.transport).Returns (res, t) es' ∧ r = reply res ∧
      s' = { s with transport := t } ∧ es = SwarmEffect.answered es' res := by
  constructor
  · intro h
    obtain ⟨⟨res, t⟩, _, _, ht, hr, rfl⟩ := Exec.returns_bind.1 h
    obtain ⟨es', ht', rfl⟩ := returns_pollChild.1 ht
    refine ⟨res, t, es', ht', ?_⟩
    rcases res with _ | _ | _ | conn <;>
      · simp only [Exec.returns_pure, Prod.mk.injEq] at hr
        obtain ⟨⟨rfl, rfl⟩, rfl⟩ := hr
        exact ⟨rfl, rfl, List.append_nil _⟩
  · rintro ⟨res, t, es', ht, rfl, rfl, rfl⟩
    refine Exec.returns_bind.2 ⟨(res, t), _, [], returns_pollChild.2 ⟨es', ht, rfl⟩, ?_,
      (List.append_nil _).symm⟩
    rcases res with _ | _ | _ | conn <;> exact Exec.returns_pure.2 ⟨rfl, rfl⟩

end Transport

variable [Discovery D δ] [Transport T τ CombinedStream]

/-- The ways `poll_next` returns. -/
inductive Polled (s : Hyperswarm D T) :
    Poll (Option Item) → Hyperswarm D T → List (SwarmEffect δ τ) → Prop where
  | failed (s₁ : Hyperswarm D T) :
      (pollCommands (s.commands.queue.length + 1) s).Returns s₁ es₁ →
      (Async.pollNext s₁.discovery).Returns (.ready (some (.error e)), d) es₂ →
      Polled s (.ready (some (.error e))) { s₁ with discovery := d }
        (es₁ ++ SwarmEffect.asked es₂ (.ready (some (.error e))))
  | quiet (s₁ : Hyperswarm D T) :
      (pollCommands (s.commands.queue.length + 1) s).Returns s₁ es₁ →
      (Async.pollNext s₁.discovery).Returns (next, d) es₂ → next.item = none →
      (Async.pollNext s₁.transport).Returns (res, t) es₃ →
      Polled s (reply res) { s₁ with discovery := d, transport := t }
        (es₁ ++ (SwarmEffect.asked es₂ next ++ SwarmEffect.answered es₃ res))
  | dialled (s₁ : Hyperswarm D T) :
      (pollCommands (s.commands.queue.length + 1) s).Returns s₁ es₁ →
      (Async.pollNext s₁.discovery).Returns (.ready (some (.ok peer)), d) es₂ →
      (Transport.connect s₁.transport peer.addr).Returns t es₃ →
      (Async.pollNext t).Returns (res, t') es₄ →
      Polled s (reply res) { s₁ with discovery := d, transport := t' }
        (es₁ ++ (SwarmEffect.asked es₂ (.ready (some (.ok peer))) ++
          (SwarmEffect.dialling peer.addr es₃ ++ SwarmEffect.answered es₄ res)))

theorem pollNext_cases {s s' : Hyperswarm D T} {es : List (SwarmEffect δ τ)}
    (h : s.pollNext.Returns (r, s') es) : Polled s r s' es := by
  obtain ⟨s₁, es₁, _, hs, hr₁, rfl⟩ := Exec.returns_bind.1 h
  obtain ⟨⟨next, d⟩, _, _, hd, hr₂, rfl⟩ := Exec.returns_bind.1 hr₁
  obtain ⟨es₂, hd', rfl⟩ := returns_pollChild.1 hd
  rcases next with _ | _ | e | peer
  · obtain ⟨res, t, es₃, ht, rfl, rfl, rfl⟩ := pollConnections_returns.1 hr₂
    exact .quiet s₁ hs hd' rfl ht
  · obtain ⟨res, t, es₃, ht, rfl, rfl, rfl⟩ := pollConnections_returns.1 hr₂
    exact .quiet s₁ hs hd' rfl ht
  · simp only [Exec.returns_pure, Prod.mk.injEq] at hr₂
    obtain ⟨⟨rfl, rfl⟩, rfl⟩ := hr₂
    rw [List.append_nil]
    exact .failed s₁ hs hd'
  · obtain ⟨s₂, _, _, ht, hr₃, rfl⟩ := Exec.returns_bind.1 hr₂
    obtain ⟨t, es₃, ht', rfl, rfl⟩ := dial_returns.1 ht
    obtain ⟨res, t', es₄, ht'', rfl, rfl, rfl⟩ := pollConnections_returns.1 hr₃
    exact .dialled s₁ hs hd' ht' ht''

theorem Polled.returns {s s' : Hyperswarm D T} {es : List (SwarmEffect δ τ)}
    (h : Polled s r s' es) : s.pollNext.Returns (r, s') es := by
  cases h with
  | failed s₁ hs hd =>
    refine hs.of_bind ?_
    rw [← List.append_nil (SwarmEffect.asked _ _)]
    exact (returns_pollChild.2 ⟨_, hd, rfl⟩).of_bind (Exec.pure_returns _)
  | @quiet es₁ next d es₂ res t es₃ s₁ hs hd hn ht =>
    refine hs.of_bind ((returns_pollChild.2 ⟨_, hd, rfl⟩).of_bind ?_)
    rcases next with _ | _ | x
    · exact pollConnections_returns.2 ⟨res, t, es₃, ht, rfl, rfl, rfl⟩
    · exact pollConnections_returns.2 ⟨res, t, es₃, ht, rfl, rfl, rfl⟩
    · cases hn
  | @dialled es₁ peer d es₂ t es₃ res t' es₄ s₁ hs hd ht ht' =>
    refine hs.of_bind ((returns_pollChild.2 ⟨_, hd, rfl⟩).of_bind ?_)
    have hdial : (dial { s₁ with discovery := d } peer.addr).Returns
        { s₁ with discovery := d, transport := t }
          (SwarmEffect.dialling peer.addr es₃ : List (SwarmEffect δ τ)) :=
      dial_returns.2 ⟨t, es₃, ht, rfl, rfl⟩
    refine hdial.of_bind ?_
    exact pollConnections_returns.2 ⟨_, _, _, ht', rfl, rfl, rfl⟩

theorem Polled.asks {s s' : Hyperswarm D T} {es : List (SwarmEffect δ τ)} (h : Polled s r s' es) :
    ∃ s₁ es₁ next es₂ rest, Asks s s₁ s' es₁ next es₂ rest ∧
      es = es₁ ++ (SwarmEffect.asked es₂ next ++ rest) := by
  cases h with
  | failed s₁ hs hd =>
    refine ⟨s₁, _, _, _, [], ⟨pollCommands_drains hs, hd, rfl, rfl, fun e he => by cases he⟩, ?_⟩
    rw [List.append_nil]
  | quiet s₁ hs hd hn ht =>
    exact ⟨s₁, _, _, _, _, ⟨pollCommands_drains hs, hd, rfl, rfl,
      SwarmEffect.ofTransport_answered _ _⟩, rfl⟩
  | dialled s₁ hs hd ht ht' =>
    refine ⟨s₁, _, _, _, _, ⟨pollCommands_drains hs, hd, rfl, rfl, fun e he => ?_⟩, rfl⟩
    exact (List.mem_append.1 he).elim (SwarmEffect.ofTransport_dialling _ _ e)
      (SwarmEffect.ofTransport_answered _ _ e)

section Reads

variable {s₁ : Hyperswarm D T} {es₁ : List (SwarmEffect δ τ)}

theorem reads_failed (h : ∀ e ∈ es₁, e.OfCommands) (es₂ : List δ)
    (next : Poll (Option (IoResult PeerInfo))) :
    SwarmEffect.Reads (es₁ ++ SwarmEffect.asked es₂ next) [next] [] [] :=
  (SwarmEffect.reads_ofCommands h).append (SwarmEffect.reads_asked es₂ next)

theorem reads_quiet (h : ∀ e ∈ es₁, e.OfCommands) (es₂ : List δ)
    (next : Poll (Option (IoResult PeerInfo))) (es₃ : List τ) (res : Poll (Option Item)) :
    SwarmEffect.Reads (es₁ ++ (SwarmEffect.asked es₂ next ++ SwarmEffect.answered es₃ res))
      [next] [res] es₃ :=
  (SwarmEffect.reads_ofCommands h).append
    ((SwarmEffect.reads_asked es₂ next).append (SwarmEffect.reads_answered es₃ res))

theorem reads_dialled (h : ∀ e ∈ es₁, e.OfCommands) (es₂ : List δ)
    (next : Poll (Option (IoResult PeerInfo))) (a : SocketAddr) (es₃ es₄ : List τ)
    (res : Poll (Option Item)) :
    SwarmEffect.Reads (es₁ ++ (SwarmEffect.asked es₂ next ++
      (SwarmEffect.dialling a es₃ ++ SwarmEffect.answered es₄ res))) [next] [res] (es₃ ++ es₄) :=
  (SwarmEffect.reads_ofCommands h).append ((SwarmEffect.reads_asked es₂ next).append
    ((SwarmEffect.reads_dialling a es₃).append (SwarmEffect.reads_answered es₄ res)))

end Reads

omit [Discovery D δ] [Transport T τ CombinedStream] in
theorem handleConfigure_returns {s s' : Hyperswarm D T} {es : List ε} :
    (s.handleConfigure topic config).Returns s' es ↔
      ∃ c, s.commands.trySend (topic, config) = some c ∧ s' = { s with commands := c } ∧
        es = [] := by
  rw [handleConfigure, SwarmHandle.configure, Exec.returns_bind]
  cases s.commands.trySend (topic, config) with
  | none =>
    constructor
    · rintro ⟨_, _, _, h, -⟩
      exact (Exec.returns_fail h).elim
    · rintro ⟨c, hc, -⟩
      cases hc
  | some c =>
    constructor
    · rintro ⟨_, _, _, hc, hr, rfl⟩
      obtain ⟨rfl, rfl⟩ := Exec.returns_pure.1 hc
      obtain ⟨rfl, rfl⟩ := Exec.returns_pure.1 hr
      exact ⟨_, rfl, rfl, rfl⟩
    · rintro ⟨_, hc, rfl, rfl⟩
      cases hc
      exact ⟨c, [], [], Exec.pure_returns _, Exec.pure_returns _, rfl⟩

inductive Stepped [Environment D ιD] [Environment T ιT] (s : Hyperswarm D T) :
    SwarmEvent ιD ιT → Hyperswarm D T → List (SwarmObs δ τ) → Prop where
  | configure : (s.configure topic config).Returns s' es →
      Stepped s (.configure topic config) s' (es.map .effect)
  | handleConfigure : s.commands.trySend (topic, config) = some c →
      Stepped s (.handleConfigure topic config) { s with commands := c } []
  | poll : Polled s r s' es → Stepped s .poll s' (es.map .effect ++ [.returned r])
  | discovery : Stepped s (.discovery i) { s with discovery := Environment.act s.discovery i } []
  | transport : Stepped s (.transport i) { s with transport := Environment.act s.transport i } []

theorem step_cases [Environment D ιD] [Environment T ιT] {s s' : Hyperswarm D T}
    {e : SwarmEvent ιD ιT} {tr : List (SwarmObs δ τ)} (h : (s.step e).Returns s' tr) :
    Stepped s e s' tr := by
  cases e with
  | configure topic config =>
    obtain ⟨es, hc, rfl⟩ := Exec.returns_embed.1 h
    exact .configure hc
  | handleConfigure topic config =>
    obtain ⟨c, hc, rfl, rfl⟩ := handleConfigure_returns.1 h
    exact .handleConfigure hc
  | poll =>
    obtain ⟨r, es, hp, rfl⟩ := returns_observed.1 h
    exact .poll (pollNext_cases hp)
  | discovery i =>
    obtain ⟨rfl, rfl⟩ := Exec.returns_pure.1 h
    exact .discovery
  | transport i =>
    obtain ⟨rfl, rfl⟩ := Exec.returns_pure.1 h
    exact .transport

end Hyperswarm

end HyperswarmRs
