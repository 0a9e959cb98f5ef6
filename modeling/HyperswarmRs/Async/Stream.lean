import HyperswarmRs.Async.Exec

namespace Async
set_option autoImplicit true

inductive Poll (α : Type) where
  | pending
  | ready (a : α)
  deriving DecidableEq, Repr

def Poll.item : Poll (Option α) → Option α
  | .ready (some a) => some a
  | .ready none | .pending => none

def Poll.isPending : Poll α → Bool
  | .pending => true
  | .ready _ => false

@[simp] theorem Poll.isPending_iff (r : Poll α) : r.isPending = true ↔ r = .pending := by
  cases r <;> simp [Poll.isPending]

@[simp] theorem Poll.item_pending : (Poll.pending : Poll (Option α)).item = none := rfl

@[simp] theorem Poll.item_ready (a : Option α) : (Poll.ready a).item = a := by
  cases a <;> rfl

theorem filterMap_item (r : Poll (Option α)) : [r].filterMap Poll.item = r.item.toList := by
  rw [List.filterMap_cons, List.filterMap_nil]
  cases r.item <;> rfl

theorem Poll.eq_ready {r : Poll (Option α)} (h : r.item = some a) : r = .ready (some a) := by
  cases r with
  | pending => cases h
  | ready b =>
    rw [Poll.item_ready] at h
    rw [h]

/-- The answer of a stream that never ends. -/
def Poll.ofItem : Option α → Poll (Option α)
  | none => .pending
  | some a => .ready (some a)

@[simp] theorem Poll.item_ofItem (a : Option α) : (Poll.ofItem a).item = a := by
  cases a <;> rfl

theorem Poll.ofItem_ne_end (a : Option α) : Poll.ofItem a ≠ .ready none := by
  cases a <;> exact fun h => by cases h

/-- A stream advances only when it is polled, and reports the effects of the poll. -/
class AsyncStream (σ : Type) (ε α : outParam Type) where
  pollNext : σ → Exec ε (Poll (Option α) × σ)

export AsyncStream (pollNext)

/-- Poll a child, and report its effects and then its answer. -/
def pollChild [AsyncStream σ ε α] (effect : ε → ε') (answer : Poll (Option α) → ε') (child : σ) :
    Exec ε' (Poll (Option α) × σ) := do
  let (r, child) ← (pollNext child).embed effect
  Exec.emit (answer r)
  return (r, child)

@[simp] theorem returns_pollChild [AsyncStream σ ε α] {effect : ε → ε'}
    {answer : Poll (Option α) → ε'} {child child' : σ} :
    (pollChild effect answer child).Returns (r, child') es ↔
      ∃ es', (pollNext child).Returns (r, child') es' ∧ es = es'.map effect ++ [answer r] := by
  simp only [pollChild, Exec.returns_bind, Exec.returns_embed, Exec.returns_emit,
    Exec.returns_pure, Prod.mk.injEq]
  constructor
  · rintro ⟨⟨r, s⟩, _, _, ⟨es', hp, rfl⟩, ⟨_, _, _, rfl, ⟨⟨rfl, rfl⟩, rfl⟩, rfl⟩, rfl⟩
    exact ⟨es', hp, rfl⟩
  · rintro ⟨es', hp, rfl⟩
    exact ⟨(r, child'), _, _, ⟨es', hp, rfl⟩, ⟨(), _, _, rfl, ⟨⟨rfl, rfl⟩, rfl⟩, rfl⟩, rfl⟩

class Environment (σ : Type) (ι : outParam Type) where
  act : σ → ι → σ

/-- The contract between a stream and the task polling it: only a pending poll leaves the
waker registered, and a finished stream has nothing left to announce. -/
class WakeContract (σ : Type) {ε α : outParam Type} [AsyncStream σ ε α] where
  armed : σ → Prop
  holdsItem : σ → Prop
  armed_of_pending : ∀ {s s' : σ} {es}, (pollNext s).Returns (.pending, s') es → armed s'
  empty_of_end : ∀ {s s' : σ} {es}, (pollNext s).Returns (.ready none, s') es → ¬ holdsItem s'

/-- An item is ready and nobody will wake the task for it. -/
def Stalled [AsyncStream σ ε α] [WakeContract σ] (s : σ) : Prop :=
  WakeContract.holdsItem s ∧ ¬ WakeContract.armed s

theorem not_stalled [AsyncStream σ ε α] [WakeContract σ] {s s' : σ} {r : Poll (Option α)}
    (h : (pollNext s).Returns (r, s') es) (hr : r.item = none) : ¬ Stalled s' := by
  rintro ⟨hi, ha⟩
  cases r with
  | pending => exact ha (WakeContract.armed_of_pending h)
  | ready a =>
    cases a with
    | none => exact WakeContract.empty_of_end h hi
    | some a => cases hr

/-- The polls of one child among the effects of a call end without an item. -/
def LastSettled (child : ε → Option (Poll (Option α))) (es : List ε) : Prop :=
  ∃ r, (es.filterMap child).getLast? = some r ∧ r.item = none

theorem lastSettled_of_single {child : ε → Option (Poll (Option α))} {es : List ε}
    (h : es.filterMap child = [r]) : LastSettled child es ↔ r.item = none := by
  simp only [LastSettled, h, List.getLast?_singleton, Option.some.injEq, exists_eq_left']

theorem lastSettled_append {child : ε → Option (Poll (Option α))} {es' : List ε}
    (h : LastSettled child es') (es : List ε) : LastSettled child (es ++ es') := by
  obtain ⟨r, hr, hn⟩ := h
  refine ⟨r, ?_, hn⟩
  rw [List.filterMap_append, List.getLast?_append, hr]
  rfl

theorem lastSettled_append_other {child : ε → Option (Poll (Option α))} {es es' : List ε}
    (h : es'.filterMap child = []) : LastSettled child (es ++ es') ↔ LastSettled child es := by
  rw [LastSettled, List.filterMap_append, h, List.append_nil, LastSettled]

/-- A stream whose only effect is the answer it gives. -/
class Answering (σ : Type) (α : outParam Type) extends AsyncStream σ (Poll (Option α)) α where
  records : ∀ {s s' : σ} {r es}, (pollNext s).Returns (r, s') es → es = [r]

/-- A stream that answers from a queue of items and records each answer it gives. -/
class Leaf (σ : Type) (α : outParam Type) extends AsyncStream σ (Poll (Option α)) α where
  items : σ → List α
  armed : σ → Prop
  pollNext_spec : ∀ {s s' : σ} {r es}, (pollNext s).Returns (r, s') es →
    es = [r] ∧ r.item = (items s).head? ∧ items s' = (items s).tail ∧ (r = .pending → armed s')

export Leaf (items pollNext_spec)

instance [Leaf σ α] : Answering σ α where
  records h := (pollNext_spec h).1

theorem Leaf.items_of_item [Leaf σ α] {s s' : σ} (h : (pollNext s).Returns (r, s') es)
    (hr : r.item = some a) : es = [.ready (some a)] ∧ items s = a :: items s' := by
  obtain ⟨rfl, hi, hs, -⟩ := pollNext_spec h
  rw [hr] at hi
  rw [Poll.eq_ready hr, hs]
  exact ⟨rfl, (List.cons_head?_tail hi.symm).symm⟩

theorem Leaf.items_of_none [Leaf σ α] {s s' : σ} (h : (pollNext s).Returns (r, s') es)
    (hr : r.item = none) : es = [r] ∧ items s = [] ∧ items s' = [] := by
  obtain ⟨rfl, hi, hs, -⟩ := pollNext_spec h
  have hn : items s = [] := List.head?_eq_none_iff.1 (hi.symm.trans hr)
  rw [hs, hn]
  exact ⟨rfl, rfl, rfl⟩

theorem Leaf.items_eq [Leaf σ α] {s s' : σ} (h : (pollNext s).Returns (r, s') es) :
    items s = r.item.toList ++ items s' := by
  obtain ⟨-, hi, hs, -⟩ := pollNext_spec h
  rw [hi, hs]
  cases items s <;> rfl

instance [Leaf σ α] : WakeContract σ where
  armed := Leaf.armed
  holdsItem s := items s ≠ []
  armed_of_pending h := (pollNext_spec h).2.2.2 rfl
  empty_of_end {s _ _} h := by
    obtain ⟨-, hr, hs, -⟩ := pollNext_spec h
    cases hq : items s with
    | nil => simp [hs, hq]
    | cons a as => simp [hq] at hr

def answering (p : Poll (Option α) × σ) : Exec (Poll (Option α)) (Poll (Option α) × σ) := do
  Exec.emit p.1
  return p

@[simp] theorem returns_answering {p q : Poll (Option α) × σ} :
    (answering p).Returns q es ↔ q = p ∧ es = [p.1] := by
  simp only [answering, Exec.returns_bind, Exec.returns_emit, Exec.returns_pure]
  constructor
  · rintro ⟨_, _, _, rfl, ⟨rfl, rfl⟩, rfl⟩
    exact ⟨rfl, rfl⟩
  · rintro ⟨rfl, rfl⟩
    exact ⟨(), _, _, rfl, ⟨rfl, rfl⟩, rfl⟩

def answer (queue : List α) (ended : Bool) : Poll (Option α) :=
  match queue with
  | a :: _ => .ready (some a)
  | [] => if ended then .ready none else .pending

@[simp] theorem answer_item (queue : List α) (ended : Bool) :
    (answer queue ended).item = queue.head? := by
  cases queue <;> cases ended <;> rfl

/-- A stream whose polls always return is a leaf if they pop the queue of its items. -/
@[reducible] def Leaf.ofPoll (poll : σ → Poll (Option α) × σ) (items : σ → List α)
    (armed : σ → Prop) (hr : ∀ s, (poll s).1.item = (items s).head?)
    (hs : ∀ s, items (poll s).2 = (items s).tail)
    (ha : ∀ s, (poll s).1 = .pending → armed (poll s).2) : Leaf σ α where
  pollNext s := answering (poll s)
  items := items
  armed := armed
  pollNext_spec {s s' r es} h := by
    obtain ⟨he, rfl⟩ := returns_answering.1 h
    obtain ⟨rfl, rfl⟩ := Prod.ext_iff.1 he
    exact ⟨rfl, hr s, hs s, ha s⟩

/-- A stream fed by the environment: any sequence of items, ready at any time. -/
structure Source (α : Type) where
  ready : List α := []
  ended : Bool := false
  armed : Bool := false
  deriving DecidableEq, Repr

inductive SourceInput (α : Type) where
  | push (a : α)
  | finish
  deriving DecidableEq, Repr

def Source.act (s : Source α) : SourceInput α → Source α
  | .push a => { s with ready := s.ready ++ [a] }
  | .finish => { s with ended := true }

instance : Environment (Source α) (SourceInput α) := ⟨Source.act⟩

def Source.poll (s : Source α) : Poll (Option α) × Source α :=
  let r := answer s.ready s.ended
  (r, { s with ready := s.ready.tail, armed := r.isPending })

theorem Source.poll_item {s s' : Source α} (h : s.poll = (r, s')) (hr : r.item = some a) :
    s.ready = a :: s'.ready ∧ s'.ended = s.ended := by
  obtain ⟨rfl, rfl⟩ := Prod.mk.inj h
  rw [answer_item] at hr
  exact ⟨(List.cons_head?_tail hr).symm, rfl⟩

theorem Source.poll_settled {s s' : Source α} (h : s.poll = (r, s')) (hr : r.item = none) :
    s.ready = [] ∧ s'.ready = [] ∧ s'.ended = s.ended := by
  obtain ⟨rfl, rfl⟩ := Prod.mk.inj h
  rw [answer_item, List.head?_eq_none_iff] at hr
  exact ⟨hr, (congrArg List.tail hr).trans rfl, rfl⟩

theorem Source.poll_ne_end {s : Source α} (h : s.ended = false) : s.poll.1 ≠ .ready none := by
  rw [Source.poll, h]
  cases s.ready <;> exact fun he => by cases he

instance : Leaf (Source α) α :=
  .ofPoll Source.poll Source.ready (·.armed = true) (fun _ => answer_item _ _) (fun _ => rfl)
    (fun _ => (Poll.isPending_iff _).2)

theorem Source.pollNext_halts (s : Source α) : (AsyncStream.pollNext s).Halts :=
  ⟨_, _, returns_answering.2 ⟨rfl, rfl⟩⟩

/-- Futures polled together: those in flight, and the outputs not yet handed out. -/
structure FuturesUnordered (κ β : Type) where
  inFlight : List κ := []
  done : List β := []
  armed : Bool := false
  deriving DecidableEq, Repr

def FuturesUnordered.push (s : FuturesUnordered κ β) (k : κ) : FuturesUnordered κ β :=
  { s with inFlight := s.inFlight ++ [k] }

structure Completion (β : Type) where
  index : Nat
  output : β
  deriving DecidableEq, Repr

def FuturesUnordered.act (s : FuturesUnordered κ β) (c : Completion β) : FuturesUnordered κ β :=
  if c.index < s.inFlight.length then
    { s with inFlight := s.inFlight.eraseIdx c.index, done := s.done ++ [c.output] }
  else s

instance : Environment (FuturesUnordered κ β) (Completion β) := ⟨FuturesUnordered.act⟩

theorem FuturesUnordered.act_inFlight_congr {s t : FuturesUnordered κ β}
    (h : s.inFlight = t.inFlight) (c : Completion β) :
    (s.act c).inFlight = (t.act c).inFlight := by
  rw [act, act, h]
  split
  · rfl
  · exact h

theorem FuturesUnordered.act_done {s t : FuturesUnordered κ β} (hf : s.inFlight = t.inFlight)
    (hd : s.done = outputs ++ t.done) (c : Completion β) :
    (s.act c).inFlight = (t.act c).inFlight ∧ (s.act c).done = outputs ++ (t.act c).done := by
  refine ⟨act_inFlight_congr hf c, ?_⟩
  rw [act, act, hf]
  split
  · rw [hd, List.append_assoc]
  · exact hd

/-- A set without futures is at its end until the next push. -/
def FuturesUnordered.poll (s : FuturesUnordered κ β) :
    Poll (Option β) × FuturesUnordered κ β :=
  let r := answer s.done s.inFlight.isEmpty
  (r, { s with done := s.done.tail, armed := r.isPending })

instance : Leaf (FuturesUnordered κ β) β :=
  .ofPoll FuturesUnordered.poll FuturesUnordered.done (·.armed = true)
    (fun _ => answer_item _ _) (fun _ => rfl) (fun _ => (Poll.isPending_iff _).2)

theorem FuturesUnordered.pollNext_halts (s : FuturesUnordered κ β) :
    (AsyncStream.pollNext s).Halts := ⟨_, _, returns_answering.2 ⟨rfl, rfl⟩⟩

theorem FuturesUnordered.pollNext_inFlight {s s' : FuturesUnordered κ β}
    (h : (pollNext s).Returns (r, s') es) : s'.inFlight = s.inFlight := by
  obtain ⟨he, -⟩ := returns_answering.1 h
  obtain ⟨-, rfl⟩ := Prod.ext_iff.1 he
  rfl

structure Channel (α : Type) where
  queue : List α := []
  senders : Nat := 1
  receiver : Bool := true
  armed : Bool := false
  deriving DecidableEq, Repr

/-- Sending fails only when the receiver is gone. -/
def Channel.trySend (c : Channel α) (a : α) : Option (Channel α) :=
  if c.receiver then some { c with queue := c.queue ++ [a] } else none

theorem Channel.trySend_queue {c c' : Channel α} (h : c.trySend a = some c') :
    c'.queue = c.queue ++ [a] := by
  rw [trySend] at h
  split at h
  · cases h
    rfl
  · cases h

theorem Channel.trySend_receiver {c c' : Channel α} (h : c.trySend a = some c') :
    c'.receiver = c.receiver := by
  rw [trySend] at h
  split at h
  · cases h
    rfl
  · cases h

def Channel.poll (c : Channel α) : Poll (Option α) × Channel α :=
  let r := answer c.queue (c.senders = 0)
  (r, { c with queue := c.queue.tail, armed := r.isPending })

theorem Channel.poll_queue {c c' : Channel α} (h : c.poll = (r, c')) :
    c.queue = r.item.toList ++ c'.queue := by
  obtain ⟨rfl, rfl⟩ := Prod.mk.inj h
  rw [answer_item]
  cases c.queue <;> rfl

theorem Channel.poll_pending {c c' : Channel α} (h : c.poll = (.pending, c')) :
    c.queue = [] ∧ c.senders ≠ 0 := by
  obtain ⟨hr, -⟩ := Prod.mk.inj h
  cases hq : c.queue with
  | cons a as =>
    rw [hq] at hr
    cases hr
  | nil =>
    refine ⟨rfl, fun hs => ?_⟩
    rw [hq, answer, if_pos (decide_eq_true hs)] at hr
    cases hr

theorem Channel.poll_end {c c' : Channel α} (h : c.poll = (.ready none, c')) :
    c.senders = 0 := by
  obtain ⟨hr, -⟩ := Prod.mk.inj h
  by_contra hs
  rw [decide_eq_false hs] at hr
  cases hq : c.queue with
  | cons a as =>
    rw [hq] at hr
    cases hr
  | nil =>
    rw [hq] at hr
    cases hr

theorem Channel.poll_senders {c c' : Channel α} (h : c.poll = (r, c')) :
    c'.senders = c.senders ∧ c'.receiver = c.receiver := by
  obtain ⟨rfl, rfl⟩ := Prod.mk.inj h
  exact ⟨rfl, rfl⟩

instance : Leaf (Channel α) α :=
  .ofPoll Channel.poll Channel.queue (·.armed = true) (fun _ => answer_item _ _) (fun _ => rfl)
    (fun _ => (Poll.isPending_iff _).2)

def Channel.cloneSender (c : Channel α) : Channel α := { c with senders := c.senders + 1 }

def Channel.dropSender (c : Channel α) : Channel α := { c with senders := c.senders - 1 }

def Channel.dropReceiver (c : Channel α) : Channel α := { c with receiver := false }

theorem Channel.pollNext_receiver {c c' : Channel α} (h : (pollNext c).Returns (r, c') es) :
    c'.receiver = c.receiver := by
  obtain ⟨he, -⟩ := returns_answering.1 h
  cases he
  rfl

theorem Channel.pollNext_senders {c c' : Channel α} (h : (pollNext c).Returns (r, c') es) :
    c'.senders = c.senders := by
  obtain ⟨he, -⟩ := returns_answering.1 h
  cases he
  rfl

/-- A channel ends only when all its senders are gone. -/
theorem Channel.pollNext_ne_end {c : Channel α} (hs : c.senders ≠ 0)
    (h : (pollNext c).Returns (r, c') es) : r ≠ .ready none := by
  obtain ⟨he, -⟩ := returns_answering.1 h
  cases he
  rw [decide_eq_false hs]
  cases c.queue <;> exact fun he => by cases he

end Async
