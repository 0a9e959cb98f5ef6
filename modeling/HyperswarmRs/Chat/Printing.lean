import HyperswarmRs.Chat.Telling
import Mathlib.Logic.Function.Basic

namespace HyperswarmRs
open Async
set_option autoImplicit true

inductive Line where
  | knownAs (peerId : PeerId) (name : String)
  | said (peerId : PeerId) (name content : String)
  deriving DecidableEq, Repr

def Line.text : Line → String
  | .knownAs peerId name => "[" ++ peerId ++ "] " ++ ("is now known as `" ++ name ++ "`")
  | .said peerId name content => "[" ++ peerId ++ "] " ++ ("<" ++ name ++ "> " ++ content)

def IncomingMessage.text (message : IncomingMessage) : String :=
  match String.fromUTF8? message.content.toByteArray with
  | some text => text
  | none => "<invalid utf8>"

/-- The task that prints what comes in; it has one name, for all peers. -/
def printIncoming (name : Option String) : List IncomingMessage → List Line
  | [] => []
  | message :: messages =>
    match name with
    | none => .knownAs message.from message.text :: printIncoming (some message.text) messages
    | some name => .said message.from name message.text :: printIncoming (some name) messages

/-- What the names are for: the first message that comes from a peer is its name. -/
def printByPeer (names : PeerId → Option String) : List IncomingMessage → List Line
  | [] => []
  | message :: messages =>
    match names message.from with
    | none => .knownAs message.from message.text ::
        printByPeer (Function.update names message.from (some message.text)) messages
    | some name => .said message.from name message.text :: printByPeer names messages

theorem Line.said_text_ne (peerId : PeerId) (name content name' : String) :
    (Line.said peerId name content).text ≠ (Line.knownAs peerId name').text := by
  intro h
  have hl := congrArg String.toList h
  simp only [text, String.toList_append, List.append_cancel_left_eq] at hl
  exact absurd (List.cons.inj hl).1 (by decide)

theorem printIncoming_named (hn : ∀ p, names p = if p = peerId then some name else none) :
    (printIncoming (some name) messages).map Line.text =
      (printByPeer names messages).map Line.text ↔ ∀ m ∈ messages, m.from = peerId := by
  induction messages with
  | nil => exact ⟨fun _ => List.forall_mem_nil _, fun _ => rfl⟩
  | cons message messages ih =>
    rw [printIncoming, printByPeer, hn, List.forall_mem_cons]
    by_cases hp : message.from = peerId
    · rw [if_pos hp]
      simp only [List.map_cons, List.cons.injEq, true_and, ih, hp]
    · rw [if_neg hp]
      refine ⟨fun h => ?_, fun h => (hp h.1).elim⟩
      exact (Line.said_text_ne _ _ _ _ (List.cons.inj h).1).elim

theorem printIncoming_iff (messages : List IncomingMessage) :
    (printIncoming none messages).map Line.text =
      (printByPeer (fun _ => none) messages).map Line.text ↔
        ∀ m ∈ messages, ∀ m' ∈ messages, m.from = m'.from := by
  cases messages with
  | nil => exact ⟨fun _ => List.forall_mem_nil _, fun _ => rfl⟩
  | cons message messages =>
    have hn : ∀ p, Function.update (fun _ => none) message.from (some message.text) p =
        if p = message.from then some message.text else none := by
      intro p
      rw [Function.update_apply]
    rw [printIncoming, printByPeer, List.map_cons, List.map_cons, List.cons.injEq]
    simp only [true_and, printIncoming_named hn]
    constructor
    · intro h
      have hall : ∀ m ∈ message :: messages, m.from = message.from :=
        List.forall_mem_cons.2 ⟨rfl, h⟩
      exact fun m hm m' hm' => (hall m hm).trans (hall m' hm').symm
    · exact fun h m hm => h m (List.mem_cons_of_mem _ hm) message List.mem_cons_self

namespace BroadcastEffect

def shown? : BroadcastEffect → Option IncomingMessage
  | .incoming _ message => some message
  | _ => none

end BroadcastEffect

def incomings (es : List BroadcastEffect) : List IncomingMessage :=
  es.filterMap BroadcastEffect.shown?

theorem mem_incomings : m ∈ incomings es ↔ ∃ i, m ∈ incomingPart i es := by
  simp only [incomings, incomingPart, List.mem_filterMap]
  constructor
  · rintro ⟨e, he, hm⟩
    cases e with
    | incoming i message => exact ⟨i, _, he, (if_pos rfl).trans hm⟩
    | _ => cases hm
  · rintro ⟨i, e, he, hm⟩
    cases e with
    | incoming j message =>
      rw [BroadcastEffect.incoming?, Option.ite_none_right_eq_some] at hm
      exact ⟨_, he, hm.2⟩
    | _ => cases hm

namespace HyperBroadcast

theorem Sound.from_eq {s : HyperBroadcast} (h : Sound display tr s) (hm : m ∈ incomingPart i tr) :
    ∃ t, s.tasks[i]? = some t ∧ m.from = t.peerId := by
  have hi : i < s.tasks.length := by
    by_contra hn
    have hnone := (parts_of_unknown i tr fun e he j hj => by
      have hlt := h.bounded e he j hj
      omega).2.1
    rw [hnone] at hm
    cases hm
  refine ⟨_, List.getElem?_eq_getElem hi, ?_⟩
  rw [(h.accounts i _ (List.getElem?_eq_getElem hi)).incoming] at hm
  obtain ⟨content, -, rfl⟩ := List.mem_map.1 hm
  rfl

/-- A node prints all that comes in under the name of one peer: that is right as long as nothing
has come from another one. -/
theorem run_prints_names {s : HyperBroadcast}
    (h : (run (step display) (new initial) events).Returns s tr) :
    (printIncoming none (incomings tr)).map Line.text =
      (printByPeer (fun _ => none) (incomings tr)).map Line.text ↔
        ∀ i j t u, s.tasks[i]? = some t → s.tasks[j]? = some u → incomingPart i tr ≠ [] →
          incomingPart j tr ≠ [] → t.peerId = u.peerId := by
  have hs := run_sound h
  rw [printIncoming_iff]
  constructor
  · intro hall i j t u ht hu hi hj
    obtain ⟨m, hm⟩ := List.exists_mem_of_ne_nil _ hi
    obtain ⟨m', hm'⟩ := List.exists_mem_of_ne_nil _ hj
    obtain ⟨t', ht', hf⟩ := hs.from_eq hm
    obtain ⟨u', hu', hf'⟩ := hs.from_eq hm'
    cases ht.symm.trans ht'
    cases hu.symm.trans hu'
    rw [← hf, ← hf']
    exact hall m (mem_incomings.2 ⟨i, hm⟩) m' (mem_incomings.2 ⟨j, hm'⟩)
  · intro hall m hm m' hm'
    obtain ⟨i, hi⟩ := mem_incomings.1 hm
    obtain ⟨j, hj⟩ := mem_incomings.1 hm'
    obtain ⟨t, ht, hf⟩ := hs.from_eq hi
    obtain ⟨u, hu, hf'⟩ := hs.from_eq hj
    rw [hf, hf']
    exact hall i j t u ht hu (List.ne_nil_of_mem hi) (List.ne_nil_of_mem hj)

theorem run_prints_names_two :
    let display := fun addr => if addr = loopback 1 then "1" else "2"
    let conn := fun port byte => (⟨{ arrived := [0, 0, 0, 1, byte] }, loopback port, true, "tcp"⟩ :
      Connection (Duplex IoError))
    let events := [.next (some (.ok (conn 1 65))), .save, .next (some (.ok (conn 2 66))), .save,
      .advance 0, .advance 0, .forward 0, .advance 1, .advance 1, .forward 1]
    ∃ s tr, (run (step display) (new [72]) events).Returns s tr ∧
      incomings tr = [⟨"tcp:1", [65]⟩, ⟨"tcp:2", [66]⟩] ∧
        (printIncoming none (incomings tr)).map Line.text ≠
          (printByPeer (fun _ => none) (incomings tr)).map Line.text := by
  intro display conn events
  have hc : (run (step display) (new [72]) events).check (fun s tr =>
      incomings tr = [⟨"tcp:1", [65]⟩, ⟨"tcp:2", [66]⟩] ∧ incomingPart 0 tr ≠ [] ∧
        incomingPart 1 tr ≠ [] ∧ s.tasks.map (·.peerId) = ["tcp:1", "tcp:2"]) := by
    decide +kernel
  obtain ⟨s, tr, h, hp⟩ := Exec.exists_of_check hc
  obtain ⟨hm, hi, hj, ht⟩ := of_decide_eq_true hp
  refine ⟨s, tr, h, hm, fun he => ?_⟩
  have ht₀ := congrArg (·[0]?) ht
  have ht₁ := congrArg (·[1]?) ht
  simp only [List.getElem?_map] at ht₀ ht₁
  obtain ⟨t, ht, hid⟩ := Option.map_eq_some_iff.1 ht₀
  obtain ⟨u, hu, hid'⟩ := Option.map_eq_some_iff.1 ht₁
  have heq := (run_prints_names h).1 he 0 1 t u ht hu hi hj
  rw [hid, hid'] at heq
  exact absurd heq (by decide)

end HyperBroadcast

end HyperswarmRs
