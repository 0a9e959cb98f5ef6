import HyperswarmRs.Async.Stream

namespace Async
set_option autoImplicit true

/-- A stream of bytes that the environment feeds, and whose bytes it takes as far as it has room
for them. A side that ends does so in order, or with an error. -/
structure Duplex (ε : Type) where
  arrived : List UInt8 := []
  readEnd : Option (Except ε Unit) := none
  room : Nat := 0
  writeEnd : Option (Except ε Unit) := none

inductive DuplexEnd (ε : Type) where
  | read (r : Except ε Unit)
  | write (r : Except ε Unit)

inductive DuplexInput (ε : Type) where
  | arrive (bytes : List UInt8)
  | grant (room : Nat)
  | stop (i : DuplexEnd ε)

inductive StreamError (ε : Type) where
  | unexpectedEof
  | writeZero
  | failed (e : ε)
  deriving DecidableEq, Repr

namespace Duplex

def act (s : Duplex ε) : DuplexInput ε → Duplex ε
  | .arrive bytes => { s with arrived := s.arrived ++ bytes }
  | .grant room => { s with room := s.room + room }
  | .stop (.read r) => { s with readEnd := some r }
  | .stop (.write r) => { s with writeEnd := some r }

instance : Environment (Duplex ε) (DuplexInput ε) := ⟨act⟩

@[simp] theorem act_arrive_nil (s : Duplex ε) : s.act (.arrive []) = s := by
  rw [act, List.append_nil]

@[simp] theorem act_grant_zero (s : Duplex ε) : s.act (.grant 0) = s := rfl

/-- A side that was ended in order answers that no bytes follow. -/
def ending (e : StreamError ε) : Except ε Unit → StreamError ε
  | .ok () => e
  | .error e' => .failed e'

/-- One turn of `ReadExactFuture`: a read into a buffer that still wants `n` bytes. -/
def read (s : Duplex ε) (n : Nat) : Poll (Except (StreamError ε) (List UInt8)) × Duplex ε :=
  match s.arrived, s.readEnd with
  | [], none => (.pending, s)
  | [], some r => (.ready (.error (ending .unexpectedEof r)), s)
  | bytes, _ => (.ready (.ok (bytes.take n)), { s with arrived := bytes.drop n })

/-- One turn of `WriteAllFuture`: a write of what the buffer still holds. -/
def write (s : Duplex ε) (buf : List UInt8) : Poll (Except (StreamError ε) Nat) × Duplex ε :=
  match s.writeEnd with
  | some r => (.ready (.error (ending .writeZero r)), s)
  | none =>
    if s.room = 0 then (.pending, s)
    else
      let n := min s.room buf.length
      (.ready (.ok n), { s with room := s.room - n })

inductive Reads (s : Duplex ε) (n : Nat) :
    Poll (Except (StreamError ε) (List UInt8)) → Duplex ε → Prop where
  | pending : s.arrived = [] → s.readEnd = none → Reads s n .pending s
  | failed : s.arrived = [] → s.readEnd = some r →
      Reads s n (.ready (.error (ending .unexpectedEof r))) s
  | bytes : s.arrived = bytes ++ rest → bytes ≠ [] → bytes.length ≤ n →
      (rest ≠ [] → bytes.length = n) →
      Reads s n (.ready (.ok bytes)) { s with arrived := rest }

theorem read_cases (s : Duplex ε) (hn : 0 < n) : Reads s n (s.read n).1 (s.read n).2 := by
  rw [read]
  cases ha : s.arrived with
  | nil =>
    cases he : s.readEnd with
    | none => exact .pending ha he
    | some r => exact .failed ha he
  | cons b bytes =>
    refine .bytes ?_ ?_ (List.length_take_le ..) ?_
    · rw [ha]
      exact (List.take_append_drop ..).symm
    · obtain ⟨k, rfl⟩ := Nat.exists_eq_succ_of_ne_zero (Nat.ne_of_gt hn)
      rw [List.take_succ_cons]
      exact List.cons_ne_nil _ _
    · intro hr
      have hl : ((b :: bytes).drop n).length ≠ 0 := fun h => hr (List.length_eq_zero_iff.1 h)
      rw [List.length_drop] at hl
      rw [List.length_take]
      omega

inductive Writes (s : Duplex ε) (buf : List UInt8) :
    Poll (Except (StreamError ε) Nat) → Duplex ε → Prop where
  | pending : s.room = 0 → s.writeEnd = none → Writes s buf .pending s
  | failed : s.writeEnd = some r → Writes s buf (.ready (.error (ending .writeZero r))) s
  | wrote : s.room = n + k → s.writeEnd = none → 0 < n → n ≤ buf.length →
      (k ≠ 0 → n = buf.length) → Writes s buf (.ready (.ok n)) { s with room := k }

theorem write_cases (s : Duplex ε) (hb : buf ≠ []) :
    Writes s buf (s.write buf).1 (s.write buf).2 := by
  have hl : 0 < buf.length := List.length_pos_iff.2 hb
  rw [write]
  split
  · exact .failed ‹_›
  · by_cases hr : s.room = 0
    · rw [if_pos hr]
      exact .pending hr ‹_›
    · rw [if_neg hr]
      exact .wrote (by omega) ‹_› (by omega) (by omega) (by omega)

end Duplex

end Async
