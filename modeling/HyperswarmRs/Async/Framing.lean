import Mathlib.Algebra.Group.Nat.Defs
import Mathlib.Data.List.Basic
import Mathlib.Data.List.Induction

namespace Async
set_option autoImplicit true

/-- The digits of a number in base 256, the most significant first. Those that do not fit into
the width are lost. -/
def toBeBytes : Nat → Nat → List UInt8
  | 0, _ => []
  | width + 1, n => toBeBytes width (n / 256) ++ [UInt8.ofNat n]

def fromBeBytes (bytes : List UInt8) : Nat := bytes.foldl (fun n b => 256 * n + b.toNat) 0

@[simp] theorem toBeBytes_length (width n : Nat) : (toBeBytes width n).length = width := by
  induction width generalizing n with
  | zero => rfl
  | succ width ih => rw [toBeBytes, List.length_append, ih, List.length_singleton]

theorem fromBeBytes_concat (bytes : List UInt8) (b : UInt8) :
    fromBeBytes (bytes ++ [b]) = 256 * fromBeBytes bytes + b.toNat := by
  rw [fromBeBytes, List.foldl_append]
  rfl

theorem fromBeBytes_lt (bytes : List UInt8) : fromBeBytes bytes < 256 ^ bytes.length := by
  induction bytes using List.reverseRecOn with
  | nil => decide
  | append_singleton bytes b ih =>
    have hb := b.toNat_lt
    rw [fromBeBytes_concat, List.length_append, List.length_singleton, Nat.pow_succ]
    omega

theorem fromBeBytes_toBeBytes (width n : Nat) :
    fromBeBytes (toBeBytes width n) = n % 256 ^ width := by
  induction width generalizing n with
  | zero => exact (Nat.mod_one n).symm
  | succ width ih =>
    have hn : (UInt8.ofNat n).toNat = n % 256 := UInt8.toNat_ofNat'
    rw [toBeBytes, fromBeBytes_concat, ih, hn, Nat.pow_succ, Nat.mul_comm _ 256, Nat.mod_mul,
      Nat.add_comm]

theorem toBeBytes_fromBeBytes (bytes : List UInt8) :
    toBeBytes bytes.length (fromBeBytes bytes) = bytes := by
  induction bytes using List.reverseRecOn with
  | nil => rfl
  | append_singleton bytes b ih =>
    have hb := b.toNat_lt
    have hq : (256 * fromBeBytes bytes + b.toNat) / 256 = fromBeBytes bytes := by omega
    have hr : UInt8.ofNat (256 * fromBeBytes bytes + b.toNat) = b := by
      apply UInt8.toNat_inj.1
      rw [UInt8.toNat_ofNat']
      omega
    rw [fromBeBytes_concat, List.length_append, List.length_singleton, toBeBytes, hq, hr, ih]

/-- A message behind the number of its bytes. -/
def frame (width : Nat) (message : List UInt8) : List UInt8 :=
  toBeBytes width message.length ++ message

def frames (width : Nat) (messages : List (List UInt8)) : List UInt8 :=
  messages.flatMap (frame width)

def Fits (width : Nat) (message : List UInt8) : Prop := message.length < 256 ^ width

/-- Bytes that end before the frame that they begin does. -/
def Incomplete (width : Nat) (bytes : List UInt8) : Prop :=
  width ≤ bytes.length → bytes.length < width + fromBeBytes (bytes.take width)

section Frames

variable {width : Nat} {m m' : List UInt8}

@[simp] theorem frame_length (width : Nat) (m : List UInt8) :
    (frame width m).length = width + m.length := by
  rw [frame, List.length_append, toBeBytes_length]

@[simp] theorem frames_nil (width : Nat) : frames width [] = [] := rfl

@[simp] theorem frames_cons (width : Nat) (m : List UInt8) (ms : List (List UInt8)) :
    frames width (m :: ms) = frame width m ++ frames width ms := List.flatMap_cons

@[simp] theorem frames_append (width : Nat) (ms ms' : List (List UInt8)) :
    frames width (ms ++ ms') = frames width ms ++ frames width ms' := List.flatMap_append

theorem frame_take (m rest : List UInt8) :
    (frame width m ++ rest).take width = toBeBytes width m.length := by
  rw [frame, List.append_assoc, List.take_left' (toBeBytes_length ..)]

theorem Fits.header (h : Fits width m) (rest : List UInt8) :
    fromBeBytes ((frame width m ++ rest).take width) = m.length := by
  rw [frame_take, fromBeBytes_toBeBytes, Nat.mod_eq_of_lt h]

theorem incomplete_nil (h : 0 < width) : Incomplete width [] := fun hl =>
  (Nat.not_lt.2 hl h).elim

theorem Incomplete.of_length (h : bytes.length < width) : Incomplete width bytes := fun hl =>
  (Nat.not_lt.2 hl h).elim

theorem Fits.not_incomplete (h : Fits width m) (rest : List UInt8) :
    ¬ Incomplete width (frame width m ++ rest) := by
  intro hi
  have hl : (frame width m ++ rest).length = width + m.length + rest.length := by
    rw [List.length_append, frame_length]
  have hlt := hi (by omega)
  rw [h.header rest] at hlt
  omega

/-- The bytes themselves say where the first message ends. -/
theorem frame_inj (h : Fits width m) (h' : Fits width m')
    (he : frame width m ++ rest = frame width m' ++ rest') : m = m' ∧ rest = rest' := by
  have hl : m.length = m'.length := by rw [← h.header rest, ← h'.header rest', he]
  rw [frame, frame, List.append_assoc, List.append_assoc, hl] at he
  exact List.append_inj (List.append_cancel_left he) hl

end Frames

/-- The bytes are the frames of the messages, and the beginning of one more. -/
structure Framed (width : Nat) (bytes : List UInt8) (messages : List (List UInt8))
    (rest : List UInt8) : Prop where
  eq : bytes = frames width messages ++ rest
  fits : ∀ m ∈ messages, Fits width m
  incomplete : Incomplete width rest

theorem framed_frames (hw : 0 < width) (h : ∀ m ∈ messages, Fits width m) :
    Framed width (frames width messages) messages [] :=
  ⟨(List.append_nil _).symm, h, incomplete_nil hw⟩

theorem Framed.begins (h : Framed width bytes ms rest) (hf : ∀ d ∈ ds, Fits width d)
    (hb : frames width ds <+: bytes) : ds <+: ms := by
  induction ds generalizing ms bytes with
  | nil => exact List.nil_prefix
  | cons d ds ih =>
    obtain ⟨more, rfl⟩ := hb
    have he := h.eq
    have hd : Fits width d := hf d List.mem_cons_self
    rw [frames_cons, List.append_assoc] at he
    cases ms with
    | nil =>
      rw [frames_nil, List.nil_append] at he
      exact (hd.not_incomplete _ (he ▸ h.incomplete)).elim
    | cons m ms =>
      rw [frames_cons, List.append_assoc] at he
      obtain ⟨rfl, he'⟩ := frame_inj hd (h.fits m List.mem_cons_self) he
      have hs : Framed width (frames width ds ++ more) ms rest :=
        ⟨he', fun m hm => h.fits m (List.mem_cons_of_mem _ hm), h.incomplete⟩
      exact (List.prefix_cons_inj d).2
        (ih hs (fun m hm => hf m (List.mem_cons_of_mem _ hm)) (List.prefix_append ..))

theorem Framed.mono (h : Framed width bytes ds rest) (h' : Framed width bytes' ds' rest')
    (hb : bytes <+: bytes') : ds <+: ds' := by
  apply h'.begins h.fits
  rw [h.eq] at hb
  exact (List.prefix_append ..).trans hb

/-- However the bytes were cut when they came, they are read as the same messages. -/
theorem Framed.unique (h : Framed width bytes ds rest) (h' : Framed width bytes ds' rest') :
    ds = ds' ∧ rest = rest' := by
  have hds : ds = ds' := (h.mono h' (List.prefix_refl _)).eq_of_length_le
    (h'.mono h (List.prefix_refl _)).length_le
  subst hds
  exact ⟨rfl, List.append_cancel_left (h.eq.symm.trans h'.eq)⟩

end Async
