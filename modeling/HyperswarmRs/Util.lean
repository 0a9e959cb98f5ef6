import HyperswarmRs.Discovery.Basic

namespace HyperswarmRs
open Async
set_option autoImplicit true

/-- The keyed hasher of the `blake2` crate. -/
structure Blake2b (H : Type) where
  withKey : Nat → List UInt8 → Except Fault H
  update : H → List UInt8 → H
  finalize : H → List UInt8

namespace Blake2b

/-- What the crate documents: it asserts the length of the digest and of the key. -/
structure Documented (B : Blake2b H) : Prop where
  accepts : 1 ≤ n → n ≤ 64 → key.length ≤ 64 → ∃ hasher, B.withKey n key = .ok hasher
  asserts : ¬ (1 ≤ n ∧ n ≤ 64 ∧ key.length ≤ 64) → B.withKey n key = .error .panicked
  length : B.withKey n key = .ok hasher → (B.finalize (B.update hasher data)).length = n

/-- No two of the inputs, of data and a key, have the same digest of 32 bytes. -/
def CollisionFree (B : Blake2b H) (inputs : Set (List UInt8 × List UInt8)) : Prop :=
  ∀ p ∈ inputs, ∀ q ∈ inputs, ∀ hasher hasher', B.withKey 32 p.2 = .ok hasher →
    B.withKey 32 q.2 = .ok hasher' →
      B.finalize (B.update hasher p.1) = B.finalize (B.update hasher' q.1) → p = q

end Blake2b

/-- The topic is the key, and the namespace the data. -/
def hashTopic (B : Blake2b H) (ns topic : List UInt8) : Except Fault Topic := do
  let hasher ← B.withKey 32 topic
  let hasher := B.update hasher ns
  match Topic.ofBytes? (B.finalize hasher) with
  | some hash => return hash
  | none => throw .panicked

section Hashing

variable {B : Blake2b H}

theorem hashTopic_ok (hB : B.Documented) (ns : List UInt8) (hk : B.withKey 32 topic = .ok hasher) :
    ∃ hash, hashTopic B ns topic = .ok hash ∧ hash.val = B.finalize (B.update hasher ns) := by
  have hl : (B.finalize (B.update hasher ns)).length = 32 := hB.length hk
  have ho : Topic.ofBytes? (B.finalize (B.update hasher ns)) = some ⟨_, hl⟩ := dif_pos hl
  refine ⟨⟨_, hl⟩, ?_, rfl⟩
  rw [hashTopic, hk]
  change (match Topic.ofBytes? (B.finalize (B.update hasher ns)) with
    | some hash => pure hash
    | none => throw Fault.panicked) = _
  rw [ho]
  rfl

theorem hashTopic_panicked (hB : B.Documented) (ns : List UInt8) (h : ¬ topic.length ≤ 64) :
    hashTopic B ns topic = .error .panicked := by
  have hk : B.withKey 32 topic = .error .panicked := hB.asserts fun hn => h hn.2.2
  rw [hashTopic, hk]
  rfl

theorem hashTopic_completes_iff (hB : B.Documented) (ns topic : List UInt8) :
    (∃ hash, hashTopic B ns topic = .ok hash) ↔ topic.length ≤ 64 := by
  constructor
  · rintro ⟨hash, h⟩
    by_contra hn
    rw [hashTopic_panicked hB ns hn] at h
    cases h
  · intro h
    obtain ⟨hasher, hk⟩ := hB.accepts (n := 32) (by decide) (by decide) h
    obtain ⟨hash, hh, -⟩ := hashTopic_ok hB ns hk
    exact ⟨hash, hh⟩

def Separates (B : Blake2b H) (p q : List UInt8 × List UInt8) : Prop :=
  ∃ a b, hashTopic B p.1 p.2 = .ok a ∧ hashTopic B q.1 q.2 = .ok b ∧ (a = b ↔ p = q)

/-- The hash takes topics of up to 64 bytes, the length of a key, and no others; these it tells
apart, together with their namespaces. -/
theorem hashTopic_separates_iff (hB : B.Documented) {inputs : Set (List UInt8 × List UInt8)}
    (hc : B.CollisionFree inputs) :
    (∀ ns topic, (∃ hash, hashTopic B ns topic = .ok hash) ↔ topic.length ≤ 64) ∧
    ∀ p ∈ inputs, ∀ q ∈ inputs, Separates B p q ↔ p.2.length ≤ 64 ∧ q.2.length ≤ 64 := by
  refine ⟨hashTopic_completes_iff hB, fun p hp q hq => ?_⟩
  constructor
  · rintro ⟨a, b, ha, hb, -⟩
    exact ⟨(hashTopic_completes_iff hB _ _).1 ⟨a, ha⟩, (hashTopic_completes_iff hB _ _).1 ⟨b, hb⟩⟩
  · rintro ⟨hlp, hlq⟩
    obtain ⟨hasher, hk⟩ := hB.accepts (n := 32) (by decide) (by decide) hlp
    obtain ⟨hasher', hk'⟩ := hB.accepts (n := 32) (by decide) (by decide) hlq
    obtain ⟨a, ha, hav⟩ := hashTopic_ok hB p.1 hk
    obtain ⟨b, hb, hbv⟩ := hashTopic_ok hB q.1 hk'
    refine ⟨a, b, ha, hb, ?_⟩
    constructor
    · rintro rfl
      exact hc p hp q hq hasher hasher' hk hk' (hav.symm.trans hbv)
    · rintro rfl
      exact Except.ok.inj (ha.symm.trans hb)

end Hashing

/-- The namespace of the chat example, and two of its topics: "asdf" and "rust". -/
def Chat.ns : List UInt8 := [104, 121, 112, 101, 114, 99, 104, 97, 116, 58, 118, 48]

def Chat.asdf : List UInt8 := [97, 115, 100, 102]

def Chat.rust : List UInt8 := [114, 117, 115, 116]

/-- A hasher that knows the BLAKE2b digests of these two inputs. -/
def Chat.hasher : Blake2b (Nat × List UInt8 × List UInt8) where
  withKey n key :=
    if 1 ≤ n ∧ n ≤ 64 ∧ key.length ≤ 64 then .ok (n, key, []) else .error .panicked
  update hasher data := (hasher.1, hasher.2.1, hasher.2.2 ++ data)
  finalize hasher :=
    if hasher = (32, Chat.asdf, Chat.ns) then
      [160, 93, 17, 198, 35, 75, 51, 33, 49, 94, 193, 117, 89, 45, 252, 25, 63, 86, 80, 162,
        139, 86, 155, 62, 9, 186, 197, 164, 33, 107, 177, 56]
    else if hasher = (32, Chat.rust, Chat.ns) then
      [42, 222, 54, 198, 225, 71, 143, 158, 142, 255, 11, 172, 34, 44, 244, 91, 45, 18, 207,
        223, 224, 109, 235, 116, 180, 10, 78, 231, 217, 233, 156, 2]
    else List.replicate hasher.1 0

theorem Chat.hasher_documented : Chat.hasher.Documented := by
  refine ⟨fun h₁ h₂ h₃ => ⟨_, if_pos ⟨h₁, h₂, h₃⟩⟩, fun h => if_neg h, ?_⟩
  intro n key hasher data h
  have hn : hasher.1 = n := by
    change (if 1 ≤ n ∧ n ≤ 64 ∧ key.length ≤ 64 then _ else _) = _ at h
    split at h
    · cases h
      rfl
    · cases h
  rw [← hn]
  change (if (hasher.1, hasher.2.1, hasher.2.2 ++ data) = (32, Chat.asdf, Chat.ns) then _
    else if (hasher.1, hasher.2.1, hasher.2.2 ++ data) = (32, Chat.rust, Chat.ns) then _
    else List.replicate hasher.1 0 : List UInt8).length = hasher.1
  split
  · next he => exact (congrArg Prod.fst he).symm
  · split
    · next he => exact (congrArg Prod.fst he).symm
    · exact List.length_replicate

theorem Chat.hasher_collisionFree :
    Chat.hasher.CollisionFree {(Chat.ns, Chat.asdf), (Chat.ns, Chat.rust)} := by
  rintro p (rfl | rfl) q (rfl | rfl) hasher hasher' h h' he
  · rfl
  · cases h
    cases h'
    exact absurd he (by decide)
  · cases h
    cases h'
    exact absurd he (by decide)
  · rfl

theorem hashTopic_separates_chat :
    (∃ hash, hashTopic Chat.hasher Chat.ns Chat.asdf = .ok hash) ∧
      Separates Chat.hasher (Chat.ns, Chat.asdf) (Chat.ns, Chat.rust) :=
  have h := hashTopic_separates_iff Chat.hasher_documented Chat.hasher_collisionFree
  ⟨(h.1 Chat.ns Chat.asdf).2 (by decide), (h.2 _ (.inl rfl) _ (.inr rfl)).2 (by decide)⟩

theorem hashTopic_long_topic_panics :
    Chat.hasher.Documented ∧
      hashTopic Chat.hasher Chat.ns (List.replicate 65 97) = .error .panicked :=
  ⟨Chat.hasher_documented, by rfl⟩

end HyperswarmRs
