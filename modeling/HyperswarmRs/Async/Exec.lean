import Mathlib.Data.List.Basic

namespace Async
set_option autoImplicit true

/-- Why a call never returns to its caller. -/
inductive Fault where
  | panicked
  | outOfFuel
  deriving DecidableEq, Repr

/-- A call faults, or returns a value together with the effects it had, in order. -/
def Exec (ε α : Type) : Type := Except Fault (α × List ε)

namespace Exec

protected def pure (a : α) : Exec ε α := .ok (a, [])

protected def bind (m : Exec ε α) (f : α → Exec ε β) : Exec ε β :=
  match m with
  | .error e => .error e
  | .ok (a, es) =>
    match f a with
    | .error e => .error e
    | .ok (b, es') => .ok (b, es ++ es')

instance : Monad (Exec ε) where
  pure := Exec.pure
  bind := Exec.bind

def fail (e : Fault) : Exec ε α := .error e

def emit (e : ε) : Exec ε Unit := .ok ((), [e])

/-- Report the effects of a component as effects of the one that contains it. -/
def embed (f : ε → ε') (m : Exec ε α) : Exec ε' α :=
  match m with
  | .error e => .error e
  | .ok (a, es) => .ok (a, es.map f)

/-- Hand out the effects of a call together with its value. -/
def listen (m : Exec ε α) : Exec ε (α × List ε) :=
  match m with
  | .error e => .error e
  | .ok (a, es) => .ok ((a, es), es)

def Returns (m : Exec ε α) (a : α) (es : List ε) : Prop := m = .ok (a, es)

@[simp] theorem returns_ok : Returns (.ok (a, es) : Except Fault (α × List ε)) b es' ↔
    b = a ∧ es' = es := by
  constructor
  · intro h
    cases h
    exact ⟨rfl, rfl⟩
  · rintro ⟨rfl, rfl⟩
    rfl

@[simp] theorem returns_error : ¬ Returns (.error e : Except Fault (α × List ε)) b es' := by
  intro h
  cases h

@[simp] theorem returns_pure {a b : α} {es : List ε} :
    (pure a : Exec ε α).Returns b es ↔ b = a ∧ es = [] := returns_ok

@[simp] theorem returns_fail {b : α} {es : List ε} : ¬ (fail e : Exec ε α).Returns b es :=
  returns_error

@[simp] theorem returns_emit {e : ε} : (emit e).Returns u es ↔ es = [e] := by
  cases u
  exact returns_ok.trans (by simp only [true_and])

theorem pure_returns (a : α) : (pure a : Exec ε α).Returns a [] := rfl

theorem emit_returns (e : ε) : (emit e).Returns () [e] := rfl

@[simp] theorem returns_bind {m : Exec ε α} {f : α → Exec ε β} :
    (m >>= f).Returns b es ↔
      ∃ a es₁ es₂, m.Returns a es₁ ∧ (f a).Returns b es₂ ∧ es = es₁ ++ es₂ := by
  change (Exec.bind m f).Returns b es ↔ _
  constructor
  · intro h
    cases m with
    | error e => exact (returns_error h).elim
    | ok p =>
      obtain ⟨a, es₁⟩ := p
      cases hf : f a with
      | error e =>
        simp only [Exec.bind, hf] at h
        exact (returns_error h).elim
      | ok q =>
        obtain ⟨b', es₂⟩ := q
        simp only [Exec.bind, hf, returns_ok] at h
        obtain ⟨rfl, rfl⟩ := h
        exact ⟨a, es₁, es₂, rfl, hf, rfl⟩
  · rintro ⟨a, es₁, es₂, hm, hf, rfl⟩
    simp only [Returns] at hm hf
    simp only [Exec.bind, hm, hf, returns_ok, and_self]

@[simp] theorem returns_embed {m : Exec ε α} {f : ε → ε'} :
    (m.embed f).Returns a es ↔ ∃ es', m.Returns a es' ∧ es = es'.map f := by
  cases m with
  | error e => exact ⟨fun h => (returns_error h).elim, fun ⟨_, h, _⟩ => (returns_error h).elim⟩
  | ok p =>
    obtain ⟨b, es₁⟩ := p
    simp only [embed, returns_ok]
    constructor
    · rintro ⟨rfl, rfl⟩
      exact ⟨es₁, ⟨rfl, rfl⟩, rfl⟩
    · rintro ⟨_, ⟨rfl, rfl⟩, rfl⟩
      exact ⟨rfl, rfl⟩

theorem returns_listen {m : Exec ε α} :
    m.listen.Returns p es ↔ m.Returns p.1 es ∧ p.2 = es := by
  cases m with
  | error e => exact ⟨fun h => (returns_error h).elim, fun h => (returns_error h.1).elim⟩
  | ok q =>
    obtain ⟨a, es'⟩ := q
    obtain ⟨b, es''⟩ := p
    simp only [listen, returns_ok, Prod.mk.injEq]
    constructor
    · rintro ⟨⟨rfl, rfl⟩, rfl⟩
      exact ⟨⟨rfl, rfl⟩, rfl⟩
    · rintro ⟨⟨rfl, rfl⟩, rfl⟩
      exact ⟨⟨rfl, rfl⟩, rfl⟩

theorem Returns.unique {m : Exec ε α} (h : m.Returns a es) (h' : m.Returns b es') :
    a = b ∧ es = es' := by
  rw [Returns, h] at h'
  cases h'
  exact ⟨rfl, rfl⟩

theorem Returns.embed {m : Exec ε α} (h : m.Returns a es) (f : ε → ε') :
    (m.embed f).Returns a (es.map f) := returns_embed.2 ⟨es, h, rfl⟩

theorem Returns.of_bind {m : Exec ε α} {f : α → Exec ε β} (hm : m.Returns a es₁)
    (hf : (f a).Returns b es₂) : (m >>= f).Returns b (es₁ ++ es₂) :=
  returns_bind.2 ⟨a, es₁, es₂, hm, hf, rfl⟩

/-- Go on with the value of a call that may fail, or pass its error on. -/
def tryBind (m : Exec ε (Except κ α)) (f : α → Exec ε (Except κ β)) : Exec ε (Except κ β) :=
  m >>= fun
    | .error err => pure (.error err)
    | .ok a => f a

theorem returns_tryBind {m : Exec ε (Except κ α)} {f : α → Exec ε (Except κ β)} :
    (m.tryBind f).Returns r es ↔
      (∃ err, m.Returns (.error err) es ∧ r = .error err) ∨
        ∃ a es₁ es₂, m.Returns (.ok a) es₁ ∧ (f a).Returns r es₂ ∧ es = es₁ ++ es₂ := by
  rw [tryBind, returns_bind]
  constructor
  · rintro ⟨a, es₁, es₂, hm, hf, rfl⟩
    cases a with
    | error err =>
      obtain ⟨rfl, rfl⟩ := returns_pure.1 hf
      rw [List.append_nil]
      exact .inl ⟨err, hm, rfl⟩
    | ok a => exact .inr ⟨a, es₁, es₂, hm, hf, rfl⟩
  · rintro (⟨err, hm, rfl⟩ | ⟨a, es₁, es₂, hm, hf, rfl⟩)
    · exact ⟨.error err, es, [], hm, pure_returns _, (List.append_nil es).symm⟩
    · exact ⟨.ok a, es₁, es₂, hm, hf, rfl⟩

theorem returns_tryBind_ok {m : Exec ε (Except κ α)} {f : α → Exec ε (Except κ β)} :
    (m.tryBind f).Returns (.ok b) es ↔
      ∃ a es₁ es₂, m.Returns (.ok a) es₁ ∧ (f a).Returns (.ok b) es₂ ∧ es = es₁ ++ es₂ := by
  rw [returns_tryBind]
  constructor
  · rintro (⟨err, -, he⟩ | h)
    · cases he
    · exact h
  · exact .inr

/-- A call whose effects may be refused asks for the given ones, in order. It goes on while none is
refused, and fails with the first refusal. -/
def Answered (refusal : ε → Option κ) (asks : List ε) (m : Exec ε (Except κ α)) : Prop :=
  ∃ r es, m.Returns r es ∧
    match r with
    | .ok _ => es = asks ∧ ∀ e ∈ es, refusal e = none
    | .error err => es <+: asks ∧ ∃ es' e, es = es' ++ [e] ∧ (∀ e ∈ es', refusal e = none) ∧
        refusal e = some err

theorem Answered.asked {refusal : ε → Option κ} {m : Exec ε (Except κ α)}
    (h : m.Answered refusal asks) (hr : m.Returns (.ok a) es) : es = asks := by
  obtain ⟨r, es', hm, hes⟩ := h
  obtain ⟨rfl, rfl⟩ := hm.unique hr
  exact hes.1

theorem answered_ok {refusal : ε → Option κ} (a : α) :
    (pure (.ok a) : Exec ε (Except κ α)).Answered refusal [] :=
  ⟨_, _, pure_returns _, rfl, fun _ he => absurd he List.not_mem_nil⟩

theorem Answered.tryBind {refusal : ε → Option κ} {m : Exec ε (Except κ α)}
    {f : α → Exec ε (Except κ β)} (hm : m.Answered refusal asks)
    (hf : ∀ a es, m.Returns (.ok a) es → (f a).Answered refusal asks') :
    (m.tryBind f).Answered refusal (asks ++ asks') := by
  obtain ⟨r, es, hm, hr⟩ := hm
  cases r with
  | error err =>
    obtain ⟨hp, hr⟩ := hr
    exact ⟨.error err, es, returns_tryBind.2 (.inl ⟨err, hm, rfl⟩),
      hp.trans (List.prefix_append ..), hr⟩
  | ok a =>
    obtain ⟨rfl, hr⟩ := hr
    obtain ⟨b, es', hb, hr'⟩ := hf a es hm
    refine ⟨b, es ++ es', returns_tryBind.2 (.inr ⟨a, es, es', hm, hb, rfl⟩), ?_⟩
    cases b with
    | ok b =>
      obtain ⟨rfl, hr'⟩ := hr'
      exact ⟨rfl, List.forall_mem_append.2 ⟨hr, hr'⟩⟩
    | error err =>
      obtain ⟨hp, es₁, e, rfl, h₁, he⟩ := hr'
      exact ⟨(List.prefix_append_right_inj es).2 hp, es ++ es₁, e,
        (List.append_assoc ..).symm, List.forall_mem_append.2 ⟨hr, h₁⟩, he⟩

theorem Answered.tryBind_ok {refusal : ε → Option κ} {m : Exec ε (Except κ α)}
    (hm : m.Answered refusal asks) (f : α → β) :
    (m.tryBind fun a => pure (.ok (f a))).Answered refusal asks := by
  rw [← List.append_nil asks]
  exact hm.tryBind fun a _ _ => answered_ok (f a)

theorem Answered.of_emit {refusal : ε → Option κ} {m : Exec ε (Except κ α)}
    (he : refusal e = none) (hm : m.Answered refusal asks) :
    (emit e >>= fun _ => m).Answered refusal (e :: asks) := by
  obtain ⟨r, es, hm, hr⟩ := hm
  refine ⟨r, e :: es, (emit_returns e).of_bind hm, ?_⟩
  cases r with
  | ok a =>
    obtain ⟨rfl, hr⟩ := hr
    exact ⟨rfl, List.forall_mem_cons.2 ⟨he, hr⟩⟩
  | error err =>
    obtain ⟨hp, es', e', rfl, h', he'⟩ := hr
    exact ⟨(List.prefix_cons_inj e).2 hp, e :: es', e', rfl, List.forall_mem_cons.2 ⟨he, h'⟩, he'⟩

def check (m : Exec ε α) (p : α → List ε → Bool) : Bool :=
  match m with
  | .ok (a, es) => p a es
  | .error _ => false

theorem exists_of_check {m : Exec ε α} {p : α → List ε → Bool} (h : m.check p = true) :
    ∃ a es, m.Returns a es ∧ p a es = true := by
  cases m with
  | error e => cases h
  | ok r => exact ⟨r.1, r.2, rfl, h⟩

def Halts (m : Exec ε α) : Prop := ∃ a es, m.Returns a es

theorem halts_pure (a : α) : (pure a : Exec ε α).Halts := ⟨a, [], rfl⟩

theorem Returns.halts {m : Exec ε α} (h : m.Returns a es) : m.Halts := ⟨a, es, h⟩

theorem Returns.halts_bind {m : Exec ε α} {f : α → Exec ε β} (h : m.Returns a es)
    (hf : (f a).Halts) : (m >>= f).Halts := by
  obtain ⟨b, es', hb⟩ := hf
  exact ⟨b, _, h.of_bind hb⟩

end Exec

end Async
