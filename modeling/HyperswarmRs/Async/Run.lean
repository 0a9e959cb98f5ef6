import HyperswarmRs.Async.Exec

namespace Async
set_option autoImplicit true

theorem filterMap_map_none {f : α → β} {g : β → Option γ} (h : ∀ a, g (f a) = none)
    (as : List α) : (as.map f).filterMap g = [] := by
  rw [List.filterMap_map, List.filterMap_eq_nil_iff]
  exact fun a _ => h a

/-- Run a machine on a sequence of inputs; a call that faults ends the run. -/
def run (step : σ → ι → Exec ε σ) (s : σ) : List ι → Exec ε σ
  | [] => pure s
  | i :: is => do
    let s' ← step s i
    run step s' is

@[simp] theorem returns_run_nil {step : σ → ι → Exec ε σ} :
    (run step s []).Returns s' es ↔ s' = s ∧ es = [] := Exec.returns_pure

@[simp] theorem returns_run_cons {step : σ → ι → Exec ε σ} :
    (run step s (i :: is)).Returns s' es ↔ ∃ t es₁ es₂, (step s i).Returns t es₁ ∧
      (run step t is).Returns s' es₂ ∧ es = es₁ ++ es₂ := Exec.returns_bind

theorem returns_run_append {step : σ → ι → Exec ε σ} :
    (run step s (is ++ is')).Returns s' es ↔ ∃ t es₁ es₂, (run step s is).Returns t es₁ ∧
      (run step t is').Returns s' es₂ ∧ es = es₁ ++ es₂ := by
  constructor
  · intro h
    induction is generalizing s es with
    | nil => exact ⟨s, [], es, Exec.pure_returns s, h, rfl⟩
    | cons i is ih =>
      obtain ⟨u, es₁, es₂, hs, hr, rfl⟩ := returns_run_cons.1 h
      obtain ⟨t, es₃, es₄, ht, hr', rfl⟩ := ih hr
      exact ⟨t, es₁ ++ es₃, es₄, hs.of_bind ht, hr', (List.append_assoc ..).symm⟩
  · rintro ⟨t, es₁, es₂, ht, hr, rfl⟩
    induction is generalizing s es₁ with
    | nil =>
      obtain ⟨rfl, rfl⟩ := returns_run_nil.1 ht
      exact hr
    | cons i is ih =>
      obtain ⟨u, es₃, es₄, hs, ht', rfl⟩ := returns_run_cons.1 ht
      rw [List.append_assoc]
      exact hs.of_bind (ih _ ht')

theorem run_one {step : σ → ι → Exec ε σ} (h : (step s i).Returns s' es) :
    (run step s [i]).Returns s' es := by
  rw [← List.append_nil es]
  exact h.of_bind (Exec.pure_returns s')

/-- The relation holds between every state of the run and the input taken there. -/
def Along (step : σ → ι → Exec ε σ) (Q : σ → ι → Prop) (s : σ) : List ι → Prop
  | [] => True
  | i :: is => Q s i ∧ ∀ s' es, (step s i).Returns s' es → Along step Q s' is

theorem along_true (step : σ → ι → Exec ε σ) (s : σ) (is : List ι) :
    Along step (fun _ _ => True) s is := by
  induction is generalizing s with
  | nil => trivial
  | cons i is ih => exact ⟨True.intro, fun s' _ _ => ih s'⟩

theorem Along.after {step : σ → ι → Exec ε σ} {Q : σ → ι → Prop}
    (h : Along step Q s (is ++ is')) (hr : (run step s is).Returns t es) :
    Along step Q t is' := by
  induction is generalizing s es with
  | nil =>
    obtain ⟨rfl, -⟩ := returns_run_nil.1 hr
    exact h
  | cons i is ih =>
    obtain ⟨u, es₁, es₂, hs, hr', -⟩ := returns_run_cons.1 hr
    exact ih (h.2 u es₁ hs) hr'

/-- Histories of a run: what holds of the empty history, and is kept by each step that
satisfies `Q`, holds of the inputs, the effects and the state of every such run. -/
theorem run_history {step : σ → ι → Exec ε σ} {Q : σ → ι → Prop}
    {P : List ι → List ε → σ → Prop} (h₀ : P [] [] s₀)
    (hstep : ∀ {is tr s i s' es}, P is tr s → Q s i → (step s i).Returns s' es →
      P (is ++ [i]) (tr ++ es) s')
    (hQ : Along step Q s₀ is) (h : (run step s₀ is).Returns s tr) : P is tr s := by
  suffices hgen : ∀ {done past t}, P done past t → Along step Q t is →
      ∀ {s tr}, (run step t is).Returns s tr → P (done ++ is) (past ++ tr) s by
    simpa only [List.nil_append] using hgen h₀ hQ h
  clear h hQ h₀
  induction is with
  | nil =>
    intro done past t hP _ s tr h
    obtain ⟨rfl, rfl⟩ := returns_run_nil.1 h
    simpa only [List.append_nil] using hP
  | cons i is ih =>
    intro done past t hP hQ s tr h
    obtain ⟨u, es₁, es₂, hs, hr, rfl⟩ := returns_run_cons.1 h
    have hu := ih (hstep hP hQ.1 hs) (hQ.2 u es₁ hs) hr
    simpa only [List.append_assoc, List.singleton_append] using hu

/-- What each step keeps holds of the history of every run. -/
theorem run_trace {step : σ → ι → Exec ε σ} {P : List ι → List ε → σ → Prop} (h₀ : P [] [] s₀)
    (hstep : ∀ {is tr s i s' es}, P is tr s → (step s i).Returns s' es →
      P (is ++ [i]) (tr ++ es) s')
    (h : (run step s₀ is).Returns s tr) : P is tr s :=
  run_history (Q := fun _ _ => True) h₀ (fun hP _ hs => hstep hP hs) (along_true ..) h

/-- A relation that composes, and holds of every step with its effects, holds of every run. -/
theorem run_composes {step : σ → ι → Exec ε σ} {R : σ → List ι → List ε → σ → Prop}
    (h₀ : ∀ s, R s [] [] s)
    (happ : ∀ {s is tr t is' tr' u}, R s is tr t → R t is' tr' u → R s (is ++ is') (tr ++ tr') u)
    (hstep : ∀ {s i s' es}, (step s i).Returns s' es → R s [i] es s')
    (h : (run step s is).Returns s' tr) : R s is tr s' :=
  run_trace (P := R s) (h₀ s) (fun hr hs => happ hr (hstep hs)) h

theorem run_invariant {step : σ → ι → Exec ε σ} {P : σ → Prop} (h₀ : P s₀)
    (hstep : ∀ {s i s' es}, P s → (step s i).Returns s' es → P s')
    (h : (run step s₀ is).Returns s tr) : P s :=
  run_trace (P := fun _ _ s => P s) h₀ hstep h

theorem run_halts_iff {step : σ → ι → Exec ε σ} :
    (run step s is).Halts ↔ Along step (fun s i => (step s i).Halts) s is := by
  induction is generalizing s with
  | nil => exact ⟨fun _ => trivial, fun _ => Exec.halts_pure s⟩
  | cons i is ih =>
    constructor
    · rintro ⟨s', es, h⟩
      obtain ⟨t, es₁, es₂, hs, hr, -⟩ := returns_run_cons.1 h
      refine ⟨hs.halts, fun u es' hu => ?_⟩
      rw [(hu.unique hs).1]
      exact ih.1 hr.halts
    · rintro ⟨⟨t, es, hs⟩, h⟩
      exact hs.halts_bind (ih.2 (h t es hs))

/-- If what steps keep makes the next one return, every run does. -/
theorem run_halts {step : σ → ι → Exec ε σ} {P : σ → Prop} (h₀ : P s)
    (hstep : ∀ {s i s' es}, P s → (step s i).Returns s' es → P s')
    (hhalts : ∀ {s}, P s → ∀ i, (step s i).Halts) : (run step s is).Halts := by
  induction is generalizing s with
  | nil => exact Exec.halts_pure s
  | cons i is ih =>
    obtain ⟨t, es, hs⟩ := hhalts h₀ i
    exact hs.halts_bind (ih (hstep h₀ hs))

/-- A step that always returns, and lowers a measure as long as it can, brings it to zero. -/
theorem run_exhausts {step : σ → ι → Exec ε σ} {P : σ → Prop} {weight : σ → Nat}
    (hstep : ∀ s, P s → ∃ s' es, (step s i).Returns s' es ∧ P s' ∧ weight s' ≤ weight s - 1)
    (hs : P s) (hn : weight s ≤ n) : ∃ s' tr,
      (run step s (List.replicate n i)).Returns s' tr ∧ P s' ∧ weight s' = 0 := by
  induction n generalizing s with
  | zero => exact ⟨s, [], Exec.pure_returns s, hs, Nat.le_zero.1 hn⟩
  | succ n ih =>
    obtain ⟨t, es, ht, hp, hw⟩ := hstep s hs
    obtain ⟨s', tr, hr, hp', hw'⟩ := ih hp (by omega)
    exact ⟨s', es ++ tr, ht.of_bind hr, hp', hw'⟩

def Settles (P : σ → Prop) (Done : σ → Prop) (Still : σ → σ → Prop) (weight : σ → Nat)
    (move : σ → Exec ε σ) : Prop :=
  ∀ s, P s → ∃ s' es, (move s).Returns s' es ∧ P s' ∧ (Done s → Still s s') ∧
    (¬ Done s → weight s' < weight s)

section Settling

variable {step : σ → ι → Exec ε σ} {P : σ → Prop} {Done : ι → σ → Prop} {Still : σ → σ → Prop}
  {weight : σ → Nat}

theorem round_settles (hrefl : ∀ s, Still s s)
    (htrans : ∀ {s t u}, Still s t → Still t u → Still s u)
    (hdone : ∀ {s s' i}, Still s s' → (Done i s' ↔ Done i s))
    (hweight : ∀ {s s'}, Still s s' → weight s' ≤ weight s)
    (hmove : ∀ i ∈ moves, Settles P (Done i) Still weight (step · i)) :
    Settles P (fun s => ∀ i ∈ moves, Done i s) Still weight (run step · moves) := by
  intro s hs
  induction moves generalizing s with
  | nil =>
    refine ⟨s, [], Exec.pure_returns s, hs, fun _ => hrefl s, fun h => (h fun i hi => ?_).elim⟩
    cases hi
  | cons i moves ih =>
    obtain ⟨t, es, ht, hp, hst, hlt⟩ := hmove i List.mem_cons_self s hs
    obtain ⟨s', tr, hr, hp', hst', hlt'⟩ :=
      ih (fun j hj => hmove j (List.mem_cons_of_mem _ hj)) t hp
    have hle : weight s' ≤ weight t := by
      by_cases hd : ∀ i ∈ moves, Done i t
      · exact hweight (hst' hd)
      · exact Nat.le_of_lt (hlt' hd)
    refine ⟨s', es ++ tr, ht.of_bind hr, hp', fun h => ?_, fun h => ?_⟩
    · have hi := hst (h i List.mem_cons_self)
      exact htrans hi (hst' fun j hj => (hdone hi).2 (h j (List.mem_cons_of_mem _ hj)))
    · by_cases hi : Done i s
      · have hn : ¬ ∀ j ∈ moves, Done j t := by
          intro hm
          apply h
          intro j hj
          rcases List.mem_cons.1 hj with rfl | hj
          · exact hi
          · exact (hdone (hst hi)).1 (hm j hj)
        exact Nat.lt_of_lt_of_le (hlt' hn) (hweight (hst hi))
      · exact Nat.lt_of_le_of_lt hle (hlt hi)

/-- As many such moves as the measure allows leave nothing to do. -/
theorem run_settles {Done : σ → Prop} {move : σ → Exec ε σ}
    (hmove : Settles P Done Still weight move) (hdone : ∀ {s s'}, Still s s' → Done s → Done s')
    (hs : P s) (hn : weight s ≤ n) : ∃ s' tr,
      (run (fun s (_ : Unit) => move s) s (List.replicate n ())).Returns s' tr ∧ P s' ∧
        Done s' := by
  have hgen : ∀ k, ∃ s' tr, (run (fun s (_ : Unit) => move s) s (List.replicate k ())).Returns
      s' tr ∧ P s' ∧ (Done s' ∨ weight s' + k ≤ weight s) := by
    intro k
    induction k with
    | zero => exact ⟨s, [], Exec.pure_returns s, hs, .inr (Nat.le_refl _)⟩
    | succ k ih =>
      obtain ⟨t, tr, ht, hp, hw⟩ := ih
      obtain ⟨s', es, hs', hp', hst, hlt⟩ := hmove t hp
      rw [List.replicate_succ']
      refine ⟨s', tr ++ es, returns_run_append.2 ⟨t, tr, es, ht, run_one hs', rfl⟩, hp', ?_⟩
      by_cases hd : Done t
      · exact .inl (hdone (hst hd) hd)
      · have hl := hlt hd
        have hk := hw.resolve_left hd
        exact .inr (by omega)
  obtain ⟨s', tr, hr, hp, hd | hw⟩ := hgen n
  · exact ⟨s', tr, hr, hp, hd⟩
  · refine ⟨s', tr, hr, hp, ?_⟩
    by_contra hd
    obtain ⟨t, es, -, -, -, hlt⟩ := hmove s' hp
    have hl := hlt hd
    omega

theorem returns_run_rounds {moves : List ι} :
    (run (fun s (_ : Unit) => run step s moves) s (List.replicate n ())).Returns s' tr ↔
      (run step s (List.replicate n moves).flatten).Returns s' tr := by
  induction n generalizing s tr with
  | zero => exact Iff.rfl
  | succ n ih =>
    simp only [List.replicate_succ, List.flatten_cons, returns_run_cons, returns_run_append, ih]

end Settling

/-- Two step relations that agree under an invariant agree along the same runs. -/
theorem along_congr {step : σ → ι → Exec ε σ} {P : σ → Prop} {Q R : σ → ι → Prop} (h₀ : P s₀)
    (hstep : ∀ {s i s' es}, P s → (step s i).Returns s' es → P s')
    (hQR : ∀ {s i}, P s → (Q s i ↔ R s i)) : Along step Q s₀ is ↔ Along step R s₀ is := by
  induction is generalizing s₀ with
  | nil => exact Iff.rfl
  | cons i is ih =>
    refine and_congr (hQR h₀) (forall_congr' fun s' => forall_congr' fun es => ?_)
    exact forall_congr' fun h => ih (hstep h₀ h)

inductive Obs (ε ρ : Type) where
  | effect (e : ε)
  | returned (r : ρ)
  deriving DecidableEq, Repr

def Obs.effect? : Obs ε ρ → Option ε
  | .effect e => some e
  | .returned _ => none

def Obs.returned? : Obs ε ρ → Option ρ
  | .effect _ => none
  | .returned r => some r

def effects (tr : List (Obs ε ρ)) : List ε := tr.filterMap Obs.effect?

def results (tr : List (Obs ε ρ)) : List ρ := tr.filterMap Obs.returned?

@[simp] theorem effects_nil : effects ([] : List (Obs ε ρ)) = [] := rfl

@[simp] theorem effects_append (tr tr' : List (Obs ε ρ)) :
    effects (tr ++ tr') = effects tr ++ effects tr' := List.filterMap_append

@[simp] theorem results_append (tr tr' : List (Obs ε ρ)) :
    results (tr ++ tr') = results tr ++ results tr' := List.filterMap_append

@[simp] theorem effects_map_effect (es : List ε) :
    effects (es.map (Obs.effect : ε → Obs ε ρ)) = es := by
  simp only [effects, List.filterMap_map]
  exact List.filterMap_some

@[simp] theorem results_map_effect (es : List ε) :
    results (es.map (Obs.effect : ε → Obs ε ρ)) = [] := by
  simp only [results, List.filterMap_map]
  exact List.filterMap_eq_nil_iff.2 fun _ _ => rfl

@[simp] theorem effects_returned (r : ρ) : effects [(Obs.returned r : Obs ε ρ)] = [] := rfl

@[simp] theorem results_returned (r : ρ) : results [(Obs.returned r : Obs ε ρ)] = [r] := rfl

theorem effects_returns (es : List ε) (r : ρ) : effects (es.map .effect ++ [.returned r]) = es := by
  rw [effects_append, effects_map_effect, effects_returned, List.append_nil]

theorem results_returns (es : List ε) (r : ρ) :
    results (es.map .effect ++ [.returned r]) = [r] := by
  rw [results_append, results_map_effect, results_returned, List.nil_append]

theorem effects_append_returns (tr : List (Obs ε ρ)) (es : List ε) (r : ρ) :
    effects (tr ++ (es.map .effect ++ [.returned r])) = effects tr ++ es := by
  rw [effects_append, effects_returns]

theorem results_append_returns (tr : List (Obs ε ρ)) (es : List ε) (r : ρ) :
    results (tr ++ (es.map .effect ++ [.returned r])) = results tr ++ [r] := by
  rw [results_append, results_returns]

def observed (m : Exec ε (ρ × σ)) : Exec (Obs ε ρ) σ := do
  let (r, s) ← m.embed .effect
  Exec.emit (.returned r)
  return s

@[simp] theorem returns_observed {m : Exec ε (ρ × σ)} :
    (observed m).Returns s tr ↔
      ∃ r es, m.Returns (r, s) es ∧ tr = es.map .effect ++ [.returned r] := by
  simp only [observed, Exec.returns_bind, Exec.returns_embed, Exec.returns_emit,
    Exec.returns_pure]
  constructor
  · rintro ⟨⟨r, s'⟩, _, _, ⟨es, hm, rfl⟩, ⟨_, _, _, rfl, ⟨rfl, rfl⟩, rfl⟩, rfl⟩
    exact ⟨r, es, hm, rfl⟩
  · rintro ⟨r, es, hm, rfl⟩
    exact ⟨(r, s), _, _, ⟨es, hm, rfl⟩, ⟨(), _, _, rfl, ⟨rfl, rfl⟩, rfl⟩, rfl⟩

end Async
