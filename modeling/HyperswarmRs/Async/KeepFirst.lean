import Mathlib.Data.Finset.Basic
import Mathlib.Data.Finset.Lattice.Lemmas

namespace Async
set_option autoImplicit true

variable [DecidableEq κ]

/-- Keep the first item of each key that has not been seen; items without a key all stay. -/
def keepFirst (key : α → Option κ) (seen : Finset κ) : List α → List α
  | [] => []
  | x :: xs =>
    match key x with
    | none => x :: keepFirst key seen xs
    | some k => if k ∈ seen then keepFirst key seen xs else x :: keepFirst key (insert k seen) xs

def seenAfter (key : α → Option κ) (seen : Finset κ) (xs : List α) : Finset κ :=
  seen ∪ (xs.filterMap key).toFinset

theorem mem_seenAfter {key : α → Option κ} {seen : Finset κ} {xs : List α} :
    k ∈ seenAfter key seen xs ↔ k ∈ seen ∨ ∃ x ∈ xs, key x = some k := by
  simp only [seenAfter, Finset.mem_union, List.mem_toFinset, List.mem_filterMap]

@[simp] theorem seenAfter_nil (key : α → Option κ) (seen : Finset κ) :
    seenAfter key seen [] = seen := by
  ext k
  simp [mem_seenAfter]

theorem seenAfter_append (key : α → Option κ) (seen : Finset κ) (xs ys : List α) :
    seenAfter key seen (xs ++ ys) = seenAfter key (seenAfter key seen xs) ys := by
  ext k
  simp only [mem_seenAfter, List.mem_append, or_and_right, exists_or, or_assoc]

theorem seenAfter_cons_none {key : α → Option κ} (h : key x = none) (seen : Finset κ)
    (xs : List α) : seenAfter key seen (x :: xs) = seenAfter key seen xs := by
  rw [seenAfter, List.filterMap_cons_none h, seenAfter]

theorem seenAfter_cons_some {key : α → Option κ} (h : key x = some k) (seen : Finset κ)
    (xs : List α) : seenAfter key seen (x :: xs) = seenAfter key (insert k seen) xs := by
  rw [seenAfter, List.filterMap_cons_some h, List.toFinset_cons, Finset.union_insert,
    seenAfter, Finset.insert_union]

section Equations

variable {key : α → Option κ} {seen : Finset κ}

@[simp] theorem keepFirst_nil : keepFirst key seen [] = [] := rfl

theorem keepFirst_cons_none (h : key x = none) (xs : List α) :
    keepFirst key seen (x :: xs) = x :: keepFirst key seen xs := by
  simp only [keepFirst, h]

theorem keepFirst_cons_seen (h : key x = some k) (hk : k ∈ seen) (xs : List α) :
    keepFirst key seen (x :: xs) = keepFirst key seen xs := by
  simp only [keepFirst, h, if_pos hk]

theorem keepFirst_cons_new (h : key x = some k) (hk : k ∉ seen) (xs : List α) :
    keepFirst key seen (x :: xs) = x :: keepFirst key (insert k seen) xs := by
  simp only [keepFirst, h, if_neg hk]

end Equations

theorem keepFirst_append (key : α → Option κ) (seen : Finset κ) (xs ys : List α) :
    keepFirst key seen (xs ++ ys) =
      keepFirst key seen xs ++ keepFirst key (seenAfter key seen xs) ys := by
  induction xs generalizing seen with
  | nil => rw [List.nil_append, keepFirst_nil, List.nil_append, seenAfter_nil]
  | cons x xs ih =>
    rw [List.cons_append]
    cases h : key x with
    | none =>
      rw [keepFirst_cons_none h, keepFirst_cons_none h, seenAfter_cons_none h, ih,
        List.cons_append]
    | some k =>
      rw [seenAfter_cons_some h]
      by_cases hk : k ∈ seen
      · rw [keepFirst_cons_seen h hk, keepFirst_cons_seen h hk, ih, Finset.insert_eq_of_mem hk]
      · rw [keepFirst_cons_new h hk, keepFirst_cons_new h hk, ih, List.cons_append]

theorem keepFirst_singleton {key : α → Option κ} {seen : Finset κ} :
    keepFirst key seen [x] = [] ↔ ∃ k ∈ seen, key x = some k := by
  cases h : key x with
  | none =>
    rw [keepFirst_cons_none h]
    simp only [reduceCtorEq, and_false, exists_false]
  | some k =>
    simp only [Option.some.injEq, exists_eq_right']
    by_cases hk : k ∈ seen
    · simp only [keepFirst_cons_seen h hk, keepFirst_nil, hk]
    · simp only [keepFirst_cons_new h hk, reduceCtorEq, hk]

theorem keepFirst_sublist (key : α → Option κ) (seen : Finset κ) (xs : List α) :
    (keepFirst key seen xs).Sublist xs := by
  induction xs generalizing seen with
  | nil => exact .refl _
  | cons x xs ih =>
    cases h : key x with
    | none =>
      rw [keepFirst_cons_none h]
      exact (ih _).cons_cons x
    | some k =>
      by_cases hk : k ∈ seen
      · rw [keepFirst_cons_seen h hk]
        exact (ih _).cons x
      · rw [keepFirst_cons_new h hk]
        exact (ih _).cons_cons x

theorem seenAfter_keepFirst (key : α → Option κ) (seen : Finset κ) (xs : List α) :
    seenAfter key seen (keepFirst key seen xs) = seenAfter key seen xs := by
  induction xs generalizing seen with
  | nil => rfl
  | cons x xs ih =>
    cases h : key x with
    | none => rw [keepFirst_cons_none h, seenAfter_cons_none h, seenAfter_cons_none h, ih]
    | some k =>
      rw [seenAfter_cons_some h seen xs]
      by_cases hk : k ∈ seen
      · rw [keepFirst_cons_seen h hk, Finset.insert_eq_of_mem hk, ih]
      · rw [keepFirst_cons_new h hk, seenAfter_cons_some h, ih]

theorem seenAfter_of_keepFirst_nil {key : α → Option κ} {seen : Finset κ} {xs : List α}
    (h : keepFirst key seen xs = []) : seenAfter key seen xs = seen := by
  rw [← seenAfter_keepFirst, h, seenAfter_nil]

/-- An item at the end is dropped exactly when a kept item before it has its key. -/
theorem keepFirst_concat {key : α → Option κ} {xs : List α} :
    keepFirst key ∅ (xs ++ [x]) = keepFirst key ∅ xs ↔
      ∃ y ∈ keepFirst key ∅ xs, ∃ k, key y = some k ∧ key x = some k := by
  rw [keepFirst_append, List.append_right_eq_self, keepFirst_singleton, ← seenAfter_keepFirst]
  simp only [mem_seenAfter, Finset.notMem_empty, false_or]
  constructor
  · rintro ⟨k, ⟨y, hy, hk⟩, hx⟩
    exact ⟨y, hy, k, hk, hx⟩
  · rintro ⟨y, hy, k, hk, hx⟩
    exact ⟨k, ⟨y, hy, hk⟩, hx⟩

theorem keepFirst_fresh {key : α → Option κ} {seen : Finset κ} {xs : List α}
    (hx : x ∈ keepFirst key seen xs) (h : key x = some k) : k ∉ seen := by
  induction xs generalizing seen with
  | nil => cases hx
  | cons y ys ih =>
    cases hy : key y with
    | none =>
      rw [keepFirst_cons_none hy, List.mem_cons] at hx
      rcases hx with he | hx
      · rw [he, hy] at h
        cases h
      · exact ih hx
    | some l =>
      by_cases hl : l ∈ seen
      · rw [keepFirst_cons_seen hy hl] at hx
        exact ih hx
      · rw [keepFirst_cons_new hy hl, List.mem_cons] at hx
        rcases hx with he | hx
        · rw [he, hy] at h
          cases h
          exact hl
        · exact fun hk => ih hx (Finset.mem_insert_of_mem hk)

/-- A key that occurs is kept exactly when it has not been seen. -/
theorem mem_keepFirst_key {key : α → Option κ} {seen : Finset κ} {xs : List α}
    (h : k ∈ xs.filterMap key) :
    k ∈ (keepFirst key seen xs).filterMap key ↔ k ∉ seen := by
  constructor
  · intro hm
    obtain ⟨y, hy, hk⟩ := List.mem_filterMap.1 hm
    exact keepFirst_fresh hy hk
  · intro hk
    have hs : k ∈ seenAfter key seen (keepFirst key seen xs) := by
      rw [seenAfter_keepFirst]
      exact mem_seenAfter.2 (.inr (List.mem_filterMap.1 h))
    exact List.mem_filterMap.2 ((mem_seenAfter.1 hs).resolve_left hk)

theorem keepFirst_nodup (key : α → Option κ) (seen : Finset κ) (xs : List α) :
    ((keepFirst key seen xs).filterMap key).Nodup := by
  induction xs generalizing seen with
  | nil => exact List.nodup_nil
  | cons x xs ih =>
    cases h : key x with
    | none =>
      rw [keepFirst_cons_none h, List.filterMap_cons_none h]
      exact ih seen
    | some k =>
      by_cases hk : k ∈ seen
      · rw [keepFirst_cons_seen h hk]
        exact ih seen
      · rw [keepFirst_cons_new h hk, List.filterMap_cons_some h, List.nodup_cons]
        refine ⟨fun hm => ?_, ih _⟩
        obtain ⟨y, hy, he⟩ := List.mem_filterMap.1 hm
        exact keepFirst_fresh hy he (Finset.mem_insert_self k seen)

theorem filter_keepFirst (key : α → Option κ) (seen : Finset κ) (xs : List α) :
    (keepFirst key seen xs).filter (fun x => (key x).isNone) =
      xs.filter (fun x => (key x).isNone) := by
  induction xs generalizing seen with
  | nil => rfl
  | cons x xs ih =>
    cases h : key x with
    | none => simp only [keepFirst_cons_none h, List.filter_cons, ih]
    | some k =>
      have hf : (key x).isNone = false := by rw [h]; rfl
      by_cases hk : k ∈ seen
      · simp only [keepFirst_cons_seen h hk, List.filter_cons, hf, ih, Bool.false_eq_true,
          ↓reduceIte]
      · simp only [keepFirst_cons_new h hk, List.filter_cons, hf, ih, Bool.false_eq_true,
          ↓reduceIte]

end Async
