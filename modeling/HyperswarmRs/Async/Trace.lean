import Mathlib.Data.List.Basic

namespace Async
set_option autoImplicit true

/-- The third list takes from the other two in any order, and from each of them in its own. -/
inductive Interleaves : List α → List α → List α → Prop where
  | nil : Interleaves [] [] []
  | left : Interleaves as bs cs → Interleaves (a :: as) bs (a :: cs)
  | right : Interleaves as bs cs → Interleaves as (b :: bs) (b :: cs)

theorem interleaves_left (as : List α) : Interleaves as [] as := by
  induction as with
  | nil => exact .nil
  | cons a as ih => exact .left ih

theorem interleaves_right (bs : List α) : Interleaves [] bs bs := by
  induction bs with
  | nil => exact .nil
  | cons b bs ih => exact .right ih

theorem Interleaves.append (h : Interleaves as bs cs) (h' : Interleaves as' bs' cs') :
    Interleaves (as ++ as') (bs ++ bs') (cs ++ cs') := by
  induction h with
  | nil => exact h'
  | left _ ih => exact .left ih
  | right _ ih => exact .right ih

theorem Interleaves.perm (h : Interleaves as bs cs) : cs.Perm (as ++ bs) := by
  induction h with
  | nil => exact .refl _
  | left _ ih => exact ih.cons _
  | right _ ih => exact (ih.cons _).trans List.perm_middle.symm

theorem Interleaves.mem (h : Interleaves as bs cs) : c ∈ cs ↔ c ∈ as ∨ c ∈ bs := by
  rw [h.perm.mem_iff, List.mem_append]

/-- A queue: of what it holds and what is put into it, what is taken out comes first. -/
def Fifo (held ins outs held' : List α) : Prop := held ++ ins = outs ++ held'

namespace Fifo

theorem refl (held : List α) : Fifo held [] [] held := List.append_nil held

theorem append (h : Fifo held ins outs held') (h' : Fifo held' ins' outs' held'') :
    Fifo held (ins ++ ins') (outs ++ outs') held'' :=
  calc held ++ (ins ++ ins')
    _ = outs ++ held' ++ ins' := by rw [← List.append_assoc, h]
    _ = outs ++ outs' ++ held'' := by rw [List.append_assoc, h', List.append_assoc]

theorem take (h : held = as ++ held') : Fifo held [] as held' := (List.append_nil _).trans h

end Fifo

/-- Each entry of the trace that shows something comes after what `Q` asks of the part before. -/
def Follows (shows : ε → Option α) (Q : List ε → α → Prop) (es : List ε) : Prop :=
  ∀ before e after a, es = before ++ e :: after → shows e = some a → Q before a

theorem follows_of_none {shows : ε → Option α} {Q : List ε → α → Prop}
    (h : es.filterMap shows = []) : Follows shows Q es := by
  intro before e after a he ha
  rw [List.filterMap_eq_nil_iff] at h
  rw [h e (he ▸ List.mem_append_right _ List.mem_cons_self)] at ha
  cases ha

theorem Follows.append {shows : ε → Option α} {Q : List ε → α → Prop} (h : Follows shows Q es)
    (h' : Follows shows (fun before => Q (es ++ before)) es') : Follows shows Q (es ++ es') := by
  intro before e after a he ha
  rcases List.append_eq_append_iff.1 he with ⟨as, rfl, he'⟩ | ⟨bs, rfl, he'⟩
  · exact h' as e after a he' ha
  · cases bs with
    | nil =>
      have hn := h' [] e after a he'.symm ha
      rwa [List.append_nil, List.append_nil] at hn
    | cons e' bs =>
      rw [List.cons_append, List.cons.injEq] at he'
      obtain ⟨rfl, -⟩ := he'
      exact h before e bs a rfl ha

theorem Follows.of_append {shows : ε → Option α} {Q : List ε → α → Prop}
    (h : Follows shows Q (es ++ es')) : Follows shows Q es := by
  intro before e after a he ha
  exact h before e (after ++ es') a (by rw [he, List.append_assoc, List.cons_append]) ha

theorem Follows.mem {shows : ε → Option α} {Q : List ε → α → Prop} (h : Follows shows Q es)
    (ha : a ∈ es.filterMap shows) : ∃ before, before <+: es ∧ Q before a := by
  obtain ⟨e, he, hs⟩ := List.mem_filterMap.1 ha
  obtain ⟨before, after, rfl⟩ := List.append_of_mem he
  exact ⟨before, List.prefix_append .., h before e after a rfl hs⟩

theorem follows_cons {shows : ε → Option α} {Q : List ε → α → Prop} :
    Follows shows Q (e :: es) ↔
      (∀ a ∈ shows e, Q [] a) ∧ Follows shows (fun before => Q (e :: before)) es := by
  constructor
  · intro h
    refine ⟨fun a ha => h [] e es a rfl ha, ?_⟩
    intro before e' after a he ha
    exact h (e :: before) e' after a (congrArg (e :: ·) he) ha
  · rintro ⟨h, h'⟩ before e' after a he ha
    cases before with
    | nil =>
      cases he
      exact h a ha
    | cons b before =>
      cases he
      exact h' before e' after a rfl ha

theorem follows_nil {shows : ε → Option α} {Q : List ε → α → Prop} : Follows shows Q [] :=
  follows_of_none rfl

instance decidableFollows (shows : ε → Option α) (Q : List ε → α → Prop)
    [∀ before a, Decidable (Q before a)] : (es : List ε) → Decidable (Follows shows Q es)
  | [] => isTrue follows_nil
  | e :: es =>
    have := decidableFollows shows (fun before => Q (e :: before)) es
    decidable_of_iff _ follows_cons.symm

theorem follows_of_forall {shows : ε → Option α} {Q : List ε → α → Prop}
    (hl : ∀ before before' a, Q before a → Q (before ++ before') a)
    (h : ∀ e ∈ es, ∀ a, shows e = some a → Q [] a) : Follows shows Q es := by
  intro before e after a he ha
  exact hl [] before a (h e (he ▸ List.mem_append_right _ List.mem_cons_self) a ha)

/-- What holds of a projection of the trace holds of the trace. -/
theorem Follows.of_filterMap {f : ε → Option β} {shows : β → Option α} {Q : List β → α → Prop}
    (h : Follows shows Q (es.filterMap f)) :
    Follows (fun e => (f e).bind shows) (fun before => Q (before.filterMap f)) es := by
  rintro before e after a rfl ha
  obtain ⟨b, hb, hs⟩ := Option.bind_eq_some_iff.1 ha
  rw [List.filterMap_append, List.filterMap_cons_some hb] at h
  exact h _ b _ a rfl hs

/-- What is shown by an entry of a joint trace, and by whom. -/
def showsAt (shows : α → Option β) (e : ν × α) : Option (ν × β) := (shows e.2).map (e.1, ·)

theorem showsAt_eq_some {shows : α → Option β} {e : ν × α} :
    showsAt shows e = some (n, b) ↔ ∃ a, e = (n, a) ∧ shows a = some b := by
  rw [showsAt, Option.map_eq_some_iff]
  constructor
  · rintro ⟨b', hb, he⟩
    cases he
    exact ⟨e.2, rfl, hb⟩
  · rintro ⟨a, rfl, hb⟩
    exact ⟨b, hb, rfl⟩

section Parts

variable [DecidableEq ν] {m n : ν}

def atParty (n : ν) (e : ν × α) : Option α := if e.1 = n then some e.2 else none

def part (n : ν) (es : List (ν × α)) : List α := es.filterMap (atParty n)

@[simp] theorem part_append (n : ν) (es es' : List (ν × α)) :
    part n (es ++ es') = part n es ++ part n es' := List.filterMap_append

theorem part_cons_self (n : ν) (e : α) (es : List (ν × α)) :
    part n ((n, e) :: es) = e :: part n es := List.filterMap_cons_some (if_pos rfl)

theorem part_cons_other (h : m ≠ n) (e : α) (es : List (ν × α)) :
    part n ((m, e) :: es) = part n es := List.filterMap_cons_none (if_neg h)

theorem part_self (n : ν) (es : List α) : part n (es.map (n, ·)) = es := by
  induction es with
  | nil => rfl
  | cons e es ih => rw [List.map_cons, part_cons_self, ih]

theorem part_other (h : m ≠ n) (es : List α) : part n (es.map (m, ·)) = [] := by
  induction es with
  | nil => rfl
  | cons e es ih => rw [List.map_cons, part_cons_other h, ih]

theorem mem_part {es : List (ν × α)} : e ∈ part n es ↔ (n, e) ∈ es := by
  rw [part, List.mem_filterMap]
  constructor
  · rintro ⟨⟨m, e'⟩, he, ha⟩
    obtain ⟨rfl, hs⟩ := Option.ite_none_right_eq_some.1 ha
    cases hs
    exact he
  · exact fun h => ⟨_, h, if_pos rfl⟩

theorem part_mono {es es' : List (ν × α)} (n : ν) (h : es <+: es') : part n es <+: part n es' :=
  h.filterMap _

end Parts

end Async
