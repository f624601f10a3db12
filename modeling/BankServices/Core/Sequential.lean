/-
Sequential executions: events that take place one after the other, and when their order does not matter.

`Legal T` says that a list of events leads from one state to another, each event as the relation `T` says. A state is
seen at names (`view`), and each event is about some names. Under `Local`, an event sees and changes its own names only.

- `Legal.map`: a sequential execution is one of an abstract object, too, if every step of it is.
- `Legal.swap`, `Legal.pull`: an event may come before events that share no name with it.
- `Legal.reorder`: a permutation that keeps, for each name, the order of the events about it, is legal again, and leads
  to a state that looks the same at every name.
-/
import Mathlib.Tactic

namespace BankServices.Sequential

/-! ## Executions -/

section Legal

variable {σ τ ν : Type}

/-- the events take place one after the other, each as `T` says, and lead from one state to the other -/
inductive Legal (T : σ → ν → σ → Prop) (s : σ) : List ν → σ → Prop where
  | nil : Legal T s [] s
  | snoc {l : List ν} {e : ν} {a b : σ} (h : Legal T s l a) (last : T a e b) : Legal T s (l ++ [e]) b

variable {T : σ → ν → σ → Prop} {s a b : σ} {l m : List ν} {e : ν}

namespace Legal

/-- a state mapping that carries every step carries every execution -/
theorem map {T' : τ → ν → τ → Prop} (f : σ → τ) (hT : ∀ a e b, T a e b → T' (f a) e (f b)) (h : Legal T s l a) :
    Legal T' (f s) l (f a) := by
  induction h with
  | nil => exact .nil
  | snoc _ last ih => exact .snoc ih (hT _ _ _ last)

theorem mono {T' : σ → ν → σ → Prop} (hT : ∀ a e b, T a e b → T' a e b) (h : Legal T s l a) : Legal T' s l a :=
  h.map id hT

/-- every event took place as `T` says -/
theorem exists_step (h : Legal T s l a) (he : e ∈ l) : ∃ b c, T b e c := by
  induction h with
  | nil => cases he
  | snoc _ last ih =>
    rcases List.mem_append.1 he with he | he
    · exact ih he
    · rw [List.mem_singleton.1 he]
      exact ⟨_, _, last⟩

theorem nil_iff : Legal T s [] a ↔ a = s := by
  constructor
  · intro h
    generalize hl : ([] : List ν) = l at h
    cases h with
    | nil => rfl
    | snoc _ _ => simp at hl
  · rintro rfl
    exact .nil

theorem snoc_iff : Legal T s (l ++ [e]) b ↔ ∃ a, Legal T s l a ∧ T a e b := by
  constructor
  · intro h
    generalize hl : l ++ [e] = l' at h
    cases h with
    | nil => simp at hl
    | snoc h last =>
      obtain ⟨rfl, he⟩ := List.append_inj' hl rfl
      cases he
      exact ⟨_, h, last⟩
  · rintro ⟨a, h, last⟩
    exact .snoc h last

theorem append_iff : Legal T s (l ++ m) b ↔ ∃ a, Legal T s l a ∧ Legal T a m b := by
  induction m using List.reverseRecOn generalizing b with
  | nil =>
    rw [List.append_nil]
    constructor
    · intro h
      exact ⟨b, h, .nil⟩
    · rintro ⟨a, h, hm⟩
      cases nil_iff.1 hm
      exact h
  | append_singleton m e ih =>
    rw [← List.append_assoc, snoc_iff]
    constructor
    · rintro ⟨c, h, last⟩
      obtain ⟨a, hl, hm⟩ := ih.1 h
      exact ⟨a, hl, .snoc hm last⟩
    · rintro ⟨a, hl, hm⟩
      obtain ⟨c, hm, last⟩ := snoc_iff.1 hm
      exact ⟨c, ih.2 ⟨a, hl, hm⟩, last⟩

theorem cons_iff : Legal T s (e :: l) b ↔ ∃ a, T s e a ∧ Legal T a l b := by
  rw [← List.singleton_append, append_iff]
  constructor
  · rintro ⟨a, h, hl⟩
    obtain ⟨c, hc, last⟩ := (snoc_iff (l := [])).1 h
    cases nil_iff.1 hc
    exact ⟨a, last, hl⟩
  · rintro ⟨a, last, hl⟩
    exact ⟨a, .snoc .nil last, hl⟩

end Legal

end Legal

/-! ## Events about names -/

section Local

variable {σ ν κ φ : Type}

/-- an event changes nothing at names that are not its own, and depends on nothing else than what is seen at its own -/
structure Local (T : σ → ν → σ → Prop) (names : ν → κ → Bool) (view : σ → κ → φ) : Prop where
  frame : ∀ {a e b}, T a e b → ∀ k, names e k = false → view b k = view a k
  alike : ∀ {a e b a'}, T a e b → (∀ k, names e k = true → view a' k = view a k) →
    ∃ b', T a' e b' ∧ ∀ k, names e k = true → view b' k = view b k

/-- the events share no name -/
def Apart (names : ν → κ → Bool) (e e' : ν) : Prop := ∀ k, names e k = true → names e' k = false

/-- the states look the same at every name -/
def SameView (view : σ → κ → φ) (a b : σ) : Prop := ∀ k, view a k = view b k

variable {T : σ → ν → σ → Prop} {names : ν → κ → Bool} {view : σ → κ → φ} {a a' b c : σ} {l m : List ν} {e e' : ν}

theorem Apart.symm (h : Apart names e e') : Apart names e' e := by
  intro k hk
  by_contra hne
  have hno := h k (by simpa using hne)
  rw [hk] at hno
  cases hno

theorem SameView.trans (h : SameView view a b) (h' : SameView view b c) : SameView view a c :=
  fun k => (h k).trans (h' k)

namespace Local

/-- on a state that looks the same the event takes place as well -/
theorem same (hT : Local T names view) (h : T a e b) (ha : SameView view a' a) :
    ∃ b', T a' e b' ∧ SameView view b' b := by
  obtain ⟨b', h', hview⟩ := hT.alike h fun k _ => ha k
  refine ⟨b', h', fun k => ?_⟩
  cases hk : names e k with
  | true => exact hview k hk
  | false => rw [hT.frame h' k hk, hT.frame h k hk, ha k]

/-- two events that share no name take place in the other order -/
theorem swap (hT : Local T names view) (h : T a e b) (h' : T b e' c) (hapart : Apart names e e') :
    ∃ b' c', T a e' b' ∧ T b' e c' ∧ SameView view c' c := by
  obtain ⟨b', hfirst, hview'⟩ := hT.alike h' fun k hk => (hT.frame h k (hapart.symm k hk)).symm
  obtain ⟨c', hsecond, hview⟩ := hT.alike h fun k hk => hT.frame hfirst k (hapart k hk)
  refine ⟨b', c', hfirst, hsecond, fun k => ?_⟩
  cases hk : names e k with
  | true => rw [hview k hk, hT.frame h' k (hapart k hk)]
  | false =>
    rw [hT.frame hsecond k hk]
    cases hk' : names e' k with
    | true => exact hview' k hk'
    | false => rw [hT.frame hfirst k hk', hT.frame h' k hk', hT.frame h k hk]

end Local

namespace Legal

/-- from a state that looks the same the events take place as well -/
theorem same (hT : Local T names view) (h : Legal T a l b) (ha : SameView view a' a) :
    ∃ b', Legal T a' l b' ∧ SameView view b' b := by
  induction h with
  | nil => exact ⟨a', .nil, ha⟩
  | snoc _ last ih =>
    obtain ⟨c, hc, hview⟩ := ih
    obtain ⟨b', hb, hview'⟩ := hT.same last hview
    exact ⟨b', .snoc hc hb, hview'⟩

/-- an event comes first when it shares no name with the events before it -/
theorem pull (hT : Local T names view) (h : Legal T a (l ++ e :: m) c) (hapart : ∀ x ∈ l, Apart names x e) :
    ∃ c', Legal T a (e :: (l ++ m)) c' ∧ SameView view c' c := by
  induction l generalizing a with
  | nil => exact ⟨c, h, fun _ => rfl⟩
  | cons x l ih =>
    obtain ⟨b, hx, hrest⟩ := cons_iff.1 h
    obtain ⟨c1, hpulled, hview⟩ := ih hrest fun y hy => hapart y (List.mem_cons_of_mem x hy)
    obtain ⟨d, he, hlm⟩ := cons_iff.1 hpulled
    obtain ⟨b', d', he', hx', hd⟩ := hT.swap hx he (hapart x List.mem_cons_self)
    obtain ⟨c2, hlm', hview'⟩ := hlm.same hT hd
    exact ⟨c2, cons_iff.2 ⟨b', he', cons_iff.2 ⟨d', hx', hlm'⟩⟩, hview'.trans hview⟩

/-- **Reordering.** Events in another order, the same one for each name: they take place, and it looks the same. -/
theorem reorder (hT : Local T names view) (h : Legal T a l c) (hperm : m.Perm l)
    (horder : ∀ k, (m.filter fun e => names e k) = l.filter fun e => names e k) :
    ∃ c', Legal T a m c' ∧ SameView view c' c := by
  induction m generalizing a l c with
  | nil =>
    cases hperm.nil_eq
    exact ⟨c, h, fun _ => rfl⟩
  | cons e m ih =>
    obtain ⟨l1, l2, rfl, hfirst⟩ := List.eq_append_cons_of_mem (hperm.mem_iff.1 List.mem_cons_self)
    -- before the first `e` nothing is about a name of `e`: it would come first there, too
    have hnone : ∀ k, names e k = true → (l1.filter fun x => names x k) = [] := by
      intro k hk
      have hk' := horder k
      rw [List.filter_append, List.filter_cons, List.filter_cons, hk, if_pos rfl, if_pos rfl] at hk'
      cases hl : l1.filter fun x => names x k with
      | nil => rfl
      | cons x xs =>
        rw [hl, List.cons_append] at hk'
        have hx : x ∈ l1 := List.mem_of_mem_filter (hl ▸ List.mem_cons_self)
        rw [(List.cons.inj hk').1] at hfirst
        exact absurd hx hfirst
    have hapart : ∀ x ∈ l1, Apart names x e := by
      intro x hx k hk
      by_contra hne
      have hmem : x ∈ l1.filter fun x => names x k := List.mem_filter.2 ⟨hx, hk⟩
      rw [hnone k (by simpa using hne)] at hmem
      cases hmem
    obtain ⟨c1, hpulled, hview⟩ := h.pull hT hapart
    obtain ⟨b, he, hrest⟩ := cons_iff.1 hpulled
    have hperm' : m.Perm (l1 ++ l2) := (hperm.trans List.perm_middle).cons_inv
    obtain ⟨c', hm, hview'⟩ := ih hrest hperm' fun k => by
      have hk' := horder k
      rw [List.filter_append, List.filter_cons, List.filter_cons] at hk'
      rw [List.filter_append]
      cases hk : names e k with
      | true =>
        rw [hk, if_pos rfl, if_pos rfl, hnone k hk] at hk'
        rw [hnone k hk]
        exact (List.cons.inj hk').2
      | false => simpa [hk] using hk'
    exact ⟨c', cons_iff.2 ⟨b, he, hm⟩, hview'.trans hview⟩

end Legal

end Local

end BankServices.Sequential
