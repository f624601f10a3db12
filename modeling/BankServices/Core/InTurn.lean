/-
Requests served in turn: each one is a transaction alone on the store that the one before it left.

- `inTurn_related`: requests whose statements all respect a relation of stores are answered alike on related stores.
- `inTurn_insert`: a request that changes the store by a function which the others do not notice can be served at any
  place among them.
- `run_inTurn`: concurrent transactions can be served so, begun and ended one after the other, while no row is locked.
-/
import BankServices.Core.Sessions

namespace BankServices.InTurn

open BankServices.Txn BankServices.RowLock

variable {Stmt : Type} {Ans : Stmt → Type} {Seq ε α Db Write Key Face R : Type} [DecidableEq Seq]

/-! ## Definition -/

/-- the outcomes of the requests, and the sequences and the store after them -/
def inTurn (E : Engine Stmt Ans Db Write Key Face) (body : R → Prog Stmt Ans Seq ε α) :
    List R → (Seq → ℤ) → Db → List (Except ε α) × (Seq → ℤ) × Db
  | [], g, d => ([], g, d)
  | r :: l, g, d =>
    let first := (body r).transaction E counters g d
    let others := inTurn E body l first.2.1 first.2.2
    (first.1 :: others.1, others.2)

variable {E : Engine Stmt Ans Db Write Key Face} {body : R → Prog Stmt Ans Seq ε α}

theorem inTurn_cons (r : R) (l : List R) (g : Seq → ℤ) (d : Db) {out : Except ε α} {g' : Seq → ℤ} {d' : Db}
    (h : (body r).transaction E counters g d = (out, g', d')) :
    inTurn E body (r :: l) g d = (out :: (inTurn E body l g' d').1, (inTurn E body l g' d').2) := by
  simp only [inTurn, h]

/-! ## Related stores -/

theorem inTurn_related {P : Stmt → Prop} {Rel : Db → Db → Prop} (hE : Respects E P Rel) {l : List R}
    (hl : ∀ r ∈ l, (body r).Sends P) (g : Seq → ℤ) {d d' : Db} (h : Rel d d') :
    ∃ outs g' e e', inTurn E body l g d = (outs, g', e) ∧ inTurn E body l g d' = (outs, g', e') ∧ Rel e e' := by
  induction l generalizing g d d' with
  | nil => exact ⟨_, _, _, _, rfl, rfl, h⟩
  | cons r l ih =>
    obtain ⟨out, g1, d1, d1', hfirst, hfirst', hrel⟩ := transaction_related hE counters (hl r List.mem_cons_self) g h
    obtain ⟨outs, g2, e, e', hothers, hothers', hend⟩ := ih (fun r' hr' => hl r' (List.mem_cons_of_mem r hr')) g1 hrel
    refine ⟨out :: outs, g2, e, e', ?_, ?_, hend⟩
    · rw [inTurn_cons r l g d hfirst, hothers]
    · rw [inTurn_cons r l g d' hfirst', hothers']

/-- **Any place.** Served at any place among requests that do not notice its change, a request is answered alike, changes
nothing in their answers and leads to the same store. -/
theorem inTurn_insert {P : Stmt → Prop} {Good : Db → Prop} {change : Db → Db} {r0 : R} {a : Except ε α}
    (hr0 : ∀ g d, Good d → (body r0).transaction E counters g d = (a, g, change d))
    (hE : Respects E P fun d d' => Good d ∧ d' = change d) {l : List R} (hl : ∀ r ∈ l, (body r).Sends P) {n : ℕ}
    (hn : n ≤ l.length) (g : Seq → ℤ) {d : Db} (h : Good d) :
    inTurn E body (l.insertIdx n r0) g d =
      ((inTurn E body l g d).1.insertIdx n a, (inTurn E body l g d).2.1, change (inTurn E body l g d).2.2) := by
  induction l generalizing n g d with
  | nil =>
    obtain rfl : n = 0 := Nat.le_zero.1 hn
    exact inTurn_cons r0 [] g d (hr0 g d h)
  | cons r l ih =>
    cases n with
    | zero =>
      obtain ⟨outs, g', e, e', hrun, hrun', -, rfl⟩ := inTurn_related hE hl g ⟨h, rfl⟩
      rw [List.insertIdx_zero, inTurn_cons r0 (r :: l) g d (hr0 g d h), hrun, hrun']
      rfl
    | succ n =>
      obtain ⟨out, g', e, e', hfirst, -, hgood, -⟩ :=
        transaction_related hE counters (hl r List.mem_cons_self) g ⟨h, rfl⟩
      have hrest := ih (fun r' hr' => hl r' (List.mem_cons_of_mem r hr')) (Nat.le_of_succ_le_succ hn) g' hgood
      rw [List.insertIdx_succ_cons, inTurn_cons r _ g d hfirst, inTurn_cons r l g d hfirst, hrest,
        List.insertIdx_succ_cons]

/-! ## In turn among concurrent transactions -/

section Machine

variable [DecidableEq Key] {s : St Stmt Ans Seq ε α Db Write Key R} {i : ℕ}

/-- the transaction that the operation is about -/
def index : Op R → ℕ
  | .begin i _ | .exec i | .timeout i | .commit i | .rollback i => i

theorem index_uninterrupted (i : ℕ) (r : R) (n : ℕ) : ∀ o ∈ uninterrupted i r n, index o = i := by
  intro o ho
  simp only [uninterrupted, List.mem_cons, List.mem_append, List.mem_replicate, List.not_mem_nil, or_false] at ho
  rcases ho with rfl | ⟨-, rfl⟩ | rfl | rfl
  all_goals rfl

variable (E body) in
/-- an operation leaves the other transactions as they are, and locks no row for them -/
theorem step_own (s : St Stmt Ans Seq ε α Db Write Key R) (o : Op R) :
    (∀ j, j ≠ index o → (step E body s o).slot j = s.slot j) ∧
      (Uncontended s (index o) → Uncontended (step E body s o) (index o)) := by
  have hm := step_move E body s o
  generalize step E body s o = s' at hm ⊢
  cases hm with
  | idle => exact ⟨fun _ _ => rfl, id⟩
  | begin hs => exact ⟨fun j hj => Function.update_of_ne hj _ _, id⟩
  | sent hs hr hb => exact ⟨fun j hj => Function.update_of_ne hj _ _, fun hu => hu.sent⟩
  | drew hs hr => exact ⟨fun j hj => Function.update_of_ne hj _ _, id⟩
  | timedOut hs hr hb => exact ⟨fun j hj => Function.update_of_ne hj _ _, id⟩
  | committed hs hr =>
    exact ⟨fun j hj => Function.update_of_ne hj _ _, fun hu k j hk => hu k j (release_iff.1 hk).1⟩
  | rolledBack hs hr =>
    exact ⟨fun j hj => Function.update_of_ne hj _ _, fun hu k j hk => hu k j (release_iff.1 hk).1⟩

variable (E body) in
theorem run_own {ops : List (Op R)} (hops : ∀ o ∈ ops, index o = i) (s : St Stmt Ans Seq ε α Db Write Key R) :
    (∀ j, j ≠ i → (run E body s ops).slot j = s.slot j) ∧ (Uncontended s i → Uncontended (run E body s ops) i) := by
  induction ops generalizing s with
  | nil => exact ⟨fun _ _ => rfl, id⟩
  | cons o ops ih =>
    obtain ⟨hslot, hlock⟩ := ih (fun o' ho' => hops o' (List.mem_cons_of_mem o ho')) (step E body s o)
    obtain ⟨hslot', hlock'⟩ := step_own E body s o
    rw [hops o List.mem_cons_self] at hslot' hlock'
    exact ⟨fun j hj => (hslot j hj).trans (hslot' j hj), fun hu => hlock (hlock' hu)⟩

/-- a request begun and ended while no row is locked leaves no row locked -/
theorem run_unlocked (hbody : ∀ r, (body r).Disciplined E [] false) {d0 : Db} (hi : Inv E body d0 s) (r : R)
    (hs : s.slot i = .free) (hu : ∀ k, s.owner k = none) : ∃ n,
      (run E body s (uninterrupted i r n)).slot i = .finished r ((body r).transaction E counters s.seq s.db).1 ∧
        (run E body s (uninterrupted i r n)).seq = ((body r).transaction E counters s.seq s.db).2.1 ∧
        (run E body s (uninterrupted i r n)).db = ((body r).transaction E counters s.seq s.db).2.2 ∧
        (∀ j, j ≠ i → (run E body s (uninterrupted i r n)).slot j = s.slot j) ∧
        ∀ k, (run E body s (uninterrupted i r n)).owner k = none := by
  have hfree : Uncontended s i := by
    intro k j hk
    rw [hu k] at hk
    cases hk
  obtain ⟨n, hslot, hseq, hdb⟩ := run_uncontended E body r hs hfree
  obtain ⟨hothers, hlock⟩ := run_own E body (index_uninterrupted i r n) s
  refine ⟨n, hslot, hseq, hdb, hothers, fun k => ?_⟩
  have hinv : Inv E body d0 (run E body s (uninterrupted i r n)) :=
    run_induction s hi (fun s o h => step_inv s o hbody h) _
  cases ho : (run E body s (uninterrupted i r n)).owner k with
  | none => rfl
  | some j =>
    -- its owner would be the request itself, which has ended
    obtain ⟨t, ht⟩ := hinv.owned k j ho
    rw [hlock hfree k j ho, hslot] at ht
    cases ht

/-- **In turn.** While no row is locked, requests begun and ended one after the other are answered, and change the store,
as they do in turn. -/
theorem run_inTurn (hbody : ∀ r, (body r).Disciplined E [] false) {d0 : Db} (l : List R) {n : ℕ} (hi : Inv E body d0 s)
    (hs : ∀ j, n ≤ j → s.slot j = .free) (hu : ∀ k, s.owner k = none) : ∃ ops,
      (run E body s ops).seq = (inTurn E body l s.seq s.db).2.1 ∧
        (run E body s ops).db = (inTurn E body l s.seq s.db).2.2 ∧
        ∀ j r out, l[j]? = some r → (inTurn E body l s.seq s.db).1[j]? = some out →
          (run E body s ops).slot (n + j) = .finished r out := by
  induction l generalizing s n with
  | nil =>
    refine ⟨[], rfl, rfl, fun j r out hr _ => ?_⟩
    cases hr
  | cons r l ih =>
    obtain ⟨m, hslot, hseq, hdb, hothers, hfree⟩ := run_unlocked hbody hi r (hs n (le_refl n)) hu
    have hinv : Inv E body d0 (run E body s (uninterrupted n r m)) :=
      run_induction s hi (fun s o h => step_inv s o hbody h) _
    obtain ⟨ops, hseq', hdb', hslots⟩ := ih (n := n + 1) hinv
      (fun j hj => (hothers j (by omega)).trans (hs j (by omega))) hfree
    rw [hseq, hdb] at hseq' hdb' hslots
    refine ⟨uninterrupted n r m ++ ops, ?_, ?_, fun j r' out hr' hout => ?_⟩
    · rw [run_append]
      exact hseq'
    · rw [run_append]
      exact hdb'
    · rw [run_append]
      cases j with
      | zero =>
        cases hr'
        cases hout
        exact finished_stays _ ops hslot
      | succ j =>
        rw [← Nat.add_assoc, Nat.add_right_comm]
        exact hslots j r' out hr' hout

end Machine

end BankServices.InTurn
