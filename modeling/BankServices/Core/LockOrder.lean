/-
Deadlock freedom by lock order, for any number of transactions.

The argument is about a table of owners and a relation "i waits for the row k": if every waiting transaction holds only
rows with smaller keys than the one it waits for, then waiting chains climb in the key order, so they never close
(`acyclic`), and among finitely many transactions one is not waiting (`exists_not_waiting`). The second half ties it to
`RowLock`: programs that lock in ascending order (`Prog.Ascending`) keep that property in every run.
No novelty is claimed: this is the classical resource-ordering argument.
-/
import BankServices.Core.RowLock

namespace BankServices.LockOrder

open BankServices.Txn BankServices.RowLock

/-! ## Owners and waiters -/

section Order

variable {ι κ : Type} {waits : ι → κ → Prop} {owner : κ → Option ι}

/-- along a chain of waiters the rows grow: the last one waited for is at least every row the first one waits for -/
theorem chain_climbs [Preorder κ] (h : ∀ i k k', waits i k → owner k' = some i → k' < k) {i j : ι}
    (hc : Relation.TransGen (fun i j => ∃ k, waits i k ∧ owner k = some j) i j) :
    ∃ k k', waits i k ∧ owner k' = some j ∧ k ≤ k' := by
  induction hc with
  | single hij =>
    obtain ⟨k, hk, ho⟩ := hij
    exact ⟨k, k, hk, ho, le_refl k⟩
  | tail _ hjl ih =>
    obtain ⟨k, k', hk, ho, hle⟩ := ih
    obtain ⟨m, hm, hmo⟩ := hjl
    exact ⟨k, m, hk, hmo, hle.trans (h _ m k' hm ho).le⟩

/-- **No cycle of waiters.** -/
theorem acyclic [Preorder κ] (h : ∀ i k k', waits i k → owner k' = some i → k' < k) (i : ι) :
    ¬ Relation.TransGen (fun i j => ∃ k, waits i k ∧ owner k = some j) i i := by
  intro hc
  obtain ⟨k, k', hk, ho, hle⟩ := chain_climbs h hc
  exact absurd (h i k k' hk ho) hle.not_gt

/-- **Somebody is not waiting.** Among finitely many parties that own all rows waited for, one does not wait. -/
theorem exists_not_waiting [LinearOrder κ] (h : ∀ i k k', waits i k → owner k' = some i → k' < k) (S : Finset ι)
    (hS : S.Nonempty) (hown : ∀ i ∈ S, ∀ k, waits i k → ∃ j ∈ S, owner k = some j) : ∃ i ∈ S, ∀ k, ¬ waits i k := by
  by_contra hall
  push Not at hall
  obtain ⟨i0, hi0⟩ := hS
  have : Nonempty κ := ⟨(hall i0 hi0).choose⟩
  choose! key hkey using hall
  -- the waiter of the greatest row waits for a party that waits for a greater one
  obtain ⟨i, hi, hmax⟩ := S.exists_max_image key ⟨i0, hi0⟩
  obtain ⟨j, hj, ho⟩ := hown i hi (key i) (hkey i hi)
  exact absurd (h j (key j) (key i) (hkey j hj) ho) (hmax j hj).not_gt

end Order

/-! ## Transactions that lock in ascending order -/

variable {Stmt : Type} {Ans : Stmt → Type} {Seq ε α Db Write Key Face R : Type} [LinearOrder Key]
  {E : Engine Stmt Ans Db Write Key Face} {body : R → Prog Stmt Ans Seq ε α}

/-- transaction `i` needs row `k` for its next statement, and another transaction holds its lock -/
def Awaits (E : Engine Stmt Ans Db Write Key Face) (s : St Stmt Ans Seq ε α Db Write Key R) (i : ℕ) (k : Key) : Prop :=
  ∃ t c f, s.slot i = .running t ∧ t.rest = .send c f ∧ k ∈ E.reads c ∧ ∃ j, s.owner k = some j ∧ j ≠ i

/-- transaction `i` waits for a row lock held by transaction `j` -/
def WaitsFor (E : Engine Stmt Ans Db Write Key Face) (s : St Stmt Ans Seq ε α Db Write Key R) (i j : ℕ) : Prop :=
  ∃ k, Awaits E s i k ∧ s.owner k = some j

/-- transaction `i` is open and can take its next step now, without a lock timeout -/
def Ready (E : Engine Stmt Ans Db Write Key Face) (s : St Stmt Ans Seq ε α Db Write Key R) (i : ℕ) : Prop :=
  ∃ t, s.slot i = .running t ∧ ∀ c f, t.rest = .send c f → blocked E s i c = false

/-- an open transaction has nothing left to do or may still wait only above what it holds (`L`); only finitely many
slots were used -/
structure OrderInv (E : Engine Stmt Ans Db Write Key Face) (s : St Stmt Ans Seq ε α Db Write Key R) : Prop where
  above : ∀ i t, s.slot i = .running t →
    t.rest.Settled ∨ ∃ L, (∀ k, s.owner k = some i ↔ k ∈ L) ∧ t.rest.Ascending E L
  finite : ∃ n, ∀ i, n ≤ i → s.slot i = .free

theorem orderInv_init (d : Db) (q : Seq → ℤ) : OrderInv E (init d q : St Stmt Ans Seq ε α Db Write Key R) :=
  ⟨by simp [init], 0, fun _ _ => rfl⟩

omit [LinearOrder Key] in
theorem finite_update {s : St Stmt Ans Seq ε α Db Write Key R} (h : ∃ n, ∀ i, n ≤ i → s.slot i = .free) (i : ℕ)
    (x : Slot Stmt Ans Seq ε α Write R) : ∃ n, ∀ j, n ≤ j → Function.update s.slot i x j = .free := by
  obtain ⟨n, hn⟩ := h
  refine ⟨max n (i + 1), fun j hj => ?_⟩
  rw [Function.update_of_ne (by omega)]
  exact hn j (by omega)

/-- after its statement the sender has given up, or holds exactly the rows its program text says -/
theorem sent_above [DecidableEq Seq] {d0 : Db} {s : St Stmt Ans Seq ε α Db Write Key R} (hi : Inv E body d0 s) {i : ℕ}
    {t : Session Stmt Ans Seq ε α Write R} {c : Stmt} {f : Ans c → Prog Stmt Ans Seq ε α} (hs : s.slot i = .running t)
    (hr : t.rest = .send c f) {L : List Key} (hL : ∀ k, s.owner k = some i ↔ k ∈ L) (hasc : t.rest.Ascending E L)
    (a : Ans c) (ha : a = (E.exec c (E.view s.db t.writes)).1) :
    (f a).Settled ∨ ∃ L, (∀ k, grant E s i c k = some i ↔ k ∈ L) ∧ (f a).Ascending E L := by
  by_cases hkey : ∀ x, E.lockKey c = some x → grant E s i c x = some i
  · rw [hr] at hasc
    refine Or.inr ⟨_, fun k => ⟨fun hk => ?_, fun hk => ?_⟩, hasc.2 a⟩
    · rcases grant_cases hk with hk | ⟨_, hc, _⟩
      · exact List.mem_append_right _ ((hL k).1 hk)
      · exact List.mem_append_left _ (by simp [hc])
    · rcases List.mem_append.1 hk with hk | hk
      · exact hkey k (by simpa using hk)
      · exact grant_mono ((hL k).2 hk)
  · push Not at hkey
    obtain ⟨y, hc, hy⟩ := hkey
    have hp : E.present (E.look s.db y) = false := by
      by_contra hp
      exact hy (grant_lock hc (by simpa using hp))
    rw [ha]
    exact Or.inl (missing_settled (hi.session i t hs) hr hc (fun hx => hy (grant_mono hx)) hp).1

theorem step_orderInv [DecidableEq Seq] (hbody : ∀ r, (body r).Ascending E []) {d0 : Db}
    (s : St Stmt Ans Seq ε α Db Write Key R) (o : Op R) (hi : Inv E body d0 s) (h : OrderInv E s) :
    OrderInv E (step E body s o) := by
  have hm := step_move E body s o
  generalize step E body s o = s' at hm ⊢
  cases hm with
  | idle => exact h
  | @begin i r hs =>
    refine ⟨fun j t ht => ?_, finite_update h.finite i _⟩
    rcases slot_update ht with ⟨rfl, hx⟩ | ⟨_, ht⟩
    · cases hx
      refine Or.inr ⟨[], fun k => ⟨fun hk => ?_, fun hk => by cases hk⟩, hbody r⟩
      obtain ⟨u, hu⟩ := hi.owned k _ hk
      rw [hs] at hu; cases hu
    · exact h.above j t ht
  | @sent i t c k hs hr hb =>
    refine ⟨fun j u hu => ?_, finite_update h.finite i _⟩
    rcases slot_update hu with ⟨rfl, hx⟩ | ⟨hj, hu⟩
    · cases hx
      rcases h.above j t hs with hset | ⟨L, hL, hasc⟩
      · rw [hr] at hset; exact absurd hset id
      · exact sent_above hi hs hr hL hasc _ rfl
    · rcases h.above j u hu with hset | ⟨L, hL, hasc⟩
      · exact Or.inl hset
      · exact Or.inr ⟨L, fun x => (grant_other hb hj x).trans (hL x), hasc⟩
  | @drew i t q k hs hr =>
    refine ⟨fun j u hu => ?_, finite_update h.finite i _⟩
    rcases slot_update hu with ⟨rfl, hx⟩ | ⟨_, hu⟩
    · cases hx
      rcases h.above j t hs with hset | ⟨L, hL, hasc⟩
      · rw [hr] at hset; exact absurd hset id
      · rw [hr] at hasc
        exact Or.inr ⟨L, hL, hasc _⟩
    · exact h.above j u hu
  | @timedOut i t c k hs hr hb =>
    refine ⟨fun j u hu => ?_, finite_update h.finite i _⟩
    rcases slot_update hu with ⟨rfl, hx⟩ | ⟨_, hu⟩
    · cases hx
      exact Or.inl (timedOut_session (hi.session j t hs) hr hb).1
    · exact h.above j u hu
  | @committed i t a hs hr =>
    refine ⟨fun j u hu => ?_, finite_update h.finite i _⟩
    rcases slot_update hu with ⟨_, hx⟩ | ⟨hj, hu⟩
    · cases hx
    · rcases h.above j u hu with hset | ⟨L, hL, hasc⟩
      · exact Or.inl hset
      · exact Or.inr ⟨L, fun x => ⟨fun hx => (hL x).1 (release_iff.1 hx).1,
          fun hx => release_iff.2 ⟨(hL x).2 hx, hj⟩⟩, hasc⟩
  | @rolledBack i t e hs hr =>
    refine ⟨fun j u hu => ?_, finite_update h.finite i _⟩
    rcases slot_update hu with ⟨_, hx⟩ | ⟨hj, hu⟩
    · cases hx
    · rcases h.above j u hu with hset | ⟨L, hL, hasc⟩
      · exact Or.inl hset
      · exact Or.inr ⟨L, fun x => ⟨fun hx => (hL x).1 (release_iff.1 hx).1,
          fun hx => release_iff.2 ⟨(hL x).2 hx, hj⟩⟩, hasc⟩

theorem run_orderInv [DecidableEq Seq] (hbody : ∀ r, (body r).Ascending E [])
    (hdisc : ∀ r, (body r).Disciplined E [] false) {d0 : Db} {q0 : Seq → ℤ} (ops : List (Op R)) :
    Inv E body d0 (run E body (init d0 q0) ops) ∧ OrderInv E (run E body (init d0 q0) ops) :=
  run_induction (P := fun s => Inv E body d0 s ∧ OrderInv E s) _ ⟨inv_init d0 q0, orderInv_init d0 q0⟩
    (fun s o h => ⟨step_inv s o hdisc h.1, step_orderInv hbody s o h.1 h.2⟩) ops

/-- every waiting transaction holds only smaller keys than the one it waits for -/
theorem held_lt_awaited {s : St Stmt Ans Seq ε α Db Write Key R} (h : OrderInv E s) (i : ℕ) (k k' : Key)
    (hw : Awaits E s i k) (ho : s.owner k' = some i) : k' < k := by
  obtain ⟨t, c, f, hs, hr, hk, j, hj, hne⟩ := hw
  rcases h.above i t hs with hset | ⟨L, hL, hasc⟩
  · rw [hr] at hset; exact absurd hset id
  · rw [hr] at hasc
    have hkL : k ∉ L := fun hm => hne (Option.some.inj (hj.symm.trans ((hL k).2 hm)))
    exact (hasc.1 k hk).resolve_left hkL k' ((hL k').1 ho)

omit [LinearOrder Key] in
theorem blocked_iff {s : St Stmt Ans Seq ε α Db Write Key R} {i : ℕ} {c : Stmt} :
    blocked E s i c = true ↔ ∃ k ∈ E.reads c, ∃ j, s.owner k = some j ∧ j ≠ i := by
  simp only [blocked, List.any_eq_true, decide_eq_true_eq]
  refine exists_congr fun k => and_congr_right fun _ => ?_
  cases s.owner k with
  | none => simp
  | some j => simp

/-- **No deadlock.** In a run of ascending programs no transaction waits, through any number of others, for itself. -/
theorem no_deadlock {s : St Stmt Ans Seq ε α Db Write Key R} (h : OrderInv E s) (i : ℕ) :
    ¬ Relation.TransGen (WaitsFor E s) i i :=
  acyclic (held_lt_awaited h) i

/-- **Progress.** While a transaction is open, some open transaction can take its next step. -/
theorem progress [DecidableEq Seq] {d0 : Db} {s : St Stmt Ans Seq ε α Db Write Key R} (hi : Inv E body d0 s)
    (h : OrderInv E s) (hopen : ∃ i t, s.slot i = .running t) : ∃ i, Ready E s i := by
  classical
  obtain ⟨n, hn⟩ := h.finite
  obtain ⟨i0, t0, h0⟩ := hopen
  have hmem : ∀ j u, s.slot j = .running u → j ∈ (Finset.range n).filter fun j => ∃ t, s.slot j = .running t := by
    intro j u hu
    refine Finset.mem_filter.2 ⟨Finset.mem_range.2 ?_, u, hu⟩
    by_contra hj
    rw [hn j (by omega)] at hu; cases hu
  obtain ⟨i, hiS, hfree⟩ := exists_not_waiting (held_lt_awaited h) _ ⟨i0, hmem i0 t0 h0⟩ (by
    rintro j - k ⟨_, _, _, _, _, _, m, hm, _⟩
    obtain ⟨u, hu⟩ := hi.owned k m hm
    exact ⟨m, hmem m u hu, hm⟩)
  obtain ⟨_, t, ht⟩ := Finset.mem_filter.1 hiS
  refine ⟨i, t, ht, fun c f hr => ?_⟩
  by_contra hb
  obtain ⟨k, hk, hj⟩ := blocked_iff.1 (by simpa using hb)
  exact hfree k ⟨t, c, f, ht, hr, hk, hj⟩

end BankServices.LockOrder
