/-
Deletion of accounts. The code tests no balance: the foreign keys refuse a delete of an account that has a payment,
and a created account without a payment has balance zero.

- `absent_unpaid`: while an account is absent no payment that names it is stored, logged or answered 200.
- `deleted_stays_gone`: after a committed deletion the account is absent in any continuation, since ids are not drawn
  twice, and a payment in flight that names it changes nothing and does not reach its commit.
- `deletion_safe`: a created account whose deletion is answered 200 had balance zero and no payment, and stays gone.
-/
import BankServices.Service.Ledger

namespace BankServices.Service

open BankServices.Java BankServices.Txn BankServices.Storage BankServices.Webapp BankServices.Api
open BankServices.Api.PaymentEndpoint

/-! ## Definitions -/

/-- the account was made by `AccountEndpoint.create` -/
def CreatedBy (log : List (Request × List (Sequence × ℤ))) (k : ℤ) : Prop :=
  ∃ now na ids, (Request.createAccount now na, ids) ∈ log ∧ (Sequence.account, k) ∈ ids

/-- the payment withdraws from the account or deposits to it -/
def Names (np : NewPayment) (k : ℤ) : Prop := np.withdrawalAccountId = some k ∨ np.depositAccountId = some k

/-- no payment that names the account is stored, logged or answered 200 -/
structure Unpaid (s : St) (k : ℤ) : Prop where
  stored : s.db.paymentsOf k = []
  logged : ∀ now np ids, (Request.createPayment now np, ids) ∈ s.log → ¬ Names np k
  answered : ∀ j now np a, s.slot j = .finished (.createPayment now np) (.ok a) → ¬ Names np k

/-- an operation of slot `j`, other than the begin of a request -/
def OpOf (j : ℕ) (o : Op) : Prop := o = .exec j ∨ o = .timeout j ∨ o = .commit j ∨ o = .rollback j

/-- the account is absent, and a payment in flight that names it does not reach its commit and changes no table -/
structure Gone (s : St) (k : ℤ) : Prop where
  absent : s.db.findAccount k = none
  unpaid : Unpaid s k
  inflight : ∀ j t now np, s.slot j = .running t → t.req = .createPayment now np → Names np k →
    (∀ a, t.rest ≠ .done a) ∧ ∀ o, OpOf j o → (step s o).db = s.db

/-! ## Answered requests -/

/-- a request answered well was logged, or answered 304 without a write -/
def AnsweredLogged (s : St) : Prop := ∀ i r a, s.slot i = .finished r (.ok a) →
  (∃ ids, (r, ids) ∈ s.log) ∨ (a.status = .NOT_MODIFIED ∧ r.OfRow)

theorem step_log (ops : List Op) (o : Op) {e : Request × List (Sequence × ℤ)} (he : e ∈ (run ops).log) :
    e ∈ (step (run ops) o).log := by
  rcases step_commit ops o with ⟨-, hlog⟩ | ⟨i, t, a, -, hc⟩
  · rw [hlog]
    exact he
  · rw [hc.log]
    exact List.mem_append_left _ he

theorem run_answeredLogged (ops : List Op) : AnsweredLogged (run ops) := by
  apply run_induction
  · intro i r a h
    cases h
  · intro ops o ih i r a h
    rcases RowLock.step_answered _ _ h with h | ⟨t, hs, rfl, hans⟩
    · exact (ih i r a h).imp_left fun ⟨ids, he⟩ => ⟨ids, step_log ops o he⟩
    · cases hans with
      | committed hr =>
        rcases commit_cases ops hs hr with hc | ⟨hst, hrow, -⟩
        · refine Or.inl ⟨t.ids, ?_⟩
          rw [hc.log]
          simp
        · exact Or.inr ⟨hst, hrow⟩

/-! ## Absent accounts -/

theorem names_refers {np : NewPayment} {k : ℤ} (h : Names np k) {now : LocalDateTime} {amount : BigDecimal}
    {p : PaymentRow} (hp : Records now np amount p) : p.refers k = true := by
  apply (Moved.refers_iff k).2
  rcases h with h | h
  · exact Or.inl (Option.some.inj (h.symm.trans hp.withdrawal))
  · exact Or.inr (Option.some.inj (h.symm.trans hp.deposit))

/-- while an account is absent, no payment that names it is stored, logged or answered 200 -/
theorem absent_unpaid (ops : List Op) {k : ℤ} (h : (run ops).db.findAccount k = none) : Unpaid (run ops) k := by
  have hl := run_ledger ops
  have hstored : (run ops).db.paymentsOf k = [] := hl.paymentsOf_missing h
  have hlogged : ∀ now np ids, (Request.createPayment now np, ids) ∈ (run ops).log → ¬ Names np k := by
    intro now np ids he hn
    obtain ⟨p, hp, amount, hrec⟩ := hl.recorded now np ids he
    exact List.filter_eq_nil_iff.1 hstored p hp (names_refers hn hrec)
  refine ⟨hstored, hlogged, ?_⟩
  intro j now np a hfin
  rcases run_answeredLogged ops j _ a hfin with ⟨ids, he⟩ | ⟨-, hrow⟩
  · exact hlogged now np ids he
  · exact absurd hrow id

/-- the id of an account that exists is spent: it was migrated, or it was drawn and logged -/
theorem account_spent (ops : List Op) {k : ℤ} {r : AccountRow} (h : (run ops).db.findAccount k = some r) :
    RowLock.Spent (.account, k) (run ops) := by
  have hd := run_drawn ops
  rcases (run_ledger ops).origin k r h with hm | ⟨e, he, hx⟩
  · have hlt := migrated_lt hm
    refine ⟨lt_of_lt_of_le hlt (hd.start .account), ?_⟩
    intro i t ht hx
    have h3 : (3 : ℤ) ≤ k := (hd.opened i t ht _ hx).1
    omega
  · exact hd.spent he hx

/-- an absent account whose id is spent stays absent -/
theorem step_absent (ops : List Op) (o : Op) {k : ℤ} (hk : RowLock.Spent (.account, k) (run ops))
    (h : (run ops).db.findAccount k = none) : (step (run ops) o).db.findAccount k = none := by
  rcases step_commit ops o with ⟨hdb, -⟩ | ⟨i, t, a, -, hc⟩
  · rw [hdb]
    exact h
  · by_contra hne
    obtain ⟨r, hr⟩ := Option.ne_none_iff_exists'.1 hne
    rcases effect_origin hc.effect hr with ⟨q, hq⟩ | hx
    · rw [h] at hq
      cases hq
    · exact hk.2 i t hc.running hx

theorem run_absent (ops more : List Op) {k : ℤ} (hk : RowLock.Spent (.account, k) (run ops))
    (h : (run ops).db.findAccount k = none) : (run (ops ++ more)).db.findAccount k = none := by
  induction more using List.reverseRecOn with
  | nil => simpa using h
  | append_singleton more o ih =>
    rw [← List.append_assoc, run_snoc]
    apply step_absent
    · rw [run_append]
      exact RowLock.run_spent (run ops) hk more
    · exact ih

/-! ## The deletion -/

section Deletion

variable {ops : List Op} {i : ℕ} {t : Session} {a : Response} {k : ℤ}

/-- a deletion that is answered 200 removes a row that no payment refers to -/
theorem commit_deletes (hs : (run ops).slot i = .running t) (hr : t.rest = .done a) (hq : t.req = .deleteAccount k)
    (ha : a.status = .OK) : (∃ r, (run ops).db.findAccount k = some r) ∧ (run ops).db.paymentsOf k = [] ∧
      (run (ops ++ [.commit i])).db.findAccount k = none := by
  rw [run_snoc]
  rcases commit_cases ops hs hr with hc | ⟨hst, -⟩
  · have he := hc.effect
    rw [hq] at he
    generalize (step (run ops) (.commit i)).db = db' at he ⊢
    generalize t.ids = ids at he
    cases he with
    | @deleted _ r hfind hfree =>
      refine ⟨⟨r, hfind⟩, hfree, ?_⟩
      rw [findAccount_dropAccount, if_pos rfl]
  · rw [ha] at hst
    cases hst

end Deletion

/-- an absent account whose id is spent is gone -/
theorem gone_of_absent (ops : List Op) {k : ℤ} (hk : RowLock.Spent (.account, k) (run ops))
    (h : (run ops).db.findAccount k = none) : Gone (run ops) k := by
  refine ⟨h, absent_unpaid ops h, fun j t now np hs hq hn => ?_⟩
  have hnot : ∀ a, t.rest ≠ .done a := by
    intro a hr
    have hfin : (step (run ops) (.commit j)).slot j = .finished t.req (.ok a) := commit_slot hs hr
    rw [hq, ← run_snoc] at hfin
    have habsent : (run (ops ++ [.commit j])).db.findAccount k = none := run_absent ops _ hk h
    exact (absent_unpaid _ habsent).answered j now np a hfin hn
  refine ⟨hnot, fun o ho => ?_⟩
  rcases step_commit ops o with ⟨hdb, -⟩ | ⟨i, u, a, rfl, hu, hr, -, -, -, -, -⟩
  · exact hdb
  · have hij : i = j := by
      rcases ho with ho | ho | ho | ho <;> cases ho
      rfl
    subst hij
    cases hs.symm.trans hu
    exact absurd hr (hnot a)

/-- **A deleted account stays gone**, in any continuation. -/
theorem deleted_stays_gone (ops : List Op) {i : ℕ} {t : Session} {a : Response} {k : ℤ}
    (hs : (run ops).slot i = .running t) (hr : t.rest = .done a) (hq : t.req = .deleteAccount k) (ha : a.status = .OK)
    (more : List Op) : Gone (run (ops ++ [.commit i] ++ more)) k := by
  obtain ⟨⟨r, hfind⟩, -, habsent⟩ := commit_deletes hs hr hq ha
  have hspent : RowLock.Spent (.account, k) (run (ops ++ [.commit i])) := by
    rw [run_snoc]
    exact RowLock.step_spent _ _ (account_spent ops hfind)
  apply gone_of_absent
  · rw [run_append]
    exact RowLock.run_spent _ hspent more
  · exact run_absent _ more hspent habsent

/-- **Safe deletion.** -/
theorem deletion_safe (ops : List Op) :
    (∀ p ∈ (run ops).db.payment, (∃ r, (run ops).db.findAccount p.withdrawalAccountId = some r) ∧
      (∃ r, (run ops).db.findAccount p.depositAccountId = some r) ∧ p.withdrawalAccountId ≠ p.depositAccountId) ∧
    ∀ i t a k, (run ops).slot i = .running t → t.rest = .done a → t.req = .deleteAccount k → a.status = .OK →
      CreatedBy (run ops).log k →
      (∃ r, (run ops).db.findAccount k = some r ∧ r.balance.cents = 0) ∧ (run ops).db.paymentsOf k = [] ∧
        ∀ more, Gone (run (ops ++ [.commit i] ++ more)) k := by
  have hl := run_ledger ops
  refine ⟨fun p hp => ?_, fun i t a k hs hr hq ha hcreated => ?_⟩
  · obtain ⟨hw, hd, hne⟩ := hl.parties p hp
    exact ⟨Option.isSome_iff_exists.1 hw, Option.isSome_iff_exists.1 hd, hne⟩
  · obtain ⟨⟨r, hfind⟩, hfree, -⟩ := commit_deletes hs hr hq ha
    have hzero : r.balance.cents = 0 := by
      obtain ⟨now, na, ids, he, hx⟩ := hcreated
      have h3 : (3 : ℤ) ≤ k := ((run_drawn ops).logged _ he _ hx).1
      have hmig : migrated.findAccount k = none := by
        by_contra hsome
        have hlt := migrated_lt (Option.isSome_iff_ne_none.2 hsome)
        omega
      exact hl.untouched k r hfind hmig hfree
    exact ⟨⟨r, hfind, hzero⟩, hfree, deleted_stays_gone ops hs hr hq ha⟩

/-- an account is created and deleted again -/
def createdAndDeleted : List Op :=
  [.begin 0 (.createAccount firstOf2020 ⟨some (ofChars ['B']), none⟩), .exec 0, .exec 0, .commit 0,
    .begin 1 (.deleteAccount 3), .exec 1, .commit 1]

example : (run (createdAndDeleted.take 4)).db.account.length = 4 ∧ (run createdAndDeleted).db = migrated := by decide

end BankServices.Service
