/-
The books: the balance of an account against its opening balance and its stored payments. The stored amount is rounded
up to a whole cent, and so is the balance left after the withdrawal.

- `run_books`: in every reachable state a balance is the opening balance plus the deposits less the withdrawals, plus
  one cent for every committed payment of a half cent that was withdrawn from the account (`surplus`).
- `books_balance_iff`: so the books balance exactly when no committed payment had an amount halfway between two cents;
  a payment keeps the sum of all balances exactly when its amount is not one.
- `books_unbalanced`: a run of one payment of 0.005 after which they do not balance.
-/
import BankServices.Service.Ledger

namespace BankServices.Service

open BankServices.Java BankServices.Txn BankServices.Storage BankServices.Webapp BankServices.Api
open BankServices.Api.PaymentEndpoint

/-! ## Definitions -/

/-- the cents that an account started with: the migrated ones, or none -/
def opening (k : ℤ) : ℤ := ((migrated.findAccount k).map fun r => r.balance.cents).getD 0

def deposits (db : Tables) (k : ℤ) : ℤ :=
  ((db.payment.filter fun p => p.depositAccountId = k).map fun p => p.amount.cents).sum

def withdrawals (db : Tables) (k : ℤ) : ℤ :=
  ((db.payment.filter fun p => p.withdrawalAccountId = k).map fun p => p.amount.cents).sum

def BooksBalance (db : Tables) : Prop :=
  ∀ r ∈ db.account, r.balance.cents = opening r.accountId + deposits db r.accountId - withdrawals db r.accountId

instance (db : Tables) : Decidable (BooksBalance db) := inferInstanceAs (Decidable (∀ r ∈ db.account, _))

/-- the sum of all balances -/
def total (db : Tables) : ℤ := (db.account.map fun r => r.balance.cents).sum

/-- the request is a payment of an amount exactly halfway between two cents -/
def Request.OfHalfCent : Request → Prop
  | .createPayment _ np => ∃ a, np.amount = some a ∧ HalfCent a
  | _ => False

/-- the cents that a committed request left too much in the account -/
def Request.surplus (k : ℤ) : Request → ℤ
  | .createPayment _ ⟨some a, some w, _, _⟩ => if k = w ∧ HalfCent a then 1 else 0
  | _ => 0

def surplus (log : List (Request × List (Sequence × ℤ))) (k : ℤ) : ℤ := (log.map fun e => e.1.surplus k).sum

/-! ## Surplus -/

theorem surplus_snoc (log : List (Request × List (Sequence × ℤ))) (e : Request × List (Sequence × ℤ)) (k : ℤ) :
    surplus (log ++ [e]) k = surplus log k + e.1.surplus k := by
  simp [surplus]

theorem request_surplus_nonneg (r : Request) (k : ℤ) : 0 ≤ r.surplus k := by
  unfold Request.surplus
  split
  · split_ifs <;> decide
  · exact le_refl _

/-- only a payment of a half cent leaves a surplus, in the account that it withdraws from -/
theorem request_surplus_ne_zero {r : Request} {k : ℤ} (h : r.surplus k ≠ 0) :
    r.OfHalfCent ∧ ∃ now np, r = .createPayment now np ∧ np.withdrawalAccountId = some k := by
  unfold Request.surplus at h
  split at h
  · rename_i now a w d c
    split_ifs at h with hh
    · obtain ⟨rfl, ha⟩ := hh
      exact ⟨⟨a, rfl, ha⟩, now, _, rfl, rfl⟩
    · exact absurd rfl h
  · exact absurd rfl h

theorem records_surplus {now : LocalDateTime} {np : NewPayment} {amount : BigDecimal} {row : PaymentRow}
    (h : Records now np amount row) (k : ℤ) : (Request.createPayment now np).surplus k =
      if k = row.withdrawalAccountId ∧ HalfCent amount then 1 else 0 := by
  obtain ⟨a, w, d, c⟩ := np
  obtain rfl : a = some amount := h.amount
  obtain rfl : w = some row.withdrawalAccountId := h.withdrawal
  rfl

/-! ## The books after an effect -/

theorem deposits_snoc {db db' : Tables} {row : PaymentRow} (h : db'.payment = db.payment ++ [row]) (k : ℤ) :
    deposits db' k = deposits db k + if k = row.depositAccountId then row.amount.cents else 0 := by
  unfold deposits
  rw [h, List.filter_append, List.map_append, List.sum_append]
  by_cases hk : k = row.depositAccountId
  · subst hk; simp
  · simp [hk, Ne.symm hk]

theorem withdrawals_snoc {db db' : Tables} {row : PaymentRow} (h : db'.payment = db.payment ++ [row]) (k : ℤ) :
    withdrawals db' k = withdrawals db k + if k = row.withdrawalAccountId then row.amount.cents else 0 := by
  unfold withdrawals
  rw [h, List.filter_append, List.map_append, List.sum_append]
  by_cases hk : k = row.withdrawalAccountId
  · subst hk; simp
  · simp [hk, Ne.symm hk]

theorem deposits_none {db : Tables} {k : ℤ} (h : db.paymentsOf k = []) : deposits db k = 0 := by
  unfold deposits
  rw [List.filter_eq_nil_iff.2 fun p hp hd => ?_]
  · rfl
  · exact List.filter_eq_nil_iff.1 h p hp ((Moved.refers_iff k).2 (Or.inr (by simpa using hd : _ = k).symm))

theorem withdrawals_none {db : Tables} {k : ℤ} (h : db.paymentsOf k = []) : withdrawals db k = 0 := by
  unfold withdrawals
  rw [List.filter_eq_nil_iff.2 fun p hp hd => ?_]
  · rfl
  · exact List.filter_eq_nil_iff.1 h p hp ((Moved.refers_iff k).2 (Or.inl (by simpa using hd : _ = k).symm))

/-- every account found is where its opening balance, its payments and the surplus put it -/
def Books (s : St) : Prop := ∀ k r, s.db.findAccount k = some r →
  r.balance.cents = opening k + deposits s.db k - withdrawals s.db k + surplus s.log k

/-- an account that does not exist has had no logged payment, so no surplus -/
theorem surplus_missing {s : St} (h : LedgerInv s) {k : ℤ} (hk : s.db.findAccount k = none) : surplus s.log k = 0 := by
  unfold surplus
  refine List.sum_eq_zero fun x hx => ?_
  obtain ⟨e, he, rfl⟩ := List.mem_map.1 hx
  by_contra hne
  obtain ⟨-, now, np, hr, hw⟩ := request_surplus_ne_zero hne
  obtain ⟨p, hp, amount, hrec⟩ := h.recorded now np e.2 (by rw [← hr]; exact he)
  have hpk : p.withdrawalAccountId = k := Option.some.inj (hrec.withdrawal.symm.trans hw)
  have := (h.parties p hp).1
  rw [hpk, hk] at this
  cases this

theorem step_books (ops : List Op) (o : Op) (h : Books (run ops)) : Books (step (run ops) o) := by
  have hl := run_ledger ops
  rcases step_commit ops o with ⟨hdb, hlog⟩ | ⟨i, t, a, -, hs, -, -, -, he, hlog, -⟩
  · unfold Books
    rw [hdb, hlog]
    exact h
  intro k r hr
  rw [hlog, surplus_snoc]
  rcases effect_cases he with @⟨now, np, amount, row, w, d, w', d', hreq, -, hm, hrec⟩ | ⟨hno, hp, hrows⟩
  · rw [hreq, deposits_snoc hm.payment, withdrawals_snoc hm.payment, records_surplus hrec]
    rw [hm.findAccount] at hr
    have hne := hm.different
    split_ifs at hr with h1 h2
    · cases hr
      have := h k w (by rw [h1]; exact hm.withdrawal)
      rw [hm.withdrawal_cents, this]
      by_cases hc : HalfCent amount
      · simp only [hc, h1, hne, and_self, if_true, if_false]; ring
      · simp only [hc, h1, hne, and_false, if_true, if_false]; ring
    · cases hr
      have := h k d (by rw [h2]; exact hm.deposit)
      rw [hm.deposit_cents (hl.nonneg k d (by rw [h2]; exact hm.deposit)), this]
      simp only [h2, false_and, if_true, if_false, hne.symm]
      ring
    · simp only [h1, h2, false_and, if_false, add_zero]
      exact h k r hr
  · have hzero : t.req.surplus k = 0 := by
      by_contra hne
      obtain ⟨-, now, np, hreq, -⟩ := request_surplus_ne_zero hne
      exact hno now np hreq
    have hd : deposits (step (run ops) o).db k = deposits (run ops).db k := by unfold deposits; rw [hp]
    have hw : withdrawals (step (run ops) o).db k = withdrawals (run ops).db k := by unfold withdrawals; rw [hp]
    rw [hd, hw, hzero, add_zero]
    rcases hrows k r hr with ⟨q, hq, hb, -⟩ | ⟨hnone, hx, hb⟩
    · rw [hb]
      exact h k q hq
    · -- a created account has a new id: it was not migrated and no payment refers to it
      have hopen : opening k = 0 := by
        have h3 : (3 : ℤ) ≤ k := ((run_drawn ops).opened i t hs _ hx).1
        have hmig : migrated.findAccount k = none := by
          by_contra hsome
          have := migrated_lt (Option.isSome_iff_ne_none.2 hsome)
          omega
        unfold opening
        rw [hmig]
        rfl
      rw [hb, hopen, deposits_none (hl.paymentsOf_missing hnone), withdrawals_none (hl.paymentsOf_missing hnone),
        surplus_missing hl hnone]
      rfl

theorem books_init : Books init := by
  intro k r hr
  have hr' : migrated.findAccount k = some r := hr
  have ho : opening k = r.balance.cents := by
    unfold opening
    rw [hr']
    rfl
  show r.balance.cents = opening k + 0 - 0 + 0
  omega

theorem run_books (ops : List Op) : Books (run ops) := run_induction books_init step_books ops

/-! ## When the books balance -/

/-- an account that exists has no surplus exactly when no logged payment left one there -/
theorem surplus_pos {log : List (Request × List (Sequence × ℤ))} {k : ℤ} {e : Request × List (Sequence × ℤ)}
    (he : e ∈ log) (h : e.1.surplus k ≠ 0) : 0 < surplus log k := by
  have hpos : 0 < e.1.surplus k := lt_of_le_of_ne (request_surplus_nonneg _ _) (Ne.symm h)
  have hle : e.1.surplus k ≤ surplus log k := by
    refine List.single_le_sum (fun x hx => ?_) _ (List.mem_map.2 ⟨e, he, rfl⟩)
    obtain ⟨e', -, rfl⟩ := List.mem_map.1 hx
    exact request_surplus_nonneg _ _
  omega

theorem books_balance_iff_log (ops : List Op) :
    BooksBalance (run ops).db ↔ ∀ e ∈ (run ops).log, ¬ e.1.OfHalfCent := by
  have hl := run_ledger ops
  constructor
  · intro hb e he hhalf
    obtain ⟨r, ids⟩ := e
    cases r with
    | createPayment now np =>
      obtain ⟨p, hp, amount, hrec⟩ := hl.recorded now np ids he
      obtain ⟨a, ha, hhalf⟩ := hhalf
      cases ha.symm.trans hrec.amount
      obtain ⟨w, hw⟩ := Option.isSome_iff_exists.1 (hl.parties p hp).1
      have hsur : (Request.createPayment now np).surplus p.withdrawalAccountId ≠ 0 := by
        rw [records_surplus hrec, if_pos ⟨rfl, hhalf⟩]
        decide
      have hpos := surplus_pos he hsur
      have hbooks := run_books ops _ w hw
      have hbal := hb w (findAccount_mem hw)
      rw [findAccount_id hw] at hbal
      omega
    | createAccount now na => exact hhalf
    | updateAccount u => exact hhalf
    | deleteAccount i => exact hhalf
  · intro hno r hr
    have hfind := KeyedList.lookup_of_mem hl.keys hr
    have hbooks := run_books ops _ r hfind
    have hzero : surplus (run ops).log r.accountId = 0 := by
      unfold surplus
      refine List.sum_eq_zero fun x hx => ?_
      obtain ⟨e, he, rfl⟩ := List.mem_map.1 hx
      by_contra hne
      exact hno e he (request_surplus_ne_zero hne).1
    omega

/-- a payment moves the sum of all balances by the half cent's surplus only -/
theorem total_moved {s s' : Tables} (hk : (s.account.map AccountRow.accountId).Nodup) {amount : BigDecimal}
    {row : PaymentRow} {w d w' d' : AccountRow} (h : Moved amount row w d w' d' s s') (hd : 0 ≤ d.balance.cents) :
    total s' = total s + if HalfCent amount then 1 else 0 := by
  have hw : KeyedList.lookup AccountRow.accountId s.account w'.accountId = some w := by
    rw [h.withdrawal_id]
    exact h.withdrawal
  have hd' : KeyedList.lookup AccountRow.accountId (KeyedList.replace AccountRow.accountId s.account w') d'.accountId =
      some d := by
    rw [h.deposit_id, KeyedList.lookup_replace, h.withdrawal_id, if_neg h.different]
    exact h.deposit
  unfold total
  rw [h.account, KeyedList.sum_replace (by rw [KeyedList.map_key_replace]; exact hk) hd',
    KeyedList.sum_replace hk hw, h.withdrawal_cents, h.deposit_cents hd]
  ring

/-- **The books balance, but for half cents.** -/
theorem books_balance_iff (ops : List Op) :
    (BooksBalance (run ops).db ↔ ∀ e ∈ (run ops).log, ¬ e.1.OfHalfCent) ∧
      ∀ i t a, (run ops).slot i = .running t → t.rest = .done a → (∃ now np, t.req = .createPayment now np) →
        (total (step (run ops) (.commit i)).db = total (run ops).db ↔ ¬ t.req.OfHalfCent) := by
  refine ⟨books_balance_iff_log ops, fun i t a hs hr ⟨now, np, hreq⟩ => ?_⟩
  have hl := run_ledger ops
  obtain ⟨amount, row, w, d, w', d', hm, hrec⟩ := commit_moved ops hs hr hreq
  rw [total_moved hl.keys hm (hl.nonneg _ d hm.deposit), hreq]
  have hhalf : (Request.createPayment now np).OfHalfCent ↔ HalfCent amount := by
    constructor
    · rintro ⟨a, ha, hh⟩
      cases ha.symm.trans hrec.amount
      exact hh
    · intro hh
      exact ⟨amount, hrec.amount, hh⟩
  rw [hhalf]
  by_cases hc : HalfCent amount
  · simp [hc]
  · simp [hc]

/-! ## A payment of half a cent -/

/-- one payment of 0.005 from account 0 to account 1, with nothing beside it -/
def halfCentRun : List Op := .begin 0 (.createPayment firstOf2020 (pay ⟨5, 3⟩)) :: toCommit 0

theorem books_unbalanced : ¬ ∀ ops, BooksBalance (run ops).db := by
  intro h
  exact absurd (h halfCentRun) (by decide)

end BankServices.Service
