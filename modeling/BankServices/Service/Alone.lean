/-
One request run alone on the tables of any reachable state.

- `run_alone`: while no row is locked, a request begun and executed to its end is answered as `alone` says and leaves
  the tables that `alone` says.
- `payment_outcome`: exactly when a payment is answered 200, and all that it changes then; otherwise it changes
  nothing.
- `storage_agrees_iff`: what the application checks accept, the storage accepts as well, except for a payment of less
  than half a cent, or one that the balance of the deposit account has no room for. Those are answered 500.
- `small_amount_refused`: a payment of 0.004 passes every check of the application and is refused by a constraint.
-/
import BankServices.Service.Ledger

namespace BankServices.Service

open BankServices.Java BankServices.Txn BankServices.Storage BankServices.Webapp BankServices.Api
open BankServices.Api.PaymentEndpoint JooqAwareValidationUtils

/-! ## Definitions -/

/-- the conditions of a payment, on the request and on the two accounts that it names -/
def Acceptable (db : Tables) (np : NewPayment) : Prop :=
  ∃ amount w d withdrawal deposit, np.amount = some amount ∧ np.withdrawalAccountId = some w ∧
    np.depositAccountId = some d ∧ 0 < amount.toRat ∧ 0 < halfUpCents amount ∧ w ≠ d ∧
    (np.comment.getD []).length ≤ 256 ∧ db.findAccount w = some withdrawal ∧ db.findAccount d = some deposit ∧
    amount.toRat ≤ withdrawal.balance.toBigDecimal.toRat ∧
    (halfUpCents (deposit.balance.toBigDecimal.add amount)).natAbs < 10 ^ 16

/-- the one row added, and the two columns of the two account rows that change -/
structure PaymentMade (now : LocalDateTime) (np : NewPayment) (row : PaymentRow) (db db' : Tables) : Prop where
  fresh : ∀ p ∈ db.payment, p.paymentId ≠ row.paymentId
  requested : ∃ amount, Records now np amount row
  payment : db'.payment = db.payment ++ [row]
  modified : ∀ k, row.refers k = true → ∃ r, db'.findAccount k = some r ∧ r.balanceLastModified = row.processed
  account : ∃ balance : ℤ → Decimal16_2, db'.account = db.account.map fun r =>
    if row.refers r.accountId = true then
      { r with balance := balance r.accountId, balanceLastModified := row.processed }
    else r

/-- no storage constraint refuses a statement of the request, and it is not answered 500 -/
def Agrees (s : St) (r : Request) : Prop :=
  (∀ e, (alone r s).1 ≠ .error (.dataAccessException e)) ∧ (answer (alone r s).1).status ≠ .INTERNAL_SERVER_ERROR

/-- a payment that passes the application's checks is of half a cent at least, and the deposit row has room for it -/
def FitsColumns (db : Tables) (now : LocalDateTime) (np : NewPayment) : Prop :=
  ∀ p w d, Accepts db now np p w d → 5 / 1000 ≤ p.amount.toRat ∧ d.balance.cents + halfUpCents p.amount < 10 ^ 16

/-! ## Alone in the machine -/

/-- **A request without contention** is answered as it is alone, and leaves the tables it leaves alone. -/
theorem run_alone (ops : List Op) (r : Request) {i : ℕ} (hs : (run ops).slot i = .free)
    (hu : ∀ k, (run ops).owner k = none) : ∃ n,
      (run (ops ++ RowLock.uninterrupted i r n)).slot i = .finished r (alone r (run ops)).1 ∧
        (run (ops ++ RowLock.uninterrupted i r n)).db = (alone r (run ops)).2.2 := by
  obtain ⟨n, hslot, -, hdb⟩ := RowLock.run_uncontended h2 body r hs
    fun k j hk => by rw [hu k] at hk; cases hk
  refine ⟨n, ?_⟩
  rw [run_append]
  exact ⟨hslot, hdb⟩

section Outcomes

variable {s : St} {r : Request} {g : Sequence → ℤ} {db : Tables}

theorem alone_of_ok {a : Response} (h : (body r).run h2 counters s.seq s.db = (.ok a, g, db)) :
    alone r s = (.ok a, g, db) := by
  unfold alone Prog.transaction
  rw [h]

theorem alone_of_error {t : Throwable} (h : (body r).run h2 counters s.seq s.db = (.error t, g, db)) :
    alone r s = (.error t, g, s.db) := by
  unfold alone Prog.transaction
  rw [h]

end Outcomes

/-! ## Payments -/

section Payment

variable {s : St} {now : LocalDateTime} {np : NewPayment}

theorem alone_badRequest (h : ¬ ∃ p w d, Accepts s.db now np p w d) :
    ∃ t, BadRequest t ∧ alone (.createPayment now np) s = (.error t, s.seq, s.db) := by
  obtain ⟨t, ht, hrun⟩ := run_create_badRequest counters s.seq h
  exact ⟨t, ht, alone_of_error hrun⟩

theorem alone_ok {p : Payment} {w d w' d' : AccountRow} {row : PaymentRow} (h : Accepts s.db now np p w d)
    (hs : written s.db (s.seq .payment) p w d = .ok (row, w', d')) :
    alone (.createPayment now np) s =
      (.ok (okResponse (s.seq .payment)), (counters .payment s.seq).2, transferred s.db row w' d') :=
  alone_of_ok (run_create_ok counters s.seq h hs)

theorem alone_refused {p : Payment} {w d : AccountRow} {e : DataAccessException} (h : Accepts s.db now np p w d)
    (hs : written s.db (s.seq .payment) p w d = .error e) :
    (alone (.createPayment now np) s).1 = .error (.dataAccessException e) ∧
      (alone (.createPayment now np) s).2.2 = s.db := by
  have hrun := run_create_rejected counters s.seq h hs
  rcases hout : (create now np).run h2 counters s.seq s.db with ⟨out, g, db'⟩
  rw [hout] at hrun
  cases hrun
  have halone := alone_of_error (r := .createPayment now np) hout
  rw [halone]
  exact ⟨rfl, rfl⟩

theorem alone_rejected
    (h : ¬ ∃ p w d x, Accepts s.db now np p w d ∧ written s.db (s.seq .payment) p w d = .ok x) :
    (answer (alone (.createPayment now np) s).1).status ≠ .OK ∧ (alone (.createPayment now np) s).2.2 = s.db := by
  by_cases hacc : ∃ p w d, Accepts s.db now np p w d
  · obtain ⟨p, w, d, hacc⟩ := hacc
    cases hs : written s.db (s.seq .payment) p w d with
    | ok x => exact absurd ⟨p, w, d, x, hacc, hs⟩ h
    | error e =>
      obtain ⟨hout, hdb⟩ := alone_refused hacc hs
      rw [hout]
      refine ⟨?_, hdb⟩
      simp [answer, ThrowableExceptionMapper.toResponse_status]
  · obtain ⟨t, hbad, hout⟩ := alone_badRequest hacc
    rw [hout]
    refine ⟨?_, rfl⟩
    show (ThrowableExceptionMapper.toResponse t).status ≠ .OK
    rw [badRequest_status hbad]
    simp

theorem acceptable_iff (now : LocalDateTime) (np : NewPayment)
    (hn : ∀ k r, s.db.findAccount k = some r → 0 ≤ r.balance.cents) (i : ℤ) : Acceptable s.db np ↔
      ∃ p w d x, Accepts s.db now np p w d ∧ written s.db i p w d = .ok x := by
  constructor
  · rintro ⟨amount, w, d, withdrawal, deposit, ha, hw, hd, hpos, hcents, hne, hlen, hfw, hfd, hfunds, hfits⟩
    have hacc : Accepts s.db now np ⟨now, amount, w, d, np.comment⟩ withdrawal deposit :=
      ⟨validated_ok_iff.2 ⟨rfl, ha, hpos, hw, hd, rfl, hlen, hne⟩, hfw, hfd, hfunds⟩
    have hd0 := hn d deposit hfd
    rw [halfUpCents_add hd0 hpos.le] at hfits
    obtain ⟨x, hx⟩ := (written_fits i hacc hd0).2 ⟨hcents, by show _ + halfUpCents amount < _; omega⟩
    exact ⟨_, _, _, x, hacc, hx⟩
  · rintro ⟨p, w, d, x, hacc, hx⟩
    obtain ⟨-, ha, hpos, hw, hd, -, hlen, hne⟩ := validated_ok_iff.1 hacc.valid
    have hd0 := hn _ d hacc.deposit
    obtain ⟨hcents, hroom⟩ := (written_fits i hacc hd0).1 ⟨x, hx⟩
    refine ⟨p.amount, _, _, w, d, ha, hw, hd, hpos, hcents, hne, hlen, hacc.withdrawal, hacc.deposit, hacc.funds, ?_⟩
    rw [halfUpCents_add hd0 hpos.le]
    omega

/-- two rows replaced are two columns changed in the rows with their ids -/
theorem Moved.account_map {db db' : Tables} {amount : BigDecimal} {row : PaymentRow} {w d w' d' : AccountRow}
    (h : Moved amount row w d w' d' db db') (hk : (db.account.map AccountRow.accountId).Nodup) :
    db'.account = db.account.map fun r =>
      if row.refers r.accountId = true then
        { r with
          balance := if r.accountId = row.withdrawalAccountId then w'.balance else d'.balance
          balanceLastModified := row.processed }
      else r := by
  rw [h.account]
  unfold KeyedList.replace
  rw [List.map_map]
  apply List.map_congr_left
  intro r hr
  have hfind : db.findAccount r.accountId = some r := KeyedList.lookup_of_mem hk hr
  have hw := h.withdrawal_id
  have hd := h.deposit_id
  have hne := h.different
  simp only [Function.comp_apply, Moved.refers_iff, hw, hd]
  by_cases h1 : r.accountId = row.withdrawalAccountId
  · cases Option.some.inj (hfind.symm.trans (h1 ▸ h.withdrawal))
    simp only [h1, if_true, true_or, hw, hne, if_false]
    simpa only [h1] using h.withdrawalRow
  · by_cases h2 : r.accountId = row.depositAccountId
    · cases Option.some.inj (hfind.symm.trans (h2 ▸ h.deposit))
      simp only [h2, hne.symm, if_false, if_true, or_true]
      simpa only [h2] using h.depositRow
    · simp only [h1, h2, or_self, if_false]

/-- a payment whose id lies above all stored ones makes the changes that a payment is to make -/
theorem Moved.paymentMade {db db' : Tables} {amount : BigDecimal} {row : PaymentRow} {w d w' d' : AccountRow}
    (h : Moved amount row w d w' d' db db') (hr : Records now np amount row)
    (hi : ∀ q ∈ db.payment, q.paymentId < row.paymentId) (hk : (db.account.map AccountRow.accountId).Nodup) :
    PaymentMade now np row db db' := by
  refine ⟨fun q hq => (hi q hq).ne, ⟨amount, hr⟩, h.payment, fun k hrow => ?_,
    fun k => if k = row.withdrawalAccountId then w'.balance else d'.balance, Moved.account_map h hk⟩
  rw [h.findAccount]
  rcases (Moved.refers_iff k).1 hrow with h1 | h2
  · refine ⟨w', if_pos h1, ?_⟩
    rw [h.withdrawalRow]
  · have hne : k ≠ row.withdrawalAccountId := by
      rw [h2]
      exact h.different.symm
    refine ⟨d', ?_, ?_⟩
    · rw [if_neg hne, if_pos h2]
    · rw [h.depositRow]

/-- **Outcome of one payment.** -/
theorem payment_outcome (ops : List Op) (now : LocalDateTime) (np : NewPayment) :
    ((answer (alone (.createPayment now np) (run ops)).1).status = .OK ↔ Acceptable (run ops).db np) ∧
      (Acceptable (run ops).db np → ∃ row,
        (alone (.createPayment now np) (run ops)).1 = .ok (okResponse row.paymentId) ∧
          PaymentMade now np row (run ops).db (alone (.createPayment now np) (run ops)).2.2) ∧
      (¬ Acceptable (run ops).db np → (alone (.createPayment now np) (run ops)).2.2 = (run ops).db) := by
  have hl := run_ledger ops
  have hiff := acceptable_iff now np hl.nonneg ((run ops).seq .payment)
  by_cases h : Acceptable (run ops).db np
  · obtain ⟨p, w, d, ⟨row, w', d'⟩, hacc, hs⟩ := hiff.1 h
    obtain ⟨hm, hrec, hid⟩ := moved_of_written hacc hs
    have hbelow : ∀ q ∈ (run ops).db.payment, q.paymentId < row.paymentId := by
      intro q hq
      obtain ⟨e, he, hx⟩ := hl.numbered q hq
      rw [hid]
      exact ((run_drawn ops).logged e he _ hx).2
    rw [alone_ok hacc hs]
    refine ⟨iff_of_true rfl h, fun _ => ⟨row, ?_, Moved.paymentMade hm hrec hbelow hl.keys⟩, fun hno => absurd h hno⟩
    rw [hid]
  · obtain ⟨hstatus, hdb⟩ := alone_rejected fun hwritten => h (hiff.2 hwritten)
    exact ⟨iff_of_false hstatus h, fun hyes => absurd hyes h, fun _ => hdb⟩

end Payment

/-! ## Checks of the application and of the storage -/

section Agree

variable {s : St} {now : LocalDateTime}

theorem agrees_ok {r : Request} {a : Response} (h : (alone r s).1 = .ok a) (ha : a.status ≠ .INTERNAL_SERVER_ERROR) :
    Agrees s r := by
  refine ⟨fun e he => ?_, ?_⟩
  · rw [h] at he
    cases he
  · rw [h]
    exact ha

theorem agrees_badRequest {r : Request} {t : Throwable} (h : (alone r s).1 = .error t) (ht : BadRequest t) :
    Agrees s r := by
  refine ⟨fun e he => ?_, ?_⟩
  · obtain ⟨msg, rfl⟩ := ht
    rw [h] at he
    cases he
  · rw [h]
    show (ThrowableExceptionMapper.toResponse t).status ≠ _
    rw [badRequest_status ht]
    intro hs
    cases hs

theorem createAccount_agrees (na : NewAccount) : Agrees s (.createAccount now na) := by
  cases hv : AccountEndpoint.checkedAccount now na with
  | error t =>
    have hbody : body (.createAccount now na) = .fail t := AccountEndpoint.create_eq_fail hv
    apply agrees_badRequest _ (AccountEndpoint.checkedAccount_error hv)
    rw [alone_of_error (by rw [hbody]; rfl)]
  | ok acc =>
    obtain ⟨row, -, hrun⟩ := AccountEndpoint.create_run counters s.seq s.db hv
    have halone := alone_of_ok (r := .createAccount now na) hrun
    exact agrees_ok (congrArg Prod.fst halone) (by simp)

theorem rowsResponse_status (rows : ℕ) : (AccountEndpoint.rowsResponse rows).status ≠ .INTERNAL_SERVER_ERROR := by
  unfold AccountEndpoint.rowsResponse
  split_ifs <;> simp

theorem updateAccount_agrees (u : UpdateAccount) : Agrees s (.updateAccount u) := by
  rcases hv : AccountEndpoint.checkedUpdate u with t | ⟨n, c, i⟩
  · have hbody : body (.updateAccount u) = .fail t := AccountEndpoint.update_eq_fail hv
    apply agrees_badRequest _ (AccountEndpoint.checkedUpdate_error hv)
    rw [alone_of_error (by rw [hbody]; rfl)]
  · rcases AccountEndpoint.update_run counters s.seq s.db hv with ⟨-, hrun⟩ | ⟨r, r', -, -, hrun⟩
    · have halone := alone_of_ok (r := .updateAccount u) hrun
      exact agrees_ok (congrArg Prod.fst halone) (rowsResponse_status 0)
    · have halone := alone_of_ok (r := .updateAccount u) hrun
      exact agrees_ok (congrArg Prod.fst halone) (rowsResponse_status 1)

/-- half a cent is the least amount that a column rounds up to a cent -/
theorem halfUpCents_pos_iff {a : BigDecimal} (ha : 0 < a.toRat) : 0 < halfUpCents a ↔ 5 / 1000 ≤ a.toRat := by
  rw [halfUpCents_eq, HalfUp.round_pos_iff (by linarith)]
  constructor <;> intro h <;> linarith

theorem createPayment_agrees (hn : ∀ k r, s.db.findAccount k = some r → 0 ≤ r.balance.cents) (np : NewPayment) :
    Agrees s (.createPayment now np) ↔ FitsColumns s.db now np := by
  by_cases hacc : ∃ p w d, Accepts s.db now np p w d
  · obtain ⟨p, w, d, hacc⟩ := hacc
    have hpos := (validated_ok_iff.1 hacc.valid).2.2.1
    have hfits := written_fits (s.seq .payment) hacc (hn _ d hacc.deposit)
    rw [halfUpCents_pos_iff hpos] at hfits
    have hcolumns : FitsColumns s.db now np ↔
        5 / 1000 ≤ p.amount.toRat ∧ d.balance.cents + halfUpCents p.amount < 10 ^ 16 := by
      constructor
      · intro h
        exact h p w d hacc
      · intro h p' w' d' hacc'
        obtain ⟨rfl, rfl, rfl⟩ := hacc.unique hacc'
        exact h
    rw [hcolumns, ← hfits]
    constructor
    · intro h
      cases hs : written s.db (s.seq .payment) p w d with
      | ok x => exact ⟨x, rfl⟩
      | error e => exact absurd (alone_refused hacc hs).1 (h.1 e)
    · rintro ⟨⟨row, w', d'⟩, hs⟩
      apply agrees_ok (a := okResponse (s.seq .payment))
      · rw [alone_ok hacc hs]
      · simp [okResponse]
  · obtain ⟨t, hbad, hout⟩ := alone_badRequest hacc
    refine iff_of_true ?_ fun p w d h => absurd ⟨p, w, d, h⟩ hacc
    apply agrees_badRequest _ hbad
    rw [hout]

end Agree

/-- **Two validators.** -/
theorem storage_agrees_iff (ops : List Op) :
    (∀ now na, Agrees (run ops) (.createAccount now na)) ∧ (∀ u, Agrees (run ops) (.updateAccount u)) ∧
      ∀ now np, Agrees (run ops) (.createPayment now np) ↔ FitsColumns (run ops).db now np :=
  ⟨fun _ na => createAccount_agrees na, fun u => updateAccount_agrees u,
    fun _ np => createPayment_agrees (run_ledger ops).nonneg np⟩

theorem small_amount_refused : ¬ ∀ ops, (∀ now na, Agrees (run ops) (.createAccount now na)) ∧
    (∀ u, Agrees (run ops) (.updateAccount u)) ∧ ∀ now np, Agrees (run ops) (.createPayment now np) := by
  intro h
  have hagrees := (h []).2.2 firstOf2020 (pay ⟨4, 3⟩)
  exact hagrees.1 (.checkViolated "PAYMENT__POSITIVE_AMOUNT") rfl

end BankServices.Service
