/-
What `PaymentEndpoint.create` does when it runs, from any tables and with any source of ids.

- `create_run_ok_iff`: it answers 200 exactly when the checks pass, both accounts are found, the funds suffice and the
  three rows it writes can be stored; the tables then hold exactly these rows in addition (`written`, `transferred`).
- `run_create_badRequest`, `run_create_rejected`: otherwise it ends in a 400, or in a storage failure when the checks of
  `Accepts` pass and the rows cannot be stored (`written_fits`).
- `moved_of_written`: what the stored payment did to the two accounts, to the cent.
-/
import BankServices.Api.PaymentEndpoint

namespace BankServices.Api.PaymentEndpoint

open BankServices.Java BankServices.Txn BankServices.Storage BankServices.Webapp BankServices.Fallible
open ValidationUtils JooqAwareValidationUtils

/-! ## The checks before the transaction -/

theorem validated_ok_iff {now : LocalDateTime} {np : NewPayment} {p : Payment} : validated now np = .ok p ↔
    p.processed = now ∧ np.amount = some p.amount ∧ 0 < p.amount.toRat ∧
      np.withdrawalAccountId = some p.withdrawalAccountId ∧ np.depositAccountId = some p.depositAccountId ∧
      p.comment = np.comment ∧ (np.comment.getD []).length ≤ 256 ∧ p.withdrawalAccountId ≠ p.depositAccountId := by
  simp only [validated, bind_ok_iff, checkedPositive_ok_iff, checkedNotNull_ok_iff, checked_ok_iff]
  constructor
  · rintro ⟨amount, ⟨ha, hpos⟩, w, hw, d, hd, comment, ⟨hc, -, hlen⟩, h⟩
    split_ifs at h with hne
    · obtain ⟨_, h, -⟩ := h
    · cases h
      exact ⟨rfl, ha, hpos, hw, hd, hc, hlen, hne⟩
  · obtain ⟨_, amount, w, d, comment⟩ := p
    rintro ⟨rfl, ha, hpos, hw, hd, hc, hlen, hne⟩
    refine ⟨amount, ⟨ha, hpos⟩, w, hw, d, hd, comment, ⟨hc, fun h => ?_, hlen⟩, ?_⟩
    · cases h
    · rw [if_neg hne]
      rfl

theorem validated_error {now : LocalDateTime} {np : NewPayment} {t : Throwable} (h : validated now np = .error t) :
    BadRequest t := by
  simp only [validated, bind_error_iff] at h
  rcases h with h | ⟨_, _, h | ⟨_, _, h | ⟨_, _, h | ⟨_, _, h⟩⟩⟩⟩
  · exact checkedPositive_error h
  · exact checkedNotNull_error h
  · exact checkedNotNull_error h
  · exact checked_error h
  · split_ifs at h
    · cases h; exact ⟨_, rfl⟩
    · cases h

/-! ## Runs of the helpers -/

section Helpers

variable {G : Type} (next : Sequence → G → ℤ × G) (g : G) (db : Tables) {α : Type}

theorem run_getBalanceExclusively (i : ℤ) (side : String) (f : BigDecimal → Tx α) :
    (getBalanceExclusively i side >>= f).run h2 next g db =
      match db.findAccount i with
      | some r => (f r.balance.toBigDecimal).run h2 next g db
      | none => (.error (exception (side ++ " account not exists by accountId=" ++ toString i)), g, db) := by
  unfold getBalanceExclusively
  rw [Prog.send_bind, run_send]
  show (_ >>= f).run h2 next g db = _
  cases hr : db.findAccount i with
  | some r =>
    have : (h2.send (.selectForUpdate i) db).1 = .ok (some (r.balance.toBigDecimal, r.balanceLastModified.1)) := by
      show Except.ok ((db.findAccount i).map _) = _
      rw [hr]; rfl
    rw [this]
    rfl
  | none =>
    have : (h2.send (.selectForUpdate i) db).1 = .ok none := by
      show Except.ok ((db.findAccount i).map _) = _
      rw [hr]; rfl
    rw [this]
    rfl

theorem run_insertPayment (p : Payment) (f : ℤ → Tx α) :
    (insertPayment p >>= f).run h2 next g db =
      match paymentRow db (next .payment g).1 p with
      | .error e => (.error (.dataAccessException e), (next .payment g).2, db)
      | .ok row => (f (next .payment g).1).run h2 next (next .payment g).2 (applyWrite db (.addPayment row)) := by
  unfold insertPayment
  simp only [Prog.draw_bind, Prog.done_bind, Prog.send_bind, run_draw, run_send]
  have hs : h2.send (.insertPayment (next .payment g).1 p) db =
      ((wrote ((paymentRow db (next .payment g).1 p).map .addPayment)).1,
        (wrote ((paymentRow db (next .payment g).1 p).map .addPayment)).2.foldl applyWrite db) := rfl
  rw [hs]
  cases paymentRow db (next .payment g).1 p with
  | error e => rfl
  | ok row => rfl

theorem run_updateAccount {i : ℤ} {r : AccountRow} (hr : db.findAccount i = some r) (b : BigDecimal) (t : LocalDateTime)
    (side : String) (f : Unit → Tx α) :
    (updateAccount i b t side >>= f).run h2 next g db =
      match balanceRow r b t with
      | .error e => (.error (.dataAccessException e), g, db)
      | .ok r' => (f ()).run h2 next g (applyWrite db (.putAccount r')) := by
  unfold updateAccount
  simp only [Prog.send_bind, run_send]
  have hs : h2.send (.updateBalance i b t) db =
      ((wrote ((balanceRow r b t).map .putAccount)).1,
        (wrote ((balanceRow r b t).map .putAccount)).2.foldl applyWrite db) := by
    have he : h2.exec (.updateBalance i b t) db = wrote ((balanceRow r b t).map .putAccount) := onRow_found hr _
    unfold Engine.send
    rw [he]
    rfl
  rw [hs]
  cases balanceRow r b t with
  | error e => rfl
  | ok r' => rfl

end Helpers

/-! ## Runs of a creation -/

/-- the application's own checks pass: a valid request, both accounts found, sufficient funds -/
structure Accepts (db : Tables) (now : LocalDateTime) (np : NewPayment) (p : Payment) (w d : AccountRow) : Prop where
  valid : validated now np = .ok p
  withdrawal : db.findAccount p.withdrawalAccountId = some w
  deposit : db.findAccount p.depositAccountId = some d
  funds : p.amount.toRat ≤ w.balance.toBigDecimal.toRat

/-- the three rows that an accepted payment writes: its own, and both accounts with their new balances -/
def written (db : Tables) (paymentId : ℤ) (p : Payment) (w d : AccountRow) :
    Except DataAccessException (PaymentRow × AccountRow × AccountRow) := do
  let row ← paymentRow db paymentId p
  let w' ← balanceRow w (w.balance.toBigDecimal.subtract p.amount) p.processed
  let d' ← balanceRow d (d.balance.toBigDecimal.add p.amount) p.processed
  return (row, w', d')

/-- the tables after these writes -/
def transferred (db : Tables) (row : PaymentRow) (w' d' : AccountRow) : Tables :=
  applyWrite (applyWrite (applyWrite db (.addPayment row)) (.putAccount w')) (.putAccount d')

def okResponse (paymentId : ℤ) : Response := ⟨.OK, some .TEXT_PLAIN, some (.text (toString paymentId))⟩

theorem Accepts.unique {db : Tables} {now : LocalDateTime} {np : NewPayment} {p p' : Payment} {w w' d d' : AccountRow}
    (h : Accepts db now np p w d) (h' : Accepts db now np p' w' d') : p = p' ∧ w = w' ∧ d = d' := by
  have hp : p = p' := Except.ok.inj (h.valid.symm.trans h'.valid)
  subst hp
  exact ⟨rfl, Option.some.inj (h.withdrawal.symm.trans h'.withdrawal),
    Option.some.inj (h.deposit.symm.trans h'.deposit)⟩

section Create

variable {G : Type} (next : Sequence → G → ℤ × G) (g : G) {db : Tables} {now : LocalDateTime} {np : NewPayment}
  {p : Payment} {w d : AccountRow}

theorem run_getBalancesExclusively (hw : db.findAccount p.withdrawalAccountId = some w)
    (hd : db.findAccount p.depositAccountId = some d) (f : BigDecimal × BigDecimal → Tx Response) :
    (getBalancesExclusively p >>= f).run h2 next g db =
      (f (w.balance.toBigDecimal, d.balance.toBigDecimal)).run h2 next g db := by
  unfold getBalancesExclusively getWithdrawalBalanceExclusively getDepositBalanceExclusively
  split_ifs
  · rw [Prog.bind_bind, run_getBalanceExclusively, hw]
    simp only
    rw [Prog.bind_bind, run_getBalanceExclusively, hd]
    rfl
  · rw [Prog.bind_bind, run_getBalanceExclusively, hd]
    simp only
    rw [Prog.bind_bind, run_getBalanceExclusively, hw]
    rfl

theorem run_getBalancesExclusively_missing (hmiss : db.findAccount p.withdrawalAccountId = none ∨
      db.findAccount p.depositAccountId = none) (f : BigDecimal × BigDecimal → Tx Response) :
    ∃ t, BadRequest t ∧ (getBalancesExclusively p >>= f).run h2 next g db = (.error t, g, db) := by
  unfold getBalancesExclusively getWithdrawalBalanceExclusively getDepositBalanceExclusively
  split_ifs
  · rw [Prog.bind_bind, run_getBalanceExclusively]
    cases hw : db.findAccount p.withdrawalAccountId with
    | none => exact ⟨_, ⟨_, rfl⟩, rfl⟩
    | some w =>
      have hd : db.findAccount p.depositAccountId = none := hmiss.resolve_left (by rw [hw]; exact Option.some_ne_none w)
      simp only
      rw [Prog.bind_bind, run_getBalanceExclusively, hd]
      exact ⟨_, ⟨_, rfl⟩, rfl⟩
  · rw [Prog.bind_bind, run_getBalanceExclusively]
    cases hd : db.findAccount p.depositAccountId with
    | none => exact ⟨_, ⟨_, rfl⟩, rfl⟩
    | some d =>
      have hw : db.findAccount p.withdrawalAccountId = none :=
        hmiss.resolve_right (by rw [hd]; exact Option.some_ne_none d)
      simp only
      rw [Prog.bind_bind, run_getBalanceExclusively, hw]
      exact ⟨_, ⟨_, rfl⟩, rfl⟩

theorem run_create_valid (hv : validated now np = .ok p) : (create now np).run h2 next g db =
    (getBalancesExclusively p >>= fun b => transfer p b.1 b.2).run h2 next g db := by
  unfold create
  rw [hv]
  rfl

/-- the writes of a transfer find their rows: the deposit row is not the one written for the withdrawal -/
theorem findAccount_withdrawn {row : PaymentRow} {w' : AccountRow} (hw' : w'.accountId = p.withdrawalAccountId)
    (hne : p.withdrawalAccountId ≠ p.depositAccountId) (hd : db.findAccount p.depositAccountId = some d) :
    (applyWrite (applyWrite db (.addPayment row)) (.putAccount w')).findAccount p.depositAccountId = some d := by
  rw [findAccount_putAccount, if_neg (by rw [hw']; exact hne), findAccount_addPayment, hd]

theorem run_create_ok (h : Accepts db now np p w d) {row : PaymentRow} {w' d' : AccountRow}
    (hs : written db (next .payment g).1 p w d = .ok (row, w', d')) :
    (create now np).run h2 next g db =
      (.ok (okResponse (next .payment g).1), (next .payment g).2, transferred db row w' d') := by
  obtain ⟨row, hrow, w', hw', d', hd', hr⟩ : ∃ row, paymentRow db (next .payment g).1 p = .ok row ∧
      ∃ w', balanceRow w (w.balance.toBigDecimal.subtract p.amount) p.processed = .ok w' ∧
      ∃ d', balanceRow d (d.balance.toBigDecimal.add p.amount) p.processed = .ok d' ∧ _ := by
    simpa only [written, bind_ok_iff] using hs
  cases hr
  have hne := (validated_ok_iff.1 h.valid).2.2.2.2.2.2.2
  have hid : w'.accountId = p.withdrawalAccountId := (balanceRow_id hw').trans (findAccount_id h.withdrawal)
  rw [run_create_valid next g h.valid, run_getBalancesExclusively next g h.withdrawal h.deposit]
  unfold transfer
  rw [if_neg (by rw [BigDecimal.compareTo_neg_iff, not_lt]; exact h.funds), run_insertPayment, hrow]
  simp only
  have hw1 : (applyWrite db (.addPayment row)).findAccount p.withdrawalAccountId = some w := h.withdrawal
  rw [run_updateAccount next _ _ hw1, hw']
  simp only
  rw [run_updateAccount next _ _ (findAccount_withdrawn hid hne h.deposit), hd']
  rfl

theorem run_create_rejected (h : Accepts db now np p w d) {e : DataAccessException}
    (hs : written db (next .payment g).1 p w d = .error e) :
    ((create now np).run h2 next g db).1 = .error (.dataAccessException e) := by
  rw [run_create_valid next g h.valid, run_getBalancesExclusively next g h.withdrawal h.deposit]
  have hne := (validated_ok_iff.1 h.valid).2.2.2.2.2.2.2
  unfold transfer
  rw [if_neg (by rw [BigDecimal.compareTo_neg_iff, not_lt]; exact h.funds), run_insertPayment]
  simp only [written, bind_error_iff] at hs
  rcases hs with hs | ⟨row, hrow, hs | ⟨w', hw', hs | ⟨d', hd', hs⟩⟩⟩
  · rw [hs]
  · have hw1 : (applyWrite db (.addPayment row)).findAccount p.withdrawalAccountId = some w := h.withdrawal
    rw [hrow]
    simp only
    rw [run_updateAccount next _ _ hw1, hs]
  · have hw1 : (applyWrite db (.addPayment row)).findAccount p.withdrawalAccountId = some w := h.withdrawal
    have hid : w'.accountId = p.withdrawalAccountId := (balanceRow_id hw').trans (findAccount_id h.withdrawal)
    rw [hrow]
    simp only
    rw [run_updateAccount next _ _ hw1, hw']
    simp only
    rw [run_updateAccount next _ _ (findAccount_withdrawn hid hne h.deposit), hs]
  · cases hs

/-- a request that fails a check of the application ends in a 400 and has written nothing -/
theorem run_create_badRequest (h : ¬ ∃ p w d, Accepts db now np p w d) :
    ∃ t, BadRequest t ∧ (create now np).run h2 next g db = (.error t, g, db) := by
  cases hv : validated now np with
  | error t =>
    refine ⟨t, validated_error hv, ?_⟩
    unfold create
    rw [hv]
    rfl
  | ok p =>
    rw [run_create_valid next g hv]
    cases hw : db.findAccount p.withdrawalAccountId with
    | none => exact run_getBalancesExclusively_missing next g (Or.inl hw) _
    | some w =>
      cases hd : db.findAccount p.depositAccountId with
      | none => exact run_getBalancesExclusively_missing next g (Or.inr hd) _
      | some d =>
        have hf : w.balance.toBigDecimal.compareTo p.amount < 0 := by
          rw [BigDecimal.compareTo_neg_iff, ← not_le]
          exact fun hf => h ⟨p, w, d, hv, hw, hd, hf⟩
        rw [run_getBalancesExclusively next g hw hd]
        unfold transfer
        rw [if_pos hf]
        exact ⟨_, ⟨_, rfl⟩, rfl⟩

/-- **Success.** A creation answers 200 exactly when its checks pass and its rows can be stored. -/
theorem create_run_ok_iff {resp : Response} {g' : G} {db' : Tables} :
    (create now np).run h2 next g db = (.ok resp, g', db') ↔
      ∃ p w d row w' d', Accepts db now np p w d ∧ written db (next .payment g).1 p w d = .ok (row, w', d') ∧
        resp = okResponse (next .payment g).1 ∧ g' = (next .payment g).2 ∧ db' = transferred db row w' d' := by
  constructor
  · intro h
    by_cases hacc : ∃ p w d, Accepts db now np p w d
    · obtain ⟨p, w, d, hacc⟩ := hacc
      cases hs : written db (next .payment g).1 p w d with
      | error e =>
        have := run_create_rejected next g hacc hs
        rw [h] at this
        cases this
      | ok x =>
        obtain ⟨row, w', d'⟩ := x
        rw [run_create_ok next g hacc hs] at h
        cases h
        exact ⟨p, w, d, row, w', d', hacc, hs, rfl, rfl, rfl⟩
    · obtain ⟨t, -, ht⟩ := run_create_badRequest next g hacc
      rw [ht] at h
      cases h
  · rintro ⟨p, w, d, row, w', d', hacc, hs, rfl, rfl, rfl⟩
    exact run_create_ok next g hacc hs

end Create

/-! ## The rows written -/

theorem written_ok_iff {db : Tables} {i : ℤ} {p : Payment} {w d w' d' : AccountRow} {row : PaymentRow} :
    written db i p w d = .ok (row, w', d') ↔ paymentRow db i p = .ok row ∧
      balanceRow w (w.balance.toBigDecimal.subtract p.amount) p.processed = .ok w' ∧
      balanceRow d (d.balance.toBigDecimal.add p.amount) p.processed = .ok d' := by
  simp only [written, bind_ok_iff]
  constructor
  · rintro ⟨row', hrow, w'', hw, d'', hd, h⟩
    cases h
    exact ⟨hrow, hw, hd⟩
  · rintro ⟨hrow, hw, hd⟩
    exact ⟨row, hrow, w', hw, d', hd, rfl⟩

/-- the rows of an accepted payment can be stored exactly when its amount is at least half a cent and the new deposit
balance has at most 16 digits -/
theorem written_fits {db : Tables} {now : LocalDateTime} {np : NewPayment} {p : Payment} {w d : AccountRow} (i : ℤ)
    (h : Accepts db now np p w d) (hd : 0 ≤ d.balance.cents) : (∃ x, written db i p w d = .ok x) ↔
      0 < halfUpCents p.amount ∧ d.balance.cents + halfUpCents p.amount < 10 ^ 16 := by
  obtain ⟨-, -, hpos, -, -, hcomment, hlen, -⟩ := validated_ok_iff.1 h.valid
  have hadd := halfUpCents_add hd hpos.le
  constructor
  · rintro ⟨⟨row, w', d'⟩, hx⟩
    obtain ⟨hrow, -, hdep⟩ := written_ok_iff.1 hx
    obtain ⟨v, hv, -, -⟩ := balanceRow_ok_iff.1 hdep
    have hfits := v.fits
    obtain ⟨-, -, -, -, -, -, hcents, -⟩ := paymentRow_ok_iff.1 hrow
    exact ⟨hcents, by omega⟩
  · rintro ⟨hcents, hroom⟩
    have hwfits := w.balance.fits
    have hle := halfUpCents_le hpos.le h.funds
    have hsub := halfUpCents_subtract_le hpos.le h.funds
    have hsub0 := halfUpCents_subtract_nonneg h.funds
    have hadd0 : 0 ≤ halfUpCents (d.balance.toBigDecimal.add p.amount) := by omega
    obtain ⟨row, hrow⟩ := paymentRow_fits i hcents (by omega) (hcomment ▸ hlen) (by rw [h.withdrawal]; rfl)
      (by rw [h.deposit]; rfl)
    obtain ⟨w', hw'⟩ := balanceRow_fits w p.processed hsub0 (by omega)
    obtain ⟨d', hd'⟩ := balanceRow_fits d p.processed hadd0 (by omega)
    exact ⟨(row, w', d'), written_ok_iff.2 ⟨hrow, hw', hd'⟩⟩

/-! ## What a payment changes -/

/-- all that a stored payment `row` of `amount` did to the tables; `w`, `d` are its accounts before, `w'`, `d'` after -/
structure Moved (amount : BigDecimal) (row : PaymentRow) (w d w' d' : AccountRow) (db db' : Tables) : Prop where
  withdrawal : db.findAccount row.withdrawalAccountId = some w
  deposit : db.findAccount row.depositAccountId = some d
  different : row.withdrawalAccountId ≠ row.depositAccountId
  positive : 0 < amount.toRat
  covered : amount.toRat ≤ w.balance.toBigDecimal.toRat
  cents : row.amount.cents = halfUpCents amount
  withdrawn : w'.balance.cents = halfUpCents (w.balance.toBigDecimal.subtract amount)
  deposited : d'.balance.cents = halfUpCents (d.balance.toBigDecimal.add amount)
  withdrawalRow : w' = { w with balance := w'.balance, balanceLastModified := row.processed }
  depositRow : d' = { d with balance := d'.balance, balanceLastModified := row.processed }
  payment : db'.payment = db.payment ++ [row]
  account : db'.account = KeyedList.replace AccountRow.accountId
    (KeyedList.replace AccountRow.accountId db.account w') d'

/-- the stored payment is the requested one, its amount rounded to cents -/
structure Records (now : LocalDateTime) (np : NewPayment) (amount : BigDecimal) (row : PaymentRow) : Prop where
  processed : row.processed = .ofLocalDateTime now
  cents : row.amount.cents = halfUpCents amount
  amount : np.amount = some amount
  withdrawal : np.withdrawalAccountId = some row.withdrawalAccountId
  deposit : np.depositAccountId = some row.depositAccountId
  comment : row.comment.map Subtype.val = np.comment

section Moved

variable {db : Tables} {now : LocalDateTime} {np : NewPayment} {p : Payment} {w d w' d' : AccountRow} {row : PaymentRow}
  {x : ℤ}

theorem moved_of_written (h : Accepts db now np p w d) (hs : written db x p w d = .ok (row, w', d')) :
    Moved p.amount row w d w' d' db (transferred db row w' d') ∧ Records now np p.amount row ∧ row.paymentId = x := by
  obtain ⟨hnow, ham, hpos, hw, hd, hcom, -, hne⟩ := validated_ok_iff.1 h.valid
  obtain ⟨hrow, hw', hd'⟩ := written_ok_iff.1 hs
  obtain ⟨hid, hproc, hcents, hrw, hrd, hrc, -, -, -⟩ := paymentRow_ok_iff.1 hrow
  obtain ⟨v, hv, -, rfl⟩ := balanceRow_ok_iff.1 hw'
  obtain ⟨v', hv', -, rfl⟩ := balanceRow_ok_iff.1 hd'
  refine ⟨⟨?_, ?_, ?_, hpos, h.funds, hcents, hv, hv', ?_, ?_, rfl, rfl⟩, ⟨?_, hcents, ham, ?_, ?_, ?_⟩, hid⟩
  · rw [hrw]; exact h.withdrawal
  · rw [hrd]; exact h.deposit
  · rw [hrw, hrd]; exact hne
  · rw [hproc]
  · rw [hproc]
  · rw [hproc, hnow]
  · rw [hw, hrw]
  · rw [hd, hrd]
  · rw [hrc, hcom]

end Moved

namespace Moved

variable {amount : BigDecimal} {row : PaymentRow} {w d w' d' : AccountRow} {db db' : Tables}

theorem withdrawal_id (h : Moved amount row w d w' d' db db') : w'.accountId = row.withdrawalAccountId := by
  have := findAccount_id h.withdrawal
  rw [h.withdrawalRow]
  exact this

theorem deposit_id (h : Moved amount row w d w' d' db db') : d'.accountId = row.depositAccountId := by
  have := findAccount_id h.deposit
  rw [h.depositRow]
  exact this

/-- the two accounts have their new rows, every other account its old one -/
theorem findAccount (h : Moved amount row w d w' d' db db') (k : ℤ) : db'.findAccount k =
    if k = row.withdrawalAccountId then some w'
    else if k = row.depositAccountId then some d'
    else db.findAccount k := by
  have hw := h.withdrawal
  have hd := h.deposit
  unfold Tables.findAccount at hw hd ⊢
  rw [h.account, KeyedList.lookup_replace, KeyedList.lookup_replace, h.withdrawal_id, h.deposit_id]
  by_cases h1 : k = row.withdrawalAccountId
  · subst h1
    simp [h.different.symm, hw]
  · by_cases h2 : k = row.depositAccountId
    · subst h2
      simp [h.different, h.different.symm, hd]
    · simp [h1, h2, Ne.symm h1, Ne.symm h2]

theorem paymentsOf (h : Moved amount row w d w' d' db db') (k : ℤ) :
    db'.paymentsOf k = db.paymentsOf k ++ if row.refers k then [row] else [] := by
  unfold Tables.paymentsOf
  rw [h.payment, List.filter_append]
  cases hp : row.refers k <;> simp [hp]

theorem refers_iff (k : ℤ) : row.refers k = true ↔ k = row.withdrawalAccountId ∨ k = row.depositAccountId := by
  simp only [PaymentRow.refers, decide_eq_true_eq]
  constructor
  · rintro (h | h)
    · exact Or.inl h.symm
    · exact Or.inr h.symm
  · rintro (h | h)
    · exact Or.inl h.symm
    · exact Or.inr h.symm

/-- a row found afterwards was changed by the payment, or is as before -/
theorem row_cases (h : Moved amount row w d w' d' db db') {k : ℤ} {r' : AccountRow} (hr : db'.findAccount k = some r') :
    (row.refers k = true ∧ r'.balanceLastModified = row.processed ∧ ∃ r, db.findAccount k = some r) ∨
      (row.refers k = false ∧ db.findAccount k = some r') := by
  rw [h.findAccount] at hr
  split_ifs at hr with h1 h2
  · cases hr
    refine Or.inl ⟨(refers_iff k).2 (Or.inl h1), ?_, w, h1 ▸ h.withdrawal⟩
    rw [h.withdrawalRow]
  · cases hr
    refine Or.inl ⟨(refers_iff k).2 (Or.inr h2), ?_, d, h2 ▸ h.deposit⟩
    rw [h.depositRow]
  · refine Or.inr ⟨?_, hr⟩
    rw [Bool.eq_false_iff, Ne, refers_iff]
    exact not_or.2 ⟨h1, h2⟩

/-- the cents that leave the one account, up to the half cent, and reach the other -/
theorem withdrawal_cents (h : Moved amount row w d w' d' db db') :
    w'.balance.cents = w.balance.cents - row.amount.cents + if HalfCent amount then 1 else 0 := by
  rw [h.withdrawn, h.cents]
  exact halfUpCents_subtract h.positive.le h.covered

theorem deposit_cents (h : Moved amount row w d w' d' db db') (hd : 0 ≤ d.balance.cents) :
    d'.balance.cents = d.balance.cents + row.amount.cents := by
  rw [h.deposited, h.cents]
  exact halfUpCents_add hd h.positive.le

/-- no balance is negative afterwards, if none was -/
theorem nonneg (h : Moved amount row w d w' d' db db')
    (hn : ∀ k r, db.findAccount k = some r → 0 ≤ r.balance.cents) (k : ℤ) (r : AccountRow)
    (hr : db'.findAccount k = some r) : 0 ≤ r.balance.cents := by
  rw [h.findAccount] at hr
  split_ifs at hr with h1 h2
  · cases hr
    rw [h.withdrawn]
    exact halfUpCents_subtract_nonneg h.covered
  · cases hr
    have h0 := hn _ _ h.deposit
    have ha := halfUpCents_nonneg h.positive.le
    have hc := h.cents
    rw [h.deposit_cents h0]
    omega
  · exact hn _ _ hr

end Moved

end BankServices.Api.PaymentEndpoint
