/-
The service refines the bank: what the code does to the tables is what `Bank.perform` does to the bank that they hold.

`bank` forgets rows, columns and constraints. Checks refine checks (`Refines`), and the statements of a transaction,
with all the constraints they meet, come to one step of the bank.

- `transaction_performs`: a request run as one transaction is answered, to the letter, and leaves the tables as the bank
  of these tables performs it.
- `alone_performs`: so it is in every reachable state of the service.
-/
import BankServices.Api.PaymentList
import BankServices.Service.AnyOrder
import BankServices.Service.Bank

namespace BankServices.Bank

open BankServices.Java BankServices.Txn BankServices.Storage BankServices.Webapp BankServices.Api BankServices.Service
open BankServices.Fallible

/-! ## The bank of the tables -/

def holding (r : AccountRow) : Holding :=
  ⟨r.ownerName.1, r.comment.map Subtype.val, r.created.1, r.balance.cents, r.balanceLastModified.1⟩

def transferOf (p : PaymentRow) : Transfer :=
  ⟨p.paymentId, p.processed.1, p.amount.cents, p.withdrawalAccountId, p.depositAccountId, p.comment.map Subtype.val⟩

def bank (db : Tables) : State := ⟨fun k => (db.findAccount k).map holding, db.payment.map transferOf⟩

/-- how the code ends with a verdict. It fails in the storage only. -/
inductive Told : Verdict → Except Throwable Response → Prop where
  | paid (number : ℤ) : Told (.paid number) (.ok (PaymentEndpoint.okResponse number))
  | opened (account : Account) : Told (.opened account) (.ok ⟨.OK, some .APPLICATION_JSON, some (.account account)⟩)
  | changed : Told .changed (.ok (AccountEndpoint.rowsResponse 1))
  | unchanged : Told .unchanged (.ok (AccountEndpoint.rowsResponse 0))
  | refused (f : Fault) : Told (.refused f) (.error (ValidationUtils.exception f.text))
  | failed (e : DataAccessException) : Told .failed (.error (.dataAccessException e))

theorem Told.response {v : Verdict} {out : Except Throwable Response} (h : Told v out) : answer out = v.response := by
  cases h <;> rfl

/-! ## Checks -/

/-- the check passes or fails as its counterpart, with that text; what they pass on is related -/
def Refines {α β : Type} (R : α → β → Prop) (x : Except Throwable α) (y : Except Fault β) : Prop :=
  match x, y with
  | .ok a, .ok b => R a b
  | .error t, .error f => t = ValidationUtils.exception f.text
  | _, _ => False

namespace Refines

variable {α β α' β' : Type} {R : α → β → Prop} {S : α' → β' → Prop} {x : Except Throwable α} {y : Except Fault β}

theorem bind {f : α → Except Throwable α'} {g : β → Except Fault β'} (h : Refines R x y)
    (hfg : ∀ a b, R a b → Refines S (f a) (g b)) : Refines S (x >>= f) (y >>= g) := by
  cases x with
  | error t =>
    cases y with
    | error e => exact h
    | ok b => exact absurd h id
  | ok a =>
    cases y with
    | error e => exact absurd h id
    | ok b => exact hfg a b h

theorem cases (h : Refines R x y) : (∃ f, x = .error (ValidationUtils.exception f.text) ∧ y = .error f) ∨
    ∃ a b, x = .ok a ∧ y = .ok b ∧ R a b := by
  cases x with
  | error t =>
    cases y with
    | error f => exact Or.inl ⟨f, congrArg _ h, rfl⟩
    | ok b => exact absurd h id
  | ok a =>
    cases y with
    | error f => exact absurd h id
    | ok b => exact Or.inr ⟨a, b, rfl, rfl, h⟩

end Refines

open JooqAwareValidationUtils in
theorem checkedPositive_refines (o : Option BigDecimal) :
    Refines (fun a q => a.toRat = q ∧ 0 < q) (checkedPositive PAYMENT.AMOUNT o) (amountOf o) := by
  cases o with
  | none => rfl
  | some a =>
    have hle : a.compareTo .zero ≤ 0 ↔ ¬ 0 < a.toRat := by
      rw [BigDecimal.compareTo_le_iff, BigDecimal.toRat_zero, not_lt]
    unfold amountOf checkedPositive
    simp only
    by_cases ha : 0 < a.toRat
    · rw [if_neg (not_not.2 ha ∘ hle.1), if_pos ha]
      exact ⟨rfl, ha⟩
    · rw [if_pos (hle.2 ha), if_neg ha]
      rfl

open JooqAwareValidationUtils in
theorem checkedNotNull_refines {T : Type} {field : TableField} {f : Fault}
    (htext : exceptionAt field "must not be null" = ValidationUtils.exception f.text) (o : Option T) :
    Refines (fun a b => a = b) (checkedNotNull field o) (require o f) := by
  cases o with
  | none => exact htext
  | some a => exact rfl

open JooqAwareValidationUtils in
/-- the check of a nullable column of 256 characters -/
theorem checked_refines_comment {field : TableField} {f : Fault} (hnull : field.notNull = false)
    (hlength : field.length = 256)
    (htext : exceptionAt field ("must not exceed " ++ toString field.length ++ " chars") =
      ValidationUtils.exception f.text) (o : Option JavaString) :
    Refines (fun a b => a = o ∧ b = o ∧ (o.getD []).length ≤ 256) (checked field o) (commentOf o f) := by
  unfold checked commentOf
  rw [hlength] at htext ⊢
  cases ho : o.getD [] with
  | nil =>
    simp only [List.isEmpty_nil, if_true, hnull, Bool.false_eq_true, if_false]
    exact ⟨rfl, rfl, by simp⟩
  | cons c cs =>
    simp only [List.isEmpty_cons, Bool.false_eq_true, if_false]
    split_ifs with hlong
    · exact htext
    · exact ⟨rfl, rfl, not_lt.1 hlong⟩

open JooqAwareValidationUtils in
theorem checked_refines_ownerName (o : Option JavaString) :
    Refines (fun a b => a = o ∧ o = some b ∧ b ≠ [] ∧ b.length ≤ 128) (checked ACCOUNT.OWNER_NAME o)
      (ownerNameOf o) := by
  unfold checked ownerNameOf
  cases o with
  | none => rfl
  | some s =>
    cases s with
    | nil => rfl
    | cons c cs =>
      simp only [Option.getD_some, List.isEmpty_cons, Bool.false_eq_true, if_false, reduceCtorEq]
      by_cases hlong : 128 < (c :: cs).length
      · rw [if_pos hlong, if_pos (show ACCOUNT.OWNER_NAME.length < _ from hlong)]
        rfl
      · rw [if_neg hlong, if_neg (show ¬ ACCOUNT.OWNER_NAME.length < _ from hlong)]
        exact ⟨rfl, rfl, List.cons_ne_nil _ _, not_lt.1 hlong⟩

/-- the payment to be stored is the order -/
structure PaymentOf (now : LocalDateTime) (p : Payment) (o : Order) : Prop where
  processed : p.processed = now
  amount : p.amount.toRat = o.amount
  positive : 0 < o.amount
  payer : p.withdrawalAccountId = o.payer
  payee : p.depositAccountId = o.payee
  different : o.payer ≠ o.payee
  comment : p.comment = o.comment

theorem validated_refines (now : LocalDateTime) (np : NewPayment) :
    Refines (PaymentOf now) (PaymentEndpoint.validated now np) (orderOf np) := by
  unfold PaymentEndpoint.validated orderOf
  refine (checkedPositive_refines np.amount).bind fun amount q ⟨hamount, hpos⟩ => ?_
  refine (checkedNotNull_refines rfl np.withdrawalAccountId).bind ?_
  rintro payer _ rfl
  refine (checkedNotNull_refines rfl np.depositAccountId).bind ?_
  rintro payee _ rfl
  refine (checked_refines_comment rfl rfl rfl np.comment).bind ?_
  rintro comment _ ⟨rfl, rfl, -⟩
  unfold demand
  by_cases hne : payer = payee
  · rw [if_pos hne, if_neg (not_not.2 hne)]
    rfl
  · rw [if_neg hne, if_pos hne]
    exact ⟨rfl, hamount, hpos, rfl, rfl, hne, rfl⟩

theorem checkedAccount_refines (now : LocalDateTime) (na : NewAccount) :
    Refines (fun a p => a = ⟨none, now, some p.1, .zero, now, p.2⟩) (AccountEndpoint.checkedAccount now na)
      (profileOf na.ownerName na.comment) := by
  unfold AccountEndpoint.checkedAccount profileOf
  refine (checked_refines_ownerName na.ownerName).bind fun name n ⟨hname, hn, _⟩ => ?_
  refine (checked_refines_comment rfl rfl rfl na.comment).bind ?_
  rintro comment _ ⟨rfl, rfl, -⟩
  show _ = _
  rw [hname, hn]

theorem checkedUpdate_refines (u : UpdateAccount) :
    Refines (fun a b => a = (some b.1, b.2.1, b.2.2)) (AccountEndpoint.checkedUpdate u) (updateOf u) := by
  unfold AccountEndpoint.checkedUpdate updateOf profileOf
  simp only [bind_assoc, pure_bind]
  refine (checked_refines_ownerName u.ownerName).bind fun name n ⟨hname, hn, _⟩ => ?_
  refine (checked_refines_comment rfl rfl rfl u.comment).bind ?_
  rintro comment _ ⟨rfl, rfl, -⟩
  refine (checkedNotNull_refines rfl u.accountId).bind ?_
  rintro k _ rfl
  show _ = _
  rw [hname, hn]

/-! ## Payments -/

section Payment

open BankServices.Api.PaymentEndpoint

variable {G : Type} (next : Sequence → G → ℤ × G) (g : G) {db : Tables}

theorem bank_account {k : ℤ} {r : AccountRow} (h : db.findAccount k = some r) :
    (bank db).account k = some (holding r) := by
  show (db.findAccount k).map holding = _
  rw [h]
  rfl

theorem bank_missing {k : ℤ} (h : db.findAccount k = none) : (bank db).account k = none := by
  show (db.findAccount k).map holding = _
  rw [h]
  rfl

/-- the rows are locked and found, or a missing one is reported, as the bank looks for the holdings -/
theorem run_parties (db : Tables) (p : Payment) (f : BigDecimal × BigDecimal → Tx Response) :
    (∃ e, parties (bank db) p.withdrawalAccountId p.depositAccountId = .error e ∧
      (getBalancesExclusively p >>= f).run h2 next g db = (.error (ValidationUtils.exception e.text), g, db)) ∨
    ∃ w d, db.findAccount p.withdrawalAccountId = some w ∧ db.findAccount p.depositAccountId = some d ∧
      parties (bank db) p.withdrawalAccountId p.depositAccountId = .ok (holding w, holding d) := by
  unfold parties require getBalancesExclusively getWithdrawalBalanceExclusively getDepositBalanceExclusively
  cases hw : db.findAccount p.withdrawalAccountId with
  | none =>
    rw [bank_missing hw]
    split_ifs
    · refine Or.inl ⟨_, rfl, ?_⟩
      rw [Prog.bind_bind, run_getBalanceExclusively, hw]
      rfl
    · rw [Prog.bind_bind, run_getBalanceExclusively]
      cases hd : db.findAccount p.depositAccountId with
      | none =>
        rw [bank_missing hd]
        exact Or.inl ⟨_, rfl, rfl⟩
      | some d =>
        rw [bank_account hd]
        refine Or.inl ⟨_, rfl, ?_⟩
        simp only
        rw [Prog.bind_bind, run_getBalanceExclusively, hw]
        rfl
  | some w =>
    rw [bank_account hw]
    cases hd : db.findAccount p.depositAccountId with
    | none =>
      rw [bank_missing hd]
      split_ifs
      · refine Or.inl ⟨_, rfl, ?_⟩
        rw [Prog.bind_bind, run_getBalanceExclusively, hw]
        simp only
        rw [Prog.bind_bind, run_getBalanceExclusively, hd]
        rfl
      · refine Or.inl ⟨_, rfl, ?_⟩
        rw [Prog.bind_bind, run_getBalanceExclusively, hd]
        rfl
    | some d =>
      rw [bank_account hd]
      refine Or.inr ⟨w, d, rfl, rfl, ?_⟩
      split_ifs
      · rfl
      · rfl

theorem received_eq {a : BigDecimal} (ha : 0 ≤ a.toRat) : received a.toRat = halfUpCents a := by
  rw [halfUpCents_eq, HalfUp.round_of_nonneg (by linarith)]
  rfl

theorem given_eq {v : Decimal16_2} {a : BigDecimal} (h : a.toRat ≤ v.toBigDecimal.toRat) :
    v.cents + -given a.toRat = halfUpCents (v.toBigDecimal.subtract a) := by
  have hv := toRat_toBigDecimal v
  have hnonneg : 0 ≤ (v.cents : ℚ) - a.toRat * 100 := by linarith
  unfold given
  rw [halfUpCents_subtract_eq, HalfUp.round_of_nonneg hnonneg, ← Int.floor_neg, ← Int.floor_intCast_add]
  congr 1
  ring

/-- the rows that a payment writes are the transfer of the bank -/
theorem bank_moved {amount : BigDecimal} {row : PaymentRow} {w d w' d' : AccountRow} {db' : Tables}
    (h : Moved amount row w d w' d' db db') (hd : 0 ≤ d.balance.cents) :
    bank db' = (bank db).transfer (transferOf row) (holding w) (holding d) amount.toRat := by
  have hw' : holding w' = (holding w).add (-given amount.toRat) row.processed.1 := by
    have hcents : w'.balance.cents = w.balance.cents + -given amount.toRat := by rw [h.withdrawn, given_eq h.covered]
    unfold holding Holding.add
    rw [← hcents, h.withdrawalRow]
  have hd' : holding d' = (holding d).add (received amount.toRat) row.processed.1 := by
    have hcents : d'.balance.cents = d.balance.cents + received amount.toRat := by
      rw [h.deposit_cents hd, h.cents, received_eq h.positive.le]
    unfold holding Holding.add
    rw [← hcents, h.depositRow]
  unfold bank State.transfer
  congr 1
  · funext k
    simp only [Function.update_apply, h.findAccount]
    show Option.map holding _ =
      if k = row.depositAccountId then _ else if k = row.withdrawalAccountId then _ else (db.findAccount k).map holding
    by_cases hkw : k = row.withdrawalAccountId
    · have hkd : k ≠ row.depositAccountId := hkw ▸ h.different
      rw [if_pos hkw, if_neg hkd, if_pos hkw, Option.map_some, hw']
      rfl
    · rw [if_neg hkw, if_neg hkw]
      split_ifs
      · rw [Option.map_some, hd']
        rfl
      · rfl
  · rw [h.payment, List.map_append]
    rfl

theorem transferOf_row {p : Payment} {o : Order} {now : LocalDateTime} {i : ℤ} {row : PaymentRow}
    (h : paymentRow db i p = .ok row) (hpo : PaymentOf now p o) :
    transferOf row = ⟨i, now.roundMillis, received o.amount, o.payer, o.payee, o.comment⟩ := by
  obtain ⟨hid, hprocessed, hcents, hw, hd, hcomment, -⟩ := paymentRow_ok_iff.1 h
  have hpos : 0 < p.amount.toRat := hpo.amount ▸ hpo.positive
  unfold transferOf
  rw [hid, hprocessed, hcents, hw, hd, hcomment, hpo.payer, hpo.payee, hpo.comment, hpo.processed,
    ← received_eq hpos.le, hpo.amount]
  rfl

/-- a request run as one transaction ends as the verdict of the bank says, and leaves the bank that it performs -/
def Performs (next : Sequence → G → ℤ × G) (g : G) (db : Tables) (r : Request) : Prop :=
  ∃ v, perform (bank db) (fun q => (next q g).1) r = (v, bank ((body r).transaction h2 next g db).2.2) ∧
    Told v ((body r).transaction h2 next g db).1

theorem performs_of_ok {r : Request} {a : Response} {g' : G} {db' : Tables} {v : Verdict}
    (hrun : (body r).run h2 next g db = (.ok a, g', db'))
    (hv : perform (bank db) (fun q => (next q g).1) r = (v, bank db')) (ha : Told v (.ok a)) :
    Performs next g db r := by
  unfold Performs Prog.transaction
  rw [hrun]
  exact ⟨v, hv, ha⟩

theorem performs_of_error {r : Request} {t : Throwable} {v : Verdict} (ha : Told v (.error t))
    (hrun : ((body r).run h2 next g db).1 = .error t)
    (hv : perform (bank db) (fun q => (next q g).1) r = (v, bank db)) :
    Performs next g db r := by
  rcases hrun' : (body r).run h2 next g db with ⟨out, g', db'⟩
  rw [hrun'] at hrun
  cases hrun
  unfold Performs Prog.transaction
  rw [hrun']
  exact ⟨v, hv, ha⟩

section Accepted

variable {now : LocalDateTime} {np : NewPayment} {p : Payment} {o : Order} {w d : AccountRow}

/-- a payment that its payer can afford moves the cents, or fails in the storage, as the bank says -/
theorem accepted_performs (hacc : Accepts db now np p w d) (hd0 : 0 ≤ d.balance.cents) (ho : orderOf np = .ok o)
    (hpo : PaymentOf now p o) (hparties : parties (bank db) o.payer o.payee = .ok (holding w, holding d))
    (hfunds : o.amount * 100 ≤ (holding w).cents) : Performs next g db (.createPayment now np) := by
  have hreceived : received o.amount = halfUpCents p.amount := by
    have hpos : 0 < p.amount.toRat := hpo.amount ▸ hpo.positive
    rw [← hpo.amount, received_eq hpos.le]
  have hfits := written_fits (next .payment g).1 hacc hd0
  cases hs : written db (next .payment g).1 p w d with
  | error e =>
    have hno : ¬ (0 < received o.amount ∧ (holding d).cents + received o.amount < limit) := by
      rw [hreceived]
      intro h
      obtain ⟨x, hx⟩ := hfits.2 h
      rw [hs] at hx
      cases hx
    apply performs_of_error next g (.failed e)
    · exact run_create_rejected next g hacc hs
    · simp only [perform, pay_valid ho hparties, if_pos hfunds, if_neg hno]
  | ok x =>
    obtain ⟨row, w', d'⟩ := x
    obtain ⟨hm, -⟩ := moved_of_written hacc hs
    have hyes : 0 < received o.amount ∧ (holding d).cents + received o.amount < limit := by
      rw [hreceived]
      exact hfits.1 ⟨_, hs⟩
    refine performs_of_ok next g (run_create_ok next g hacc hs) ?_ (.paid _)
    simp only [perform, pay_valid ho hparties, if_pos hfunds, if_pos hyes, bank_moved hm hd0,
      transferOf_row (written_ok_iff.1 hs).1 hpo, hpo.amount]

end Accepted

theorem createPayment_performs (hn : NonNegative db) (now : LocalDateTime) (np : NewPayment) :
    Performs next g db (.createPayment now np) := by
  rcases (validated_refines now np).cases with ⟨f, hv, ho⟩ | ⟨p, o, hv, ho, hpo⟩
  · apply performs_of_error next g (.refused f)
    · show ((create now np).run h2 next g db).1 = _
      unfold create
      rw [hv]
      rfl
    · simp only [perform, pay_invalid ho]
  have hrun : (create now np).run h2 next g db = _ := run_create_valid next g hv
  rcases run_parties next g db p (fun b => transfer p b.1 b.2) with ⟨e, he, hmissing⟩ | ⟨w, d, hw, hd, hparties⟩
  · rw [hpo.payer, hpo.payee] at he
    apply performs_of_error next g (.refused e)
    · exact congrArg Prod.fst (hrun.trans hmissing)
    · simp only [perform, pay_missing ho he]
  rw [hpo.payer, hpo.payee] at hparties
  have hcovered : p.amount.toRat ≤ w.balance.toBigDecimal.toRat ↔ o.amount * 100 ≤ (holding w).cents := by
    rw [← hpo.amount, ← mul_le_mul_iff_left₀ (by norm_num : (0 : ℚ) < 100), toRat_toBigDecimal]
    rfl
  by_cases hfunds : o.amount * 100 ≤ (holding w).cents
  · exact accepted_performs next g ⟨hv, hw, hd, hcovered.2 hfunds⟩ (hn _ d hd) ho hpo hparties hfunds
  · apply performs_of_error next g (.refused .insufficientBalance)
    · show ((create now np).run h2 next g db).1 = _
      rw [hrun, run_getBalancesExclusively next g hw hd]
      unfold transfer
      rw [if_pos]
      · rfl
      · rw [BigDecimal.compareTo_neg_iff, ← not_le]
        exact mt hcovered.1 hfunds
    · simp only [perform, pay_valid ho hparties, if_neg hfunds]

end Payment

/-! ## Accounts -/

section Account

variable {G : Type} (next : Sequence → G → ℤ × G) (g : G) {db : Tables}

theorem bank_put {db' : Tables} {k : ℤ} {h : Option Holding}
    (haccount : ∀ i, (db'.findAccount i).map holding = if i = k then h else (db.findAccount i).map holding)
    (hpayment : db'.payment = db.payment) : bank db' = (bank db).put k h := by
  unfold bank State.put
  rw [hpayment]
  congr 1
  funext i
  rw [Function.update_apply]
  exact haccount i

theorem bank_addAccount {row : AccountRow} (hfresh : db.findAccount row.accountId = none) :
    bank (applyWrite db (.addAccount row)) = (bank db).put row.accountId (some (holding row)) := by
  refine bank_put (fun i => ?_) rfl
  rw [findAccount_addAccount]
  by_cases hi : i = row.accountId
  · rw [if_pos hi, hi, hfresh, if_pos rfl]
    rfl
  · rw [if_neg hi, if_neg (Ne.symm hi), Option.or_none]

theorem bank_putAccount {row r : AccountRow} (hr : db.findAccount row.accountId = some r) :
    bank (applyWrite db (.putAccount row)) = (bank db).put row.accountId (some (holding row)) := by
  refine bank_put (fun i => ?_) rfl
  rw [findAccount_putAccount]
  by_cases hi : i = row.accountId
  · rw [if_pos hi, if_pos hi.symm, hi, hr]
    rfl
  · rw [if_neg hi, if_neg (Ne.symm hi)]

theorem bank_dropAccount (k : ℤ) : bank (applyWrite db (.dropAccount k)) = (bank db).put k none := by
  refine bank_put (fun i => ?_) rfl
  rw [findAccount_dropAccount]
  split_ifs
  · rfl
  · rfl

theorem createAccount_performs (now : LocalDateTime) (na : NewAccount)
    (hfresh : ∀ a, AccountEndpoint.checkedAccount now na = .ok a → db.findAccount (next .account g).1 = none) :
    Performs next g db (.createAccount now na) := by
  rcases (checkedAccount_refines now na).cases with ⟨f, hv, ho⟩ | ⟨a, ⟨name, comment⟩, hv, ho, rfl⟩
  · apply performs_of_error next g (.refused f)
    · rw [show body (.createAccount now na) = .fail _ from AccountEndpoint.create_eq_fail hv]
      rfl
    · simp only [perform, ho]
  · obtain ⟨row, hrow, hrun⟩ := AccountEndpoint.create_run next g db hv
    obtain ⟨hid, hcreated, hname, hbalance, hmodified, hcomment, -⟩ := accountRow_ok_iff.1 hrow
    have hheld : holding row = ⟨name, comment, now.roundMillis, 0, now.roundMillis⟩ := by
      have hzero : halfUpCents .zero = 0 := by decide
      unfold holding
      rw [hcreated, hbalance, hmodified, hcomment, ← Option.some.inj hname, hzero]
      rfl
    refine performs_of_ok next g hrun ?_ (.opened _)
    simp only [perform, ho]
    rw [bank_addAccount (by rw [hid]; exact hfresh _ hv), hid, hheld]

theorem updateAccount_performs (u : UpdateAccount) : Performs next g db (.updateAccount u) := by
  rcases (checkedUpdate_refines u).cases with ⟨f, hv, ho⟩ | ⟨a, ⟨name, comment, k⟩, hv, ho, rfl⟩
  · apply performs_of_error next g (.refused f)
    · rw [show body (.updateAccount u) = .fail _ from AccountEndpoint.update_eq_fail hv]
      rfl
    · simp only [perform, ho]
  · rcases AccountEndpoint.update_run next g db hv with ⟨hr, hrun⟩ | ⟨r, r', hr, hr', hrun⟩
    · refine performs_of_ok next g hrun ?_ .unchanged
      simp only [perform, ho, bank_missing hr]
    · refine performs_of_ok next g hrun ?_ .changed
      simp only [perform, ho, bank_account hr]
      obtain ⟨n, c, hn, hc, rfl⟩ := profileRow_ok_iff.1 hr'
      have hid := findAccount_id hr
      rw [bank_putAccount (r := r) (by rw [← hid] at hr; exact hr)]
      have hheld : holding { r with ownerName := n, comment := c } = { holding r with ownerName := name, comment } := by
        have hname : n.1 = name := (Option.some.inj hn).symm
        have hcomment : c.map Subtype.val = comment := hc
        unfold holding
        rw [hname, hcomment]
      rw [hheld]
      show _ = (Verdict.changed, (bank db).put r.accountId _)
      rw [hid]

theorem transfersOf_bank (db : Tables) (k : ℤ) : (bank db).transfersOf k = (db.paymentsOf k).map transferOf := by
  unfold State.transfersOf Tables.paymentsOf bank
  rw [List.filter_map]
  rfl

theorem deleteAccount_performs (k : ℤ) : Performs next g db (.deleteAccount k) := by
  have hfree : (bank db).transfersOf k = [] ↔ db.paymentsOf k = [] := by
    rw [transfersOf_bank, List.map_eq_nil_iff]
  rcases AccountEndpoint.delete_run next g db k with ⟨hr, hrun⟩ | ⟨r, hr, ⟨hp, hrun⟩ | ⟨hp, e, hrun⟩⟩
  · refine performs_of_ok next g hrun ?_ .unchanged
    simp only [perform, bank_missing hr]
  · refine performs_of_ok next g hrun ?_ .changed
    simp only [perform, bank_account hr, if_pos (hfree.2 hp)]
    rw [bank_dropAccount]
  · refine performs_of_error next g (.failed e) (congrArg Prod.fst hrun) ?_
    simp only [perform, bank_account hr, if_neg (mt hfree.1 hp)]

end Account

/-! ## Reads -/

theorem read_refines (db : Tables) (k : ℤ) : AccountEndpoint.read db k = (bank db).read k := by
  unfold AccountEndpoint.read State.read
  show _ = Option.map _ ((db.findAccount k).map holding)
  cases hr : db.findAccount k with
  | none => rfl
  | some r =>
    have hid := findAccount_id hr
    subst hid
    rfl

theorem selected_refines (db : Tables) (k : ℤ) (a b : LocalDateTime) :
    (PaymentEndpoint.selected db k a b).map transferOf =
      ((bank db).transfersOf k).filter fun t => a ≤ t.made ∧ t.made ≤ b := by
  rw [transfersOf_bank, List.filter_map]
  refine congrArg (List.map transferOf) ?_
  unfold PaymentEndpoint.selected Tables.paymentsOf
  rw [List.filter_filter]
  refine List.filter_congr fun p _ => ?_
  simp [transferOf, Bool.and_assoc]

theorem list_refines (db : Tables) (k : Option ℤ) (intervalFrom intervalTo : Option LocalDateTime) :
    (PaymentEndpoint.list db k intervalFrom intervalTo).map (List.map transferOf) =
      (bank db).list k intervalFrom intervalTo := by
  cases k with
  | none => rfl
  | some k =>
    cases intervalFrom with
    | none => rfl
    | some a =>
      cases intervalTo with
      | none => rfl
      | some b =>
        by_cases hab : a ≤ b
        · rw [PaymentEndpoint.list_eq db k hab]
          unfold State.list State.statement
          simp only [hab, if_true]
          rw [← selected_refines]
          refine congrArg Except.ok ?_
          exact List.map_insertionSort _ _ transferOf _ fun _ _ _ _ => Iff.rfl
        · unfold State.list PaymentEndpoint.list
          simp only [hab, if_false, not_le.1 hab, if_true]
          rfl

/-- **Refinement.** A request run as one transaction does what the bank performs, and answers as the bank does. -/
theorem transaction_performs {G : Type} (next : Sequence → G → ℤ × G) (g : G) {db : Tables} (hn : NonNegative db)
    (r : Request) (hfresh : ∀ now na a, r = .createAccount now na → AccountEndpoint.checkedAccount now na = .ok a →
      db.findAccount (next .account g).1 = none) : Performs next g db r := by
  cases r with
  | createPayment now np => exact createPayment_performs next g hn now np
  | createAccount now na => exact createAccount_performs next g now na fun a => hfresh now na a rfl
  | updateAccount u => exact updateAccount_performs next g u
  | deleteAccount k => exact deleteAccount_performs next g k

/-- **The service is the bank.** In every reachable state a request run alone ends as the bank of the tables says, with
that response, and leaves the bank that it performs; and what a client reads is read off the bank. -/
theorem alone_performs (ops : List Op) :
    (∀ r, ∃ v, perform (bank (run ops).db) (run ops).seq r = (v, bank (alone r (run ops)).2.2) ∧
      Told v (alone r (run ops)).1 ∧ answer (alone r (run ops)).1 = v.response) ∧
    (∀ k, AccountEndpoint.read (run ops).db k = (bank (run ops).db).read k) ∧
    ∀ k intervalFrom intervalTo,
      (PaymentEndpoint.list (run ops).db k intervalFrom intervalTo).map (List.map transferOf) =
        (bank (run ops).db).list k intervalFrom intervalTo := by
  refine ⟨fun r => ?_, read_refines _, list_refines _⟩
  obtain ⟨v, hv, ht⟩ := transaction_performs counters (run ops).seq (run_ledger ops).nonneg r
    fun _ _ _ _ _ => next_account_fresh ops
  exact ⟨v, hv, ht, ht.response⟩

end BankServices.Bank
