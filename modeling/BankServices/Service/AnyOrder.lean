/-
Payments served in one order or another. Each one shifts the cents of two accounts by numbers that depend on its request
alone, although every balance is rounded when it is stored: the balances are whole cents and never negative.

- `payments_any_order`: when all payments are answered 200 in both orders, the balances after them are the same, and so
  are the stored payments up to their ids and times.
-/
import BankServices.Service.Amounts
import BankServices.Service.InTurn

namespace BankServices.Service

open BankServices.Java BankServices.Txn BankServices.Storage BankServices.Webapp BankServices.Api
open BankServices.Api.PaymentEndpoint

/-! ## Definitions -/

def balanceOf (db : Tables) (accountId : ℤ) : Option Decimal16_2 := (db.findAccount accountId).map AccountRow.balance

/-- a stored payment without its generated id and its time -/
def content (p : PaymentRow) : ℤ × ℤ × ℤ × Option JavaString :=
  (p.amount.cents, p.withdrawalAccountId, p.depositAccountId, p.comment.map Subtype.val)

/-- every request was answered 200 -/
def AllOk (outs : List (Except Throwable Response)) : Prop := ∀ out ∈ outs, (answer out).status = .OK

instance (outs : List (Except Throwable Response)) : Decidable (AllOk outs) := by unfold AllOk; infer_instance

/-! ## The shift of a payment -/

/-- the cents that a payment adds to an account -/
def shift (np : NewPayment) (k : ℤ) : ℤ :=
  (if np.withdrawalAccountId = some k then
    (if HalfCent (np.amount.getD .zero) then 1 else 0) - halfUpCents (np.amount.getD .zero) else 0) +
  if np.depositAccountId = some k then halfUpCents (np.amount.getD .zero) else 0

/-- what is stored for a payment, as `content` shows it -/
def requested (np : NewPayment) : ℤ × ℤ × ℤ × Option JavaString :=
  (halfUpCents (np.amount.getD .zero), np.withdrawalAccountId.getD 0, np.depositAccountId.getD 0, np.comment)

def NonNegative (db : Tables) : Prop := ∀ k r, db.findAccount k = some r → 0 ≤ r.balance.cents

def centsOf (db : Tables) (k : ℤ) : Option ℤ := (db.findAccount k).map fun r => r.balance.cents

section Moved

variable {amount : BigDecimal} {row : PaymentRow} {w d w' d' : AccountRow} {db db' : Tables} {now : LocalDateTime}
  {np : NewPayment}

theorem Moved.content_eq (h : Moved amount row w d w' d' db db') (hr : Records now np amount row) :
    content row = requested np := by
  unfold content requested
  rw [hr.amount, hr.withdrawal, hr.deposit, hr.comment, h.cents]
  rfl

theorem Records.shift_eq (hr : Records now np amount row) (k : ℤ) : shift np k =
    (if k = row.withdrawalAccountId then (if HalfCent amount then 1 else 0) - halfUpCents amount else 0) +
      if k = row.depositAccountId then halfUpCents amount else 0 := by
  unfold shift
  simp only [hr.amount, hr.withdrawal, hr.deposit, Option.getD_some, Option.some.injEq, eq_comm (a := k)]

/-- the balances after a payment are those before it, shifted -/
theorem Moved.centsOf_eq (h : Moved amount row w d w' d' db db') (hr : Records now np amount row)
    (hn : NonNegative db) (k : ℤ) : centsOf db' k = (centsOf db k).map (· + shift np k) := by
  have hcents := h.cents
  have hne := h.different
  unfold centsOf
  rw [h.findAccount, Records.shift_eq hr]
  by_cases hw : k = row.withdrawalAccountId
  · subst hw
    have hshift := h.withdrawal_cents
    simp only [h.withdrawal, if_true, hne, if_false, Option.map_some, Option.some.injEq]
    omega
  · by_cases hd : k = row.depositAccountId
    · subst hd
      have hshift := h.deposit_cents (hn _ _ h.deposit)
      simp only [h.deposit, if_true, hw, if_false, Option.map_some, Option.some.injEq]
      omega
    · simp only [hw, hd, if_false, add_zero, Option.map_map]
      rfl

end Moved

/-! ## Payments in turn -/

/-- what payments all answered 200 leave: shifted balances, and one stored payment for each -/
structure Served (l : List NewPayment) (db db' : Tables) : Prop where
  nonneg : NonNegative db'
  cents : ∀ k, centsOf db' k = (centsOf db k).map (· + (l.map fun np => shift np k).sum)
  payment : db'.payment.map content = db.payment.map content ++ l.map requested

/-- a payment answered 200, and then others that all are -/
theorem Served.cons {amount : BigDecimal} {row : PaymentRow} {w d w' d' : AccountRow} {db db' db'' : Tables}
    {now : LocalDateTime} {np : NewPayment} {l : List NewPayment} (hm : Moved amount row w d w' d' db db')
    (hr : Records now np amount row) (hn : NonNegative db) (h : Served l db' db'') : Served (np :: l) db db'' := by
  obtain ⟨hnonneg, hcents, hpayment⟩ := h
  refine ⟨hnonneg, fun k => ?_, ?_⟩
  · rw [hcents k, Moved.centsOf_eq hm hr hn k, Option.map_map]
    refine congrArg (Option.map · (centsOf db k)) ?_
    funext c
    simp [add_assoc]
  · rw [hpayment, hm.payment, List.map_append, List.map_singleton, Moved.content_eq hm hr, List.append_assoc]
    rfl

theorem inTurn_served (l : List (LocalDateTime × NewPayment)) (g : Sequence → ℤ) {db : Tables} (hn : NonNegative db)
    (h : AllOk (InTurn.inTurn h2 body (payments l) g db).1) :
    Served (l.map Prod.snd) db (InTurn.inTurn h2 body (payments l) g db).2.2 := by
  induction l generalizing g db with
  | nil =>
    refine ⟨hn, fun k => ?_, ?_⟩
    · simp [payments, InTurn.inTurn]
    · simp [payments, InTurn.inTurn]
  | cons x l ih =>
    obtain ⟨now, np⟩ := x
    obtain ⟨out, g', db', hfirst⟩ : ∃ out g' db',
        (body (.createPayment now np)).transaction h2 counters g db = (out, g', db') := ⟨_, _, _, rfl⟩
    have hcons : InTurn.inTurn h2 body (payments ((now, np) :: l)) g db =
        (out :: (InTurn.inTurn h2 body (payments l) g' db').1, (InTurn.inTurn h2 body (payments l) g' db').2) :=
      InTurn.inTurn_cons (.createPayment now np) (payments l) g db hfirst
    rw [hcons] at h ⊢
    -- the first payment is served as if no other session were there
    have halone : alone (.createPayment now np) (RowLock.init db g) = (out, g', db') := hfirst
    have hok : (answer (alone (.createPayment now np) (RowLock.init db g)).1).status = .OK := by
      rw [halone]
      exact h out List.mem_cons_self
    obtain ⟨amount, row, w, d, w', d', hm, hr⟩ := alone_moved hok
    rw [halone] at hm
    exact Served.cons hm hr hn (ih g' (Moved.nonneg hm hn) fun o ho => h o (List.mem_cons_of_mem out ho))

/-- **Any order.** -/
theorem payments_any_order (ops : List Op) (l l' : List (LocalDateTime × NewPayment))
    (hperm : (l.map Prod.snd).Perm (l'.map Prod.snd)) (hok : AllOk (inTurn (payments l) (run ops)).1)
    (hok' : AllOk (inTurn (payments l') (run ops)).1) :
    (∀ k, balanceOf (inTurn (payments l) (run ops)).2.2 k = balanceOf (inTurn (payments l') (run ops)).2.2 k) ∧
      ((inTurn (payments l) (run ops)).2.2.payment.map content).Perm
        ((inTurn (payments l') (run ops)).2.2.payment.map content) := by
  have hn : NonNegative (run ops).db := (run_ledger ops).nonneg
  obtain ⟨-, hcents, hpayment⟩ := inTurn_served l (run ops).seq hn hok
  obtain ⟨-, hcents', hpayment'⟩ := inTurn_served l' (run ops).seq hn hok'
  refine ⟨fun k => ?_, ?_⟩
  · have hsum : ((l.map Prod.snd).map fun np => shift np k).sum = ((l'.map Prod.snd).map fun np => shift np k).sum :=
      (hperm.map _).sum_eq
    have hsame : centsOf (inTurn (payments l) (run ops)).2.2 k = centsOf (inTurn (payments l') (run ops)).2.2 k := by
      calc centsOf (inTurn (payments l) (run ops)).2.2 k
          _ = (centsOf (run ops).db k).map (· + ((l.map Prod.snd).map fun np => shift np k).sum) := hcents k
          _ = (centsOf (run ops).db k).map (· + ((l'.map Prod.snd).map fun np => shift np k).sum) := by rw [hsum]
          _ = centsOf (inTurn (payments l') (run ops)).2.2 k := (hcents' k).symm
    apply Option.map_injective Decimal16_2.cents_injective
    unfold balanceOf
    rw [Option.map_map, Option.map_map]
    exact hsame
  · have hp : ((run ops).db.payment.map content ++ (l.map Prod.snd).map requested).Perm
        ((run ops).db.payment.map content ++ (l'.map Prod.snd).map requested) := (hperm.map requested).append_left _
    rw [← hpayment, ← hpayment'] at hp
    exact hp

/-- a payment of half a cent before or after one of 2.00 -/
theorem payments_any_order_two :
    balanceOf (inTurn (payments [(firstOf2020, pay ⟨5, 3⟩), (secondOf2020, pay ⟨2, 0⟩)]) init).2.2 0 =
      balanceOf (inTurn (payments [(firstOf2020, pay ⟨2, 0⟩), (secondOf2020, pay ⟨5, 3⟩)]) init).2.2 0 :=
  (payments_any_order [] [(firstOf2020, pay ⟨5, 3⟩), (secondOf2020, pay ⟨2, 0⟩)]
    [(firstOf2020, pay ⟨2, 0⟩), (secondOf2020, pay ⟨5, 3⟩)] (List.Perm.swap _ _ _) (by decide) (by decide)).1 0

end BankServices.Service
