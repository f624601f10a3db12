/-
The bank that the service stands for: holdings of whole cents, and the transfers between them.

A bank knows no rows, columns, statements or locks. `perform` says what each request does to it and what it is told:
its checks in their order with the texts of their refusals, the cents that a payment moves, and the two cases in which
it fails although nothing is wrong with it. How the code comes to the same is the matter of `Refinement`.

- `perform_frame`, `perform_alike`: a request changes and sees only the accounts that it names, each with the transfers
  that name it.
-/
import BankServices.Core.Sequential
import BankServices.Service.Machine

namespace BankServices.Bank

open BankServices.Java BankServices.Storage BankServices.Webapp BankServices.Api BankServices.Service
open BankServices.Fallible

/-! ## State -/

structure Holding where
  ownerName : JavaString
  comment : Option JavaString
  opened : LocalDateTime
  cents : ℤ
  moved : LocalDateTime
deriving DecidableEq

structure Transfer where
  number : ℤ
  made : LocalDateTime
  cents : ℤ
  payer : ℤ
  payee : ℤ
  comment : Option JavaString
deriving DecidableEq

structure State where
  account : ℤ → Option Holding
  transfers : List Transfer

/-- the transfer leaves the account or reaches it -/
def Transfer.names (t : Transfer) (k : ℤ) : Bool := t.payer = k ∨ t.payee = k

namespace State

def put (b : State) (k : ℤ) (h : Option Holding) : State := { b with account := Function.update b.account k h }

def transfersOf (b : State) (k : ℤ) : List Transfer := b.transfers.filter fun t => t.names k

/-- all that a bank shows about an account -/
def view (b : State) (k : ℤ) : Option Holding × List Transfer := (b.account k, b.transfersOf k)

end State

/-! ## What a request is told -/

/-- what may be wrong with a request -/
inductive Fault where
  | amountNotPositive
  | noPayer
  | noPayee
  | paymentCommentTooLong
  | samePayerAndPayee
  | payerMissing (k : ℤ)
  | payeeMissing (k : ℤ)
  | insufficientBalance
  | noOwnerName
  | ownerNameTooLong
  | accountCommentTooLong
  | noAccountId
deriving DecidableEq

def Fault.text : Fault → String
  | amountNotPositive => "'payment.amount' field must be positive"
  | noPayer => "'payment.withdrawalAccountId' field must not be null"
  | noPayee => "'payment.depositAccountId' field must not be null"
  | paymentCommentTooLong => "'payment.comment' field must not exceed 256 chars"
  | samePayerAndPayee => "withdrawalAccountId and depositAccountId must reference to different accounts"
  | payerMissing k => "Withdrawal account not exists by accountId=" ++ toString k
  | payeeMissing k => "Deposit account not exists by accountId=" ++ toString k
  | insufficientBalance => "Insufficient withdrawal balance"
  | noOwnerName => "'account.ownerName' field must not be empty"
  | ownerNameTooLong => "'account.ownerName' field must not exceed 128 chars"
  | accountCommentTooLong => "'account.comment' field must not exceed 256 chars"
  | noAccountId => "'account.accountId' field must not be null"

inductive Verdict where
  | paid (number : ℤ)
  | opened (account : Account)
  | changed
  | unchanged
  | refused (f : Fault)
  | failed

def Verdict.response : Verdict → Response
  | paid number => ⟨.OK, some .TEXT_PLAIN, some (.text (toString number))⟩
  | opened account => ⟨.OK, some .APPLICATION_JSON, some (.account account)⟩
  | changed => ⟨.OK, none, none⟩
  | unchanged => ⟨.NOT_MODIFIED, none, none⟩
  | refused f => ⟨.BAD_REQUEST, some .TEXT_PLAIN, some (.text f.text)⟩
  | failed => ⟨.INTERNAL_SERVER_ERROR, some .TEXT_PLAIN, some .stackTrace⟩

/-! ## What a request does -/

def demand (p : Prop) [Decidable p] (f : Fault) : Except Fault Unit := if p then .ok () else .error f

def require {α : Type} (o : Option α) (f : Fault) : Except Fault α :=
  match o with
  | some a => .ok a
  | none => .error f

def amountOf : Option BigDecimal → Except Fault ℚ
  | some amount => if 0 < amount.toRat then .ok amount.toRat else .error .amountNotPositive
  | none => .error .amountNotPositive

def ownerNameOf (o : Option JavaString) : Except Fault JavaString :=
  if o.getD [] = [] then .error .noOwnerName
  else if 128 < (o.getD []).length then .error .ownerNameTooLong
  else .ok (o.getD [])

def commentOf (o : Option JavaString) (f : Fault) : Except Fault (Option JavaString) :=
  if 256 < (o.getD []).length then .error f else .ok o

/-- a valid order to pay -/
structure Order where
  amount : ℚ
  payer : ℤ
  payee : ℤ
  comment : Option JavaString

def orderOf (np : NewPayment) : Except Fault Order := do
  let amount ← amountOf np.amount
  let payer ← require np.withdrawalAccountId .noPayer
  let payee ← require np.depositAccountId .noPayee
  let comment ← commentOf np.comment .paymentCommentTooLong
  demand (payer ≠ payee) .samePayerAndPayee
  return ⟨amount, payer, payee, comment⟩

/-- both holdings; of two missing ones the smaller id is reported -/
def parties (b : State) (payer payee : ℤ) : Except Fault (Holding × Holding) :=
  if payer < payee then do
    let p ← require (b.account payer) (.payerMissing payer)
    let q ← require (b.account payee) (.payeeMissing payee)
    return (p, q)
  else do
    let q ← require (b.account payee) (.payeeMissing payee)
    let p ← require (b.account payer) (.payerMissing payer)
    return (p, q)

/-- the cents that a payee receives for an amount: half a cent is received as one -/
def received (amount : ℚ) : ℤ := ⌊amount * 100 + 1 / 2⌋

/-- the cents that a payer gives for an amount: half a cent is not given -/
def given (amount : ℚ) : ℤ := ⌈amount * 100 - 1 / 2⌉

/-- all holdings stay below 16 digits -/
def limit : ℤ := 10 ^ 16

def Holding.add (h : Holding) (cents : ℤ) (t : LocalDateTime) : Holding :=
  { h with cents := h.cents + cents, moved := t }

/-- the bank after the transfer -/
def State.transfer (b : State) (t : Transfer) (p q : Holding) (amount : ℚ) : State where
  account := Function.update (Function.update b.account t.payer (some (p.add (-given amount) t.made))) t.payee
    (some (q.add (received amount) t.made))
  transfers := b.transfers ++ [t]

/-- a payment is refused, or moves its cents, or fails because they are none or too many for the payee -/
def pay (b : State) (now : LocalDateTime) (np : NewPayment) (number : ℤ) : Except Fault (Option State) := do
  let o ← orderOf np
  let (p, q) ← parties b o.payer o.payee
  demand (o.amount * 100 ≤ p.cents) .insufficientBalance
  let t : Transfer := ⟨number, now.roundMillis, received o.amount, o.payer, o.payee, o.comment⟩
  return if 0 < received o.amount ∧ q.cents + received o.amount < limit then some (b.transfer t p q o.amount) else none

section Pay

variable {b : State} {now : LocalDateTime} {np : NewPayment} {number : ℤ} {o : Order} {p q : Holding} {f : Fault}

theorem pay_invalid (h : orderOf np = .error f) : pay b now np number = .error f := by
  unfold pay
  rw [h]
  rfl

theorem pay_missing (h : orderOf np = .ok o) (hp : parties b o.payer o.payee = .error f) :
    pay b now np number = .error f := by
  unfold pay
  rw [h]
  show (parties b o.payer o.payee >>= _) = _
  rw [hp]
  rfl

theorem pay_valid (h : orderOf np = .ok o) (hp : parties b o.payer o.payee = .ok (p, q)) :
    pay b now np number = if o.amount * 100 ≤ p.cents then
      .ok (if 0 < received o.amount ∧ q.cents + received o.amount < limit then
        some (b.transfer ⟨number, now.roundMillis, received o.amount, o.payer, o.payee, o.comment⟩ p q o.amount)
      else none)
    else .error .insufficientBalance := by
  unfold pay
  rw [h]
  show (parties b o.payer o.payee >>= _) = _
  rw [hp]
  show (demand (o.amount * 100 ≤ p.cents) .insufficientBalance >>= _) = _
  unfold demand
  by_cases hfunds : o.amount * 100 ≤ p.cents
  · rw [if_pos hfunds, if_pos hfunds]
    rfl
  · rw [if_neg hfunds, if_neg hfunds]
    rfl

end Pay

/-- a valid name and comment of an account -/
def profileOf (ownerName comment : Option JavaString) : Except Fault (JavaString × Option JavaString) := do
  let name ← ownerNameOf ownerName
  let comment ← commentOf comment .accountCommentTooLong
  return (name, comment)

/-- a valid update: the new name and comment, and the account -/
def updateOf (u : UpdateAccount) : Except Fault (JavaString × Option JavaString × ℤ) := do
  let (name, comment) ← profileOf u.ownerName u.comment
  let k ← require u.accountId .noAccountId
  return (name, comment, k)

/-- a request, given the next number of a transfer and the next id of an account -/
def perform (b : State) (next : Sequence → ℤ) : Request → Verdict × State
  | .createPayment now np =>
    match pay b now np (next .payment) with
    | .error f => (.refused f, b)
    | .ok none => (.failed, b)
    | .ok (some b') => (.paid (next .payment), b')
  | .createAccount now na =>
    match profileOf na.ownerName na.comment with
    | .error f => (.refused f, b)
    | .ok (name, comment) => (.opened ⟨some (next .account), now, some name, .zero, now, comment⟩,
        b.put (next .account) (some ⟨name, comment, now.roundMillis, 0, now.roundMillis⟩))
  | .updateAccount u =>
    match updateOf u with
    | .error f => (.refused f, b)
    | .ok (name, comment, k) =>
      match b.account k with
      | none => (.unchanged, b)
      | some h => (.changed, b.put k (some { h with ownerName := name, comment }))
  | .deleteAccount k =>
    match b.account k with
    | none => (.unchanged, b)
    | some _ => if b.transfersOf k = [] then (.changed, b.put k none) else (.failed, b)

/-! ## What a client reads -/

namespace State

def read (b : State) (k : ℤ) : Option Account :=
  (b.account k).map fun h => ⟨some k, h.opened, some h.ownerName, ⟨h.cents, 2⟩, h.moved, h.comment⟩

/-- the transfers of an account in an interval, both ends included, by their time -/
def statement (b : State) (k : ℤ) (intervalFrom intervalTo : LocalDateTime) : List Transfer :=
  ((b.transfersOf k).filter fun t => intervalFrom ≤ t.made ∧ t.made ≤ intervalTo).insertionSort fun t u =>
    t.made ≤ u.made

def list (b : State) (k : Option ℤ) (intervalFrom intervalTo : Option LocalDateTime) :
    Except Throwable (List Transfer) :=
  match k, intervalFrom, intervalTo with
  | none, _, _ => .error (ValidationUtils.exception "'accountId' is undefined")
  | some k, some intervalFrom, some intervalTo =>
    if intervalFrom ≤ intervalTo then .ok (b.statement k intervalFrom intervalTo)
    else .error (ValidationUtils.exception "'from' must not be after 'to'")
  | some _, _, _ => .error .nullPointerException

end State

/-! ## Locality -/

/-- the accounts that a request is about -/
def names (next : Sequence → ℤ) : Request → ℤ → Bool
  | .createPayment _ np, k => np.withdrawalAccountId = some k ∨ np.depositAccountId = some k
  | .createAccount _ na, k => (profileOf na.ownerName na.comment).isOk ∧ next .account = k
  | .updateAccount u, k => u.accountId = some k
  | .deleteAccount i, k => i = k

section Local

variable {b b' : State} {next : Sequence → ℤ} {k : ℤ}

theorem view_account (h : b'.view k = b.view k) : b'.account k = b.account k := congrArg Prod.fst h

theorem view_transfersOf (h : b'.view k = b.view k) : b'.transfersOf k = b.transfersOf k := congrArg Prod.snd h

theorem view_put (b : State) (i : ℤ) (h : Option Holding) (k : ℤ) :
    (b.put i h).view k = if k = i then (h, b.transfersOf k) else b.view k := by
  unfold State.put State.view State.transfersOf
  simp only [Function.update_apply]
  split_ifs
  · rfl
  · rfl

theorem view_transfer (b : State) (t : Transfer) (p q : Holding) (amount : ℚ) (k : ℤ) :
    (b.transfer t p q amount).view k = (
      if k = t.payee then some (q.add (received amount) t.made)
      else if k = t.payer then some (p.add (-given amount) t.made)
      else b.account k,
      b.transfersOf k ++ if t.names k then [t] else []) := by
  unfold State.transfer State.view State.transfersOf
  simp only [Function.update_apply, List.filter_append]
  cases ht : t.names k <;> simp [ht]

theorem require_ok_iff {α : Type} {o : Option α} {f : Fault} {a : α} : require o f = .ok a ↔ o = some a := by
  cases o <;> simp [require]

theorem orderOf_ok {np : NewPayment} {o : Order} (h : orderOf np = .ok o) :
    np.withdrawalAccountId = some o.payer ∧ np.depositAccountId = some o.payee := by
  simp only [orderOf, bind_ok_iff, require_ok_iff] at h
  obtain ⟨amount, -, payer, hpayer, payee, hpayee, comment, -, -, -, h⟩ := h
  cases h
  exact ⟨hpayer, hpayee⟩

theorem orderOf_valid {np : NewPayment} {o : Order} (h : orderOf np = .ok o) :
    o.payer ≠ o.payee ∧ ∃ amount, np.amount = some amount ∧ amount.toRat = o.amount ∧ 0 < o.amount := by
  simp only [orderOf, bind_ok_iff, require_ok_iff] at h
  obtain ⟨amount, ha, payer, -, payee, -, comment, -, ⟨⟩, hne, h⟩ := h
  cases h
  unfold demand at hne
  split_ifs at hne with hdiff
  refine ⟨hdiff, ?_⟩
  cases hamount : np.amount with
  | none =>
    rw [hamount] at ha
    cases ha
  | some a =>
    rw [hamount] at ha
    simp only [amountOf] at ha
    split_ifs at ha with hpos
    cases ha
    exact ⟨a, rfl, rfl, hpos⟩

theorem updateOf_ok {u : UpdateAccount} {x : JavaString × Option JavaString × ℤ} (h : updateOf u = .ok x) :
    u.accountId = some x.2.2 := by
  simp only [updateOf, bind_ok_iff, require_ok_iff] at h
  obtain ⟨y, -, k, hk, h⟩ := h
  cases h
  exact hk

theorem parties_ok {payer payee : ℤ} {p q : Holding} (h : parties b payer payee = .ok (p, q)) :
    b.account payer = some p ∧ b.account payee = some q := by
  unfold parties at h
  split_ifs at h with hlt
  · simp only [bind_ok_iff, require_ok_iff] at h
    obtain ⟨p', hp, q', hq, h⟩ := h
    cases h
    exact ⟨hp, hq⟩
  · simp only [bind_ok_iff, require_ok_iff] at h
    obtain ⟨q', hq, p', hp, h⟩ := h
    cases h
    exact ⟨hp, hq⟩

theorem parties_congr {payer payee : ℤ} (hpayer : b'.account payer = b.account payer)
    (hpayee : b'.account payee = b.account payee) : parties b' payer payee = parties b payer payee := by
  unfold parties
  rw [hpayer, hpayee]

/-- a request changes nothing at accounts that it does not name -/
theorem perform_frame (r : Request) (hk : names next r k = false) : (perform b next r).2.view k = b.view k := by
  cases r with
  | createPayment now np =>
    simp only [perform]
    cases ho : orderOf np with
    | error f => rw [pay_invalid ho]
    | ok o =>
      cases hp : parties b o.payer o.payee with
      | error f => rw [pay_missing ho hp]
      | ok pq =>
        rw [pay_valid ho hp]
        obtain ⟨hpayer, hpayee⟩ := orderOf_ok ho
        simp only [names, hpayer, hpayee, Option.some.injEq, decide_eq_false_iff_not, not_or] at hk
        split_ifs
        · simp only [view_transfer, Transfer.names, hk, Ne.symm hk.1, Ne.symm hk.2, if_false, or_self, decide_false,
            Bool.false_eq_true, List.append_nil]
          rfl
        · rfl
        · rfl
  | createAccount now na =>
    simp only [perform]
    cases hv : profileOf na.ownerName na.comment with
    | error f => rfl
    | ok x =>
      simp only [names, hv, Except.isOk, Except.toBool, true_and, decide_eq_false_iff_not] at hk
      simp only [view_put, Ne.symm hk, if_false]
  | updateAccount u =>
    simp only [perform]
    cases hv : updateOf u with
    | error f => rfl
    | ok x =>
      have hid := updateOf_ok hv
      simp only [names, hid, Option.some.injEq, decide_eq_false_iff_not] at hk
      cases hh : b.account x.2.2 with
      | none => simp only [hh]
      | some h => simp only [hh, view_put, Ne.symm hk, if_false]
  | deleteAccount i =>
    simp only [names, decide_eq_false_iff_not] at hk
    simp only [perform]
    cases hh : b.account i with
    | none => rfl
    | some h =>
      simp only
      split_ifs
      · simp only [view_put, Ne.symm hk, if_false]
      · rfl

/-- a request depends on nothing but what the bank shows about the accounts that it names -/
theorem perform_alike (r : Request) (h : ∀ k, names next r k = true → b'.view k = b.view k) :
    (perform b' next r).1 = (perform b next r).1 ∧
      ∀ k, names next r k = true → (perform b' next r).2.view k = (perform b next r).2.view k := by
  cases r with
  | createPayment now np =>
    simp only [perform]
    cases ho : orderOf np with
    | error f =>
      rw [pay_invalid ho, pay_invalid ho]
      exact ⟨rfl, h⟩
    | ok o =>
      obtain ⟨hpayer, hpayee⟩ := orderOf_ok ho
      have hparties : parties b' o.payer o.payee = parties b o.payer o.payee :=
        parties_congr (view_account (h _ (by simp [names, hpayer]))) (view_account (h _ (by simp [names, hpayee])))
      cases hp : parties b o.payer o.payee with
      | error f =>
        rw [pay_missing ho hp, pay_missing ho (hparties.trans hp)]
        exact ⟨rfl, h⟩
      | ok pq =>
        rw [pay_valid ho hp, pay_valid ho (hparties.trans hp)]
        split_ifs
        · refine ⟨rfl, fun k hk => ?_⟩
          simp only [view_transfer, view_account (h k hk), view_transfersOf (h k hk)]
        · exact ⟨rfl, h⟩
        · exact ⟨rfl, h⟩
  | createAccount now na =>
    simp only [perform]
    cases hv : profileOf na.ownerName na.comment with
    | error f => exact ⟨rfl, h⟩
    | ok x =>
      refine ⟨rfl, fun k hk => ?_⟩
      simp only [view_put, h k hk, view_transfersOf (h k hk)]
  | updateAccount u =>
    simp only [perform]
    cases hv : updateOf u with
    | error f => exact ⟨rfl, h⟩
    | ok x =>
      have haccount := view_account (h x.2.2 (by simp [names, updateOf_ok hv]))
      cases hh : b.account x.2.2 with
      | none =>
        simp only [haccount, hh]
        exact ⟨trivial, h⟩
      | some y =>
        simp only [haccount, hh]
        refine ⟨trivial, fun k hk => ?_⟩
        simp only [view_put, h k hk, view_transfersOf (h k hk)]
  | deleteAccount i =>
    have hview := h i (by simp [names])
    simp only [perform, view_account hview, view_transfersOf hview]
    cases hh : b.account i with
    | none => exact ⟨rfl, h⟩
    | some y =>
      simp only
      split_ifs
      · refine ⟨rfl, fun k hk => ?_⟩
        simp only [view_put, h k hk, view_transfersOf (h k hk)]
      · exact ⟨rfl, h⟩

end Local

end BankServices.Bank
