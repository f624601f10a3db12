/-
What a payment moves, against what it was asked to move. The amount of a request has any scale; the three numbers stored
for it have two decimals.

- `moves_exactly_iff`: a payment answered 200 stores and moves exactly the requested amount if and only if the amount is
  a whole number of cents, in every reachable state and in every run.
- `moves_inexactly`: a payment of 0.014 is answered 200, and stored as 0.01.
-/
import BankServices.Service.Alone

namespace BankServices.Service

open BankServices.Java BankServices.Txn BankServices.Storage BankServices.Webapp BankServices.Api
open BankServices.Api.PaymentEndpoint

/-! ## Definitions -/

/-- the requested amount, accounts and comment are stored, and exactly that amount has moved -/
structure MovedExactly (np : NewPayment) (amount : BigDecimal) (row : PaymentRow) (w d w' d' : AccountRow)
    (db db' : Tables) : Prop where
  requested : np.amount = some amount
  payment : db'.payment = db.payment ++ [row]
  stored : row.amount.toBigDecimal.toRat = amount.toRat
  withdrawalAccount : np.withdrawalAccountId = some row.withdrawalAccountId
  depositAccount : np.depositAccountId = some row.depositAccountId
  comment : row.comment.map Subtype.val = np.comment
  withdrawal : db.findAccount row.withdrawalAccountId = some w
  deposit : db.findAccount row.depositAccountId = some d
  withdrawal' : db'.findAccount row.withdrawalAccountId = some w'
  deposit' : db'.findAccount row.depositAccountId = some d'
  withdrawn : w'.balance.toBigDecimal.toRat = w.balance.toBigDecimal.toRat - amount.toRat
  deposited : d'.balance.toBigDecimal.toRat = d.balance.toBigDecimal.toRat + amount.toRat

def MovesExactly (np : NewPayment) (db db' : Tables) : Prop :=
  ∃ amount row w d w' d', MovedExactly np amount row w d w' d' db db'

/-- the requested amount is a whole number of cents -/
def WholeCents (np : NewPayment) : Prop := ∃ amount, np.amount = some amount ∧ ∃ n : ℤ, amount.toRat * 100 = n

/-! ## Whole cents -/

theorem MovesExactly.wholeCents {np : NewPayment} {db db' : Tables} (h : MovesExactly np db db') : WholeCents np := by
  obtain ⟨amount, row, w, d, w', d', hm⟩ := h
  refine ⟨amount, hm.requested, row.amount.cents, ?_⟩
  rw [← hm.stored]
  exact toRat_toBigDecimal row.amount

section Moved

variable {amount : BigDecimal} {row : PaymentRow} {w d w' d' : AccountRow} {db db' : Tables} {n : ℤ}

/-- an amount of whole cents is not rounded, and neither are the balances that it makes -/
theorem Moved.exact (h : Moved amount row w d w' d' db db') (hn : amount.toRat * 100 = n) :
    row.amount.cents = n ∧ w'.balance.cents = w.balance.cents - n ∧ d'.balance.cents = d.balance.cents + n := by
  refine ⟨?_, ?_, ?_⟩
  · rw [h.cents, halfUpCents_eq, hn, HalfUp.round_intCast]
  · rw [h.withdrawn, halfUpCents_subtract_eq, hn, ← Int.cast_sub, HalfUp.round_intCast]
  · rw [h.deposited, halfUpCents_eq, BigDecimal.toRat_add, add_mul, toRat_toBigDecimal, hn, ← Int.cast_add,
      HalfUp.round_intCast]

theorem Moved.exactly_iff (h : Moved amount row w d w' d' db db') {now : LocalDateTime} {np : NewPayment}
    (hr : Records now np amount row) : MovesExactly np db db' ↔ WholeCents np := by
  refine ⟨MovesExactly.wholeCents, fun ⟨a, ha, n, hn⟩ => ?_⟩
  cases hr.amount.symm.trans ha
  obtain ⟨hrow, hw, hd⟩ := Moved.exact h hn
  have hrow' := toRat_toBigDecimal row.amount
  have hw0 := toRat_toBigDecimal w.balance
  have hw1 := toRat_toBigDecimal w'.balance
  have hd0 := toRat_toBigDecimal d.balance
  have hd1 := toRat_toBigDecimal d'.balance
  rw [hrow] at hrow'
  rw [hw, Int.cast_sub] at hw1
  rw [hd, Int.cast_add] at hd1
  have hfindw : db'.findAccount row.withdrawalAccountId = some w' := by
    rw [h.findAccount, if_pos rfl]
  have hfindd : db'.findAccount row.depositAccountId = some d' := by
    rw [h.findAccount, if_neg h.different.symm, if_pos rfl]
  exact ⟨amount, row, w, d, w', d', hr.amount, h.payment, by linarith, hr.withdrawal, hr.deposit, hr.comment,
    h.withdrawal, h.deposit, hfindw, hfindd, by linarith, by linarith⟩

end Moved

/-! ## Payments answered 200 -/

/-- a payment answered 200 alone has moved something -/
theorem alone_moved {s : St} {now : LocalDateTime} {np : NewPayment}
    (h : (answer (alone (.createPayment now np) s).1).status = .OK) :
    ∃ amount row w d w' d', Moved amount row w d w' d' s.db (alone (.createPayment now np) s).2.2 ∧
      Records now np amount row := by
  by_cases hwritten : ∃ p w d x, Accepts s.db now np p w d ∧ written s.db (s.seq .payment) p w d = .ok x
  · obtain ⟨p, w, d, ⟨row, w', d'⟩, hacc, hs⟩ := hwritten
    obtain ⟨hm, hrec, -⟩ := moved_of_written hacc hs
    rw [alone_ok hacc hs]
    exact ⟨p.amount, row, w, d, w', d', hm, hrec⟩
  · exact absurd h (alone_rejected hwritten).1

/-- **Exact payments.** -/
theorem moves_exactly_iff (ops : List Op) :
    (∀ now np, (answer (alone (.createPayment now np) (run ops)).1).status = .OK →
      (MovesExactly np (run ops).db (alone (.createPayment now np) (run ops)).2.2 ↔ WholeCents np)) ∧
    ∀ i t a now np, (run ops).slot i = .running t → t.rest = .done a → t.req = .createPayment now np →
      (MovesExactly np (run ops).db (step (run ops) (.commit i)).db ↔ WholeCents np) := by
  refine ⟨fun now np h => ?_, fun i t a now np hs hr hq => ?_⟩
  · obtain ⟨amount, row, w, d, w', d', hm, hrec⟩ := alone_moved h
    exact Moved.exactly_iff hm hrec
  · obtain ⟨amount, row, w, d, w', d', hm, hrec⟩ := commit_moved ops hs hr hq
    exact Moved.exactly_iff hm hrec

theorem moves_inexactly : ¬ ∀ ops now np, (answer (alone (.createPayment now np) (run ops)).1).status = .OK →
    MovesExactly np (run ops).db (alone (.createPayment now np) (run ops)).2.2 := by
  intro h
  obtain ⟨amount, ha, n, hn⟩ := (h [] firstOf2020 (pay ⟨14, 3⟩) rfl).wholeCents
  cases ha
  have hn' : (14 : ℚ) = (10 * n : ℤ) := by
    unfold BigDecimal.toRat at hn
    push_cast at hn ⊢
    norm_num at hn
    linarith
  have : (14 : ℤ) = 10 * n := by exact_mod_cast hn'
  omega

end BankServices.Service
