/-
What a request is told when a row that it needs stays locked, read off the text of the endpoints.

- `PaymentEndpoint.create_guarded`: a payment waits only in its two selects, and reports a conflict that names the side
  and the account.
- `AccountEndpoint.update_guarded`, `delete_guarded`: an update and a deletion pass on the failure of their statement.
- `AccountEndpoint.create_guarded`: a creation waits for no row.
-/
import BankServices.Api.AccountRun
import BankServices.Api.PaymentLocks
import BankServices.Core.Timeouts

namespace BankServices.Api

open BankServices.Java BankServices.Txn BankServices.Storage BankServices.Webapp

/-! ## Payments -/

namespace PaymentEndpoint

/-- the conflict reported for an account that stays locked -/
def locked (accountSide : String) (accountId : ℤ) : Throwable :=
  ValidationUtils.exceptionOf .CONFLICT (accountSide ++ " account with accountId=" ++ toString accountId ++
    " is temporary locked due to another payment or other operation")

/-- a conflict about one of the two accounts of the payment -/
def Conflict (np : NewPayment) (t : Throwable) : Prop :=
  (∃ k, np.withdrawalAccountId = some k ∧ t = locked "Withdrawal" k) ∨
    ∃ k, np.depositAccountId = some k ∧ t = locked "Deposit" k

section Guarded

variable {α : Type} {P : Throwable → Prop} {H : List ℤ} {i : ℤ} {side : String}

theorem getBalance_guarded {f : BigDecimal → Tx α} (hP : P (locked side i))
    (hf : ∀ b, (f b).Guarded h2 (GivesUp h2 P) (i :: H)) :
    (getBalanceExclusively i side >>= f).Guarded h2 (GivesUp h2 P) H := by
  unfold getBalanceExclusively
  rw [Prog.send_bind]
  refine ⟨fun _ => ⟨locked side i, rfl, hP⟩, fun a => ?_⟩
  rcases a with e | _ | ⟨b, t⟩
  · trivial
  · trivial
  · exact hf b

/-- a statement about rows already locked does not wait -/
theorem guarded_held {c : Statement} {k : Answer c → Tx α} (hr : ∀ x ∈ h2.reads c, x ∈ H)
    (hk : ∀ a, (k a).Guarded h2 (GivesUp h2 P) ((h2.lockKey c).toList ++ H)) :
    (Prog.send c k).Guarded h2 (GivesUp h2 P) H :=
  ⟨fun ⟨x, hx, hno⟩ => absurd (hr x hx) hno, hk⟩

theorem oneRow_guarded {t : Throwable} {f : Tx α} (hf : f.Guarded h2 (GivesUp h2 P) H)
    (a : Except DataAccessException ℕ) : (oneRow t f a).Guarded h2 (GivesUp h2 P) H := by
  rcases a with e | rows
  · trivial
  · rw [oneRow_ok]
    split_ifs
    · trivial
    · exact hf

theorem transfer_guarded {p : Payment} {bw bd : BigDecimal} (hw : p.withdrawalAccountId ∈ H)
    (hd : p.depositAccountId ∈ H) : (transfer p bw bd).Guarded h2 (GivesUp h2 P) H := by
  unfold transfer
  split_ifs
  · trivial
  · simp only [insertPayment_bind, updateAccount_bind]
    intro x
    refine guarded_held (fun y hy => ?_) fun a => oneRow_guarded ?_ a
    · rcases List.mem_pair.1 hy with rfl | rfl
      · exact hw
      · exact hd
    refine guarded_held (fun y hy => by rw [List.mem_singleton.1 hy]; exact hw) fun a => oneRow_guarded ?_ a
    refine guarded_held (fun y hy => ?_) fun a => oneRow_guarded ?_ a
    · rw [List.mem_singleton.1 hy]
      exact List.mem_append_right _ hd
    · trivial

end Guarded

theorem create_guarded (now : LocalDateTime) (np : NewPayment) :
    (create now np).Guarded h2 (GivesUp h2 (Conflict np)) [] := by
  unfold create
  cases hv : validated now np with
  | error t => trivial
  | ok p =>
    obtain ⟨-, -, -, hw, hd, -⟩ := validated_ok_iff.1 hv
    have hwithdrawal : Conflict np (locked "Withdrawal" p.withdrawalAccountId) := Or.inl ⟨_, hw, rfl⟩
    have hdeposit : Conflict np (locked "Deposit" p.depositAccountId) := Or.inr ⟨_, hd, rfl⟩
    rw [Prog.ofExcept_ok, Prog.done_bind]
    unfold getBalancesExclusively getWithdrawalBalanceExclusively getDepositBalanceExclusively
    split_ifs
    · rw [Prog.bind_bind]
      refine getBalance_guarded hwithdrawal fun b => ?_
      rw [Prog.bind_bind]
      refine getBalance_guarded hdeposit fun b' => ?_
      exact transfer_guarded (by simp) (by simp)
    · rw [Prog.bind_bind]
      refine getBalance_guarded hdeposit fun b => ?_
      rw [Prog.bind_bind]
      refine getBalance_guarded hwithdrawal fun b' => ?_
      exact transfer_guarded (by simp) (by simp)

end PaymentEndpoint

/-! ## Accounts -/

namespace AccountEndpoint

theorem create_guarded (now : LocalDateTime) (na : NewAccount) :
    (create now na).Guarded h2 (GivesUp h2 fun _ => False) [] := by
  cases h : checkedAccount now na with
  | error t =>
    rw [create_eq_fail h]
    trivial
  | ok a =>
    rw [create_eq h]
    refine fun i => ⟨?_, fun x => (stored_settled a i x).guarded _⟩
    rintro ⟨x, hx, -⟩
    cases hx

theorem update_guarded (u : UpdateAccount) :
    (update u).Guarded h2 (GivesUp h2 fun t => t = .dataAccessException .lockTimeout) [] := by
  rcases h : checkedUpdate u with t | ⟨n, c, i⟩
  · rw [update_eq_fail h]
    trivial
  · rw [update_eq h]
    exact ⟨fun _ => ⟨_, rfl, rfl⟩, fun x => (answered_settled x).guarded _⟩

theorem delete_guarded (i : ℤ) :
    (delete i).Guarded h2 (GivesUp h2 fun t => t = .dataAccessException .lockTimeout) [] := by
  rw [delete_eq]
  exact ⟨fun _ => ⟨_, rfl, rfl⟩, fun x => (answered_settled x).guarded _⟩

end AccountEndpoint

end BankServices.Api
