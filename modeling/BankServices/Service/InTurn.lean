/-
Requests to the service, served in turn from a state that it has reached.

- `run_inTurn`: the service can serve them so, whatever it did before, while no row is locked.
- `create_sends`: a payment locks rows, inserts its own row and writes balances; it sends no other statement.
-/
import BankServices.Core.InTurn
import BankServices.Service.Alone

namespace BankServices.Service

open BankServices.Java BankServices.Txn BankServices.Storage BankServices.Webapp BankServices.Api
open BankServices.Api.PaymentEndpoint

/-- payment requests, each with the clock value that it captures -/
def payments (l : List (LocalDateTime × NewPayment)) : List Request := l.map fun x => .createPayment x.1 x.2

/-- the outcomes of the requests, and the sequences and the tables after them -/
def inTurn (l : List Request) (s : St) : List (Except Throwable Response) × (Sequence → ℤ) × Tables :=
  InTurn.inTurn h2 body l s.seq s.db

/-- **In turn in the machine.** -/
theorem run_inTurn (ops : List Op) (l : List Request) (hu : ∀ k, (run ops).owner k = none) : ∃ more n,
    (run (ops ++ more)).db = (inTurn l (run ops)).2.2 ∧
      ∀ j r out, l[j]? = some r → (inTurn l (run ops)).1[j]? = some out →
        (run (ops ++ more)).slot (n + j) = .finished r out := by
  obtain ⟨n, hn⟩ := (run_order ops).finite
  obtain ⟨more, -, hdb, hslots⟩ := InTurn.run_inTurn body_disciplined l (run_inv ops) hn hu
  refine ⟨more, n, ?_⟩
  rw [run_append]
  exact ⟨hdb, hslots⟩

/-! ## The statements of a payment -/

/-- the statements that a payment sends -/
def MovesMoney : Statement → Prop
  | .selectForUpdate _ | .insertPayment _ _ | .updateBalance _ _ _ => True
  | _ => False

section Sends

variable {α : Type}

theorem updatedRows_sends (x : Except DataAccessException ℕ) : (updatedRows x).Sends MovesMoney := by
  cases x <;> trivial

theorem getBalance_sends (i : ℤ) (side : String) : (getBalanceExclusively i side).Sends MovesMoney := by
  refine ⟨trivial, fun x => ?_⟩
  rcases (x : Except DataAccessException (Option (BigDecimal × LocalDateTime))) with e | _ | ⟨balance, modified⟩
  all_goals trivial

theorem getBalances_sends (p : Payment) : (getBalancesExclusively p).Sends MovesMoney := by
  unfold getBalancesExclusively
  split_ifs
  · exact sends_bind (getBalance_sends _ _) fun _ => sends_bind (getBalance_sends _ _) fun _ => trivial
  · exact sends_bind (getBalance_sends _ _) fun _ => sends_bind (getBalance_sends _ _) fun _ => trivial

theorem insertPayment_sends (p : Payment) : (insertPayment p).Sends MovesMoney := by
  refine fun x => ⟨trivial, fun a => sends_bind (updatedRows_sends a) fun rows => ?_⟩
  unfold insertPaymentCheckUpdatedRows
  split_ifs
  all_goals trivial

theorem updateAccount_sends (i : ℤ) (b : BigDecimal) (t : LocalDateTime) (side : String) :
    (updateAccount i b t side).Sends MovesMoney := by
  refine ⟨trivial, fun a => sends_bind (updatedRows_sends a) fun rows => ?_⟩
  unfold updateAccountCheckUpdatedRows
  split_ifs
  all_goals trivial

theorem transfer_sends (p : Payment) (w d : BigDecimal) : (transfer p w d).Sends MovesMoney := by
  unfold transfer
  split_ifs
  · trivial
  · refine sends_bind (insertPayment_sends p) fun _ => ?_
    exact sends_bind (updateAccount_sends _ _ _ _) fun _ => sends_bind (updateAccount_sends _ _ _ _) fun _ => trivial

theorem create_sends (now : LocalDateTime) (np : NewPayment) : (create now np).Sends MovesMoney := by
  unfold create
  refine sends_bind ?_ fun p => sends_bind (getBalances_sends p) fun _ => transfer_sends _ _ _
  cases validated now np with
  | error t => trivial
  | ok p => trivial

end Sends

theorem payments_send (l : List (LocalDateTime × NewPayment)) : ∀ r ∈ payments l, (body r).Sends MovesMoney := by
  intro r hr
  obtain ⟨x, -, rfl⟩ := List.mem_map.1 hr
  exact create_sends x.1 x.2

end BankServices.Service
