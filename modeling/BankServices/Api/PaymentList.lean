/-
`PaymentEndpoint.list`: which payments it returns, and in which order.

- `list_ok`: for an interval that does not end before it begins, the stored payments of the account in it, sorted by
  PROCESSED.
- `list_of_sorted`: payments already stored in that order are listed in the order of the table.
-/
import BankServices.Api.PaymentEndpoint

namespace BankServices.Api.PaymentEndpoint

open BankServices.Java BankServices.Storage BankServices.Webapp

/-- the stored payments of an account with PROCESSED in an interval, both ends included -/
def selected (db : Tables) (k : ℤ) (intervalFrom intervalTo : LocalDateTime) : List PaymentRow :=
  db.payment.filter fun p => intervalFrom ≤ p.processed.1 ∧ p.processed.1 ≤ intervalTo ∧ p.refers k

section List

variable (db : Tables) (k : ℤ) {intervalFrom intervalTo : LocalDateTime}

variable {db k} in
theorem mem_selected {p : PaymentRow} : p ∈ selected db k intervalFrom intervalTo ↔
    p ∈ db.payment ∧ intervalFrom ≤ p.processed.1 ∧ p.processed.1 ≤ intervalTo ∧ p.refers k = true := by
  simp [selected]

theorem list_eq (h : intervalFrom ≤ intervalTo) : list db (some k) (some intervalFrom) (some intervalTo) =
    .ok ((selected db k intervalFrom intervalTo).insertionSort fun p q => p.processed ≤ q.processed) :=
  if_neg (not_lt.2 h)

theorem list_ok (h : intervalFrom ≤ intervalTo) :
    ∃ found, list db (some k) (some intervalFrom) (some intervalTo) = .ok found ∧
      found.Perm (selected db k intervalFrom intervalTo) ∧ found.Pairwise fun p q => p.processed ≤ q.processed := by
  refine ⟨_, list_eq db k h, List.perm_insertionSort _ _, ?_⟩
  have : Std.Total fun p q : PaymentRow => p.processed ≤ q.processed := ⟨fun p q => le_total _ _⟩
  have : IsTrans PaymentRow fun p q => p.processed ≤ q.processed := ⟨fun p q r => le_trans⟩
  exact List.pairwise_insertionSort _ _

variable {db k} in
theorem list_of_sorted (h : intervalFrom ≤ intervalTo)
    (hs : (selected db k intervalFrom intervalTo).Pairwise fun p q => p.processed ≤ q.processed) :
    list db (some k) (some intervalFrom) (some intervalTo) = .ok (selected db k intervalFrom intervalTo) := by
  rw [list_eq db k h, hs.insertionSort_eq]

end List

end BankServices.Api.PaymentEndpoint
