/-
No request hangs: from every reachable state the open requests come to their answers, in every schedule.

- `run_work`: a request takes at most eight operations in every run, however its statements are answered: its begin, six
  statements and draws, and its end. It may wait in between, but it never retries.
- `run_drains`: while nothing begins, at most seven operations for each open request have an effect. Where nothing but a
  lock timeout has an effect any more, all of them are answered. There is a schedule to that end without a timeout.
-/
import BankServices.Core.Draining
import BankServices.Service.Linearized

namespace BankServices.Service

open BankServices.Java BankServices.Txn BankServices.Storage BankServices.Webapp BankServices.Api
open RowLock (acts work IsOpen)

/-! ## The programs are short -/

section Programs

open PaymentEndpoint

theorem updatedRows_within (x : Except DataAccessException ℕ) : (updatedRows x).Within 0 := by
  cases x <;> trivial

theorem getBalance_within (k : ℤ) (side : String) : (getBalanceExclusively k side).Within 1 := by
  refine ⟨Nat.one_pos, fun x => ?_⟩
  rcases (x : Except DataAccessException (Option (BigDecimal × LocalDateTime))) with e | _ | ⟨balance, modified⟩
  all_goals trivial

theorem getBalances_within (p : Payment) : (getBalancesExclusively p).Within 2 := by
  unfold getBalancesExclusively
  split_ifs
  all_goals
    refine Prog.Within.bind (n := 1) (m := 1) (getBalance_within _ _) fun _ => ?_
    refine Prog.Within.bind (n := 1) (m := 0) (getBalance_within _ _) fun _ => ?_
    trivial

theorem insertPayment_within (p : Payment) : (insertPayment p).Within 2 := by
  refine ⟨Nat.two_pos, fun x => ⟨Nat.one_pos, fun a => ?_⟩⟩
  refine Prog.Within.bind (n := 0) (m := 0) (updatedRows_within a) fun rows => ?_
  unfold insertPaymentCheckUpdatedRows
  split_ifs
  all_goals trivial

theorem updateAccount_within (k : ℤ) (balance : BigDecimal) (t : LocalDateTime) (side : String) :
    (updateAccount k balance t side).Within 1 := by
  refine ⟨Nat.one_pos, fun a => Prog.Within.bind (n := 0) (m := 0) (updatedRows_within a) fun rows => ?_⟩
  unfold updateAccountCheckUpdatedRows
  split_ifs
  all_goals trivial

theorem transfer_within (p : Payment) (w d : BigDecimal) : (transfer p w d).Within 4 := by
  unfold transfer
  split_ifs
  · trivial
  · refine Prog.Within.bind (n := 2) (m := 2) (insertPayment_within p) fun _ => ?_
    refine Prog.Within.bind (n := 1) (m := 1) (updateAccount_within _ _ _ _) fun _ => ?_
    exact Prog.Within.bind (n := 1) (m := 0) (updateAccount_within _ _ _ _) fun _ => trivial

theorem createPayment_within (now : LocalDateTime) (np : NewPayment) : (create now np).Within 6 := by
  unfold create
  refine Prog.Within.bind (n := 0) (m := 6) ?_ fun p => ?_
  · cases validated now np <;> trivial
  · exact Prog.Within.bind (n := 2) (m := 4) (getBalances_within p) fun _ => transfer_within _ _ _

theorem createAccount_within (now : LocalDateTime) (na : NewAccount) : (AccountEndpoint.create now na).Within 2 := by
  unfold AccountEndpoint.create
  refine Prog.Within.bind (n := 0) (m := 2) ?_ fun a => ?_
  · cases AccountEndpoint.checkedAccount now na <;> trivial
  · refine ⟨Nat.two_pos, fun x => ⟨Nat.one_pos, fun b => ?_⟩⟩
    exact Prog.Within.bind (n := 0) (m := 0) (updatedRows_within b) fun rows => trivial

theorem updateAccountRow_within (u : UpdateAccount) : (AccountEndpoint.update u).Within 1 := by
  unfold AccountEndpoint.update
  refine Prog.Within.bind (n := 0) (m := 1) ?_ fun x => ⟨Nat.one_pos, fun a => ?_⟩
  · cases AccountEndpoint.checkedUpdate u <;> trivial
  · exact Prog.Within.bind (n := 0) (m := 0) (updatedRows_within a) fun rows => trivial

theorem deleteAccount_within (k : ℤ) : (AccountEndpoint.delete k).Within 1 :=
  ⟨Nat.one_pos, fun a => Prog.Within.bind (n := 0) (m := 0) (updatedRows_within a) fun _ => trivial⟩

end Programs

/-- no request sends or draws more than a payment -/
theorem body_within (r : Request) : (body r).Within 6 := by
  cases r with
  | createPayment now np => exact createPayment_within now np
  | createAccount now na => exact (createAccount_within now na).mono (by omega)
  | updateAccount u => exact (updateAccountRow_within u).mono (by omega)
  | deleteAccount k => exact (deleteAccount_within k).mono (by omega)

/-! ## Every run -/

/-- **Bounded work.** -/
theorem run_work (ops : List Op) (i : ℕ) : work h2 body i init ops ≤ 8 :=
  RowLock.work_le body_within migrated migratedSequences ops i

/-- what is open after a run comes to its answers -/
structure Drains (ops : List Op) (F : Finset ℕ) : Prop where
  /-- the open slots -/
  isOpen : ∀ i, i ∈ F ↔ IsOpen (run ops) i
  bounded : ∀ more : List Op, (∀ o ∈ more, o.begins = false) → RowLock.along h2 body (acts h2) (run ops) more = true →
    more.length ≤ 7 * F.card
  stuck : ∀ more : List Op, (∀ o : Op, o.quiet = true → acts h2 (run (ops ++ more)) o = false) →
    ∀ i ∈ F, ∃ r out, (run (ops ++ more)).slot i = .finished r out
  drain : ∃ more : List Op, (∀ o ∈ more, o.quiet = true) ∧ RowLock.along h2 body (acts h2) (run ops) more = true ∧
    ∀ i ∈ F, (∃ r out, (run (ops ++ more)).slot i = .finished r out) ∧ (LockedOut (ops ++ more) i → LockedOut ops i)

/-- a slot that was open is answered once nothing is open -/
theorem answered_of_closed {ops more : List Op} {i : ℕ} (hopen : IsOpen (run ops) i)
    (h : ¬ IsOpen (run (ops ++ more)) i) : ∃ r out, (run (ops ++ more)).slot i = .finished r out := by
  have hused : (run (ops ++ more)).slot i ≠ .free := by
    rw [run_append]
    refine RowLock.used_stays (fun hfree => ?_) more
    obtain ⟨t, ht⟩ := hopen
    rw [ht] at hfree
    cases hfree
  cases hs : (run (ops ++ more)).slot i with
  | free => exact absurd hs hused
  | running t => exact absurd ⟨t, hs⟩ h
  | finished r out => exact ⟨r, out, rfl⟩

/-- **No request hangs.** -/
theorem run_drains (ops : List Op) : ∃ F, Drains ops F := by
  classical
  obtain ⟨n, hn⟩ := (run_order ops).finite
  have hmem : ∀ i, i ∈ (Finset.range n).filter (fun i => IsOpen (run ops) i) ↔ IsOpen (run ops) i := by
    intro i
    refine ⟨fun h => (Finset.mem_filter.1 h).2, fun h => Finset.mem_filter.2 ⟨Finset.mem_range.2 ?_, h⟩⟩
    by_contra hi
    obtain ⟨t, ht⟩ := h
    rw [hn i (not_lt.1 hi)] at ht
    cases ht
  generalize (Finset.range n).filter (fun i => IsOpen (run ops) i) = F at hmem
  have hbudgets : RowLock.Budgets 6 F (fun _ => 7) (run ops) := by
    intro i hopen
    refine ⟨(hmem i).2 hopen, ?_⟩
    obtain ⟨t, ht⟩ := hopen
    rw [ht]
    exact ⟨6, Nat.lt_succ_self 6, RowLock.run_within body_within ops i t ht⟩
  have hsum : ∑ _i ∈ F, 7 = 7 * F.card := by
    rw [Finset.sum_const, smul_eq_mul, mul_comm]
  refine ⟨F, hmem, fun more hbegins hacts => ?_, fun more hstuck i hi => ?_, ?_⟩
  · rw [← hsum]
    exact RowLock.length_le body_within hbudgets hbegins hacts
  · exact answered_of_closed ((hmem i).1 hi) (RowLock.closed_of_stuck (run_inv _) (run_order _) hstuck i)
  · obtain ⟨more, hquiet, hacts, hclosed⟩ :=
      RowLock.exists_drain body_within body_ascending body_disciplined (run_inv ops) (run_order ops) hbudgets
    refine ⟨more, hquiet, hacts, fun i hi => ⟨answered_of_closed ((hmem i).1 hi) ?_, fun hl => ?_⟩⟩
    · rw [run_append]
      exact hclosed i
    · refine RowLock.timedOut_earlier hl fun ho => ?_
      cases hquiet _ ho

end BankServices.Service
