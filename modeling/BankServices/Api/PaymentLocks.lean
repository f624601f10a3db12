/-
The locks and the statements of `PaymentEndpoint.create`, read off its text: each helper has one rule per question, and
the four results about `create` follow the code with these rules.

- `create_disciplined`: it locks both account rows before it writes, and gives up when one is missing or stays locked.
- `create_ascending`: it locks the row with the smaller id first.
- `create_ends`: it ends well only after it wrote something.
- `create_holds`: when it sends a balance update, the balance that the update was computed from is the stored one.
-/
import BankServices.Api.PaymentRun

namespace BankServices.Api.PaymentEndpoint

open BankServices.Java BankServices.Txn BankServices.Storage BankServices.Webapp BankServices.Fallible
open ValidationUtils JooqAwareValidationUtils

variable {α : Type} {H : List ℤ} {i : ℤ} {side : String}

/-! ## The statements of the helpers -/

/-- the count of a statement that has to concern one row, and what follows then -/
def oneRow (otherwise : Throwable) (f : Tx α) : Except DataAccessException ℕ → Tx α
  | .error e => .fail (.dataAccessException e)
  | .ok rows => if rows ≠ 1 then .fail otherwise else f

theorem oneRow_ok (t : Throwable) (f : Tx α) (rows : ℕ) :
    oneRow t f (.ok rows) = if rows ≠ 1 then .fail t else f := rfl

theorem insertPayment_bind (p : Payment) (f : ℤ → Tx α) : insertPayment p >>= f =
    .draw .payment fun x =>
      .send (.insertPayment x p) (oneRow (.illegalStateException "Can't create payment record") (f x)) := by
  unfold insertPayment
  rw [Prog.bind_bind, Prog.draw_bind]
  congr 1
  funext x
  rw [Prog.done_bind, Prog.bind_bind, Prog.send_bind]
  congr 1
  funext a
  rcases a with e | rows
  · rfl
  · show (insertPaymentCheckUpdatedRows rows >>= fun _ => .done x) >>= f = _
    rw [oneRow_ok]
    unfold insertPaymentCheckUpdatedRows
    split_ifs <;> rfl

theorem updateAccount_bind (b : BigDecimal) (t : LocalDateTime) (f : Unit → Tx α) : updateAccount i b t side >>= f =
    .send (.updateBalance i b t)
      (oneRow (.illegalStateException ("Can't update balance of " ++ side ++ " account")) (f ())) := by
  unfold updateAccount
  rw [Prog.bind_bind, Prog.send_bind]
  congr 1
  funext a
  rcases a with e | rows
  · rfl
  · show updateAccountCheckUpdatedRows rows side >>= f = _
    rw [oneRow_ok]
    unfold updateAccountCheckUpdatedRows
    split_ifs <;> rfl

/-- the rows are locked one after the other, the smaller id first -/
theorem create_lock_order {now : LocalDateTime} {np : NewPayment} {p : Payment} (hv : validated now np = .ok p) :
    (∃ lo hi slo shi, lo < hi ∧ (p.withdrawalAccountId = lo ∧ p.depositAccountId = hi) ∧
      create now np = getBalanceExclusively lo slo >>= fun bw => getBalanceExclusively hi shi >>= fun bd =>
        transfer p bw bd) ∨
    (∃ lo hi slo shi, lo < hi ∧ (p.withdrawalAccountId = hi ∧ p.depositAccountId = lo) ∧
      create now np = getBalanceExclusively lo slo >>= fun bd => getBalanceExclusively hi shi >>= fun bw =>
        transfer p bw bd) := by
  have hne := (validated_ok_iff.1 hv).2.2.2.2.2.2.2
  unfold create
  rw [hv, Prog.ofExcept_ok, Prog.done_bind]
  unfold getBalancesExclusively getWithdrawalBalanceExclusively getDepositBalanceExclusively
  split_ifs with hlt
  · refine Or.inl ⟨_, _, "Withdrawal", "Deposit", hlt, ⟨rfl, rfl⟩, ?_⟩
    simp only [Prog.bind_bind, Prog.pure_def, Prog.done_bind]
  · refine Or.inr ⟨p.depositAccountId, p.withdrawalAccountId, "Deposit", "Withdrawal", by omega, ⟨rfl, rfl⟩, ?_⟩
    simp only [Prog.bind_bind, Prog.pure_def, Prog.done_bind]

/-! ## Locking discipline -/

theorem getBalance_disciplined {f : BigDecimal → Tx α} (hf : ∀ b, (f b).Disciplined h2 (i :: H) false) :
    (getBalanceExclusively i side >>= f).Disciplined h2 H false := by
  unfold getBalanceExclusively
  rw [Prog.send_bind]
  refine ⟨fun x hx => Or.inr ?_, fun x hx _ => ⟨rfl, trivial, fun d hd => ⟨?_, rfl⟩⟩, fun a => ?_⟩
  · rw [List.mem_singleton.1 hx]
    rfl
  · cases hx
    have hnone : d.findAccount i = none := Option.isNone_iff_eq_none.1 (by simpa [h2, look] using hd)
    have : (h2.exec (.selectForUpdate i) d).1 = .ok none := by
      show Except.ok ((d.findAccount i).map _) = _
      rw [hnone]; rfl
    rw [this]
    trivial
  · rcases a with e | _ | ⟨b, t⟩
    · trivial
    · trivial
    · exact hf b

theorem oneRow_disciplined {t : Throwable} {f : Tx α} {w : Bool} (hf : f.Disciplined h2 H w)
    (a : Except DataAccessException ℕ) : (oneRow t f a).Disciplined h2 H w := by
  rcases a with e | rows
  · trivial
  · rw [oneRow_ok]
    split_ifs
    · trivial
    · exact hf

theorem updateAccount_disciplined {w : Bool} {b : BigDecimal} {t : LocalDateTime} {f : Unit → Tx α} (hi : i ∈ H)
    (hf : (f ()).Disciplined h2 (i :: H) true) : (updateAccount i b t side >>= f).Disciplined h2 H w := by
  rw [updateAccount_bind]
  refine disciplined_held (fun x hx => by rw [List.mem_singleton.1 hx]; exact hi) fun a => ?_
  rw [show (w || !h2.readOnly (.updateBalance i b t)) = true from Bool.or_true w]
  exact oneRow_disciplined hf a

theorem insertPayment_disciplined {w : Bool} {p : Payment} {f : ℤ → Tx α} (hw : p.withdrawalAccountId ∈ H)
    (hd : p.depositAccountId ∈ H) (hf : ∀ x, (f x).Disciplined h2 H true) :
    (insertPayment p >>= f).Disciplined h2 H w := by
  rw [insertPayment_bind]
  intro x
  refine disciplined_held (fun y hy => ?_) fun a => ?_
  · rcases List.mem_pair.1 hy with rfl | rfl
    · exact hw
    · exact hd
  · rw [show (w || !h2.readOnly (.insertPayment x p)) = true from Bool.or_true w]
    exact oneRow_disciplined (hf x) a

theorem transfer_disciplined {p : Payment} {bw bd : BigDecimal} (hw : p.withdrawalAccountId ∈ H)
    (hd : p.depositAccountId ∈ H) : (transfer p bw bd).Disciplined h2 H false := by
  unfold transfer
  split_ifs
  · trivial
  · refine insertPayment_disciplined hw hd fun x => ?_
    refine updateAccount_disciplined hw ?_
    exact updateAccount_disciplined (List.mem_cons_of_mem _ hd) trivial

theorem create_disciplined (now : LocalDateTime) (np : NewPayment) : (create now np).Disciplined h2 [] false := by
  cases hv : validated now np with
  | error t =>
    unfold create
    rw [hv]
    trivial
  | ok p =>
    rcases create_lock_order hv with ⟨lo, hi, slo, shi, -, ⟨hw, hd⟩, he⟩ | ⟨lo, hi, slo, shi, -, ⟨hw, hd⟩, he⟩
    all_goals
      rw [he]
      refine getBalance_disciplined fun b => ?_
      refine getBalance_disciplined fun b' => ?_
      exact transfer_disciplined (by rw [hw]; simp) (by rw [hd]; simp)

/-! ## Lock order -/

theorem getBalance_ascending {f : BigDecimal → Tx α} (hi : ∀ h ∈ H, h < i) (hf : ∀ b, (f b).Ascending h2 (i :: H)) :
    (getBalanceExclusively i side >>= f).Ascending h2 H := by
  unfold getBalanceExclusively
  rw [Prog.send_bind]
  refine ⟨fun x hx => Or.inr ?_, fun a => ?_⟩
  · rw [List.mem_singleton.1 hx]
    exact hi
  · rcases a with e | _ | ⟨b, t⟩
    · trivial
    · trivial
    · exact hf b

theorem oneRow_ascending {t : Throwable} {f : Tx α} (hf : f.Ascending h2 H) (a : Except DataAccessException ℕ) :
    (oneRow t f a).Ascending h2 H := by
  rcases a with e | rows
  · trivial
  · rw [oneRow_ok]
    split_ifs
    · trivial
    · exact hf

theorem transfer_ascending {p : Payment} {bw bd : BigDecimal} (hw : p.withdrawalAccountId ∈ H)
    (hd : p.depositAccountId ∈ H) : (transfer p bw bd).Ascending h2 H := by
  unfold transfer
  split_ifs
  · trivial
  · simp only [insertPayment_bind, updateAccount_bind]
    intro x
    -- from here on every statement is about the two rows already locked
    refine ascending_held (fun y hy => ?_) fun a => oneRow_ascending ?_ a
    · rcases List.mem_pair.1 hy with rfl | rfl
      · exact hw
      · exact hd
    refine ascending_held (fun y hy => by rw [List.mem_singleton.1 hy]; exact hw) fun a => oneRow_ascending ?_ a
    refine ascending_held (fun y hy => ?_) fun a => oneRow_ascending ?_ a
    · rw [List.mem_singleton.1 hy]
      exact List.mem_append_right _ hd
    · trivial

theorem create_ascending (now : LocalDateTime) (np : NewPayment) : (create now np).Ascending h2 [] := by
  cases hv : validated now np with
  | error t =>
    unfold create
    rw [hv]
    trivial
  | ok p =>
    rcases create_lock_order hv with ⟨lo, hi, slo, shi, hlt, ⟨hw, hd⟩, he⟩ | ⟨lo, hi, slo, shi, hlt, ⟨hw, hd⟩, he⟩
    all_goals
      rw [he]
      refine getBalance_ascending (fun h hh => by cases hh) fun b => ?_
      refine getBalance_ascending (fun h hh => by rw [List.mem_singleton.1 hh]; exact hlt) fun b' => ?_
      exact transfer_ascending (by rw [hw]; simp) (by rw [hd]; simp)

/-! ## Ends -/

theorem getBalance_ends {f : BigDecimal → Tx α} (hf : ∀ b, (f b).Ends h2 Wrote []) :
    (getBalanceExclusively i side >>= f).Ends h2 Wrote [] := by
  unfold getBalanceExclusively
  rw [Prog.send_bind]
  refine ⟨wrote_error _ _, fun d => ?_⟩
  show Prog.Ends h2 Wrote (_ >>= f) []
  rcases (h2.exec (.selectForUpdate i) d).1 with e | _ | ⟨b, t⟩
  · exact wrote_error _ _
  · exact wrote_error _ _
  · exact hf b

theorem transfer_ends (p : Payment) (bw bd : BigDecimal) : (transfer p bw bd).Ends h2 Wrote [] := by
  unfold transfer
  split_ifs
  · exact wrote_error _ _
  · rw [insertPayment_bind]
    refine fun x => ⟨wrote_error _ _, fun d => ?_⟩
    show Prog.Ends h2 Wrote (oneRow _ _ (wrote ((paymentRow d x p).map .addPayment)).1)
      (wrote ((paymentRow d x p).map .addPayment)).2
    cases paymentRow d x p with
    | error e => exact wrote_error _ _
    | ok row => exact ends_wrote _ (List.cons_ne_nil _ _)

theorem create_ends (now : LocalDateTime) (np : NewPayment) : (create now np).Ends h2 Wrote [] := by
  cases hv : validated now np with
  | error t =>
    unfold create
    rw [hv]
    exact wrote_error _ _
  | ok p =>
    rcases create_lock_order hv with ⟨lo, hi, slo, shi, -, -, he⟩ | ⟨lo, hi, slo, shi, -, -, he⟩
    all_goals
      rw [he]
      refine getBalance_ends fun b => ?_
      refine getBalance_ends fun b' => ?_
      exact transfer_ends p _ _

/-! ## Balances written -/

/-- a balance update comes after the insert of the payment, and is computed from the balance that is stored in the
committed tables `db0` and still seen: less an amount that it covers, or plus the amount -/
def FromStored (db0 : Tables) (amount : BigDecimal) : Statement → Tables → Prop
  | .updateBalance i b _, db => db.payment ≠ db0.payment ∧ ∃ r, db0.findAccount i = some r ∧ db.findAccount i = some r ∧
      ((b = r.balance.toBigDecimal.subtract amount ∧ amount.toRat ≤ r.balance.toBigDecimal.toRat) ∨
        b = r.balance.toBigDecimal.add amount)
  | _, _ => True

section Holds

variable {db0 db : Tables} {amount : BigDecimal}

theorem getBalance_holds {f : BigDecimal → Tx α}
    (hf : ∀ r, db.findAccount i = some r → (f r.balance.toBigDecimal).Holds h2 (FromStored db0 amount) db) :
    (getBalanceExclusively i side >>= f).Holds h2 (FromStored db0 amount) db := by
  unfold getBalanceExclusively
  rw [Prog.send_bind]
  refine ⟨trivial, ?_⟩
  show Prog.Holds h2 _ (_ >>= f) db
  cases hr : db.findAccount i with
  | none =>
    have : (h2.send (.selectForUpdate i) db).1 = .ok none := by
      show Except.ok ((db.findAccount i).map _) = _
      rw [hr]; rfl
    rw [this]
    trivial
  | some r =>
    have : (h2.send (.selectForUpdate i) db).1 = .ok (some (r.balance.toBigDecimal, r.balanceLastModified.1)) := by
      show Except.ok ((db.findAccount i).map _) = _
      rw [hr]; rfl
    rw [this]
    exact hf r hr

theorem transfer_holds {p : Payment} {w d : AccountRow} (hw : db.findAccount p.withdrawalAccountId = some w)
    (hd : db.findAccount p.depositAccountId = some d) (hne : p.withdrawalAccountId ≠ p.depositAccountId) :
    (transfer p w.balance.toBigDecimal d.balance.toBigDecimal).Holds h2 (FromStored db p.amount) db := by
  unfold transfer
  split_ifs with hf
  · trivial
  rw [BigDecimal.compareTo_neg_iff, not_lt] at hf
  simp only [insertPayment_bind, updateAccount_bind]
  refine fun x => ⟨trivial, ?_⟩
  show Prog.Holds h2 _ (oneRow _ _ (wrote ((paymentRow db x p).map .addPayment)).1)
    ((wrote ((paymentRow db x p).map .addPayment)).2.foldl applyWrite db)
  cases paymentRow db x p with
  | error e => trivial
  | ok row =>
    have hw1 : (applyWrite db (.addPayment row)).findAccount p.withdrawalAccountId = some w := hw
    have hnew : db.payment ++ [row] ≠ db.payment := by simp
    refine ⟨⟨hnew, w, hw, hw, Or.inl ⟨rfl, hf⟩⟩, ?_⟩
    have hs : h2.exec (.updateBalance p.withdrawalAccountId (w.balance.toBigDecimal.subtract p.amount) p.processed)
        (applyWrite db (.addPayment row)) =
        wrote ((balanceRow w (w.balance.toBigDecimal.subtract p.amount) p.processed).map .putAccount) :=
      onRow_found hw1 _
    unfold Engine.send
    simp only [wrote, Except.map, List.foldl_cons, List.foldl_nil]
    rw [hs]
    cases hw' : balanceRow w (w.balance.toBigDecimal.subtract p.amount) p.processed with
    | error e => trivial
    | ok w' =>
      have hid : w'.accountId = p.withdrawalAccountId := (balanceRow_id hw').trans (findAccount_id hw)
      refine ⟨⟨hnew, d, hd, findAccount_withdrawn hid hne hd, Or.inr rfl⟩, ?_⟩
      unfold oneRow
      split
      · trivial
      · split_ifs <;> trivial

theorem create_holds {now : LocalDateTime} {np : NewPayment} {p : Payment} (hv : validated now np = .ok p)
    (db : Tables) : (create now np).Holds h2 (FromStored db p.amount) db := by
  have hne := (validated_ok_iff.1 hv).2.2.2.2.2.2.2
  rcases create_lock_order hv with ⟨lo, hi, slo, shi, -, ⟨hw, hd⟩, he⟩ | ⟨lo, hi, slo, shi, -, ⟨hw, hd⟩, he⟩
  · rw [he]
    refine getBalance_holds fun w hlo => getBalance_holds fun d hhi => ?_
    exact transfer_holds (by rw [hw]; exact hlo) (by rw [hd]; exact hhi) hne
  · rw [he]
    refine getBalance_holds fun d hlo => getBalance_holds fun w hhi => ?_
    exact transfer_holds (by rw [hw]; exact hhi) (by rw [hd]; exact hlo) hne

end Holds

end BankServices.Api.PaymentEndpoint
