/-
No overdraft: no balance is ever negative, committed or not, and the CHECK constraint of the column is never the reason.

- `open_nonneg`: the rows that an open request has written have no negative balance.
- `update_from_stored`: when a payment overwrites a balance, it still holds the lock of the row, and the balance that it
  computed the new one from is the committed one.
- `never_overdrawn`: both together, with the arithmetic of the rounding.
-/
import BankServices.Service.Ledger

namespace BankServices.Service

open BankServices.Java BankServices.Txn BankServices.Storage BankServices.Webapp BankServices.Api BankServices.Fallible
open BankServices.Api.PaymentEndpoint

/-! ## Rows written -/

/-- the row version written, if any, has no negative balance -/
def NonNegWrite : Write → Prop
  | .addAccount r | .putAccount r => 0 ≤ r.balance.cents
  | .dropAccount _ | .addPayment _ => True

theorem applyWrite_nonneg {db : Tables} {w : Write} (hw : NonNegWrite w) (h : ∀ r ∈ db.account, 0 ≤ r.balance.cents) :
    ∀ r ∈ (applyWrite db w).account, 0 ≤ r.balance.cents := by
  intro r hr
  cases w with
  | addAccount q =>
    rcases List.mem_append.1 hr with hr | hr
    · exact h r hr
    · rw [List.mem_singleton.1 hr]; exact hw
  | putAccount q =>
    rcases KeyedList.mem_replace hr with ⟨hr, -⟩ | rfl
    · exact h r hr
    · exact hw
  | dropAccount i => exact h r (List.mem_filter.1 hr).1
  | addPayment p => exact h r hr

theorem view_nonneg {db : Tables} {ws : List Write} (hws : ∀ w ∈ ws, NonNegWrite w)
    (h : ∀ r ∈ db.account, 0 ≤ r.balance.cents) : ∀ r ∈ (h2.view db ws).account, 0 ≤ r.balance.cents := by
  induction ws generalizing db with
  | nil => exact h
  | cons w ws ih =>
    exact ih (fun x hx => hws x (List.mem_cons_of_mem w hx)) (applyWrite_nonneg (hws w List.mem_cons_self) h)

/-- a statement on tables without a negative balance writes none -/
theorem exec_nonneg {db : Tables} (c : Statement) (h : ∀ r ∈ db.account, 0 ≤ r.balance.cents) :
    ∀ w ∈ (exec c db).2, NonNegWrite w := by
  intro w hw
  cases c with
  | selectForUpdate i => cases hw
  | insertPayment i v =>
    obtain ⟨p, -, rfl⟩ := map_ok_iff.1 (mem_wrote hw)
    trivial
  | updateBalance i b t =>
    obtain ⟨r, -, hw⟩ := mem_onRow hw
    obtain ⟨r', hr', rfl⟩ := map_ok_iff.1 hw
    obtain ⟨v, hv, h0, rfl⟩ := balanceRow_ok_iff.1 hr'
    show 0 ≤ v.cents
    rw [hv]
    exact h0
  | insertAccount i v =>
    obtain ⟨r, hr, rfl⟩ := map_ok_iff.1 (mem_wrote hw)
    obtain ⟨-, -, -, hb, -, -, h0⟩ := accountRow_ok_iff.1 hr
    show 0 ≤ r.balance.cents
    rw [hb]
    exact h0
  | updateProfile i n c =>
    obtain ⟨r, hr, hw⟩ := mem_onRow hw
    obtain ⟨r', hr', rfl⟩ := map_ok_iff.1 hw
    obtain ⟨name, comment, -, -, rfl⟩ := profileRow_ok_iff.1 hr'
    exact h r (findAccount_mem hr)
  | deleteAccount i =>
    obtain ⟨r, -, hw⟩ := mem_onRow hw
    obtain ⟨-, rfl⟩ := dropRow_ok hw
    trivial

theorem committed_nonneg (ops : List Op) : ∀ r ∈ (run ops).db.account, 0 ≤ r.balance.cents := by
  intro r hr
  have h := run_ledger ops
  exact h.nonneg _ r (KeyedList.lookup_of_mem h.keys hr)

def OpenNonNeg (s : St) : Prop := ∀ i t, s.slot i = .running t → ∀ w ∈ t.writes, NonNegWrite w

theorem step_openNonNeg (ops : List Op) (o : Op) (h : OpenNonNeg (run ops)) : OpenNonNeg (step (run ops) o) := by
  intro i u hu
  rcases RowLock.step_running _ o hu with hs | ⟨r, rfl⟩ | ⟨t, hs, hadv⟩
  · exact h i u hs
  · intro w hw
    cases hw
  · cases hadv with
    | @sent c k hr hb =>
      intro w hw
      rcases List.mem_append.1 hw with hw | hw
      · exact h i t hs w hw
      · exact exec_nonneg c (view_nonneg (h i t hs) (committed_nonneg ops)) w hw
    | drew hr => exact h i t hs
    | timedOut hr hb => exact h i t hs

theorem open_nonneg (ops : List Op) : OpenNonNeg (run ops) :=
  run_induction (fun i t ht => by cases ht) step_openNonNeg ops

/-! ## The balance overwritten -/

/-- only a payment sends a balance update -/
def NoBalanceUpdate : Statement → Tables → Prop
  | .updateBalance _ _ _, _ => False
  | _, _ => True

theorem account_holds (r : Request) (h : ∀ now np, r ≠ .createPayment now np) (db : Tables) :
    (body r).Holds h2 NoBalanceUpdate db := by
  cases r with
  | createPayment now np => exact absurd rfl (h now np)
  | createAccount now na =>
    show (AccountEndpoint.create now na).Holds h2 NoBalanceUpdate db
    cases hv : AccountEndpoint.checkedAccount now na with
    | error t => rw [AccountEndpoint.create_eq_fail hv]; trivial
    | ok a =>
      rw [AccountEndpoint.create_eq hv]
      exact fun i => ⟨trivial, (AccountEndpoint.stored_settled a i _).holds _⟩
  | updateAccount u =>
    show (AccountEndpoint.update u).Holds h2 NoBalanceUpdate db
    rcases hv : AccountEndpoint.checkedUpdate u with t | ⟨n, c, i⟩
    · rw [AccountEndpoint.update_eq_fail hv]; trivial
    · rw [AccountEndpoint.update_eq hv]
      exact ⟨trivial, (AccountEndpoint.answered_settled _).holds _⟩
  | deleteAccount i =>
    show (AccountEndpoint.delete i).Holds h2 NoBalanceUpdate db
    rw [AccountEndpoint.delete_eq]
    exact ⟨trivial, (AccountEndpoint.answered_settled _).holds _⟩

/-- a request about to overwrite a balance is a payment that holds the row's lock, and the balance that it tested or
increased is the committed one -/
theorem update_from_stored (ops : List Op) {i : ℕ} {t : Session}
    (hs : (run ops).slot i = .running t) {k : ℤ} {b : BigDecimal} {m : LocalDateTime}
    {f : Answer (.updateBalance k b m) → Tx Response} (hr : t.rest = .send (.updateBalance k b m) f) :
    ∃ now np p, t.req = .createPayment now np ∧ validated now np = .ok p ∧ (run ops).owner k = some i ∧
      FromStored (run ops).db p.amount (.updateBalance k b m) (h2.view (run ops).db t.writes) := by
  rcases ((run_inv ops).session i t hs).point with ⟨hran, L, w, hL, hdisc, hw⟩ | ⟨hset, -⟩
  swap
  · rw [hr] at hset
    exact absurd hset id
  rw [hr] at hran hdisc
  cases hq : t.req with
  | createPayment now np =>
    rw [hq] at hran
    cases hv : validated now np with
    | error e =>
      have hbody : body (.createPayment now np) = .fail e := by
        show create now np = _
        unfold create
        rw [hv]
        rfl
      have := hran.holds (Q := fun _ _ => False) (by rw [hbody]; trivial)
      exact absurd this.1 id
    | ok p =>
      have hst := (hran.holds (create_holds hv (run ops).db)).1
      refine ⟨now, np, p, rfl, hv, ?_, hst⟩
      by_contra hno
      obtain ⟨hwf, -, -⟩ := hdisc.2.1 k rfl fun hm => hno (hL k hm)
      rw [hw hwf] at hst
      exact hst.1 rfl
  | createAccount now na => exact absurd (hran.holds (account_holds t.req (by rw [hq]; simp) _)).1 id
  | updateAccount u => exact absurd (hran.holds (account_holds t.req (by rw [hq]; simp) _)).1 id
  | deleteAccount i => exact absurd (hran.holds (account_holds t.req (by rw [hq]; simp) _)).1 id

/-- a balance that is not negative after rounding is not refused by the CHECK constraint -/
theorem balanceRow_not_check {r : AccountRow} {b : BigDecimal} {m : LocalDateTime} (h : 0 ≤ halfUpCents b)
    (constraint : String) : balanceRow r b m ≠ .error (.checkViolated constraint) := by
  intro he
  simp only [balanceRow, bind_error_iff] at he
  rcases he with he | ⟨v, hv, he | ⟨_, _, he⟩⟩
  · unfold toDecimal at he
    split at he <;> cases he
  · have : checkThat "ACCOUNT__NOT_NEGATIVE_BALANCE" (0 ≤ v.cents) = .ok () :=
      checkThat_ok_iff.2 ((toDecimal_ok_iff.1 hv).symm ▸ h)
    rw [this] at he
    cases he
  · cases he

/-- **No overdraft.** -/
theorem never_overdrawn (ops : List Op) :
    (∀ r ∈ (run ops).db.account, 0 ≤ r.balance.cents) ∧
      ∀ i t, (run ops).slot i = .running t →
        (∀ r ∈ (h2.view (run ops).db t.writes).account, 0 ≤ r.balance.cents) ∧
        ∀ k b m f, t.rest = .send (.updateBalance k b m) f →
          (∃ now np amount r, t.req = .createPayment now np ∧ np.amount = some amount ∧
            (run ops).owner k = some i ∧ (run ops).db.findAccount k = some r ∧
            (h2.view (run ops).db t.writes).findAccount k = some r ∧
            ((b = r.balance.toBigDecimal.subtract amount ∧ amount.toRat ≤ r.balance.toBigDecimal.toRat) ∨
              b = r.balance.toBigDecimal.add amount)) ∧
          0 ≤ halfUpCents b ∧
          (exec (.updateBalance k b m) (h2.view (run ops).db t.writes)).1 ≠
            .error (.checkViolated "ACCOUNT__NOT_NEGATIVE_BALANCE") := by
  refine ⟨committed_nonneg ops, fun i t hs => ⟨view_nonneg (open_nonneg ops i t hs) (committed_nonneg ops), ?_⟩⟩
  intro k b m f hr
  obtain ⟨now, np, p, hq, hv, hown, -, r, hdb, hview, hb⟩ := update_from_stored ops hs hr
  obtain ⟨-, ham, hpos, -⟩ := validated_ok_iff.1 hv
  have hcents : 0 ≤ halfUpCents b := by
    rcases hb with ⟨rfl, hcov⟩ | rfl
    · exact halfUpCents_subtract_nonneg hcov
    · have h0 := (run_ledger ops).nonneg k r hdb
      have ha := halfUpCents_nonneg hpos.le
      rw [halfUpCents_add h0 hpos.le]
      omega
  refine ⟨⟨now, np, p.amount, r, hq, ham, hown, hdb, hview, hb⟩, hcents, ?_⟩
  have he : exec (.updateBalance k b m) (h2.view (run ops).db t.writes) = wrote ((balanceRow r b m).map .putAccount) :=
    onRow_found hview _
  rw [he]
  intro hbad
  cases hrow : balanceRow r b m with
  | error e =>
    rw [hrow] at hbad
    cases hbad
    exact balanceRow_not_check hcents _ hrow
  | ok r' =>
    rw [hrow] at hbad
    cases hbad

end BankServices.Service
