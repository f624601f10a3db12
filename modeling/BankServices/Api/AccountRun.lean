/-
What the account operations do when they run, from any tables and with any source of ids; their locks and their ends.

- `create_run`, `update_run`, `delete_run`: the values that pass the checks always fit their columns, so the only
  statement that can still be refused is a delete of an account with payments.
- `create_disciplined` and the like: one lock at most, taken by the only statement.
- `update_ends`, `delete_ends`: an update or a deletion is answered 304 exactly when it ended well without a write.
-/
import BankServices.Api.AccountEndpoint

namespace BankServices.Api.AccountEndpoint

open BankServices.Java BankServices.Txn BankServices.Storage BankServices.Webapp BankServices.Fallible
open JooqAwareValidationUtils

/-! ## The statement of each operation -/

/-- what an update or a deletion makes of the count of its statement -/
def answered : Except DataAccessException ℕ → Tx Response
  | .error e => .fail (.dataAccessException e)
  | .ok rows => .done (rowsResponse rows)

theorem answered_settled (a : Except DataAccessException ℕ) : (answered a).Settled := by
  cases a <;> trivial

/-- the created account, once its row is stored -/
def stored (account : Account) (accountId : ℤ) : Except DataAccessException ℕ → Tx Response
  | .error e => .fail (.dataAccessException e)
  | .ok _ => .done ⟨.OK, some .APPLICATION_JSON, some (.account { account with accountId := some accountId })⟩

theorem stored_settled (account : Account) (i : ℤ) (a : Except DataAccessException ℕ) :
    (stored account i a).Settled := by
  cases a <;> trivial

theorem create_eq {now : LocalDateTime} {na : NewAccount} {a : Account} (h : checkedAccount now na = .ok a) :
    create now na = .draw .account fun i => .send (.insertAccount i a) (stored a i) := by
  unfold create
  rw [h, Prog.ofExcept_ok, Prog.done_bind, Prog.draw_bind]
  congr 1
  funext i
  rw [Prog.done_bind, Prog.send_bind]
  congr 1
  funext x
  cases x <;> rfl

theorem create_eq_fail {now : LocalDateTime} {na : NewAccount} {t : Throwable} (h : checkedAccount now na = .error t) :
    create now na = .fail t := by
  unfold create
  rw [h]
  rfl

theorem update_eq {u : UpdateAccount} {n c : Option JavaString} {i : ℤ} (h : checkedUpdate u = .ok (n, c, i)) :
    update u = .send (.updateProfile i n c) answered := by
  unfold update
  rw [h, Prog.ofExcept_ok, Prog.done_bind]
  simp only
  rw [Prog.send_bind]
  congr 1
  funext x
  cases x <;> rfl

theorem update_eq_fail {u : UpdateAccount} {t : Throwable} (h : checkedUpdate u = .error t) : update u = .fail t := by
  unfold update
  rw [h]
  rfl

theorem delete_eq (i : ℤ) : delete i = .send (.deleteAccount i) answered := by
  unfold delete
  rw [Prog.send_bind]
  congr 1
  funext x
  cases x <;> rfl

/-! ## Runs -/

section Run

variable {G : Type} (next : Sequence → G → ℤ × G) (g : G) (db : Tables)

theorem create_run {now : LocalDateTime} {na : NewAccount} {a : Account} (h : checkedAccount now na = .ok a) :
    ∃ row, accountRow (next .account g).1 a = .ok row ∧ (create now na).run h2 next g db =
      (.ok ⟨.OK, some .APPLICATION_JSON, some (.account { a with accountId := some (next .account g).1 })⟩,
        (next .account g).2, applyWrite db (.addAccount row)) := by
  obtain ⟨row, hrow⟩ := checkedAccount_fits h (next .account g).1
  refine ⟨row, hrow, ?_⟩
  have hs : h2.exec (.insertAccount (next .account g).1 a) db =
      wrote ((accountRow (next .account g).1 a).map .addAccount) := rfl
  rw [create_eq h, run_draw, run_send]
  unfold Engine.send
  rw [hs, hrow]
  rfl

theorem update_run {u : UpdateAccount} {n c : Option JavaString} {i : ℤ} (h : checkedUpdate u = .ok (n, c, i)) :
    (db.findAccount i = none ∧ (update u).run h2 next g db = (.ok (rowsResponse 0), g, db)) ∨
      ∃ r r', db.findAccount i = some r ∧ profileRow r n c = .ok r' ∧
        (update u).run h2 next g db = (.ok (rowsResponse 1), g, applyWrite db (.putAccount r')) := by
  rw [update_eq h, run_send]
  unfold Engine.send
  cases hr : db.findAccount i with
  | none =>
    have hs : h2.exec (.updateProfile i n c) db = (.ok 0, []) := onRow_missing hr _
    rw [hs]
    exact Or.inl ⟨rfl, rfl⟩
  | some r =>
    obtain ⟨r', hr'⟩ := checkedUpdate_fits h r
    have hs : h2.exec (.updateProfile i n c) db = wrote ((profileRow r n c).map .putAccount) := onRow_found hr _
    rw [hs, hr']
    exact Or.inr ⟨r, r', rfl, hr', rfl⟩

theorem delete_run (i : ℤ) :
    (db.findAccount i = none ∧ (delete i).run h2 next g db = (.ok (rowsResponse 0), g, db)) ∨
      ∃ r, db.findAccount i = some r ∧
        ((db.paymentsOf i = [] ∧ (delete i).run h2 next g db =
            (.ok (rowsResponse 1), g, applyWrite db (.dropAccount i))) ∨
          (db.paymentsOf i ≠ [] ∧ ∃ e, (delete i).run h2 next g db = (.error (.dataAccessException e), g, db))) := by
  rw [delete_eq, run_send]
  unfold Engine.send
  cases hr : db.findAccount i with
  | none =>
    have hs : h2.exec (.deleteAccount i) db = (.ok 0, []) := onRow_missing hr _
    rw [hs]
    exact Or.inl ⟨rfl, rfl⟩
  | some r =>
    have hs : h2.exec (.deleteAccount i) db = wrote (dropRow i (db.paymentsOf i)) := onRow_found hr _
    rw [hs]
    refine Or.inr ⟨r, rfl, ?_⟩
    cases db.paymentsOf i with
    | nil => exact Or.inl ⟨rfl, rfl⟩
    | cons p ps => exact Or.inr ⟨List.cons_ne_nil _ _, _, rfl⟩

end Run

/-! ## Locks -/

theorem create_disciplined (now : LocalDateTime) (na : NewAccount) : (create now na).Disciplined h2 [] false := by
  cases h : checkedAccount now na with
  | error t => rw [create_eq_fail h]; trivial
  | ok a =>
    rw [create_eq h]
    refine fun i => disciplined_single (fun x hx => ?_) (stored_settled a i) fun x d hx _ => ?_
    · cases hx
    · cases hx

theorem create_ascending (now : LocalDateTime) (na : NewAccount) : (create now na).Ascending h2 [] := by
  cases h : checkedAccount now na with
  | error t => rw [create_eq_fail h]; trivial
  | ok a =>
    rw [create_eq h]
    exact fun i => ascending_single (stored_settled a i)

/-- a statement about one row, the one it locks -/
theorem row_disciplined {i : ℤ} {c : Statement} {k : Answer c → Tx Response} (hr : h2.reads c = [i])
    (hl : h2.lockKey c = some i) (hk : ∀ a, (k a).Settled)
    (hm : ∀ db : Tables, db.findAccount i = none → (h2.exec c db).2 = []) :
    (Prog.send c k).Disciplined h2 [] false := by
  refine disciplined_single (fun x hx => ?_) hk fun x d hx hd => ?_
  · rw [hr] at hx
    rw [hl, List.mem_singleton.1 hx]
  · rw [hl] at hx
    cases hx
    exact hm d (Option.isNone_iff_eq_none.1 (by simpa [h2, look] using hd))

theorem update_disciplined (u : UpdateAccount) : (update u).Disciplined h2 [] false := by
  rcases h : checkedUpdate u with t | ⟨n, c, i⟩
  · rw [update_eq_fail h]; trivial
  · rw [update_eq h]
    exact row_disciplined rfl rfl answered_settled fun db hm => congrArg Prod.snd (onRow_missing hm _)

theorem update_ascending (u : UpdateAccount) : (update u).Ascending h2 [] := by
  rcases h : checkedUpdate u with t | ⟨n, c, i⟩
  · rw [update_eq_fail h]; trivial
  · rw [update_eq h]
    exact ascending_single answered_settled

theorem delete_disciplined (i : ℤ) : (delete i).Disciplined h2 [] false := by
  rw [delete_eq]
  exact row_disciplined rfl rfl answered_settled fun db hm => congrArg Prod.snd (onRow_missing hm _)

theorem delete_ascending (i : ℤ) : (delete i).Ascending h2 [] := by
  rw [delete_eq]
  exact ascending_single answered_settled

/-! ## Ends -/

theorem create_ends (now : LocalDateTime) (na : NewAccount) : (create now na).Ends h2 Wrote [] := by
  cases h : checkedAccount now na with
  | error t => rw [create_eq_fail h]; exact wrote_error _ _
  | ok a =>
    rw [create_eq h]
    refine fun i => ⟨wrote_error _ _, fun d => ?_⟩
    show Prog.Ends h2 Wrote (stored a i (wrote ((accountRow i a).map .addAccount)).1)
      (wrote ((accountRow i a).map .addAccount)).2
    cases accountRow i a with
    | error e => exact wrote_error _ _
    | ok row => exact ends_wrote _ (List.cons_ne_nil _ _)

/-- a 304 means that nothing was written, every other success that something was -/
def WroteOrNotModified (ws : List Write) (outcome : Except Throwable Response) : Prop :=
  ∀ a, outcome = .ok a → (ws = [] ↔ a.status = .NOT_MODIFIED)

theorem answered_ends {db : Tables} {i : ℤ} {f : AccountRow → Except DataAccessException Write} :
    (answered (onRow db i f).1).Ends h2 WroteOrNotModified (onRow db i f).2 := by
  unfold onRow
  cases db.findAccount i with
  | none =>
    intro a ha
    cases ha
    exact ⟨fun _ => rfl, fun _ => rfl⟩
  | some r =>
    simp only
    cases f r with
    | error e =>
      intro a ha
      cases ha
    | ok w =>
      intro a ha
      cases ha
      constructor
      · intro hw; cases hw
      · intro hs; cases hs

theorem answered_timeout_ends (e : DataAccessException) : (answered (.error e)).Ends h2 WroteOrNotModified [] := by
  intro a ha
  cases ha

theorem update_ends (u : UpdateAccount) : (update u).Ends h2 WroteOrNotModified [] := by
  rcases h : checkedUpdate u with t | ⟨n, c, i⟩
  · rw [update_eq_fail h]
    intro a ha
    cases ha
  · rw [update_eq h]
    exact ⟨answered_timeout_ends _, fun d => answered_ends⟩

theorem delete_ends (i : ℤ) : (delete i).Ends h2 WroteOrNotModified [] := by
  rw [delete_eq]
  exact ⟨answered_timeout_ends _, fun d => answered_ends⟩

end BankServices.Api.AccountEndpoint
