/-
Updates of account profiles beside payments. An update writes two columns of one row, a payment reads and writes others.

- `profile_edits_commute`: served at any place among payments, an update is answered alike, leaves their answers alone
  and leads to the same tables; alone or committed among other requests, it changes two columns of the row it names.
-/
import BankServices.Service.InTurn

namespace BankServices.Service

open BankServices.Java BankServices.Txn BankServices.Storage BankServices.Webapp BankServices.Api
open BankServices.Fallible

/-! ## Definitions -/

/-- the accepted values of an update -/
structure Edit where
  accountId : ℤ
  ownerName : Varchar 128
  comment : Option (Varchar 256)

/-- the row after the update -/
def Edit.row (e : Edit) (r : AccountRow) : AccountRow :=
  if r.accountId = e.accountId then { r with ownerName := e.ownerName, comment := e.comment } else r

def edited (e : Edit) (db : Tables) : Tables := { db with account := db.account.map e.row }

/-- the tables after an update; one that is refused, or finds no row, has no edit -/
def updated (e : Option Edit) (db : Tables) : Tables := e.elim db (edited · db)

/-- the edit, if there is one, is about the account that the request names -/
def OfRequest (u : UpdateAccount) (e : Option Edit) : Prop := ∀ x ∈ e, u.accountId = some x.accountId

/-- what an update may change: nothing but two columns of the row named by its id -/
structure EditsProfile (u : UpdateAccount) (db db' : Tables) : Prop where
  payment : db'.payment = db.payment
  account : List.Forall₂ (fun r r' : AccountRow => r'.accountId = r.accountId ∧ r'.created = r.created ∧
    r'.balance = r.balance ∧ r'.balanceLastModified = r.balanceLastModified ∧
    (u.accountId ≠ some r.accountId → r' = r)) db.account db'.account

/-! ## Edited rows -/

namespace Edit

variable (e : Edit) (r : AccountRow)

@[simp] theorem row_accountId : (e.row r).accountId = r.accountId := by
  unfold row
  split_ifs <;> rfl

@[simp] theorem row_created : (e.row r).created = r.created := by
  unfold row
  split_ifs <;> rfl

@[simp] theorem row_balance : (e.row r).balance = r.balance := by
  unfold row
  split_ifs <;> rfl

@[simp] theorem row_balanceLastModified : (e.row r).balanceLastModified = r.balanceLastModified := by
  unfold row
  split_ifs <;> rfl

/-- new balances are written to an edited row as to the row before -/
theorem row_balanceRow (b : BigDecimal) (t : LocalDateTime) :
    balanceRow (e.row r) b t = (balanceRow r b t).map e.row := by
  unfold balanceRow
  cases toDecimal "BALANCE" b with
  | error x => rfl
  | ok v =>
    show (checkThat "ACCOUNT__NOT_NEGATIVE_BALANCE" (0 ≤ v.cents) >>= fun _ => Except.ok _) =
      (checkThat "ACCOUNT__NOT_NEGATIVE_BALANCE" (0 ≤ v.cents) >>= fun _ => Except.ok _).map e.row
    cases checkThat "ACCOUNT__NOT_NEGATIVE_BALANCE" (0 ≤ v.cents) with
    | error x => rfl
    | ok _ =>
      refine congrArg Except.ok ?_
      unfold row
      dsimp only
      split_ifs <;> rfl

end Edit

section Tables

variable (e : Edit) (db : Tables)

theorem findAccount_edited (k : ℤ) : (edited e db).findAccount k = (db.findAccount k).map e.row :=
  KeyedList.lookup_map e.row_accountId db.account k

theorem edited_putAccount (r : AccountRow) :
    edited e (applyWrite db (.putAccount r)) = applyWrite (edited e db) (.putAccount (e.row r)) := by
  refine congrArg (Tables.mk · db.payment) ?_
  exact KeyedList.map_replace e.row_accountId db.account r

/-- the tables after one edit, when the account is found -/
theorem putAccount_edited {db : Tables} (hk : (db.account.map AccountRow.accountId).Nodup) {r : AccountRow}
    (hr : db.findAccount e.accountId = some r) :
    applyWrite db (.putAccount { r with ownerName := e.ownerName, comment := e.comment }) = edited e db := by
  have hid : r.accountId = e.accountId := findAccount_id hr
  exact congrArg (Tables.mk · db.payment) (KeyedList.replace_eq_map hk hr
    (g := fun r => { r with ownerName := e.ownerName, comment := e.comment }) hid)

end Tables

/-! ## Payments do not notice an edit -/

/-- a statement of a payment keeps the account ids -/
theorem send_accountIds {c : Statement} (hc : MovesMoney c) (db : Tables) :
    (h2.send c db).2.account.map AccountRow.accountId = db.account.map AccountRow.accountId := by
  cases c with
  | selectForUpdate i => rfl
  | insertPayment i v =>
    show (h2.view db (wrote ((paymentRow db i v).map .addPayment)).2).account.map _ = _
    cases paymentRow db i v with
    | error x => rfl
    | ok row => rfl
  | updateBalance i b t =>
    show (h2.view db (onRow db i fun r => (balanceRow r b t).map .putAccount).2).account.map _ = _
    cases hr : db.findAccount i with
    | none =>
      rw [onRow_missing hr]
      rfl
    | some r =>
      rw [onRow_found hr]
      cases balanceRow r b t with
      | error x => rfl
      | ok r' => exact KeyedList.map_key_replace db.account r'
  | _ => exact absurd hc id

theorem send_edited {c : Statement} (hc : MovesMoney c) (e : Edit) (db : Tables) :
    h2.send c (edited e db) = ((h2.send c db).1, edited e (h2.send c db).2) := by
  cases c with
  | selectForUpdate i =>
    show (Except.ok (((edited e db).findAccount i).map _), edited e db) = _
    rw [findAccount_edited, Option.map_map]
    refine congrArg (fun o => (Except.ok o, edited e db)) (congrArg (Option.map · (db.findAccount i)) ?_)
    funext r
    simp
  | insertPayment i v =>
    have hrow : paymentRow (edited e db) i v = paymentRow db i v := by
      unfold paymentRow referenceTo
      simp only [findAccount_edited, Option.isSome_map]
    show ((wrote ((paymentRow (edited e db) i v).map .addPayment)).1,
      h2.view (edited e db) (wrote ((paymentRow (edited e db) i v).map .addPayment)).2) = _
    rw [hrow]
    show _ = ((wrote ((paymentRow db i v).map .addPayment)).1,
      edited e (h2.view db (wrote ((paymentRow db i v).map .addPayment)).2))
    cases paymentRow db i v with
    | error x => rfl
    | ok row => rfl
  | updateBalance i b t =>
    have hsend : ∀ db, h2.send (.updateBalance i b t) db =
        ((onRow db i fun r => (balanceRow r b t).map .putAccount).1,
          h2.view db (onRow db i fun r => (balanceRow r b t).map .putAccount).2) := fun _ => rfl
    rw [hsend, hsend]
    cases hr : db.findAccount i with
    | none =>
      have hr' : (edited e db).findAccount i = none := by rw [findAccount_edited, hr, Option.map_none]
      rw [onRow_missing hr, onRow_missing hr']
      rfl
    | some r =>
      have hr' : (edited e db).findAccount i = some (e.row r) := by rw [findAccount_edited, hr, Option.map_some]
      rw [onRow_found hr, onRow_found hr', Edit.row_balanceRow]
      cases balanceRow r b t with
      | error x => rfl
      | ok r' => exact congrArg (Prod.mk (Except.ok 1)) (edited_putAccount e db r').symm
  | _ => exact absurd hc id

/-- the statements of a payment do the same before and after an update -/
theorem update_respected (e : Option Edit) (ids : List ℤ) : Respects h2 MovesMoney
    fun db db' => db.account.map AccountRow.accountId = ids ∧ db' = updated e db := by
  rintro c db db' hc ⟨hids, rfl⟩
  have hids' := (send_accountIds hc db).trans hids
  cases e with
  | none => exact ⟨rfl, hids', rfl⟩
  | some e =>
    have hsend := send_edited hc e db
    exact ⟨(congrArg Prod.fst hsend).symm, hids', congrArg Prod.snd hsend⟩

/-! ## What an update does -/

theorem updated_editsProfile {u : UpdateAccount} {e : Option Edit} (h : OfRequest u e) (db : Tables) :
    EditsProfile u db (updated e db) := by
  cases e with
  | none =>
    refine ⟨rfl, List.forall₂_same.2 fun r _ => ?_⟩
    exact ⟨rfl, rfl, rfl, rfl, fun _ => rfl⟩
  | some e =>
    refine ⟨rfl, List.forall₂_map_right_iff.2 (List.forall₂_same.2 fun r _ => ?_)⟩
    refine ⟨e.row_accountId r, e.row_created r, e.row_balance r, e.row_balanceLastModified r, fun hne => ?_⟩
    have hid : r.accountId ≠ e.accountId := by
      intro hid
      rw [hid] at hne
      exact hne (h e rfl)
    exact if_neg hid

/-- an update alone has the same answer and the same edit on all tables with the same account ids -/
theorem update_transaction (u : UpdateAccount) {ids : List ℤ} (hids : ids.Nodup) : ∃ a e, OfRequest u e ∧
    ∀ g db, db.account.map AccountRow.accountId = ids →
      (body (.updateAccount u)).transaction h2 counters g db = (a, g, updated e db) := by
  have hnone : OfRequest u none := by
    intro x hx
    cases hx
  rcases hv : AccountEndpoint.checkedUpdate u with t | ⟨n, c, i⟩
  · refine ⟨.error t, none, hnone, fun g db _ => ?_⟩
    have hbody : body (.updateAccount u) = .fail t := AccountEndpoint.update_eq_fail hv
    rw [hbody]
    rfl
  have hu := (AccountEndpoint.checkedUpdate_ok_iff.1 hv).2.2.1
  obtain ⟨name, comment, hcolumns⟩ := AccountEndpoint.checkedUpdate_columns hv
  by_cases hi : i ∈ ids
  · refine ⟨.ok (AccountEndpoint.rowsResponse 1), some ⟨i, name, comment⟩, fun x hx => ?_, fun g db hdb => ?_⟩
    · cases hx
      exact hu
    · subst hdb
      obtain ⟨r0, hr0, hid⟩ := List.mem_map.1 hi
      have hfound : db.findAccount i = some r0 := hid ▸ KeyedList.lookup_of_mem hids hr0
      rcases AccountEndpoint.update_run counters g db hv with ⟨hr, -⟩ | ⟨r, r', hr, hr', hrun⟩
      · rw [hfound] at hr
        cases hr
      · cases (hcolumns r).symm.trans hr'
        have hedit := putAccount_edited ⟨i, name, comment⟩ hids hr
        unfold Prog.transaction
        rw [show body (.updateAccount u) = AccountEndpoint.update u from rfl, hrun]
        exact congrArg (fun x => (_, g, x)) hedit
  · refine ⟨.ok (AccountEndpoint.rowsResponse 0), none, hnone, fun g db hdb => ?_⟩
    subst hdb
    rcases AccountEndpoint.update_run counters g db hv with ⟨-, hrun⟩ | ⟨r, r', hr, -, -⟩
    · unfold Prog.transaction
      rw [show body (.updateAccount u) = AccountEndpoint.update u from rfl, hrun]
      rfl
    · refine absurd ?_ hi
      rw [← findAccount_id hr]
      exact List.mem_map_of_mem (findAccount_mem hr)

/-- an update that commits among other requests has made its edit -/
theorem effect_editsProfile {db db' : Tables} {u : UpdateAccount} {ids : List (Sequence × ℤ)} {a : Response}
    (hk : (db.account.map AccountRow.accountId).Nodup) (h : Effect db (.updateAccount u) ids a db') :
    EditsProfile u db db' := by
  cases h with
  | @updated _ n c i r r' hvalid hfound hstored =>
    obtain ⟨name, comment, -, -, rfl⟩ := profileRow_ok_iff.1 hstored
    rw [putAccount_edited ⟨i, name, comment⟩ hk hfound]
    refine updated_editsProfile (e := some ⟨i, name, comment⟩) (fun x hx => ?_) db
    cases hx
    exact (AccountEndpoint.checkedUpdate_ok_iff.1 hvalid).2.2.1

/-- **Profiles and payments.** -/
theorem profile_edits_commute (ops : List Op) (u : UpdateAccount) :
    (∀ l, ∃ a db', ∀ n ≤ l.length, inTurn ((payments l).insertIdx n (.updateAccount u)) (run ops) =
      ((inTurn (payments l) (run ops)).1.insertIdx n a, (inTurn (payments l) (run ops)).2.1, db')) ∧
    EditsProfile u (run ops).db (alone (.updateAccount u) (run ops)).2.2 ∧
    ∀ i t a, (run ops).slot i = .running t → t.rest = .done a → t.req = .updateAccount u →
      EditsProfile u (run ops).db (step (run ops) (.commit i)).db := by
  have hkeys := (run_ledger ops).keys
  obtain ⟨a, e, he, hupdate⟩ := update_transaction u hkeys
  refine ⟨fun l => ⟨a, updated e (inTurn (payments l) (run ops)).2.2, fun n hn => ?_⟩, ?_, fun i t a hs hr hq => ?_⟩
  · have hlen : n ≤ (payments l).length := by
      rw [payments, List.length_map]
      exact hn
    exact InTurn.inTurn_insert hupdate (update_respected e _) (payments_send l) hlen (run ops).seq rfl
  · unfold alone
    rw [hupdate (run ops).seq (run ops).db rfl]
    exact updated_editsProfile he (run ops).db
  · rcases commit_cases ops hs hr with hc | ⟨-, -, hdb, -⟩
    · have heff := hc.effect
      rw [hq] at heff
      exact effect_editsProfile hkeys heff
    · rw [hdb]
      exact updated_editsProfile (e := none) (fun x hx => by cases hx) (run ops).db

end BankServices.Service
