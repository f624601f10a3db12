/-
The committed tables of a reachable state.

- `run_ledger`: in every reachable state account ids are distinct, every id was migrated or drawn for the row that has
  it, both accounts of every payment exist and differ, no balance is negative, every logged payment is stored, and a
  created account without payments has balance zero.
- `account_fresh`, `payment_fresh`, `next_account_fresh`: an id that an open request has drawn, or that is drawn next,
  names no row yet.
- `run_paymentIds`: so no two payments have the same id.
- `commit_moved`: what the commit of a payment does to the committed tables.
-/
import BankServices.Service.Machine

namespace BankServices.Service

open BankServices.Java BankServices.Txn BankServices.Storage BankServices.Webapp BankServices.Api
open BankServices.Api.PaymentEndpoint

structure LedgerInv (s : St) : Prop where
  keys : (s.db.account.map AccountRow.accountId).Nodup
  origin : ∀ k r, s.db.findAccount k = some r →
    (migrated.findAccount k).isSome = true ∨ ∃ e ∈ s.log, (Sequence.account, k) ∈ e.2
  numbered : ∀ p ∈ s.db.payment, ∃ e ∈ s.log, (Sequence.payment, p.paymentId) ∈ e.2
  parties : ∀ p ∈ s.db.payment, (s.db.findAccount p.withdrawalAccountId).isSome = true ∧
    (s.db.findAccount p.depositAccountId).isSome = true ∧ p.withdrawalAccountId ≠ p.depositAccountId
  nonneg : ∀ k r, s.db.findAccount k = some r → 0 ≤ r.balance.cents
  recorded : ∀ now np ids, (Request.createPayment now np, ids) ∈ s.log →
    ∃ p ∈ s.db.payment, ∃ amount, Records now np amount p
  untouched : ∀ k r, s.db.findAccount k = some r → migrated.findAccount k = none → s.db.paymentsOf k = [] →
    r.balance.cents = 0

theorem migrated_lt {k : ℤ} (h : (migrated.findAccount k).isSome = true) : k < 3 := by
  obtain ⟨r, hr⟩ := Option.isSome_iff_exists.1 h
  have hid := findAccount_id hr
  have hm := findAccount_mem hr
  simp only [migrated, List.mem_cons, List.not_mem_nil, or_false] at hm
  rcases hm with rfl | rfl | rfl
  all_goals
    rw [← hid]
    decide

section Fresh

variable {ops : List Op}

/-- an account id drawn by an open request names no account -/
theorem account_fresh (h : LedgerInv (run ops)) {i : ℕ} {t : Session}
    (hs : (run ops).slot i = .running t) {x : ℤ} (hx : (Sequence.account, x) ∈ t.ids) :
    (run ops).db.findAccount x = none := by
  have hd := run_drawn ops
  cases hr : (run ops).db.findAccount x with
  | none => rfl
  | some r =>
    exfalso
    rcases h.origin x r hr with hm | ⟨e, he, hxe⟩
    · have h3 : (3 : ℤ) ≤ x := (hd.opened i t hs _ hx).1
      have := migrated_lt hm
      omega
    · exact hd.unlogged i t hs e he _ hx hxe

/-- a payment id drawn by an open request names no payment -/
theorem payment_fresh (h : LedgerInv (run ops)) {i : ℕ} {t : Session}
    (hs : (run ops).slot i = .running t) {x : ℤ} (hx : (Sequence.payment, x) ∈ t.ids) :
    ∀ p ∈ (run ops).db.payment, p.paymentId ≠ x := by
  rintro p hp rfl
  obtain ⟨e, he, hxe⟩ := h.numbered p hp
  exact (run_drawn ops).unlogged i t hs e he _ hx hxe

end Fresh

/-- an account that a payment refers to exists -/
theorem LedgerInv.refers_isSome {s : St} (h : LedgerInv s) {k : ℤ} {p : PaymentRow} (hp : p ∈ s.db.payment)
    (hk : p.refers k = true) : (s.db.findAccount k).isSome = true := by
  obtain ⟨hw, hd, -⟩ := h.parties p hp
  rcases (Moved.refers_iff k).1 hk with rfl | rfl
  · exact hw
  · exact hd

theorem LedgerInv.paymentsOf_missing {s : St} (h : LedgerInv s) {k : ℤ} (hk : s.db.findAccount k = none) :
    s.db.paymentsOf k = [] := by
  refine List.filter_eq_nil_iff.2 fun p hp hr => ?_
  have := h.refers_isSome hp hr
  rw [hk] at this
  cases this

/-! ## Keys and rows after an effect -/

section Effects

variable {db db' : Tables} {r : Request} {ids : List (Sequence × ℤ)} {a : Response}

theorem effect_keys (h : Effect db r ids a db') (hk : (db.account.map AccountRow.accountId).Nodup)
    (hfresh : ∀ x, (Sequence.account, x) ∈ ids → db.findAccount x = none) :
    (db'.account.map AccountRow.accountId).Nodup := by
  cases h with
  | payment hacc hw =>
    rw [(moved_of_written hacc hw).1.account, KeyedList.map_key_replace, KeyedList.map_key_replace]
    exact hk
  | @created now na acc row x hv hs =>
    show ((db.account ++ [row]).map AccountRow.accountId).Nodup
    rw [List.map_append, List.map_singleton, List.nodup_append]
    refine ⟨hk, List.nodup_singleton _, fun b hb c hc => ?_⟩
    obtain ⟨q, hq, rfl⟩ := List.mem_map.1 hb
    rw [List.mem_singleton.1 hc, (accountRow_ok_iff.1 hs).1]
    exact KeyedList.lookup_none.1 (hfresh x List.mem_cons_self) q hq
  | updated hv hf hs =>
    show ((KeyedList.replace AccountRow.accountId db.account _).map AccountRow.accountId).Nodup
    rw [KeyedList.map_key_replace]
    exact hk
  | deleted hf hp => exact hk.sublist (List.filter_sublist.map _)

/-- the row is an old one with its balance, or the one just created with balance zero -/
def OldOrNew (db : Tables) (ids : List (Sequence × ℤ)) (k : ℤ) (q' : AccountRow) : Prop :=
  (∃ q, db.findAccount k = some q ∧ q'.balance = q.balance ∧ q'.balanceLastModified = q.balanceLastModified) ∨
    (db.findAccount k = none ∧ (Sequence.account, k) ∈ ids ∧ q'.balance.cents = 0)

/-- the two kinds of effects: a payment, and what moves no balance -/
inductive EffectCases (db : Tables) (r : Request) (ids : List (Sequence × ℤ)) (db' : Tables) : Prop where
  | payment {now : LocalDateTime} {np : NewPayment} {amount : BigDecimal} {row : PaymentRow} {w d w' d' : AccountRow}
      (request : r = .createPayment now np) (drawn : ids = [(.payment, row.paymentId)])
      (moved : Moved amount row w d w' d' db db') (records : Records now np amount row) : EffectCases db r ids db'
  | other (request : ∀ now np, r ≠ .createPayment now np) (payment : db'.payment = db.payment)
      (rows : ∀ k q', db'.findAccount k = some q' → OldOrNew db ids k q') : EffectCases db r ids db'

/-- **Two kinds of effects.** A payment adds its own row and moves two balances; the others move no balance. -/
theorem effect_cases (h : Effect db r ids a db') : EffectCases db r ids db' := by
  cases h with
  | payment hacc hw =>
    obtain ⟨hm, hr, hx⟩ := moved_of_written hacc hw
    refine .payment rfl ?_ hm hr
    rw [hx]
  | @created now na acc row x hv hs =>
    refine .other (fun _ _ h => by cases h) rfl fun k q' hq => ?_
    rw [findAccount_addAccount] at hq
    cases hdb : db.findAccount k with
    | some q =>
      rw [hdb] at hq
      cases hq
      exact Or.inl ⟨_, hdb, rfl, rfl⟩
    | none =>
      obtain ⟨hid, -, -, hb, -, -, -⟩ := accountRow_ok_iff.1 hs
      obtain ⟨rfl, -⟩ := AccountEndpoint.checkedAccount_ok_iff.1 hv
      rw [hdb, Option.none_or, hid] at hq
      split_ifs at hq with hx
      cases hq
      refine Or.inr ⟨hdb, by rw [hx]; exact List.mem_cons_self, ?_⟩
      rw [hb]
      show halfUpCents .zero = 0
      decide
  | @updated u n c i q r' hv hf hs =>
    refine .other (fun _ _ h => by cases h) rfl fun k q' hq => ?_
    obtain ⟨name, comment, -, -, rfl⟩ := profileRow_ok_iff.1 hs
    rw [findAccount_putAccount] at hq
    split_ifs at hq with hx
    · obtain ⟨_, -, rfl⟩ := Option.map_eq_some_iff.1 hq
      have hid := findAccount_id hf
      have hk : k = i := hx.symm.trans hid
      exact Or.inl ⟨q, hk ▸ hf, rfl, rfl⟩
    · exact Or.inl ⟨q', hq, rfl, rfl⟩
  | deleted hf hp =>
    refine .other (fun _ _ h => by cases h) rfl fun k q' hq => ?_
    rw [findAccount_dropAccount] at hq
    split_ifs at hq
    exact Or.inl ⟨q', hq, rfl, rfl⟩

/-- an account found after an effect was there before, or is the one created -/
theorem effect_origin (h : Effect db r ids a db') {k : ℤ} {q' : AccountRow} (hq : db'.findAccount k = some q') :
    (∃ q, db.findAccount k = some q) ∨ (Sequence.account, k) ∈ ids := by
  rcases effect_cases h with ⟨-, -, hm, -⟩ | ⟨-, -, hrows⟩
  · rcases hm.row_cases hq with ⟨-, -, hold⟩ | ⟨-, hold⟩
    · exact Or.inl hold
    · exact Or.inl ⟨q', hold⟩
  · rcases hrows k q' hq with ⟨q, hq, -, -⟩ | ⟨-, hx, -⟩
    · exact Or.inl ⟨q, hq⟩
    · exact Or.inr hx

/-- an account survives every effect but its own deletion, which needs that no payment refers to it -/
theorem effect_isSome (h : Effect db r ids a db') {k : ℤ} (hk : (db.findAccount k).isSome = true)
    (hp : db.paymentsOf k ≠ []) : (db'.findAccount k).isSome = true := by
  cases h with
  | payment hacc hw =>
    rw [(moved_of_written hacc hw).1.findAccount]
    split_ifs
    · rfl
    · rfl
    · exact hk
  | created hv hs =>
    rw [findAccount_addAccount]
    exact Option.isSome_or.trans (by rw [hk]; rfl)
  | updated hv hf hs =>
    rw [findAccount_putAccount]
    split_ifs
    · rw [Option.isSome_map]; exact hk
    · exact hk
  | @deleted i q hf hfree =>
    rw [findAccount_dropAccount]
    split_ifs with hi
    · exact absurd (hi ▸ hfree) hp
    · exact hk

theorem effect_nonneg (h : Effect db r ids a db') (hn : ∀ k q, db.findAccount k = some q → 0 ≤ q.balance.cents) {k : ℤ}
    {q' : AccountRow} (hq : db'.findAccount k = some q') : 0 ≤ q'.balance.cents := by
  rcases effect_cases h with ⟨-, -, hm, -⟩ | ⟨-, -, hrows⟩
  · exact hm.nonneg hn k q' hq
  · rcases hrows k q' hq with ⟨q, hq, hb, -⟩ | ⟨-, -, hb⟩
    · rw [hb]; exact hn k q hq
    · rw [hb]

/-- an account without payments that was not there with another balance has balance zero -/
theorem effect_untouched (h : Effect db r ids a db') {k : ℤ} {q' : AccountRow} (hq : db'.findAccount k = some q')
    (hp : db'.paymentsOf k = []) (hn : ∀ q, db.findAccount k = some q → q.balance.cents = 0) :
    q'.balance.cents = 0 := by
  rcases effect_cases h with ⟨-, -, hm, -⟩ | ⟨-, -, hrows⟩
  · rcases hm.row_cases hq with ⟨hk, -, -⟩ | ⟨-, hold⟩
    · rw [hm.paymentsOf, if_pos hk] at hp
      exact absurd hp (by simp)
    · exact hn _ hold
  · rcases hrows k q' hq with ⟨q, hq, hb, -⟩ | ⟨-, -, hb⟩
    · rw [hb]; exact hn q hq
    · exact hb

/-- a payment stored after an effect was stored before, or the effect drew its id and found its accounts -/
theorem effect_payment (h : Effect db r ids a db') {p : PaymentRow} (hp : p ∈ db'.payment) : p ∈ db.payment ∨
    ((Sequence.payment, p.paymentId) ∈ ids ∧ (db'.findAccount p.withdrawalAccountId).isSome = true ∧
      (db'.findAccount p.depositAccountId).isSome = true ∧ p.withdrawalAccountId ≠ p.depositAccountId) := by
  rcases effect_cases h with @⟨_, _, _, row, _, _, w', d', -, hids, hm, -⟩ | ⟨-, hsame, -⟩
  · rw [hm.payment] at hp
    rcases List.mem_append.1 hp with hp | hp
    · exact Or.inl hp
    · rw [List.mem_singleton.1 hp]
      have hw : db'.findAccount row.withdrawalAccountId = some w' := by rw [hm.findAccount, if_pos rfl]
      have hd : db'.findAccount row.depositAccountId = some d' := by
        rw [hm.findAccount, if_neg hm.different.symm, if_pos rfl]
      refine Or.inr ⟨?_, ?_, ?_, hm.different⟩
      · rw [hids]
        exact List.mem_singleton.2 rfl
      · rw [hw, Option.isSome_some]
      · rw [hd, Option.isSome_some]
  · rw [hsame] at hp
    exact Or.inl hp

/-- no effect removes a payment -/
theorem effect_kept (h : Effect db r ids a db') {p : PaymentRow} (hp : p ∈ db.payment) : p ∈ db'.payment := by
  rcases effect_cases h with ⟨-, -, hm, -⟩ | ⟨-, hsame, -⟩
  · rw [hm.payment]
    exact List.mem_append_left _ hp
  · rw [hsame]
    exact hp

/-- the effect of a payment request is recorded in a row -/
theorem effect_recorded {now : LocalDateTime} {np : NewPayment} (h : Effect db (.createPayment now np) ids a db') :
    ∃ p ∈ db'.payment, ∃ amount, Records now np amount p := by
  rcases effect_cases h with @⟨_, _, amount, row, _, _, _, _, hreq, -, hm, hrec⟩ | ⟨hno, -, -⟩
  · cases hreq
    refine ⟨row, ?_, amount, hrec⟩
    rw [hm.payment]
    exact List.mem_append_right _ (List.mem_singleton.2 rfl)
  · exact absurd rfl (hno now np)

end Effects

/-- a payment that commits has moved its amount -/
theorem commit_moved (ops : List Op) {i : ℕ} {t : Session} {a : Response} (hs : (run ops).slot i = .running t)
    (hr : t.rest = .done a) {now : LocalDateTime} {np : NewPayment} (hq : t.req = .createPayment now np) :
    ∃ amount row w d w' d', Moved amount row w d w' d' (run ops).db (step (run ops) (.commit i)).db ∧
      Records now np amount row := by
  rcases commit_cases ops hs hr with hc | ⟨-, hrow, -⟩
  · rcases effect_cases hc.effect with ⟨hreq, -, hm, hrec⟩ | ⟨hno, -, -⟩
    · cases hq.symm.trans hreq
      exact ⟨_, _, _, _, _, _, hm, hrec⟩
    · exact absurd hq (hno now np)
  · rw [hq] at hrow
    exact absurd hrow id

/-! ## Every reachable state -/

theorem ledger_init : LedgerInv init := by
  refine ⟨by decide, ?_, ?_, ?_, ?_, ?_, ?_⟩
  · intro k r hr
    exact Or.inl (Option.isSome_iff_exists.2 ⟨r, hr⟩)
  · intro p hp; cases hp
  · intro p hp; cases hp
  · intro k r hr
    have hm := findAccount_mem hr
    simp only [init, RowLock.init, migrated, List.mem_cons, List.not_mem_nil, or_false] at hm
    rcases hm with rfl | rfl | rfl <;> decide
  · intro now np ids h; cases h
  · intro k r hr hno
    rw [show migrated.findAccount k = some r from hr] at hno
    cases hno

theorem step_ledger (ops : List Op) (o : Op) (h : LedgerInv (run ops)) : LedgerInv (step (run ops) o) := by
  rcases step_commit ops o with ⟨hdb, hlog⟩ | ⟨i, t, a, -, hc⟩
  · obtain ⟨h1, h2, h3, h4, h5, h6, h7⟩ := h
    constructor <;> simp only [hdb, hlog] <;> assumption
  obtain ⟨hs, -, -, -, he, hlog, -⟩ := hc
  have hfresh : ∀ x, (Sequence.account, x) ∈ t.ids → (run ops).db.findAccount x = none :=
    fun x hx => account_fresh h hs hx
  have hmore : ∀ e ∈ (run ops).log, e ∈ (step (run ops) o).log := by
    intro e hm
    rw [hlog]
    exact List.mem_append_left _ hm
  have hthis : (t.req, t.ids) ∈ (step (run ops) o).log := by
    rw [hlog]
    exact List.mem_append_right _ (List.mem_singleton.2 rfl)
  refine ⟨effect_keys he h.keys hfresh, fun k q hq => ?_, fun p hp => ?_, fun p hp => ?_,
    fun k q hq => effect_nonneg he h.nonneg hq, fun now np ids hm => ?_,
    fun k q hq hno hp => effect_untouched he hq hp fun q0 hq0 => ?_⟩
  · rcases effect_origin he hq with ⟨q0, hq0⟩ | hx
    · exact (h.origin k q0 hq0).imp_right fun ⟨e, hm, hx⟩ => ⟨e, hmore e hm, hx⟩
    · exact Or.inr ⟨_, hthis, hx⟩
  · rcases effect_payment he hp with hp | ⟨hx, -⟩
    · obtain ⟨e, hm, hx⟩ := h.numbered p hp
      exact ⟨e, hmore e hm, hx⟩
    · exact ⟨_, hthis, hx⟩
  · rcases effect_payment he hp with hp | ⟨-, hparties⟩
    · obtain ⟨hw, hd, hne⟩ := h.parties p hp
      have href : ∀ k, p.refers k = true → (run ops).db.paymentsOf k ≠ [] :=
        fun k hk => List.ne_nil_of_mem (List.mem_filter.2 ⟨hp, hk⟩)
      exact ⟨effect_isSome he hw (href _ ((Moved.refers_iff _).2 (Or.inl rfl))),
        effect_isSome he hd (href _ ((Moved.refers_iff _).2 (Or.inr rfl))), hne⟩
    · exact hparties
  · rw [hlog] at hm
    rcases List.mem_append.1 hm with hm | hm
    · obtain ⟨p, hp, hrec⟩ := h.recorded now np ids hm
      exact ⟨p, effect_kept he hp, hrec⟩
    · obtain ⟨hreq, -⟩ := Prod.mk.inj (List.mem_singleton.1 hm)
      rw [← hreq] at he
      exact effect_recorded he
  · refine h.untouched k q0 hq0 hno (List.filter_eq_nil_iff.2 fun p hp' => ?_)
    exact List.filter_eq_nil_iff.1 hp p (effect_kept he hp')

theorem run_ledger (ops : List Op) : LedgerInv (run ops) := run_induction ledger_init step_ledger ops

/-- the next generated id names no account -/
theorem next_account_fresh (ops : List Op) : (run ops).db.findAccount ((run ops).seq .account) = none := by
  have hdrawn := run_drawn ops
  cases hfound : (run ops).db.findAccount ((run ops).seq .account) with
  | none => rfl
  | some r =>
    rcases (run_ledger ops).origin _ r hfound with hold | ⟨e, he, hx⟩
    · have hstart : (3 : ℤ) ≤ (run ops).seq .account := hdrawn.start .account
      have := migrated_lt hold
      omega
    · exact absurd (hdrawn.logged e he _ hx).2 (lt_irrefl _)

/-- every payment is stored once, under an id of its own -/
theorem run_paymentIds (ops : List Op) : ((run ops).db.payment.map PaymentRow.paymentId).Nodup := by
  refine run_induction (P := fun s => (s.db.payment.map PaymentRow.paymentId).Nodup) List.nodup_nil ?_ ops
  intro ops o h
  rcases step_commit ops o with ⟨hdb, -⟩ | ⟨i, t, a, -, hc⟩
  · rw [hdb]
    exact h
  · rcases effect_cases hc.effect with @⟨_, _, _, row, _, _, _, _, -, hids, hm, -⟩ | ⟨-, hp, -⟩
    · have hdrawn : (Sequence.payment, row.paymentId) ∈ t.ids := by
        rw [hids]
        exact List.mem_singleton.2 rfl
      rw [hm.payment, List.map_append, List.map_singleton, List.nodup_append]
      refine ⟨h, List.nodup_singleton _, fun y hy z hz => ?_⟩
      obtain ⟨q, hq, rfl⟩ := List.mem_map.1 hy
      rw [List.mem_singleton.1 hz]
      exact payment_fresh (run_ledger ops) hc.running hdrawn q hq
    · rw [hp]
      exact h

end BankServices.Service
