/-
What the clients were told and what the tables hold are the same, over every run.

A request is `Accomplished` when it was answered 200. A step accomplishes at most one request, the one whose effect it
commits (`step_accomplished`).

- `payments_exactly_once`: the payment table lists the payments that were answered 200, each in one row under the id
  that it was answered with and as it was requested, the amount rounded to cents, in the order of their commits. Rows
  are only ever added.
- `accounts_exactly_once`: an account exists exactly when it was migrated or a creation was answered 200 with its id,
  and no deletion of it was answered 200. Neither happens twice for one id.
- `paid_is_listed`: so a client that was answered 200 finds its payment, once, in every later list of either account
  whose interval has its time.
-/
import BankServices.Service.Deletion
import BankServices.Service.Search

namespace BankServices.Service

open BankServices.Java BankServices.Txn BankServices.Storage BankServices.Webapp BankServices.Api
open BankServices.Api.PaymentEndpoint

/-! ## Definitions -/

/-- the slot's request was answered 200 -/
def Accomplished (s : St) (i : ℕ) (r : Request) (a : Response) : Prop :=
  s.slot i = .finished r (.ok a) ∧ a.status = .OK

/-- the payment of the slot was answered 200 with the id of the row, which records it -/
def PaidAs (s : St) (i : ℕ) (p : PaymentRow) : Prop := ∃ now np amount,
  s.slot i = .finished (.createPayment now np) (.ok (okResponse p.paymentId)) ∧ Records now np amount p

structure PaidOnce (ops : List Op) (slots : List ℕ) : Prop where
  nodup : slots.Nodup
  mem_iff : ∀ i, i ∈ slots ↔ ∃ now np a, Accomplished (run ops) i (.createPayment now np) a
  rows : List.Forall₂ (PaidAs (run ops)) slots (run ops).db.payment

/-- the request is a creation that is answered with an account of the id -/
def Opens : Request → Response → ℤ → Prop
  | .createAccount _ _, a, k => ∃ account, a.entity = some (.account account) ∧ account.accountId = some k
  | _, _, _ => False

/-- the slot's creation was answered 200 with an account of the id -/
def OpenedBy (s : St) (i : ℕ) (k : ℤ) : Prop := ∃ r a, Accomplished s i r a ∧ Opens r a k

/-- the slot's deletion of the account was answered 200 -/
def ClosedBy (s : St) (i : ℕ) (k : ℤ) : Prop := ∃ a, Accomplished s i (.deleteAccount k) a

/-- the accounts that exist, by the answers that clients were given -/
structure Registered (s : St) : Prop where
  isSome_iff : ∀ k, (s.db.findAccount k).isSome = true ↔
    ((migrated.findAccount k).isSome = true ∨ ∃ i, OpenedBy s i k) ∧ ¬ ∃ i, ClosedBy s i k
  opened_new : ∀ i k, OpenedBy s i k → migrated.findAccount k = none
  opened_once : ∀ i j k, OpenedBy s i k → OpenedBy s j k → i = j
  closed_once : ∀ i j k, ClosedBy s i k → ClosedBy s j k → i = j

/-! ## One step -/

theorem effect_ok {db db' : Tables} {r : Request} {ids : List (Sequence × ℤ)} {a : Response}
    (h : Effect db r ids a db') : a.status = .OK := by
  cases h <;> rfl

/-- **One step, one accomplished request**, the one whose effect the step commits. -/
theorem step_accomplished (ops : List Op) (o : Op) :
    ((step (run ops) o).db = (run ops).db ∧
      ∀ j r a, Accomplished (step (run ops) o) j r a ↔ Accomplished (run ops) j r a) ∨
    ∃ i t a, Committed (run ops) (step (run ops) o) i t a ∧ ∀ j r b, Accomplished (step (run ops) o) j r b ↔
      Accomplished (run ops) j r b ∨ (j = i ∧ r = t.req ∧ b = a) := by
  have hkeep : ∀ j r a, Accomplished (run ops) j r a → Accomplished (step (run ops) o) j r a := by
    intro j r a h
    exact ⟨RowLock.step_finished _ o h.1, h.2⟩
  rcases step_commit ops o with ⟨hdb, hlog⟩ | ⟨i, t, a, rfl, hc⟩
  · refine Or.inl ⟨hdb, fun j r a => ⟨fun h => ?_, hkeep j r a⟩⟩
    obtain ⟨hslot, hok⟩ := h
    rcases RowLock.step_answered _ o hslot with hold | ⟨t, hs, rfl, hans⟩
    · exact ⟨hold, hok⟩
    · exfalso
      cases hans with
      | committed hr =>
        rcases commit_cases ops hs hr with hc | ⟨hst, -⟩
        · have hlen := congrArg List.length (hlog.symm.trans hc.log)
          simp at hlen
        · rw [hst] at hok
          cases hok
  · refine Or.inr ⟨i, t, a, hc, fun j r b => ⟨fun h => ?_, fun h => ?_⟩⟩
    · obtain ⟨hslot, hok⟩ := h
      by_cases hj : j = i
      · subst hj
        cases hslot.symm.trans hc.finished
        exact Or.inr ⟨rfl, rfl, rfl⟩
      · rcases RowLock.step_answered _ _ hslot with hold | ⟨u, -, -, hans⟩
        · exact Or.inl ⟨hold, hok⟩
        · cases hans
          exact absurd rfl hj
    · rcases h with h | ⟨rfl, rfl, rfl⟩
      · exact hkeep j r b h
      · exact ⟨hc.finished, effect_ok hc.effect⟩

/-- the slot of a request that commits was not answered before -/
theorem Committed.unanswered {s s' : St} {i : ℕ} {t : Session} {a : Response} (h : Committed s s' i t a) {r : Request}
    {b : Response} : ¬ Accomplished s i r b := by
  intro hacc
  cases h.running.symm.trans hacc.1

/-! ## Payments -/

theorem PaidAs.step {s : St} {i : ℕ} {p : PaymentRow} (h : PaidAs s i p) (o : Op) : PaidAs (step s o) i p := by
  obtain ⟨now, np, amount, hs, hrec⟩ := h
  exact ⟨now, np, amount, RowLock.step_finished s o hs, hrec⟩

/-- a payment adds its row, and is answered with its id -/
theorem effect_paid {db db' : Tables} {now : LocalDateTime} {np : NewPayment} {ids : List (Sequence × ℤ)} {a : Response}
    (h : Effect db (.createPayment now np) ids a db') :
    ∃ p amount, db'.payment = db.payment ++ [p] ∧ a = okResponse p.paymentId ∧ Records now np amount p := by
  cases h with
  | @payment _ _ p w d w' d' row x hacc hwr =>
    obtain ⟨hm, hrec, hx⟩ := moved_of_written hacc hwr
    exact ⟨row, p.amount, hm.payment, by rw [hx], hrec⟩

/-- another request leaves the payments alone -/
theorem effect_unpaid {db db' : Tables} {r : Request} {ids : List (Sequence × ℤ)} {a : Response}
    (h : Effect db r ids a db') (hr : ∀ now np, r ≠ .createPayment now np) : db'.payment = db.payment := by
  cases h with
  | payment hacc hwr => exact absurd rfl (hr _ _)
  | created hv hs => rfl
  | updated hv hf hs => rfl
  | deleted hf hp => rfl

theorem run_paidOnce (ops : List Op) : ∃ slots, PaidOnce ops slots := by
  induction ops using List.reverseRecOn with
  | nil =>
    refine ⟨[], List.nodup_nil, fun i => ?_, .nil⟩
    constructor
    · intro h
      cases h
    · rintro ⟨now, np, a, hs, -⟩
      cases hs
  | append_singleton ops o ih =>
    obtain ⟨slots, hnodup, hmem, hrows⟩ := ih
    have hkept : List.Forall₂ (PaidAs (step (run ops) o)) slots (run ops).db.payment :=
      hrows.imp fun i p hp => hp.step o
    rcases step_accomplished ops o with ⟨hdb, hsame⟩ | ⟨i, t, a, hc, hmore⟩
    · refine ⟨slots, hnodup, fun i => ?_, ?_⟩
      · simp only [run_snoc, hsame]
        exact hmem i
      · rw [run_snoc, hdb]
        exact hkept
    by_cases hpay : ∃ now np, t.req = .createPayment now np
    · obtain ⟨now, np, hreq⟩ := hpay
      obtain ⟨p, amount, hrow, rfl, hrec⟩ := effect_paid (hreq ▸ hc.effect)
      have hnew : i ∉ slots := by
        intro hi
        obtain ⟨now', np', b, hb⟩ := (hmem i).1 hi
        exact hc.unanswered hb
      refine ⟨slots ++ [i], ?_, fun j => ?_, ?_⟩
      · exact List.nodup_append.2 ⟨hnodup, List.nodup_singleton i, by
          intro x hx y hy hxy
          rw [List.mem_singleton.1 hy] at hxy
          exact hnew (hxy ▸ hx)⟩
      · rw [List.mem_append, hmem, List.mem_singleton, run_snoc]
        simp only [hmore]
        constructor
        · rintro (⟨now', np', b, hb⟩ | rfl)
          · exact ⟨now', np', b, Or.inl hb⟩
          · exact ⟨now, np, _, Or.inr ⟨rfl, hreq.symm, rfl⟩⟩
        · rintro ⟨now', np', b, hb | ⟨rfl, -, -⟩⟩
          · exact Or.inl ⟨now', np', b, hb⟩
          · exact Or.inr rfl
      · rw [run_snoc, hrow]
        refine List.rel_append hkept (.cons ⟨now, np, amount, ?_, hrec⟩ .nil)
        rw [hc.finished, hreq]
    · push Not at hpay
      refine ⟨slots, hnodup, fun j => ?_, ?_⟩
      · rw [hmem, run_snoc]
        simp only [hmore]
        constructor
        · rintro ⟨now, np, b, hb⟩
          exact ⟨now, np, b, Or.inl hb⟩
        · rintro ⟨now, np, b, hb | ⟨-, hr, -⟩⟩
          · exact ⟨now, np, b, hb⟩
          · exact absurd hr.symm (hpay now np)
      · rw [run_snoc, effect_unpaid hc.effect hpay]
        exact hkept

/-- rows of payments are only added, at the end -/
theorem payments_kept (ops more : List Op) : (run ops).db.payment <+: (run (ops ++ more)).db.payment := by
  induction more using List.reverseRecOn with
  | nil => rw [List.append_nil]
  | append_singleton more o ih =>
    refine ih.trans ?_
    rw [← List.append_assoc, run_snoc]
    rcases step_commit (ops ++ more) o with ⟨hdb, -⟩ | ⟨i, t, a, -, hc⟩
    · rw [hdb]
    · rcases effect_cases hc.effect with ⟨-, -, hm, -⟩ | ⟨-, hpay, -⟩
      · rw [hm.payment]
        exact List.prefix_append _ _
      · rw [hpay]

/-- **Payments, exactly once.** -/
theorem payments_exactly_once (ops : List Op) :
    (∃ slots, PaidOnce ops slots) ∧ ∀ more, (run ops).db.payment <+: (run (ops ++ more)).db.payment :=
  ⟨run_paidOnce ops, payments_kept ops⟩

/-! ## Accounts -/

section Effects

variable {db db' : Tables} {r : Request} {ids : List (Sequence × ℤ)} {a : Response}

/-- a creation opens an account, a deletion closes one, and no other request does either -/
theorem effect_exists (h : Effect db r ids a db') (k : ℤ) : (db'.findAccount k).isSome = true ↔
    ((db.findAccount k).isSome = true ∨ Opens r a k) ∧ r ≠ .deleteAccount k := by
  cases h with
  | payment hacc hwr =>
    have hm := (moved_of_written hacc hwr).1
    have hw := hm.withdrawal
    have hd := hm.deposit
    rw [hm.findAccount]
    split_ifs with h1 h2
    · simp [h1, hw]
    · simp [h2, hd]
    · simp [Opens]
  | @created now na acc row x hv hs =>
    rw [findAccount_addAccount, (accountRow_ok_iff.1 hs).1]
    by_cases hx : x = k
    · simp [Opens, hx]
    · simp [Opens, hx]
  | @updated u n c i q r' hv hf hs =>
    obtain ⟨name, comment, -, -, rfl⟩ := profileRow_ok_iff.1 hs
    rw [findAccount_putAccount]
    split_ifs
    · simp [Opens]
    · simp [Opens]
  | @deleted i q hf hp =>
    rw [findAccount_dropAccount]
    by_cases hi : i = k
    · simp [hi]
    · simp [Opens, hi, Ne.symm hi]

theorem effect_opens (h : Effect db r ids a db') {k : ℤ} (ho : Opens r a k) : (Sequence.account, k) ∈ ids := by
  cases h with
  | created hv hs =>
    obtain ⟨account, he, hk⟩ := ho
    cases he
    cases hk
    exact List.mem_singleton.2 rfl
  | payment hacc hwr => exact absurd ho id
  | updated hv hf hs => exact absurd ho id
  | deleted hf hp => exact absurd ho id

theorem effect_closes {k : ℤ} (h : Effect db (.deleteAccount k) ids a db') : ∃ q, db.findAccount k = some q := by
  cases h with
  | deleted hf hp => exact ⟨_, hf⟩

end Effects

/-- the register, and what keeps it: the ids of accounts that were opened or closed are spent -/
structure RegisterInv (s : St) : Prop extends Registered s where
  opened_spent : ∀ i k, OpenedBy s i k → 3 ≤ k ∧ RowLock.Spent (.account, k) s
  closed_spent : ∀ i k, ClosedBy s i k → RowLock.Spent (.account, k) s

theorem step_register (ops : List Op) (o : Op) (h : RegisterInv (run ops)) : RegisterInv (step (run ops) o) := by
  have hspent : ∀ k, RowLock.Spent (.account, k) (run ops) → RowLock.Spent (.account, k) (step (run ops) o) :=
    fun k hk => RowLock.step_spent (run ops) o hk
  rcases step_accomplished ops o with ⟨hdb, hsame⟩ | ⟨i, t, a, hc, hmore⟩
  · have hopened : ∀ j k, OpenedBy (step (run ops) o) j k ↔ OpenedBy (run ops) j k := by
      intro j k
      simp only [OpenedBy, hsame]
    have hclosed : ∀ j k, ClosedBy (step (run ops) o) j k ↔ ClosedBy (run ops) j k := by
      intro j k
      simp only [ClosedBy, hsame]
    refine ⟨⟨?_, ?_, ?_, ?_⟩, ?_, ?_⟩ <;> simp only [hopened, hclosed, hdb]
    · exact h.isSome_iff
    · exact h.opened_new
    · exact h.opened_once
    · exact h.closed_once
    · exact fun j k hj => ⟨(h.opened_spent j k hj).1, hspent k (h.opened_spent j k hj).2⟩
    · exact fun j k hj => hspent k (h.closed_spent j k hj)
  · have hopened : ∀ j k, OpenedBy (step (run ops) o) j k ↔ OpenedBy (run ops) j k ∨ (j = i ∧ Opens t.req a k) := by
      intro j k
      simp only [OpenedBy, hmore]
      constructor
      · rintro ⟨r, b, hold | ⟨rfl, rfl, rfl⟩, ho⟩
        · exact Or.inl ⟨r, b, hold, ho⟩
        · exact Or.inr ⟨rfl, ho⟩
      · rintro (⟨r, b, hold, ho⟩ | ⟨rfl, ho⟩)
        · exact ⟨r, b, Or.inl hold, ho⟩
        · exact ⟨t.req, a, Or.inr ⟨rfl, rfl, rfl⟩, ho⟩
    have hclosed : ∀ j k, ClosedBy (step (run ops) o) j k ↔
        ClosedBy (run ops) j k ∨ (j = i ∧ t.req = .deleteAccount k) := by
      intro j k
      simp only [ClosedBy, hmore]
      constructor
      · rintro ⟨b, hold | ⟨rfl, hr, rfl⟩⟩
        · exact Or.inl ⟨b, hold⟩
        · exact Or.inr ⟨rfl, hr.symm⟩
      · rintro (⟨b, hold⟩ | ⟨rfl, hr⟩)
        · exact ⟨b, Or.inl hold⟩
        · exact ⟨a, Or.inr ⟨rfl, hr.symm, rfl⟩⟩
    -- the id of a new account is not spent, so no request opened or closed it before
    have hnew : ∀ k, Opens t.req a k → ¬ RowLock.Spent (.account, k) (run ops) :=
      fun k ho hk => hk.2 i t hc.running (effect_opens hc.effect ho)
    have hthere : ∀ k, t.req = .deleteAccount k → ∃ q, (run ops).db.findAccount k = some q := by
      intro k hr
      exact effect_closes (hr ▸ hc.effect)
    refine ⟨⟨fun k => ?_, fun j k hj => ?_, fun j l k hj hl => ?_, fun j l k hj hl => ?_⟩, fun j k hj => ?_,
      fun j k hj => ?_⟩
    · rw [effect_exists hc.effect k, h.isSome_iff]
      simp only [hopened, hclosed, exists_or, exists_and_right, exists_eq, true_and]
      have hfresh : Opens t.req a k → ¬ ∃ j, ClosedBy (run ops) j k :=
        fun ho ⟨j, hj⟩ => hnew k ho (h.closed_spent j k hj)
      tauto
    · rcases (hopened j k).1 hj with hj | ⟨rfl, ho⟩
      · exact h.opened_new j k hj
      · by_contra hmig
        have hlt := migrated_lt (Option.isSome_iff_ne_none.2 hmig)
        have hle : 3 ≤ k := ((run_drawn ops).opened j t hc.running _ (effect_opens hc.effect ho)).1
        omega
    · rcases (hopened j k).1 hj with hj | ⟨rfl, ho⟩
      · rcases (hopened l k).1 hl with hl | ⟨rfl, ho⟩
        · exact h.opened_once j l k hj hl
        · exact absurd (h.opened_spent j k hj).2 (hnew k ho)
      · rcases (hopened l k).1 hl with hl | ⟨rfl, -⟩
        · exact absurd (h.opened_spent l k hl).2 (hnew k ho)
        · rfl
    · rcases (hclosed j k).1 hj with hj | ⟨rfl, hr⟩
      · rcases (hclosed l k).1 hl with hl | ⟨rfl, hr⟩
        · exact h.closed_once j l k hj hl
        · obtain ⟨q, hq⟩ := hthere k hr
          exact absurd ⟨j, hj⟩ ((h.isSome_iff k).1 (by rw [hq]; rfl)).2
      · rcases (hclosed l k).1 hl with hl | ⟨rfl, -⟩
        · obtain ⟨q, hq⟩ := hthere k hr
          exact absurd ⟨l, hl⟩ ((h.isSome_iff k).1 (by rw [hq]; rfl)).2
        · rfl
    · rcases (hopened j k).1 hj with hj | ⟨rfl, ho⟩
      · exact ⟨(h.opened_spent j k hj).1, hspent k (h.opened_spent j k hj).2⟩
      · have hdrawn := effect_opens hc.effect ho
        refine ⟨((run_drawn ops).opened j t hc.running _ hdrawn).1, ?_⟩
        rw [← run_snoc] at hc ⊢
        refine (run_drawn (ops ++ [o])).spent (e := (t.req, t.ids)) ?_ hdrawn
        rw [hc.log]
        exact List.mem_append_right _ (List.mem_singleton.2 rfl)
    · rcases (hclosed j k).1 hj with hj | ⟨rfl, hr⟩
      · exact hspent k (h.closed_spent j k hj)
      · obtain ⟨q, hq⟩ := hthere k hr
        exact hspent k (account_spent ops hq)

theorem register_init : RegisterInv init := by
  have hnone : ∀ i r a, ¬ Accomplished init i r a := by
    rintro i r a ⟨hs, -⟩
    cases hs
  have hopened : ∀ i k, ¬ OpenedBy init i k := fun i k ⟨r, a, h, _⟩ => hnone i r a h
  have hclosed : ∀ i k, ¬ ClosedBy init i k := fun i k ⟨a, h⟩ => hnone i _ a h
  refine ⟨⟨fun k => ?_, ?_, ?_, ?_⟩, ?_, ?_⟩
  · simp only [hopened, hclosed, exists_false, or_false, not_false_eq_true, and_true]
    rfl
  all_goals
    intro i
    simp [hopened, hclosed]

/-- **Accounts, exactly once.** -/
theorem accounts_exactly_once (ops : List Op) : Registered (run ops) :=
  (run_induction register_init step_register ops).toRegistered

/-! ## Payments are found again -/

/-- a payment answered 200 has its row -/
theorem PaidOnce.row {ops : List Op} {slots : List ℕ} (h : PaidOnce ops slots) {i : ℕ} (hi : i ∈ slots) :
    ∃ p ∈ (run ops).db.payment, PaidAs (run ops) i p := by
  have hmem : ∀ {l : List ℕ} {rows : List PaymentRow}, List.Forall₂ (PaidAs (run ops)) l rows → i ∈ l →
      ∃ p ∈ rows, PaidAs (run ops) i p := by
    intro l rows hrows
    induction hrows with
    | nil => simp
    | cons hp hrest ih =>
      intro hi
      rcases List.mem_cons.1 hi with rfl | hi
      · exact ⟨_, List.mem_cons_self, hp⟩
      · obtain ⟨p, hp, hpaid⟩ := ih hi
        exact ⟨p, List.mem_cons_of_mem _ hp, hpaid⟩
  exact hmem h.rows hi

/-- **What was paid is listed.** -/
theorem paid_is_listed (ops more : List Op) {i : ℕ} {now : LocalDateTime} {np : NewPayment} {a : Response}
    (h : Accomplished (run ops) i (.createPayment now np) a) {k : ℤ} (hk : Names np k)
    {intervalFrom intervalTo : LocalDateTime} (hfrom : intervalFrom ≤ now.roundMillis)
    (hto : now.roundMillis ≤ intervalTo) : ∃ p amount found, a = okResponse p.paymentId ∧ Records now np amount p ∧
      list (run (ops ++ more)).db (some k) (some intervalFrom) (some intervalTo) = .ok found ∧ found.count p = 1 ∧
      ∀ q ∈ found, q.paymentId = p.paymentId → q = p := by
  obtain ⟨slots, hpaid⟩ := run_paidOnce ops
  obtain ⟨p, hp, now', np', amount, hs, hrec⟩ := hpaid.row ((hpaid.mem_iff i).2 ⟨now, np, a, h⟩)
  cases h.1.symm.trans hs
  have hids := run_paymentIds (ops ++ more)
  have hstored : p ∈ (run (ops ++ more)).db.payment := (payments_kept ops more).subset hp
  have hprocessed : p.processed.1 = now.roundMillis := congrArg Subtype.val hrec.processed
  obtain ⟨found, hshows⟩ := list_shows hids k (hfrom.trans hto)
  refine ⟨p, amount, found, rfl, hrec, hshows.answered, ?_, fun q hq hid => ?_⟩
  · rw [hshows.once, hprocessed]
    exact if_pos ⟨hstored, hfrom, hto, (Moved.refers_iff k).1 (names_refers hk hrec) |>.imp Eq.symm Eq.symm⟩
  · have hcount := List.count_pos_iff.2 hq
    rw [hshows.once] at hcount
    split_ifs at hcount with hin
    · exact List.inj_on_of_nodup_map hids hin.1 hstored hid
    · cases hcount

theorem onePayment_listed : ∃ p amount found, okResponse 1 = okResponse p.paymentId ∧
    Records firstOf2020 (pay ⟨1, 0⟩) amount p ∧
    list (run (onePayment ++ [])).db (some 1) (some firstOf2020) (some secondOf2020) = .ok found ∧ found.count p = 1 ∧
    ∀ q ∈ found, q.paymentId = p.paymentId → q = p :=
  paid_is_listed onePayment [] (i := 0) ⟨by rfl, rfl⟩ (Or.inr rfl) (by decide) (by decide)

end BankServices.Service
