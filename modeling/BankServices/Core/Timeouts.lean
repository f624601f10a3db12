/-
Lock timeouts: what becomes of a request whose statement waited too long for a row.

`Prog.Guarded Q` is a rule for program text, like the locking discipline: `Q` holds of every statement that the program
sends, of what it does with the answer, and of the rows that it has locked by then.

- `run_guarded`: an open transaction is always at a guarded point, with exactly the rows that it holds.
- `run_gaveUp`: a request whose statement timed out has failed as its program says, and wrote nothing.
-/
import BankServices.Core.Linearizable

namespace BankServices.Txn

variable {Stmt : Type} {Ans : Stmt → Type} {Seq ε α β Db Write Key Face : Type}

/-- every statement is sent under `Q`, which knows the statement, what follows it and the rows locked before it -/
def Prog.Guarded (E : Engine Stmt Ans Db Write Key Face)
    (Q : (c : Stmt) → (Ans c → Prog Stmt Ans Seq ε α) → List Key → Prop) : Prog Stmt Ans Seq ε α → List Key → Prop
  | .done _, _ | .fail _, _ => True
  | .draw _ k, H => ∀ x, (k x).Guarded E Q H
  | .send c k, H => Q c k H ∧ ∀ a, (k a).Guarded E Q ((E.lockKey c).toList ++ H)

/-- a statement that waits for a row, when it times out, makes the program fail with an error of `P` -/
def GivesUp (E : Engine Stmt Ans Db Write Key Face) (P : ε → Prop) (c : Stmt) (k : Ans c → Prog Stmt Ans Seq ε α)
    (H : List Key) : Prop :=
  (∃ x ∈ E.reads c, x ∉ H) → ∃ e, k (E.timeout c) = .fail e ∧ P e

theorem Prog.Settled.guarded {E : Engine Stmt Ans Db Write Key Face}
    {Q : (c : Stmt) → (Ans c → Prog Stmt Ans Seq ε α) → List Key → Prop} {p : Prog Stmt Ans Seq ε α} (h : p.Settled)
    (H : List Key) : p.Guarded E Q H := by
  cases p with
  | done a => trivial
  | fail e => trivial
  | send c k => exact absurd h id
  | draw q k => exact absurd h id

end BankServices.Txn

namespace BankServices.RowLock

open BankServices.Txn

variable {Stmt : Type} {Ans : Stmt → Type} {Seq ε α Db Write Key Face R : Type} [DecidableEq Seq] [DecidableEq Key]
  {E : Engine Stmt Ans Db Write Key Face} {body : R → Prog Stmt Ans Seq ε α}
  {Q : R → (c : Stmt) → (Ans c → Prog Stmt Ans Seq ε α) → List Key → Prop}
  {s : St Stmt Ans Seq ε α Db Write Key R} {i : ℕ} {t : Session Stmt Ans Seq ε α Write R}

/-! ## Guarded programs -/

/-- every open transaction has nothing left to do, or is at a guarded point with exactly the rows that it holds -/
def GuardedInv (E : Engine Stmt Ans Db Write Key Face)
    (Q : R → (c : Stmt) → (Ans c → Prog Stmt Ans Seq ε α) → List Key → Prop)
    (s : St Stmt Ans Seq ε α Db Write Key R) : Prop :=
  ∀ i t, s.slot i = .running t →
    t.rest.Settled ∨ ∃ L, (∀ k, s.owner k = some i ↔ k ∈ L) ∧ t.rest.Guarded E (Q t.req) L

/-- after its statement the sender has given up, or holds exactly the rows that its program text says -/
theorem sent_guarded {d0 : Db} (hi : Inv E body d0 s) (hs : s.slot i = .running t) {c : Stmt}
    {k : Ans c → Prog Stmt Ans Seq ε α} (hr : t.rest = .send c k) {L : List Key}
    (hL : ∀ x, s.owner x = some i ↔ x ∈ L) (hg : t.rest.Guarded E (Q t.req) L) :
    (k (E.exec c (E.view s.db t.writes)).1).Settled ∨ ∃ L', (∀ x, grant E s i c x = some i ↔ x ∈ L') ∧
      (k (E.exec c (E.view s.db t.writes)).1).Guarded E (Q t.req) L' := by
  by_cases hkey : ∀ x, E.lockKey c = some x → grant E s i c x = some i
  · rw [hr] at hg
    refine Or.inr ⟨_, fun x => ⟨fun hx => ?_, fun hx => ?_⟩, hg.2 _⟩
    · rcases grant_cases hx with hx | ⟨_, hc, _⟩
      · exact List.mem_append_right _ ((hL x).1 hx)
      · exact List.mem_append_left _ (by simp [hc])
    · rcases List.mem_append.1 hx with hx | hx
      · exact hkey x (by simpa using hx)
      · exact grant_mono ((hL x).2 hx)
  · push Not at hkey
    obtain ⟨y, hc, hy⟩ := hkey
    have hp : E.present (E.look s.db y) = false := by
      by_contra hp
      exact hy (grant_lock hc (by simpa using hp))
    exact Or.inl (missing_settled (hi.session i t hs) hr hc (fun hx => hy (grant_mono hx)) hp).1

theorem step_guarded (hbody : ∀ r, (body r).Guarded E (Q r) []) {d0 : Db} (o : Op R) (hi : Inv E body d0 s)
    (h : GuardedInv E Q s) : GuardedInv E Q (step E body s o) := by
  have hm := step_move E body s o
  generalize step E body s o = s' at hm ⊢
  cases hm with
  | idle => exact h
  | @begin i r hs =>
    intro j u hu
    rcases slot_update hu with ⟨rfl, hx⟩ | ⟨_, hu⟩
    · cases hx
      refine Or.inr ⟨[], fun x => ⟨fun hx => ?_, fun hx => by cases hx⟩, hbody r⟩
      obtain ⟨v, hv⟩ := hi.owned x _ hx
      rw [hs] at hv
      cases hv
    · exact h j u hu
  | @sent i t c k hs hr hb =>
    intro j u hu
    rcases slot_update hu with ⟨rfl, hx⟩ | ⟨hj, hu⟩
    · cases hx
      rcases h j t hs with hset | ⟨L, hL, hg⟩
      · rw [hr] at hset
        exact absurd hset id
      · exact sent_guarded hi hs hr hL hg
    · exact (h j u hu).imp_right fun ⟨L, hL, hg⟩ => ⟨L, fun x => (grant_other hb hj x).trans (hL x), hg⟩
  | @drew i t q k hs hr =>
    intro j u hu
    rcases slot_update hu with ⟨rfl, hx⟩ | ⟨_, hu⟩
    · cases hx
      rcases h j t hs with hset | ⟨L, hL, hg⟩
      · rw [hr] at hset
        exact absurd hset id
      · rw [hr] at hg
        exact Or.inr ⟨L, hL, hg _⟩
    · exact h j u hu
  | @timedOut i t c k hs hr hb =>
    intro j u hu
    rcases slot_update hu with ⟨rfl, hx⟩ | ⟨_, hu⟩
    · cases hx
      exact Or.inl (timedOut_session (hi.session j t hs) hr hb).1
    · exact h j u hu
  | @committed i t a hs hr =>
    intro j u hu
    rcases slot_update hu with ⟨_, hx⟩ | ⟨hj, hu⟩
    · cases hx
    · exact (h j u hu).imp_right fun ⟨L, hL, hg⟩ => ⟨L, fun x => ⟨fun hx => (hL x).1 (release_iff.1 hx).1,
        fun hx => release_iff.2 ⟨(hL x).2 hx, hj⟩⟩, hg⟩
  | @rolledBack i t e hs hr =>
    intro j u hu
    rcases slot_update hu with ⟨_, hx⟩ | ⟨hj, hu⟩
    · cases hx
    · exact (h j u hu).imp_right fun ⟨L, hL, hg⟩ => ⟨L, fun x => ⟨fun hx => (hL x).1 (release_iff.1 hx).1,
        fun hx => release_iff.2 ⟨(hL x).2 hx, hj⟩⟩, hg⟩

theorem run_guarded (hbody : ∀ r, (body r).Guarded E (Q r) []) (hdisc : ∀ r, (body r).Disciplined E [] false) {d0 : Db}
    {q0 : Seq → ℤ} (ops : List (Op R)) : GuardedInv E Q (run E body (init d0 q0) ops) :=
  (run_induction (P := fun s => Inv E body d0 s ∧ GuardedInv E Q s) (init d0 q0)
    ⟨inv_init d0 q0, fun i t ht => by cases ht⟩
    (fun s o h => ⟨step_inv s o hdisc h.1, step_guarded hbody o h.1 h.2⟩) ops).2

/-! ## Timeouts -/

/-- the slot's request has failed with an error of `P`; when it is still open, it wrote nothing -/
def GaveUp (P : R → ε → Prop) : Slot Stmt Ans Seq ε α Write R → Prop
  | .free => False
  | .running t => t.writes = [] ∧ ∃ e, t.rest = .fail e ∧ P t.req e
  | .finished r out => ∃ e, out = .error e ∧ P r e

/-- a request that gave up goes on to its rollback only -/
theorem step_gaveUp {P : R → ε → Prop} (o : Op R) (h : GaveUp P (s.slot i)) : GaveUp P ((step E body s o).slot i) := by
  have hm := step_move E body s o
  generalize step E body s o = s' at hm ⊢
  have other : ∀ j x, (i = j → GaveUp P x) → GaveUp P (Function.update s.slot j x i) := by
    intro j x hx
    by_cases hij : i = j
    · subst hij
      rw [Function.update_self]
      exact hx rfl
    · rw [Function.update_of_ne hij]
      exact h
  have failed : ∀ t, s.slot i = .running t → ∃ e, t.rest = .fail e ∧ P t.req e := by
    intro t ht
    rw [ht] at h
    exact h.2
  cases hm with
  | idle => exact h
  | begin hs =>
    refine other _ _ fun hi => ?_
    rw [hi, hs] at h
    exact absurd h id
  | sent hs hr hb =>
    refine other _ _ fun hi => ?_
    obtain ⟨e, he, -⟩ := failed _ (hi ▸ hs)
    rw [he] at hr
    cases hr
  | drew hs hr =>
    refine other _ _ fun hi => ?_
    obtain ⟨e, he, -⟩ := failed _ (hi ▸ hs)
    rw [he] at hr
    cases hr
  | timedOut hs hr hb =>
    refine other _ _ fun hi => ?_
    obtain ⟨e, he, -⟩ := failed _ (hi ▸ hs)
    rw [he] at hr
    cases hr
  | committed hs hr =>
    refine other _ _ fun hi => ?_
    obtain ⟨e, he, -⟩ := failed _ (hi ▸ hs)
    rw [he] at hr
    cases hr
  | rolledBack hs hr =>
    refine other _ _ fun hi => ?_
    obtain ⟨e, he, hP⟩ := failed _ (hi ▸ hs)
    rw [he] at hr
    cases hr
    exact ⟨_, rfl, hP⟩

/-- a statement that times out makes its request give up -/
theorem timedOut_gaveUp {P : R → ε → Prop} {d0 : Db} (hi : Inv E body d0 s)
    (hg : GuardedInv E (fun r => GivesUp E (P r)) s) (hs : s.slot i = .running t) {c : Stmt}
    {k : Ans c → Prog Stmt Ans Seq ε α} (hr : t.rest = .send c k) (hb : blocked E s i c = true) :
    GaveUp P ((step E body s (.timeout i)).slot i) := by
  obtain ⟨-, hw⟩ := timedOut_session (hi.session i t hs) hr hb
  rw [slot_timedOut E body hs hr hb]
  refine ⟨hw, ?_⟩
  rcases hg i t hs with hset | ⟨L, hL, hguard⟩
  · rw [hr] at hset
    exact absurd hset id
  · rw [hr] at hguard
    obtain ⟨x, hx, hno⟩ := List.any_eq_true.1 hb
    simp only [ne_eq, decide_eq_true_eq] at hno
    exact hguard.1 ⟨x, hx, fun hm => hno.2 ((hL x).2 hm)⟩

/-- **Timeouts.** A request whose statement timed out has failed with an error that its program allows for. -/
theorem run_gaveUp {P : R → ε → Prop} (hdisc : ∀ r, (body r).Disciplined E [] false)
    (hbody : ∀ r, (body r).Guarded E (GivesUp E (P r)) []) {d0 : Db} {q0 : Seq → ℤ} {ops : List (Op R)} {i : ℕ}
    (h : TimedOut E body (init d0 q0) ops i) : GaveUp P ((run E body (init d0 q0) ops).slot i) := by
  obtain ⟨pre, t, c, k, ⟨more, rfl⟩, hs, hr, hb⟩ := h
  rw [run_append, run_snoc]
  apply run_induction (P := fun s => GaveUp P (s.slot i))
  · exact timedOut_gaveUp (run_inv hdisc pre) (run_guarded hbody hdisc pre) hs hr hb
  · intro s o hgave
    exact step_gaveUp o hgave

end BankServices.RowLock
