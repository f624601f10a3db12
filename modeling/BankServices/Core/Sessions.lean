/-
What every run of concurrent transactions keeps about its open transactions, whatever their programs lock.

- `step_running`, `step_answered`: where an open transaction and an answer come from, one step before.
- `run_ends`: an open transaction ends only as its program may end (`Prog.Ends`).
- `run_drawn`: a value of a sequence is drawn once. What an open transaction drew, no other open transaction and no
  logged request drew.
- `run_spent`: a value that was drawn and that no open transaction has is never drawn again.
- `finished_stays`: an answered request keeps its answer.
- `run_uncontended`: while nobody else holds a lock, a request run to its end does what it does as a transaction alone.
-/
import BankServices.Core.RowLock

namespace BankServices.RowLock

open BankServices.Txn

variable {Stmt : Type} {Ans : Stmt → Type} {Seq ε α Db Write Key Face R : Type} [DecidableEq Seq] [DecidableEq Key]
  {E : Engine Stmt Ans Db Write Key Face} {body : R → Prog Stmt Ans Seq ε α}

/-! ## One step of a transaction -/

/-- the operation that advances an open transaction, and the transaction after it -/
inductive Advance (E : Engine Stmt Ans Db Write Key Face) (s : St Stmt Ans Seq ε α Db Write Key R) (i : ℕ)
    (t : Session Stmt Ans Seq ε α Write R) : Op R → Session Stmt Ans Seq ε α Write R → Prop where
  | sent {c : Stmt} {k : Ans c → Prog Stmt Ans Seq ε α} (sends : t.rest = .send c k) (clear : blocked E s i c = false) :
      Advance E s i t (.exec i) { t with
        rest := k (E.exec c (E.view s.db t.writes)).1
        writes := t.writes ++ (E.exec c (E.view s.db t.writes)).2 }
  | drew {q : Seq} {k : ℤ → Prog Stmt Ans Seq ε α} (draws : t.rest = .draw q k) :
      Advance E s i t (.exec i) { t with rest := k (s.seq q), ids := t.ids ++ [(q, s.seq q)] }
  | timedOut {c : Stmt} {k : Ans c → Prog Stmt Ans Seq ε α} (sends : t.rest = .send c k)
      (waits : blocked E s i c = true) : Advance E s i t (.timeout i) { t with rest := k (E.timeout c) }

/-- an open transaction was open as it is, has just begun, or was advanced by the operation -/
theorem step_running (s : St Stmt Ans Seq ε α Db Write Key R) (o : Op R) {i : ℕ}
    {u : Session Stmt Ans Seq ε α Write R} (h : (step E body s o).slot i = .running u) :
    s.slot i = .running u ∨ (∃ r, u = ⟨r, [], body r, []⟩) ∨
      ∃ t, s.slot i = .running t ∧ Advance E s i t o u := by
  have hm := step_move E body s o
  generalize step E body s o = s' at hm h
  cases hm with
  | idle => exact Or.inl h
  | @begin j r hs =>
    rcases slot_update h with ⟨_, hx⟩ | ⟨_, h⟩
    · cases hx; exact Or.inr (Or.inl ⟨r, rfl⟩)
    · exact Or.inl h
  | @sent j t c k hs hr hb =>
    rcases slot_update h with ⟨rfl, hx⟩ | ⟨_, h⟩
    · cases hx; exact Or.inr (Or.inr ⟨t, hs, .sent hr hb⟩)
    · exact Or.inl h
  | @drew j t q k hs hr =>
    rcases slot_update h with ⟨rfl, hx⟩ | ⟨_, h⟩
    · cases hx; exact Or.inr (Or.inr ⟨t, hs, .drew hr⟩)
    · exact Or.inl h
  | @timedOut j t c k hs hr hb =>
    rcases slot_update h with ⟨rfl, hx⟩ | ⟨_, h⟩
    · cases hx; exact Or.inr (Or.inr ⟨t, hs, .timedOut hr hb⟩)
    · exact Or.inl h
  | committed hs hr =>
    rcases slot_update h with ⟨_, hx⟩ | ⟨_, h⟩
    · cases hx
    · exact Or.inl h
  | rolledBack hs hr =>
    rcases slot_update h with ⟨_, hx⟩ | ⟨_, h⟩
    · cases hx
    · exact Or.inl h

/-- the operation that ends a transaction, with its outcome -/
inductive Answers (t : Session Stmt Ans Seq ε α Write R) (i : ℕ) : Op R → Except ε α → Prop where
  | committed {a : α} (done : t.rest = .done a) : Answers t i (.commit i) (.ok a)
  | rolledBack {e : ε} (failed : t.rest = .fail e) : Answers t i (.rollback i) (.error e)

theorem step_answered (s : St Stmt Ans Seq ε α Db Write Key R) (o : Op R) {i : ℕ} {r : R} {out : Except ε α}
    (h : (step E body s o).slot i = .finished r out) :
    s.slot i = .finished r out ∨ ∃ t, s.slot i = .running t ∧ t.req = r ∧ Answers t i o out := by
  have hm := step_move E body s o
  generalize step E body s o = s' at hm h
  cases hm with
  | idle => exact Or.inl h
  | begin hs =>
    rcases slot_update h with ⟨_, hx⟩ | ⟨_, h⟩
    · cases hx
    · exact Or.inl h
  | sent hs hr hb =>
    rcases slot_update h with ⟨_, hx⟩ | ⟨_, h⟩
    · cases hx
    · exact Or.inl h
  | drew hs hr =>
    rcases slot_update h with ⟨_, hx⟩ | ⟨_, h⟩
    · cases hx
    · exact Or.inl h
  | timedOut hs hr hb =>
    rcases slot_update h with ⟨_, hx⟩ | ⟨_, h⟩
    · cases hx
    · exact Or.inl h
  | @committed j t a hs hr =>
    rcases slot_update h with ⟨rfl, hx⟩ | ⟨_, h⟩
    · cases hx; exact Or.inr ⟨t, hs, rfl, .committed hr⟩
    · exact Or.inl h
  | @rolledBack j t e hs hr =>
    rcases slot_update h with ⟨rfl, hx⟩ | ⟨_, h⟩
    · cases hx; exact Or.inr ⟨t, hs, rfl, .rolledBack hr⟩
    · exact Or.inl h

/-! ## Ends -/

/-- every open transaction is at a point from which it ends as `P` says of its request -/
def EndsInv (E : Engine Stmt Ans Db Write Key Face) (P : R → List Write → Except ε α → Prop)
    (s : St Stmt Ans Seq ε α Db Write Key R) : Prop :=
  ∀ i t, s.slot i = .running t → t.rest.Ends E (P t.req) t.writes

theorem step_ends {P : R → List Write → Except ε α → Prop} (hbody : ∀ r, (body r).Ends E (P r) [])
    (s : St Stmt Ans Seq ε α Db Write Key R) (o : Op R) (h : EndsInv E P s) : EndsInv E P (step E body s o) := by
  intro j u hu
  rcases step_running s o hu with hs | ⟨r, rfl⟩ | ⟨t, hs, hadv⟩
  · exact h j u hs
  · exact hbody r
  · have hend := h j t hs
    cases hadv with
    | sent hr hb => rw [hr] at hend; exact hend.2 _
    | drew hr => rw [hr] at hend; exact hend _
    | timedOut hr hb => rw [hr] at hend; exact hend.1

theorem run_ends {P : R → List Write → Except ε α → Prop} (hbody : ∀ r, (body r).Ends E (P r) []) {d0 : Db}
    {q0 : Seq → ℤ} (ops : List (Op R)) : EndsInv E P (run E body (init d0 q0) ops) :=
  run_induction _ (fun i t ht => by cases ht) (fun s o h => step_ends hbody s o h) ops

/-! ## Drawn values -/

/-- drawn values lie below the next value of their sequence and from its start; no two transactions share one -/
structure DrawnInv (q0 : Seq → ℤ) (s : St Stmt Ans Seq ε α Db Write Key R) : Prop where
  start : ∀ q, q0 q ≤ s.seq q
  opened : ∀ i t, s.slot i = .running t → ∀ x ∈ t.ids, q0 x.1 ≤ x.2 ∧ x.2 < s.seq x.1
  logged : ∀ e ∈ s.log, ∀ x ∈ e.2, q0 x.1 ≤ x.2 ∧ x.2 < s.seq x.1
  apart : ∀ i j t u, s.slot i = .running t → s.slot j = .running u → i ≠ j → ∀ x ∈ t.ids, x ∉ u.ids
  unlogged : ∀ i t, s.slot i = .running t → ∀ e ∈ s.log, ∀ x ∈ t.ids, x ∉ e.2

theorem seq_le_counters (q : Seq) (g : Seq → ℤ) (r : Seq) : g r ≤ (counters q g).2 r := by
  unfold counters
  simp only
  split_ifs with h
  · subst h; omega
  · exact le_refl _

omit [DecidableEq Seq] [DecidableEq Key] in
/-- a transaction that changes nothing about its drawn values -/
theorem DrawnInv.update {q0 : Seq → ℤ} {s : St Stmt Ans Seq ε α Db Write Key R} (h : DrawnInv q0 s) {i : ℕ}
    {x : Slot Stmt Ans Seq ε α Write R}
    (hx : ∀ u, x = .running u → u.ids = [] ∨ ∃ t, s.slot i = .running t ∧ u.ids = t.ids)
    {s' : St Stmt Ans Seq ε α Db Write Key R} (hseq : s'.seq = s.seq) (hslot : s'.slot = Function.update s.slot i x)
    (hlog : s'.log = s.log ∨ ∃ t, s.slot i = .running t ∧ s'.log = s.log ++ [(t.req, t.ids)] ∧ ∀ u, x ≠ .running u) :
    DrawnInv q0 s' := by
  -- an open transaction after the change had the same values before it, or has none
  have back : ∀ j u, s'.slot j = .running u → u.ids = [] ∨ ∃ t, s.slot j = .running t ∧ u.ids = t.ids := by
    intro j u hu
    rw [hslot] at hu
    rcases slot_update hu with ⟨rfl, hxu⟩ | ⟨_, hu⟩
    · exact hx u hxu
    · exact Or.inr ⟨u, hu, rfl⟩
  have logBack : ∀ e ∈ s'.log, e ∈ s.log ∨ ∃ t, s.slot i = .running t ∧ e = (t.req, t.ids) ∧ ∀ u, x ≠ .running u := by
    intro e he
    rcases hlog with hl | ⟨t, ht, hl, hno⟩
    · exact Or.inl (hl ▸ he)
    · rw [hl] at he
      rcases List.mem_append.1 he with he | he
      · exact Or.inl he
      · exact Or.inr ⟨t, ht, List.mem_singleton.1 he, hno⟩
  refine ⟨fun q => hseq ▸ h.start q, fun j u hu y hy => ?_, fun e he y hy => ?_, fun j l u v hu hv hjl y hy => ?_,
    fun j u hu e he y hy => ?_⟩
  · rcases back j u hu with h0 | ⟨t, ht, hids⟩
    · rw [h0] at hy; cases hy
    · rw [hseq]; exact h.opened j t ht y (hids ▸ hy)
  · rw [hseq]
    rcases logBack e he with he | ⟨t, ht, rfl, -⟩
    · exact h.logged e he y hy
    · exact h.opened i t ht y hy
  · rcases back j u hu with h0 | ⟨t, ht, hids⟩
    · rw [h0] at hy; cases hy
    · rcases back l v hv with h0' | ⟨t', ht', hids'⟩
      · rw [h0']; exact List.not_mem_nil
      · rw [hids']; exact h.apart j l t t' ht ht' hjl y (hids ▸ hy)
  · rcases back j u hu with h0 | ⟨t, ht, hids⟩
    · rw [h0] at hy; cases hy
    · rcases logBack e he with he | ⟨t', ht', rfl, hno⟩
      · exact h.unlogged j t ht e he y (hids ▸ hy)
      · by_cases hji : j = i
        · subst hji
          rw [hslot, Function.update_self] at hu
          exact absurd hu (hno u)
        · exact h.apart j i t t' ht ht' hji y (hids ▸ hy)

theorem step_drawn {q0 : Seq → ℤ} (s : St Stmt Ans Seq ε α Db Write Key R) (o : Op R) (h : DrawnInv q0 s) :
    DrawnInv q0 (step E body s o) := by
  have hm := step_move E body s o
  generalize step E body s o = s' at hm ⊢
  cases hm with
  | idle => exact h
  | @begin i r hs => exact h.update (fun u hu => by cases hu; exact Or.inl rfl) rfl rfl (Or.inl rfl)
  | @sent i t c k hs hr hb => exact h.update (fun u hu => by cases hu; exact Or.inr ⟨t, hs, rfl⟩) rfl rfl (Or.inl rfl)
  | @timedOut i t c k hs hr hb =>
    exact h.update (fun u hu => by cases hu; exact Or.inr ⟨t, hs, rfl⟩) rfl rfl (Or.inl rfl)
  | @rolledBack i t e hs hr => exact h.update (fun u hu => by cases hu) rfl rfl (Or.inl rfl)
  | @committed i t a hs hr =>
    refine h.update (fun u hu => by cases hu) rfl rfl ?_
    by_cases he : t.writes.isEmpty
    · exact Or.inl (if_pos he)
    · exact Or.inr ⟨t, hs, if_neg he, fun u hu => by cases hu⟩
  | @drew i t q k hs hr =>
    -- the value drawn is the next of its sequence, so it is new
    have hnew : ∀ x : Seq × ℤ, x.2 < s.seq x.1 → x ≠ (q, s.seq q) := by
      rintro x hx rfl
      exact lt_irrefl _ hx
    have hlt : ∀ x : Seq × ℤ, q0 x.1 ≤ x.2 ∧ x.2 < s.seq x.1 → q0 x.1 ≤ x.2 ∧ x.2 < (counters q s.seq).2 x.1 :=
      fun x hx => ⟨hx.1, lt_of_lt_of_le hx.2 (seq_le_counters q s.seq x.1)⟩
    have hself : q0 q ≤ s.seq q ∧ s.seq q < (counters q s.seq).2 q := ⟨h.start q, by simp [counters]⟩
    refine ⟨fun r => (h.start r).trans (seq_le_counters q s.seq r), fun j u hu x hx => ?_,
      fun e he x hx => hlt x (h.logged e he x hx), fun j l u v hu hv hjl x hx => ?_, fun j u hu e he x hx => ?_⟩
    · rcases slot_update hu with ⟨rfl, hxu⟩ | ⟨_, hu⟩
      · cases hxu
        rcases List.mem_append.1 hx with hx | hx
        · exact hlt x (h.opened j t hs x hx)
        · rw [List.mem_singleton.1 hx]; exact hself
      · exact hlt x (h.opened j u hu x hx)
    · rcases slot_update hu with ⟨rfl, hxu⟩ | ⟨_, hju⟩
      · cases hxu
        rcases slot_update hv with ⟨rfl, _⟩ | ⟨_, hv⟩
        · exact absurd rfl hjl
        · rcases List.mem_append.1 hx with hx | hx
          · exact h.apart j l t v hs hv hjl x hx
          · intro hxv
            exact hnew x (h.opened l v hv x hxv).2 (List.mem_singleton.1 hx)
      · rcases slot_update hv with ⟨rfl, hxv⟩ | ⟨_, hv⟩
        · cases hxv
          intro hxv
          rcases List.mem_append.1 hxv with hxv | hxv
          · exact h.apart j l u t hju hs hjl x hx hxv
          · exact hnew x (h.opened j u hju x hx).2 (List.mem_singleton.1 hxv)
        · exact h.apart j l u v hju hv hjl x hx
    · rcases slot_update hu with ⟨rfl, hxu⟩ | ⟨_, hu⟩
      · cases hxu
        rcases List.mem_append.1 hx with hx | hx
        · exact h.unlogged j t hs e he x hx
        · intro hxe
          exact hnew x (h.logged e he x hxe).2 (List.mem_singleton.1 hx)
      · exact h.unlogged j u hu e he x hx

/-- **Values are drawn once.** -/
theorem run_drawn {d0 : Db} {q0 : Seq → ℤ} (ops : List (Op R)) : DrawnInv q0 (run E body (init d0 q0) ops) := by
  refine run_induction _ ⟨fun q => le_refl _, ?_, ?_, ?_, ?_⟩ (fun s o h => step_drawn s o h) ops
  · intro i t ht; cases ht
  · intro e he; cases he
  · intro i j t u ht; cases ht
  · intro i t ht; cases ht

/-- the value was drawn and no open transaction has it -/
def Spent (x : Seq × ℤ) (s : St Stmt Ans Seq ε α Db Write Key R) : Prop :=
  x.2 < s.seq x.1 ∧ ∀ i t, s.slot i = .running t → x ∉ t.ids

omit [DecidableEq Seq] [DecidableEq Key] in
theorem DrawnInv.spent {q0 : Seq → ℤ} {s : St Stmt Ans Seq ε α Db Write Key R} (h : DrawnInv q0 s)
    {e : R × List (Seq × ℤ)} (he : e ∈ s.log) {x : Seq × ℤ} (hx : x ∈ e.2) : Spent x s :=
  ⟨(h.logged e he x hx).2, fun i t ht hxt => h.unlogged i t ht e he x hxt hx⟩

theorem step_seq (s : St Stmt Ans Seq ε α Db Write Key R) (o : Op R) (q : Seq) : s.seq q ≤ (step E body s o).seq q := by
  have hm := step_move E body s o
  generalize step E body s o = s' at hm ⊢
  cases hm with
  | drew hs hr => exact seq_le_counters _ s.seq q
  | _ => exact le_refl _

theorem step_spent {x : Seq × ℤ} (s : St Stmt Ans Seq ε α Db Write Key R) (o : Op R) (h : Spent x s) :
    Spent x (step E body s o) := by
  obtain ⟨hlt, hopen⟩ := h
  refine ⟨lt_of_lt_of_le hlt (step_seq s o x.1), fun i u hu => ?_⟩
  rcases step_running s o hu with hs | ⟨r, rfl⟩ | ⟨t, hs, hadv⟩
  · exact hopen i u hs
  · exact List.not_mem_nil
  · cases hadv with
    | sent hr hb => exact hopen i t hs
    | timedOut hr hb => exact hopen i t hs
    | @drew q k hr =>
      intro hx
      rcases List.mem_append.1 hx with hx | hx
      · exact hopen i t hs hx
      · rw [List.mem_singleton.1 hx] at hlt
        exact lt_irrefl _ hlt

theorem run_spent {x : Seq × ℤ} (s : St Stmt Ans Seq ε α Db Write Key R) (h : Spent x s) (ops : List (Op R)) :
    Spent x (run E body s ops) :=
  run_induction s h (fun s o hs => step_spent s o hs) ops

/-! ## Answers -/

theorem step_finished (s : St Stmt Ans Seq ε α Db Write Key R) (o : Op R) {i : ℕ} {r : R} {out : Except ε α}
    (h : s.slot i = .finished r out) : (step E body s o).slot i = .finished r out := by
  have hm := step_move E body s o
  generalize step E body s o = s' at hm ⊢
  have keep : ∀ j x, (∀ u, s.slot j ≠ .finished r u) → Function.update s.slot j x i = .finished r out := by
    intro j x hj
    by_cases hij : i = j
    · subst hij; exact absurd h (hj out)
    · rw [Function.update_of_ne hij]; exact h
  cases hm with
  | idle => exact h
  | begin hs => exact keep _ _ fun u hu => by rw [hs] at hu; cases hu
  | sent hs hr hb => exact keep _ _ fun u hu => by rw [hs] at hu; cases hu
  | drew hs hr => exact keep _ _ fun u hu => by rw [hs] at hu; cases hu
  | timedOut hs hr hb => exact keep _ _ fun u hu => by rw [hs] at hu; cases hu
  | committed hs hr => exact keep _ _ fun u hu => by rw [hs] at hu; cases hu
  | rolledBack hs hr => exact keep _ _ fun u hu => by rw [hs] at hu; cases hu

theorem finished_stays (s : St Stmt Ans Seq ε α Db Write Key R) (ops : List (Op R)) {i : ℕ} {r : R} {out : Except ε α}
    (h : s.slot i = .finished r out) : (run E body s ops).slot i = .finished r out :=
  run_induction s (P := fun s => s.slot i = .finished r out) h (fun s o h => step_finished s o h) ops

/-! ## Without contention -/

section Uncontended

variable {s : St Stmt Ans Seq ε α Db Write Key R} {i : ℕ}

/-- nobody but `i` holds a lock -/
def Uncontended (s : St Stmt Ans Seq ε α Db Write Key R) (i : ℕ) : Prop := ∀ k j, s.owner k = some j → j = i

omit [DecidableEq Seq] [DecidableEq Key] in
theorem Uncontended.not_blocked (h : Uncontended s i) (c : Stmt) : blocked E s i c = false := by
  apply List.any_eq_false.2
  intro k _
  cases ho : s.owner k with
  | none => simp
  | some j => simp [h k j ho]

omit [DecidableEq Seq] in
theorem Uncontended.sent (h : Uncontended s i) {t : Session Stmt Ans Seq ε α Write R} {c : Stmt}
    {k : Ans c → Prog Stmt Ans Seq ε α} : Uncontended (sent E s i t c k) i := by
  intro x j hx
  rcases grant_cases hx with hx | ⟨hj, -, -⟩
  · exact h x j hx
  · exact hj

variable (E body)

/-- the rest of a program, executed in place statement by statement -/
theorem exec_uncontended (p : Prog Stmt Ans Seq ε α) (t : Session Stmt Ans Seq ε α Write R)
    (hs : s.slot i = .running t) (hp : t.rest = p) (hu : Uncontended s i) :
    ∃ n ids ws, (run E body s (List.replicate n (.exec i))).slot i =
        .running ⟨t.req, ids, Prog.ofExcept (p.run E counters s.seq (E.view s.db t.writes)).1, ws⟩ ∧
      (run E body s (List.replicate n (.exec i))).db = s.db ∧
      (run E body s (List.replicate n (.exec i))).seq = (p.run E counters s.seq (E.view s.db t.writes)).2.1 ∧
      E.view s.db ws = (p.run E counters s.seq (E.view s.db t.writes)).2.2 := by
  induction p generalizing s t with
  | done a =>
    obtain ⟨req, ids, rest, ws⟩ := t
    cases hp
    exact ⟨0, ids, ws, hs, rfl, rfl, rfl⟩
  | fail e =>
    obtain ⟨req, ids, rest, ws⟩ := t
    cases hp
    exact ⟨0, ids, ws, hs, rfl, rfl, rfl⟩
  | send c k ih =>
    have hstep := step_sent E body hs hp (hu.not_blocked c)
    have hslot := slot_sent E s i t c k
    obtain ⟨n, ids, ws, h1, h2, h3, h4⟩ := ih _ _ hslot rfl hu.sent
    rw [E.view_append] at h1 h3 h4
    refine ⟨n + 1, ids, ws, ?_⟩
    rw [List.replicate_succ, run_cons, hstep]
    exact ⟨h1, h2, h3, h4⟩
  | draw q k ih =>
    obtain ⟨s', hstep, hslot, hseq, hdb, howner⟩ : ∃ s', step E body s (.exec i) = s' ∧
        s'.slot i = .running { t with rest := k (s.seq q), ids := t.ids ++ [(q, s.seq q)] } ∧
        s'.seq = (counters q s.seq).2 ∧ s'.db = s.db ∧ s'.owner = s.owner := by
      refine ⟨_, rfl, ?_⟩
      simp [step, hs, hp]
    have hu' : Uncontended s' i := by
      intro x j hx
      rw [howner] at hx
      exact hu x j hx
    obtain ⟨n, ids, ws, h1, h2, h3, h4⟩ := ih _ _ hslot rfl hu'
    rw [hseq, hdb] at h1 h3
    rw [hdb] at h2
    rw [hseq, hdb] at h4
    refine ⟨n + 1, ids, ws, ?_⟩
    rw [List.replicate_succ, run_cons, hstep]
    exact ⟨h1, h2, h3, h4⟩

/-- a request with nothing beside it: `n` operations, and then its end -/
def uninterrupted (i : ℕ) (r : R) (n : ℕ) : List (Op R) :=
  .begin i r :: (List.replicate n (.exec i) ++ [.commit i, .rollback i])

/-- **A request without contention.** Begun and executed to its end, it is answered and changes the store as alone. -/
theorem run_uncontended (r : R) (hs : s.slot i = .free) (hu : Uncontended s i) : ∃ n,
    (run E body s (uninterrupted i r n)).slot i = .finished r ((body r).transaction E counters s.seq s.db).1 ∧
      (run E body s (uninterrupted i r n)).seq = ((body r).transaction E counters s.seq s.db).2.1 ∧
      (run E body s (uninterrupted i r n)).db = ((body r).transaction E counters s.seq s.db).2.2 := by
  obtain ⟨s', hstep, hslot, hseq, hdb, howner⟩ : ∃ s', step E body s (.begin i r) = s' ∧
      s'.slot i = .running ⟨r, [], body r, []⟩ ∧ s'.seq = s.seq ∧ s'.db = s.db ∧ s'.owner = s.owner := by
    refine ⟨_, rfl, ?_⟩
    simp [step, hs]
  have hu' : Uncontended s' i := by
    intro x j hx
    rw [howner] at hx
    exact hu x j hx
  obtain ⟨n, ids, ws, h1, h2, h3, h4⟩ := exec_uncontended E body (body r) _ hslot rfl hu'
  rw [hseq, hdb] at h1 h3 h4
  rw [hdb] at h2
  rw [Engine.view_nil] at h1 h3 h4
  refine ⟨n, ?_⟩
  unfold uninterrupted
  rw [run_cons, hstep, run_append]
  generalize run E body s' (List.replicate n (.exec i)) = u at h1 h2 h3
  unfold Prog.transaction
  generalize (body r).run E counters s.seq s.db = out at h1 h3 h4
  rcases out with ⟨e | a, g, d⟩
  · simp_all [run, step, Prog.ofExcept]
  · simp_all [run, step, Prog.ofExcept]

end Uncontended

end BankServices.RowLock
