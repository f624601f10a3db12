/-
Running dry: how much the open transactions still have to do, and that nothing keeps them from it.

`Prog.Within n` bounds the statements and draws of a program, whatever it is answered. `acts` says that an operation has
an effect in a state.

- `acts_left`: an operation with an effect takes one from what its slot has left (`Left`).
- `work_le`: so a request takes at most `n + 2` operations in every run, its begin and its end among them, where its
  program is within `n`.
- `length_le`: while nothing begins, the operations with an effect are bounded by what the open transactions have left.
- `exists_drain`: with ascending programs these can all be answered, without a lock timeout.
-/
import BankServices.Core.Linearizable
import BankServices.Core.LockOrder
import BankServices.Core.Potential

namespace BankServices.Txn

variable {Stmt : Type} {Ans : Stmt → Type} {Seq ε α β : Type}

namespace Prog

/-- at most `n` statements and draws, whatever the answers -/
def Within : Prog Stmt Ans Seq ε α → ℕ → Prop
  | .done _, _ | .fail _, _ => True
  | .send _ k, n => 0 < n ∧ ∀ a, (k a).Within (n - 1)
  | .draw _ k, n => 0 < n ∧ ∀ x, (k x).Within (n - 1)

theorem Within.mono {p : Prog Stmt Ans Seq ε α} {n m : ℕ} (h : p.Within n) (hnm : n ≤ m) : p.Within m := by
  induction p generalizing n m with
  | done a => trivial
  | fail e => trivial
  | send c k ih => exact ⟨h.1.trans_le hnm, fun a => ih a (h.2 a) (Nat.sub_le_sub_right hnm 1)⟩
  | draw q k ih => exact ⟨h.1.trans_le hnm, fun x => ih x (h.2 x) (Nat.sub_le_sub_right hnm 1)⟩

theorem Within.bind {p : Prog Stmt Ans Seq ε α} {f : α → Prog Stmt Ans Seq ε β} {n m : ℕ} (h : p.Within n)
    (hf : ∀ a, (f a).Within m) : (p >>= f).Within (n + m) := by
  induction p generalizing n with
  | done a => exact (hf a).mono (Nat.le_add_left m n)
  | fail e => trivial
  | send c k ih =>
    refine ⟨Nat.add_pos_left h.1 m, fun a => ?_⟩
    have hk := ih a (h.2 a)
    rwa [← Nat.sub_add_comm h.1] at hk
  | draw q k ih =>
    refine ⟨Nat.add_pos_left h.1 m, fun x => ?_⟩
    have hk := ih x (h.2 x)
    rwa [← Nat.sub_add_comm h.1] at hk

end Prog

end BankServices.Txn

namespace BankServices.RowLock

open BankServices.Txn BankServices.LockOrder BankServices.Potential

variable {Stmt : Type} {Ans : Stmt → Type} {Seq ε α Db Write Key Face R : Type}

/-! ## Operations with an effect -/

def acts (E : Engine Stmt Ans Db Write Key Face) (s : St Stmt Ans Seq ε α Db Write Key R) : Op R → Bool
  | .begin i _ =>
    match s.slot i with
    | .free => true
    | _ => false
  | .exec i =>
    match s.slot i with
    | .running t =>
      match t.rest with
      | .send c _ => !blocked E s i c
      | .draw _ _ => true
      | _ => false
    | _ => false
  | .timeout i =>
    match s.slot i with
    | .running t =>
      match t.rest with
      | .send c _ => blocked E s i c
      | _ => false
    | _ => false
  | .commit i =>
    match s.slot i with
    | .running t =>
      match t.rest with
      | .done _ => true
      | _ => false
    | _ => false
  | .rollback i =>
    match s.slot i with
    | .running t =>
      match t.rest with
      | .fail _ => true
      | _ => false
    | _ => false

def Op.begins : Op R → Bool
  | .begin _ _ => true
  | _ => false

/-- neither a begin nor a timeout -/
def Op.quiet : Op R → Bool
  | .begin _ _ | .timeout _ => false
  | _ => true

theorem begins_of_quiet {o : Op R} (h : o.quiet = true) : o.begins = false := by
  cases o with
  | begin i r => cases h
  | _ => rfl

/-- a request is open in the slot -/
def IsOpen (s : St Stmt Ans Seq ε α Db Write Key R) (i : ℕ) : Prop := ∃ t, s.slot i = .running t

section Budgets

variable [DecidableEq Seq] [DecidableEq Key] {E : Engine Stmt Ans Db Write Key Face} {body : R → Prog Stmt Ans Seq ε α}
  {s : St Stmt Ans Seq ε α Db Write Key R} {o : Op R} {i b : ℕ}

/-- an operation with an effect begins a request, advances it or answers it -/
inductive Acted (E : Engine Stmt Ans Db Write Key Face) (body : R → Prog Stmt Ans Seq ε α)
    (s : St Stmt Ans Seq ε α Db Write Key R) (o : Op R) : Slot Stmt Ans Seq ε α Write R → Prop where
  | begun {r : R} (free : s.slot o.slot = .free) (begins : o.begins = true) :
      Acted E body s o (.running ⟨r, [], body r, []⟩)
  | advanced {t u : Session Stmt Ans Seq ε α Write R} (running : s.slot o.slot = .running t)
      (advance : Advance E s o.slot t o u) : Acted E body s o (.running u)
  | answered {t : Session Stmt Ans Seq ε α Write R} {out : Except ε α} (running : s.slot o.slot = .running t)
      (answers : Answers t o.slot o out) : Acted E body s o (.finished t.req out)

theorem acts_acted (body : R → Prog Stmt Ans Seq ε α) (h : acts E s o = true) :
    Acted E body s o ((step E body s o).slot o.slot) := by
  cases o with
  | begin i r =>
    cases hs : s.slot i with
    | free =>
      simp only [step, hs, Op.slot, Function.update_self]
      exact .begun hs rfl
    | _ => simp [acts, hs] at h
  | exec i =>
    cases hs : s.slot i with
    | running t =>
      cases hr : t.rest with
      | send c k =>
        have hb : blocked E s i c = false := by simpa [acts, hs, hr] using h
        rw [step_sent E body hs hr hb, Op.slot, slot_sent]
        exact .advanced hs (.sent hr hb)
      | draw q k =>
        simp only [step, hs, hr, Op.slot, Function.update_self]
        exact .advanced hs (.drew hr)
      | _ => simp [acts, hs, hr] at h
    | _ => simp [acts, hs] at h
  | timeout i =>
    cases hs : s.slot i with
    | running t =>
      cases hr : t.rest with
      | send c k =>
        have hb : blocked E s i c = true := by simpa [acts, hs, hr] using h
        rw [Op.slot, slot_timedOut E body hs hr hb]
        exact .advanced hs (.timedOut hr hb)
      | _ => simp [acts, hs, hr] at h
    | _ => simp [acts, hs] at h
  | commit i =>
    cases hs : s.slot i with
    | running t =>
      cases hr : t.rest with
      | done a =>
        simp only [step, hs, hr, Op.slot, Function.update_self]
        exact .answered hs (.committed hr)
      | _ => simp [acts, hs, hr] at h
    | _ => simp [acts, hs] at h
  | rollback i =>
    cases hs : s.slot i with
    | running t =>
      cases hr : t.rest with
      | fail e =>
        simp only [step, hs, hr, Op.slot, Function.update_self]
        exact .answered hs (.rolledBack hr)
      | _ => simp [acts, hs, hr] at h
    | _ => simp [acts, hs] at h

/-- an operation without an effect changes nothing -/
theorem step_of_not_acts (h : acts E s o = false) : step E body s o = s := by
  have hm := step_move E body s o
  generalize step E body s o = s' at hm ⊢
  cases hm with
  | idle => rfl
  | begin hs => simp [acts, hs] at h
  | sent hs hr hb => simp [acts, hs, hr, hb] at h
  | drew hs hr => simp [acts, hs, hr] at h
  | timedOut hs hr hb => simp [acts, hs, hr, hb] at h
  | committed hs hr => simp [acts, hs, hr] at h
  | rolledBack hs hr => simp [acts, hs, hr] at h

/-- an operation leaves the other slots alone -/
theorem step_slot_ne (s : St Stmt Ans Seq ε α Db Write Key R) (o : Op R) (h : i ≠ o.slot) :
    (step E body s o).slot i = s.slot i := by
  have hm := step_move E body s o
  generalize step E body s o = s' at hm ⊢
  cases hm <;> first | rfl | exact Function.update_of_ne h _ _

/-! ## Budgets -/

/-- at most `n` operations with an effect are left for the slot; `b` bounds the programs -/
def Left (b : ℕ) : Slot Stmt Ans Seq ε α Write R → ℕ → Prop
  | .free, n => b + 2 ≤ n
  | .running t, n => ∃ m, m < n ∧ t.rest.Within m
  | .finished _ _, _ => True

omit [DecidableEq Seq] [DecidableEq Key] in
theorem advance_within {t u : Session Stmt Ans Seq ε α Write R} (h : Advance E s i t o u) {m : ℕ}
    (hw : t.rest.Within m) : 0 < m ∧ u.rest.Within (m - 1) := by
  cases h with
  | sent hr hb =>
    rw [hr] at hw
    exact ⟨hw.1, hw.2 _⟩
  | drew hr =>
    rw [hr] at hw
    exact ⟨hw.1, hw.2 _⟩
  | timedOut hr hb =>
    rw [hr] at hw
    exact ⟨hw.1, hw.2 _⟩

/-- an operation with an effect uses one up -/
theorem acts_left (hbody : ∀ r, (body r).Within b) (h : acts E s o = true) {n : ℕ} (hl : Left b (s.slot o.slot) n) :
    0 < n ∧ Left b ((step E body s o).slot o.slot) (n - 1) := by
  have hacted := acts_acted body h
  generalize (step E body s o).slot o.slot = x at hacted ⊢
  cases hacted with
  | @begun r hs hb =>
    rw [hs] at hl
    have hn : b + 2 ≤ n := hl
    exact ⟨by omega, b, by omega, hbody r⟩
  | advanced hs hadv =>
    rw [hs] at hl
    obtain ⟨m, hm, hw⟩ := hl
    obtain ⟨hpos, hu⟩ := advance_within hadv hw
    exact ⟨by omega, m - 1, by omega, hu⟩
  | answered hs hans =>
    rw [hs] at hl
    obtain ⟨m, hm, -⟩ := hl
    exact ⟨by omega, trivial⟩

/-- the operations of the slot that have an effect -/
def work (E : Engine Stmt Ans Db Write Key Face) (body : R → Prog Stmt Ans Seq ε α) (i : ℕ)
    (s : St Stmt Ans Seq ε α Db Write Key R) (ops : List (Op R)) : ℕ :=
  counted (step E body) (fun s o => acts E s o && o.slot == i) s ops

theorem slot_spends (hbody : ∀ r, (body r).Within b) (i : ℕ) (o : Op R) :
    Spends (step E body) (fun s o => acts E s o && o.slot == i) (fun s n => Left b (s.slot i) n) o := by
  intro s n hl
  by_cases hacts : (acts E s o && o.slot == i) = true
  · rw [if_pos hacts]
    simp only [Bool.and_eq_true, beq_iff_eq] at hacts
    obtain ⟨hacts, rfl⟩ := hacts
    obtain ⟨hpos, hnext⟩ := acts_left hbody hacts hl
    exact ⟨n - 1, hnext, by omega⟩
  · rw [if_neg hacts]
    have hsame : (step E body s o).slot i = s.slot i := by
      by_cases hi : i = o.slot
      · simp only [hi, beq_self_eq_true, Bool.and_true, Bool.not_eq_true] at hacts
        rw [step_of_not_acts hacts]
      · exact step_slot_ne s o hi
    have hkept : Left b ((step E body s o).slot i) n := by rwa [hsame]
    exact ⟨n, hkept, le_rfl⟩

/-- **Bounded work.** A request takes at most `b + 2` operations in every run. -/
theorem work_le (hbody : ∀ r, (body r).Within b) (d0 : Db) (q0 : Seq → ℤ) (ops : List (Op R)) (i : ℕ) :
    work E body i (init d0 q0) ops ≤ b + 2 :=
  counted_le (fun o _ => slot_spends hbody i o) (le_refl (b + 2))

/-- every open slot is in the set, with its budget -/
def Budgets (b : ℕ) (F : Finset ℕ) (w : ℕ → ℕ) (s : St Stmt Ans Seq ε α Db Write Key R) : Prop :=
  ∀ i, IsOpen s i → i ∈ F ∧ Left b (s.slot i) (w i)

/-- an operation that begins nothing and has an effect spends from the budgets -/
theorem acts_budgets (hbody : ∀ r, (body r).Within b) {F : Finset ℕ} {w : ℕ → ℕ} (hw : Budgets b F w s)
    (hacts : acts E s o = true) (hbegins : o.begins = false) : ∃ w', Budgets b F w' (step E body s o) ∧
      (∑ i ∈ F, w' i) + 1 = ∑ i ∈ F, w i := by
  have hopen : IsOpen s o.slot := by
    have hacted := acts_acted body hacts
    generalize (step E body s o).slot o.slot = x at hacted
    cases hacted with
    | begun hs hb =>
      rw [hbegins] at hb
      cases hb
    | advanced hs hadv => exact ⟨_, hs⟩
    | answered hs hans => exact ⟨_, hs⟩
  obtain ⟨hmem, hleft⟩ := hw _ hopen
  obtain ⟨hpos, hnext⟩ := acts_left hbody hacts hleft
  refine ⟨Function.update w o.slot (w o.slot - 1), fun i hi => ?_, ?_⟩
  · by_cases hio : i = o.slot
    · subst hio
      rw [Function.update_self]
      exact ⟨hmem, hnext⟩
    · unfold IsOpen at hi
      rw [step_slot_ne s o hio] at hi ⊢
      rw [Function.update_of_ne hio]
      exact hw i hi
  · rw [Finset.sum_update_of_mem hmem, Finset.sdiff_singleton_eq_erase, ← Finset.add_sum_erase F w hmem]
    omega

/-- **No livelock.** While nothing begins, only so many operations have an effect. -/
theorem length_le (hbody : ∀ r, (body r).Within b) {F : Finset ℕ} {w : ℕ → ℕ} (hw : Budgets b F w s)
    {ops : List (Op R)} (hbegins : ∀ o ∈ ops, o.begins = false) (hacts : along E body (acts E) s ops = true) :
    ops.length ≤ ∑ i ∈ F, w i := by
  induction ops generalizing s w with
  | nil => exact Nat.zero_le _
  | cons o ops ih =>
    simp only [along, Bool.and_eq_true] at hacts
    obtain ⟨w', hw', hsum⟩ := acts_budgets hbody hw hacts.1 (hbegins o List.mem_cons_self)
    have hrest := ih hw' (fun o' ho' => hbegins o' (List.mem_cons_of_mem o ho')) hacts.2
    simp only [List.length_cons]
    omega

end Budgets

/-! ## Draining -/

section Drain

variable [DecidableEq Seq] [LinearOrder Key] {E : Engine Stmt Ans Db Write Key Face}
  {body : R → Prog Stmt Ans Seq ε α} {s : St Stmt Ans Seq ε α Db Write Key R} {i b : ℕ}

omit [DecidableEq Seq] [LinearOrder Key] in
/-- a transaction that is ready has a quiet operation with an effect -/
theorem ready_acts (h : Ready E s i) : ∃ o : Op R, o.quiet = true ∧ acts E s o = true := by
  obtain ⟨t, hs, hclear⟩ := h
  cases hr : t.rest with
  | done a => exact ⟨.commit i, rfl, by simp [acts, hs, hr]⟩
  | fail e => exact ⟨.rollback i, rfl, by simp [acts, hs, hr]⟩
  | send c k => exact ⟨.exec i, rfl, by simp [acts, hs, hr, hclear c k hr]⟩
  | draw q k => exact ⟨.exec i, rfl, by simp [acts, hs, hr]⟩

/-- **No deadlock.** Where no quiet operation has an effect, nothing is open. -/
theorem closed_of_stuck {d0 : Db} (hi : Inv E body d0 s) (ho : OrderInv E s)
    (h : ∀ o : Op R, o.quiet = true → acts E s o = false) (i : ℕ) : ¬ IsOpen s i := by
  intro hopen
  obtain ⟨j, hready⟩ := progress hi ho ⟨i, hopen⟩
  obtain ⟨o, hquiet, hacts⟩ := ready_acts hready
  rw [h o hquiet] at hacts
  cases hacts

/-- **Draining.** What is open can be answered by quiet operations. -/
theorem exists_drain (hbody : ∀ r, (body r).Within b) (hasc : ∀ r, (body r).Ascending E [])
    (hdisc : ∀ r, (body r).Disciplined E [] false) {d0 : Db} (hi : Inv E body d0 s) (ho : OrderInv E s)
    {F : Finset ℕ} {w : ℕ → ℕ} (hw : Budgets b F w s) : ∃ more : List (Op R), (∀ o ∈ more, o.quiet = true) ∧
      along E body (acts E) s more = true ∧ ∀ i, ¬ IsOpen (run E body s more) i := by
  induction hn : ∑ i ∈ F, w i using Nat.strong_induction_on generalizing s w with
  | h n ih =>
    by_cases hstuck : ∀ o : Op R, o.quiet = true → acts E s o = false
    · exact ⟨[], by simp, rfl, closed_of_stuck hi ho hstuck⟩
    · push Not at hstuck
      obtain ⟨o, hquiet, hacts⟩ := hstuck
      rw [ne_eq, Bool.not_eq_false] at hacts
      obtain ⟨w', hw', hsum⟩ := acts_budgets hbody hw hacts (begins_of_quiet hquiet)
      obtain ⟨more, hall, halong, hclosed⟩ :=
        ih _ (by omega) (step_inv s o hdisc hi) (step_orderInv hasc s o hi ho) hw' rfl
      refine ⟨o :: more, ?_, ?_, hclosed⟩
      · intro o' ho'
        rcases List.mem_cons.1 ho' with rfl | ho'
        · exact hquiet
        · exact hall o' ho'
      · simp [along, hacts, halong]

end Drain

/-! ## Every run -/

section Runs

variable [DecidableEq Seq] [DecidableEq Key] {E : Engine Stmt Ans Db Write Key Face} {body : R → Prog Stmt Ans Seq ε α}
  {s : St Stmt Ans Seq ε α Db Write Key R} {i b : ℕ}

/-- an open request has at most as much left as its program -/
theorem run_within (hbody : ∀ r, (body r).Within b) {d0 : Db} {q0 : Seq → ℤ} (ops : List (Op R)) :
    ∀ i t, (run E body (init d0 q0) ops).slot i = .running t → t.rest.Within b := by
  apply run_induction (P := fun s => ∀ i t, s.slot i = .running t → t.rest.Within b)
  · intro i t ht
    cases ht
  · intro s o h i u hu
    rcases step_running s o hu with hs | ⟨r, rfl⟩ | ⟨t, hs, hadv⟩
    · exact h i u hs
    · exact hbody r
    · exact (advance_within hadv (h i t hs)).2.mono (Nat.sub_le b 1)

/-- a slot that was used is never free again -/
theorem used_stays (h : s.slot i ≠ .free) (ops : List (Op R)) : (run E body s ops).slot i ≠ .free := by
  refine run_induction (P := fun s => s.slot i ≠ .free) s h (fun s o hs hfree => ?_) ops
  have hm := step_move E body s o
  generalize step E body s o = s' at hm hfree
  cases hm with
  | idle => exact hs hfree
  | _ =>
    rcases slot_update hfree with ⟨_, hx⟩ | ⟨_, hold⟩
    · cases hx
    · exact hs hold

/-- a statement that times out in a run does so where a timeout is among the operations -/
theorem timedOut_earlier {s0 : St Stmt Ans Seq ε α Db Write Key R} {ops more : List (Op R)}
    (h : TimedOut E body s0 (ops ++ more) i) (hmore : Op.timeout i ∉ more) : TimedOut E body s0 ops i := by
  obtain ⟨pre, t, c, k, hp, hrest⟩ := h
  refine ⟨pre, t, c, k, ?_, hrest⟩
  rcases List.prefix_or_prefix_of_prefix hp (List.prefix_append ops more) with hp' | hp'
  · exact hp'
  · rcases List.prefix_concat_iff.1 hp' with heq | hlater
    · rw [heq]
    · obtain ⟨l, rfl⟩ := hlater
      rw [List.append_assoc] at hp
      have hmem : Op.timeout i ∈ l ++ [Op.timeout i] := List.mem_append_right _ (List.mem_singleton.2 rfl)
      exact absurd (((List.prefix_append_right_inj ops).1 hp).subset hmem) hmore

end Runs

end BankServices.RowLock
