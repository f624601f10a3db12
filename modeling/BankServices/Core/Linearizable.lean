/-
Linearizability of transactions under row locks: every request takes effect at one moment between its begin and its end.

A request that comes to its outcome without a write takes effect at that very step, any other one when it commits or
rolls back. A request whose statement timed out takes no effect. `history` lists the requests in the order in which they
take effect; it is computed along the run and only ever grows at its end.

- `run_stage`: after every run, the history is a sequential execution. Each request in it is answered, and changes the
  store, as it does alone on the store that the requests before it left, with the values that it drew; the last store is
  the committed one; every answered request that met no timeout is in it, once.
- `history_real_time`: a request that was answered before another one began comes before it in the history.
-/
import BankServices.Core.Sequential
import BankServices.Core.Sessions

namespace BankServices.Txn

variable {Stmt : Type} {Ans : Stmt → Type} {Seq ε α : Type}

/-- the outcome that a program has come to -/
def Prog.outcome : Prog Stmt Ans Seq ε α → Option (Except ε α)
  | .done a => some (.ok a)
  | .fail e => some (.error e)
  | _ => none

theorem outcome_eq_some {p : Prog Stmt Ans Seq ε α} {out : Except ε α} :
    p.outcome = some out ↔ p = Prog.ofExcept out := by
  cases p <;> cases out <;> simp [Prog.outcome, Prog.ofExcept]

@[simp] theorem outcome_ofExcept (out : Except ε α) :
    (Prog.ofExcept out : Prog Stmt Ans Seq ε α).outcome = some out := outcome_eq_some.2 rfl

theorem Prog.Settled.outcome {p : Prog Stmt Ans Seq ε α} (h : p.Settled) : ∃ out, p = Prog.ofExcept out := by
  cases p with
  | done a => exact ⟨.ok a, rfl⟩
  | fail e => exact ⟨.error e, rfl⟩
  | send c k => exact absurd h id
  | draw q k => exact absurd h id

theorem ofExcept_settled (out : Except ε α) : (Prog.ofExcept out : Prog Stmt Ans Seq ε α).Settled := by
  cases out <;> trivial

theorem ofExcept_injective : Function.Injective (Prog.ofExcept : Except ε α → Prog Stmt Ans Seq ε α) := by
  intro a b h
  have ha : (Prog.ofExcept a : Prog Stmt Ans Seq ε α).outcome = some a := outcome_ofExcept a
  rw [h, outcome_ofExcept] at ha
  exact (Option.some.inj ha).symm

end BankServices.Txn

namespace BankServices.RowLock

open BankServices.Txn BankServices.Sequential

/-! ## Events -/

/-- a request that takes effect: the slot it was begun in, the values that it drew, its outcome -/
structure Event (Seq ε α R : Type) where
  slot : ℕ
  req : R
  ids : List (Seq × ℤ)
  outcome : Except ε α

variable {Stmt : Type} {Ans : Stmt → Type} {Seq ε α Db Write Key Face R : Type}

/-- the slot that an operation is about -/
def Op.slot : Op R → ℕ
  | .begin i _ | .exec i | .timeout i | .commit i | .rollback i => i

/-- a transaction that has come to its outcome without a write takes effect -/
def atEnd (i : ℕ) (t : Session Stmt Ans Seq ε α Write R) : List (Event Seq ε α R) :=
  if t.writes.isEmpty then (t.rest.outcome.map fun out => ⟨i, t.req, t.ids, out⟩).toList else []

/-- a transaction with writes takes effect when it ends -/
def ended (i : ℕ) (t : Session Stmt Ans Seq ε α Write R) (out : Except ε α) : List (Event Seq ε α R) :=
  if t.writes.isEmpty then [] else [⟨i, t.req, t.ids, out⟩]

/-- the request that takes effect with an operation, seen from its slot before and after it -/
def taken (before after : Slot Stmt Ans Seq ε α Write R) : Op R → List (Event Seq ε α R)
  | .timeout _ => []
  | o =>
    match before, after with
    | .free, .running u => atEnd o.slot u
    | .running t, .running u => if t.rest.outcome.isSome then [] else atEnd o.slot u
    | .running t, .finished _ out => ended o.slot t out
    | _, _ => []

section Taken

variable {x y : Slot Stmt Ans Seq ε α Write R} {t u : Session Stmt Ans Seq ε α Write R} {i : ℕ}

theorem taken_begin (hx : x = .free) (hy : y = .running u) (r : R) :
    (taken x y (.begin i r) : List (Event Seq ε α R)) = atEnd i u := by
  rw [hx, hy]
  rfl

theorem taken_exec (hx : x = .running t) (hy : y = .running u) (hgo : ¬ t.rest.Settled) :
    (taken x y (.exec i : Op R) : List (Event Seq ε α R)) = atEnd i u := by
  rw [hx, hy]
  show (if t.rest.outcome.isSome then [] else atEnd i u) = atEnd i u
  cases hout : t.rest.outcome with
  | some out =>
    rw [outcome_eq_some.1 hout] at hgo
    exact absurd (ofExcept_settled out) hgo
  | none => rfl

theorem taken_end {r : R} {out : Except ε α} {o : Op R} (hx : x = .running t) (hy : y = .finished r out)
    (ho : o = .commit i ∨ o = .rollback i) : (taken x y o : List (Event Seq ε α R)) = ended i t out := by
  rw [hx, hy]
  rcases ho with rfl | rfl <;> rfl

end Taken

theorem taken_self (x : Slot Stmt Ans Seq ε α Write R) (o : Op R) :
    (taken x x o : List (Event Seq ε α R)) = [] := by
  have hrunning : ∀ t : Session Stmt Ans Seq ε α Write R,
      (if t.rest.outcome.isSome then [] else atEnd o.slot t : List (Event Seq ε α R)) = [] := by
    intro t
    cases hout : t.rest.outcome with
    | some out => rfl
    | none => simp [atEnd, hout]
  cases o with
  | timeout i => rfl
  | _ =>
    cases x with
    | running t => exact hrunning t
    | _ => rfl

section History

variable [DecidableEq Seq] [DecidableEq Key] (E : Engine Stmt Ans Db Write Key Face) (body : R → Prog Stmt Ans Seq ε α)

/-- the requests that take effect along a run, in that order -/
def history : St Stmt Ans Seq ε α Db Write Key R → List (Op R) → List (Event Seq ε α R)
  | _, [] => []
  | s, o :: ops => taken (s.slot o.slot) ((step E body s o).slot o.slot) o ++ history (step E body s o) ops

theorem history_append (s : St Stmt Ans Seq ε α Db Write Key R) (a b : List (Op R)) :
    history E body s (a ++ b) = history E body s a ++ history E body (run E body s a) b := by
  induction a generalizing s with
  | nil => rfl
  | cons o a ih =>
    rw [List.cons_append, history, history, ih, List.append_assoc]
    rfl

theorem history_snoc (s : St Stmt Ans Seq ε α Db Write Key R) (ops : List (Op R)) (o : Op R) :
    history E body s (ops ++ [o]) = history E body s ops ++
      taken ((run E body s ops).slot o.slot) ((step E body (run E body s ops) o).slot o.slot) o := by
  rw [history_append, history, history, List.append_nil]

/-- the history only grows at its end -/
theorem history_prefix (s : St Stmt Ans Seq ε α Db Write Key R) {pre ops : List (Op R)} (h : pre <+: ops) :
    history E body s pre <+: history E body s ops := by
  obtain ⟨more, rfl⟩ := h
  rw [history_append]
  exact List.prefix_append _ _

end History

/-! ## Stages -/

/-- a state of a run and the history that led to it: `T` says how a request takes effect, `late` which slots met a
timeout -/
structure Stage (T : Db → Event Seq ε α R → Db → Prop) (late : ℕ → Prop) (d0 : Db)
    (s : St Stmt Ans Seq ε α Db Write Key R) (l : List (Event Seq ε α R)) : Prop where
  legal : Legal T d0 l s.db
  once : (l.map Event.slot).Nodup
  begun : ∀ e ∈ l, s.slot e.slot = .finished e.req e.outcome ∨ ∃ t, s.slot e.slot = .running t ∧ t.req = e.req ∧
    t.ids = e.ids ∧ t.rest = Prog.ofExcept e.outcome ∧ t.writes = []
  answered : ∀ i r out, s.slot i = .finished r out → (∃ e ∈ l, e.slot = i) ∨ late i
  settled : ∀ i t, s.slot i = .running t → t.rest.Settled → t.writes = [] → (∃ e ∈ l, e.slot = i) ∨ late i

namespace Stage

variable {T T' : Db → Event Seq ε α R → Db → Prop} {late late' : ℕ → Prop} {d0 : Db}
  {s s' : St Stmt Ans Seq ε α Db Write Key R} {l : List (Event Seq ε α R)} {i : ℕ}
  {t u : Session Stmt Ans Seq ε α Write R}

theorem mono (hT : ∀ a e b, T a e b → T' a e b) (hlate : ∀ i, late i → late' i) (h : Stage T late d0 s l) :
    Stage T' late' d0 s l := by
  refine ⟨h.legal.mono hT, h.once, h.begun, fun i r out hs => ?_, fun i t hs hset hw => ?_⟩
  · exact (h.answered i r out hs).imp_right (hlate i)
  · exact (h.settled i t hs hset hw).imp_right (hlate i)

/-- an event of a slot that is open: the transaction has come to its outcome without a write -/
theorem begun_running (h : Stage T late d0 s l) (hs : s.slot i = .running t) {e : Event Seq ε α R} (he : e ∈ l)
    (hi : e.slot = i) : t.req = e.req ∧ t.ids = e.ids ∧ t.rest = Prog.ofExcept e.outcome ∧ t.writes = [] := by
  rcases h.begun e he with hfin | ⟨u, hu, hrest⟩
  · rw [hi, hs] at hfin
    cases hfin
  · rw [hi, hs] at hu
    cases hu
    exact hrest

/-- no event of a slot that is free, or whose transaction goes on -/
theorem not_begun (h : Stage T late d0 s l) (hs : s.slot i = .free ∨ ∃ t, s.slot i = .running t ∧ ¬ t.rest.Settled) :
    ∀ e ∈ l, e.slot ≠ i := by
  intro e he hi
  rcases hs with hs | ⟨t, hs, hgo⟩
  · rcases h.begun e he with hfin | ⟨u, hu, -⟩
    · rw [hi, hs] at hfin
      cases hfin
    · rw [hi, hs] at hu
      cases hu
  · obtain ⟨-, -, hrest, -⟩ := h.begun_running hs he hi
    rw [hrest] at hgo
    exact hgo (ofExcept_settled _)

/-- a slot of which the history must tell: answered, or at its outcome without a write -/
def Owed : Slot Stmt Ans Seq ε α Write R → Prop
  | .free => False
  | .running t => t.rest.Settled ∧ t.writes = []
  | .finished _ _ => True

theorem owed (h : Stage T late d0 s l) (ho : Owed (s.slot i)) : (∃ e ∈ l, e.slot = i) ∨ late i := by
  cases hs : s.slot i with
  | free =>
    rw [hs] at ho
    exact absurd ho id
  | running t =>
    rw [hs] at ho
    exact h.settled i t hs ho.1 ho.2
  | finished r out => exact h.answered i r out hs

/-- one slot changes, and the history stays as it is -/
theorem keep (h : Stage T late d0 s l) {x : Slot Stmt Ans Seq ε α Write R} (hdb : s'.db = s.db)
    (hslot : s'.slot = Function.update s.slot i x) (hx : ∀ e ∈ l, e.slot = i → x = .finished e.req e.outcome)
    (ho : Owed x → (∃ e ∈ l, e.slot = i) ∨ late i) : Stage T late d0 s' l := by
  have howed : ∀ j, Owed (s'.slot j) → (∃ e ∈ l, e.slot = j) ∨ late j := by
    intro j hj
    by_cases hji : j = i
    · subst hji
      rw [hslot, Function.update_self] at hj
      exact ho hj
    · rw [hslot, Function.update_of_ne hji] at hj
      exact h.owed hj
  refine ⟨hdb ▸ h.legal, h.once, fun e he => ?_, fun j r out hj => ?_, fun j t hj hset hw => ?_⟩
  · by_cases hi : e.slot = i
    · rw [hslot, hi, Function.update_self]
      exact Or.inl (hx e he hi)
    · rw [hslot, Function.update_of_ne hi]
      exact h.begun e he
  · exact howed j (by rw [hj]; trivial)
  · exact howed j (by rw [hj]; exact ⟨hset, hw⟩)

/-- one slot changes, and its request takes effect -/
theorem append (h : Stage T late d0 s l) {e : Event Seq ε α R} {x : Slot Stmt Ans Seq ε α Write R}
    (hnew : ∀ e' ∈ l, e'.slot ≠ e.slot) (hslot : s'.slot = Function.update s.slot e.slot x)
    (hx : x = .finished e.req e.outcome ∨ ∃ t, x = .running t ∧ t.req = e.req ∧ t.ids = e.ids ∧
      t.rest = Prog.ofExcept e.outcome ∧ t.writes = [])
    (last : T s.db e s'.db) : Stage T late d0 s' (l ++ [e]) := by
  have howed : ∀ j, Owed (s'.slot j) → (∃ e' ∈ l ++ [e], e'.slot = j) ∨ late j := by
    intro j hj
    by_cases hji : j = e.slot
    · exact Or.inl ⟨e, List.mem_append_right _ (List.mem_singleton.2 rfl), hji.symm⟩
    · rw [hslot, Function.update_of_ne hji] at hj
      exact (h.owed hj).imp_left fun ⟨e', he', hi⟩ => ⟨e', List.mem_append_left _ he', hi⟩
  refine ⟨.snoc h.legal last, ?_, fun e' he' => ?_, fun j r out hj => ?_, fun j t hj hset hw => ?_⟩
  · rw [List.map_append, List.map_singleton, List.nodup_append]
    refine ⟨h.once, List.nodup_singleton _, fun a ha b hb => ?_⟩
    obtain ⟨e', he', rfl⟩ := List.mem_map.1 ha
    rw [List.mem_singleton.1 hb]
    exact hnew e' he'
  · rcases List.mem_append.1 he' with he' | he'
    · rw [hslot, Function.update_of_ne (hnew e' he')]
      exact h.begun e' he'
    · rw [List.mem_singleton.1 he', hslot, Function.update_self]
      exact hx
  · exact howed j (by rw [hj]; trivial)
  · exact howed j (by rw [hj]; exact ⟨hset, hw⟩)

/-- a transaction begins or goes on, and takes effect when it comes to its outcome without a write -/
theorem advance (h : Stage T late d0 s l) (hdb : s'.db = s.db)
    (hslot : s'.slot = Function.update s.slot i (.running u))
    (hs : s.slot i = .free ∨ ∃ t, s.slot i = .running t ∧ ¬ t.rest.Settled)
    (hT : ∀ out, u.rest = Prog.ofExcept out → u.writes = [] → T s.db ⟨i, u.req, u.ids, out⟩ s.db) :
    Stage T late d0 s' (l ++ atEnd i u) := by
  have hnew := h.not_begun hs
  unfold atEnd
  split_ifs with hw
  · rw [List.isEmpty_iff] at hw
    cases hout : u.rest.outcome with
    | none =>
      rw [Option.map_none, Option.toList_none, List.append_nil]
      refine h.keep hdb hslot (fun e he hi => absurd hi (hnew e he)) fun ho => ?_
      obtain ⟨out, hr⟩ := ho.1.outcome
      rw [hr, outcome_ofExcept] at hout
      cases hout
    | some out =>
      have hr := outcome_eq_some.1 hout
      refine h.append hnew hslot (Or.inr ⟨u, rfl, rfl, rfl, hr, hw⟩) ?_
      rw [hdb]
      exact hT out hr hw
  · rw [List.append_nil]
    refine h.keep hdb hslot (fun e he hi => absurd hi (hnew e he)) fun ho => ?_
    rw [ho.2] at hw
    exact absurd rfl hw

/-- a transaction meets a timeout -/
theorem expire (h : Stage T late d0 s l) (hdb : s'.db = s.db)
    (hslot : s'.slot = Function.update s.slot i (.running u)) (hs : s.slot i = .running t) (hgo : ¬ t.rest.Settled)
    (hlate : late i) : Stage T late d0 s' l :=
  h.keep hdb hslot (fun e he hi => absurd hi (h.not_begun (Or.inr ⟨t, hs, hgo⟩) e he)) fun _ => Or.inr hlate

/-- a transaction ends, and takes effect when it has written -/
theorem finish (h : Stage T late d0 s l) {out : Except ε α} (hs : s.slot i = .running t)
    (hr : t.rest = Prog.ofExcept out) (hdb : t.writes = [] → s'.db = s.db)
    (hslot : s'.slot = Function.update s.slot i (.finished t.req out))
    (hT : t.writes ≠ [] → T s.db ⟨i, t.req, t.ids, out⟩ s'.db) : Stage T late d0 s' (l ++ ended i t out) := by
  unfold ended
  split_ifs with hw
  · rw [List.isEmpty_iff] at hw
    rw [List.append_nil]
    refine h.keep (hdb hw) hslot (fun e he hi => ?_) fun _ => ?_
    · obtain ⟨hreq, -, hrest, -⟩ := h.begun_running hs he hi
      have hout : out = e.outcome := ofExcept_injective (hr.symm.trans hrest)
      rw [hreq, hout]
    · refine h.settled i t hs ?_ hw
      rw [hr]
      exact ofExcept_settled out
  · rw [List.isEmpty_iff] at hw
    exact h.append (fun e he hi => hw (h.begun_running hs he hi).2.2.2) hslot (Or.inl rfl) (hT hw)

end Stage

/-! ## Every run -/

section Runs

variable [DecidableEq Seq] [DecidableEq Key] {E : Engine Stmt Ans Db Write Key Face} {body : R → Prog Stmt Ans Seq ε α}
  {s s0 : St Stmt Ans Seq ε α Db Write Key R} {ops : List (Op R)}

/-- a request takes effect on a store: alone there, it draws its values, comes to its outcome and leaves the store after
it; and at some moment of the run it was open, had drawn them and had come to that outcome, on that store -/
structure TakesEffect (E : Engine Stmt Ans Db Write Key Face) (body : R → Prog Stmt Ans Seq ε α)
    (s0 : St Stmt Ans Seq ε α Db Write Key R) (ops : List (Op R)) (d : Db) (e : Event Seq ε α R) (d' : Db) : Prop where
  alone : ∀ more, (body e.req).transaction E tape (e.ids ++ more) d = (e.outcome, more, d')
  moment : ∃ pre t, pre <+: ops ∧ (run E body s0 pre).db = d ∧ (run E body s0 pre).slot e.slot = .running t ∧
    t.req = e.req ∧ t.ids = e.ids ∧ t.rest = Prog.ofExcept e.outcome

/-- the store that a transaction leaves which writes `ws` on `d` and ends in an outcome -/
def after (E : Engine Stmt Ans Db Write Key Face) (d : Db) (ws : List Write) : Except ε α → Db
  | .ok _ => E.view d ws
  | .error _ => d

omit [DecidableEq Seq] [DecidableEq Key] in
@[simp] theorem after_nil (d : Db) (out : Except ε α) : after E d [] out = d := by
  cases out <;> rfl

/-- a statement of the slot's request timed out in the run -/
def TimedOut (E : Engine Stmt Ans Db Write Key Face) (body : R → Prog Stmt Ans Seq ε α)
    (s0 : St Stmt Ans Seq ε α Db Write Key R) (ops : List (Op R)) (i : ℕ) : Prop :=
  ∃ pre t c k, pre ++ [.timeout i] <+: ops ∧ (run E body s0 pre).slot i = .running t ∧ t.rest = .send c k ∧
    blocked E (run E body s0 pre) i c = true

theorem TakesEffect.mono {more : List (Op R)} (hp : ops <+: more) {d d' : Db} {e : Event Seq ε α R}
    (h : TakesEffect E body s0 ops d e d') : TakesEffect E body s0 more d e d' := by
  obtain ⟨halone, pre, t, hpre, hrest⟩ := h
  exact ⟨halone, pre, t, hpre.trans hp, hrest⟩

theorem TimedOut.mono {more : List (Op R)} (hp : ops <+: more) {i : ℕ} (h : TimedOut E body s0 ops i) :
    TimedOut E body s0 more i := by
  obtain ⟨pre, t, c, k, hpre, hrest⟩ := h
  exact ⟨pre, t, c, k, hpre.trans hp, hrest⟩

omit [DecidableEq Key] in
/-- a transaction that has run alone to its outcome does just that as a transaction -/
theorem Ran.transaction {d : Db} {H : Key → Prop} {p : Prog Stmt Ans Seq ε α} {ids : List (Seq × ℤ)}
    {out : Except ε α} {ws : List Write} (h : Ran E d H p ids (Prog.ofExcept out) ws) (more : List (Seq × ℤ)) :
    p.transaction E tape (ids ++ more) d = (out, more, after E d ws out) := by
  unfold Prog.transaction
  rw [h.run_eq more]
  cases out <;> rfl

omit [DecidableEq Key] in
/-- a transaction with something left to do, or with writes, is where its replay from the committed store leads -/
theorem Inv.ran {d0 : Db} (h : Inv E body d0 s) {i : ℕ} {t : Session Stmt Ans Seq ε α Write R}
    (hs : s.slot i = .running t) (hgo : ¬ (t.rest.Settled ∧ t.writes = [])) :
    Ran E s.db (fun _ => True) (body t.req) t.ids t.rest t.writes := by
  rcases (h.session i t hs).point with ⟨hran, -⟩ | hend
  · exact hran.congr (fun _ _ => trivial) fun _ _ => rfl
  · exact absurd hend hgo

/-- one operation, and what takes effect with it. `T` holds of a transaction that has come to its outcome before or after
the operation, where its replay from the committed store leads. -/
theorem step_stage {d0 : Db} (o : Op R) {T : Db → Event Seq ε α R → Db → Prop} {late : ℕ → Prop}
    {l : List (Event Seq ε α R)} (hinv : Inv E body d0 s) (h : Stage T late d0 s l)
    (hT : ∀ s1, s1 = s ∨ s1 = step E body s o → s1.db = s.db → ∀ i u out, s1.slot i = .running u →
      u.rest = Prog.ofExcept out → Ran E s.db (fun _ => True) (body u.req) u.ids u.rest u.writes →
      T s.db ⟨i, u.req, u.ids, out⟩ (after E s.db u.writes out))
    (hlate : ∀ i t c k, o = .timeout i → s.slot i = .running t → t.rest = .send c k → blocked E s i c = true → late i) :
    Stage T late d0 (step E body s o) (l ++ taken (s.slot o.slot) ((step E body s o).slot o.slot) o) := by
  have hm := step_move E body s o
  generalize step E body s o = s' at hm hT ⊢
  -- a transaction that comes to its outcome without a write takes effect on the store as it is
  have now : ∀ i u, s'.db = s.db → s'.slot i = .running u →
      Ran E s.db (fun _ => True) (body u.req) u.ids u.rest u.writes → ∀ out, u.rest = Prog.ofExcept out →
      u.writes = [] → T s.db ⟨i, u.req, u.ids, out⟩ s.db := by
    intro i u hdb hu hran out hr hw
    have hlast := hT s' (Or.inr rfl) hdb i u out hu hr hran
    rw [hw, after_nil] at hlast
    exact hlast
  cases hm with
  | idle =>
    rw [taken_self, List.append_nil]
    exact h
  | @begin i r hs =>
    show Stage T late d0 _ (l ++ taken (s.slot i) (Function.update s.slot i _ i) (.begin i r))
    rw [taken_begin hs (Function.update_self i _ s.slot)]
    exact h.advance rfl rfl (Or.inl hs) (now i _ rfl (Function.update_self _ _ _) .start)
  | @sent i t c k hs hr hb =>
    have hgo : ¬ t.rest.Settled := by
      rw [hr]
      exact id
    have hran := hinv.ran hs fun hend => hgo hend.1
    rw [hr] at hran
    show Stage T late d0 _ (l ++ taken (s.slot i) ((sent E s i t c k).slot i) (.exec i))
    rw [taken_exec hs (slot_sent E s i t c k) hgo]
    exact h.advance rfl rfl (Or.inr ⟨t, hs, hgo⟩)
      (now i _ rfl (slot_sent E s i t c k) (.sent hran fun _ _ => trivial))
  | @drew i t q k hs hr =>
    have hgo : ¬ t.rest.Settled := by
      rw [hr]
      exact id
    have hran := hinv.ran hs fun hend => hgo hend.1
    rw [hr] at hran
    show Stage T late d0 _ (l ++ taken (s.slot i) (Function.update s.slot i _ i) (.exec i))
    rw [taken_exec hs (Function.update_self i _ s.slot) hgo]
    exact h.advance rfl rfl (Or.inr ⟨t, hs, hgo⟩) (now i _ rfl (Function.update_self _ _ _) (.drew hran _))
  | @timedOut i t c k hs hr hb =>
    have hgo : ¬ t.rest.Settled := by
      rw [hr]
      exact id
    show Stage T late d0 _ (l ++ [])
    rw [List.append_nil]
    exact h.expire rfl rfl hs hgo (hlate i t c k rfl hs hr hb)
  | @committed i t a hs hr =>
    show Stage T late d0 _ (l ++ taken (s.slot i) (Function.update s.slot i _ i) (.commit i))
    rw [taken_end hs (Function.update_self i _ s.slot) (Or.inl rfl)]
    have hout : t.rest = Prog.ofExcept (.ok a) := hr
    refine h.finish hs hout (fun hw => ?_) rfl fun hw => ?_
    · exact congrArg (E.view s.db) hw
    · exact hT s (Or.inl rfl) rfl i t (.ok a) hs hr (hinv.ran hs fun hend => hw hend.2)
  | @rolledBack i t e hs hr =>
    show Stage T late d0 _ (l ++ taken (s.slot i) (Function.update s.slot i _ i) (.rollback i))
    rw [taken_end hs (Function.update_self i _ s.slot) (Or.inr rfl)]
    have hout : t.rest = Prog.ofExcept (.error e) := hr
    refine h.finish hs hout (fun _ => rfl) rfl fun hw => ?_
    exact hT s (Or.inl rfl) rfl i t (.error e) hs hr (hinv.ran hs fun hend => hw hend.2)

/-- **Stages.** After every run, the history is a sequential execution that leads to the committed store. -/
theorem run_stage (hbody : ∀ r, (body r).Disciplined E [] false) (d0 : Db) (q0 : Seq → ℤ) (ops : List (Op R)) :
    Stage (TakesEffect E body (init d0 q0) ops) (TimedOut E body (init d0 q0) ops) d0
      (run E body (init d0 q0) ops) (history E body (init d0 q0) ops) := by
  induction ops using List.reverseRecOn with
  | nil =>
    refine ⟨.nil, List.nodup_nil, fun e he => ?_, fun i r out hs => ?_, fun i t hs => ?_⟩
    · cases he
    · cases hs
    · cases hs
  | append_singleton ops o ih =>
    have hp : ops <+: ops ++ [o] := List.prefix_append _ _
    have h := ih.mono (fun _ _ _ he => he.mono hp) fun _ hl => hl.mono hp
    rw [history_snoc, run_snoc]
    refine step_stage o (run_inv hbody ops) h (fun s1 hs1 hdb i u out hu hr hran => ?_)
      fun i t c k ho hs hr hb => ⟨ops, t, c, k, ho ▸ List.prefix_refl _, hs, hr, hb⟩
    obtain ⟨pre, hpre, rfl⟩ : ∃ pre, pre <+: ops ++ [o] ∧ run E body (init d0 q0) pre = s1 := by
      rcases hs1 with rfl | rfl
      · exact ⟨ops, hp, rfl⟩
      · exact ⟨ops ++ [o], List.prefix_refl _, run_snoc _ _ _⟩
    refine ⟨fun more => ?_, pre, u, hpre, hdb, hu, rfl, rfl, hr⟩
    rw [hr] at hran
    exact hran.transaction more

omit [DecidableEq Seq] [DecidableEq Key] in
theorem taken_finished {x y : Slot Stmt Ans Seq ε α Write R} {o : Op R} {e : Event Seq ε α R} (h : e ∈ taken x y o) :
    ∀ r out, x ≠ .finished r out := by
  rintro r out rfl
  cases o <;> cases h

omit [DecidableEq Seq] [DecidableEq Key] in
theorem taken_slot {x y : Slot Stmt Ans Seq ε α Write R} {o : Op R} {e : Event Seq ε α R} (h : e ∈ taken x y o) :
    e.slot = o.slot := by
  have hatEnd : ∀ t : Session Stmt Ans Seq ε α Write R, e ∈ atEnd o.slot t → e.slot = o.slot := by
    intro t he
    unfold atEnd at he
    split_ifs at he
    · obtain ⟨out, -, rfl⟩ := Option.map_eq_some_iff.1 (Option.mem_toList.1 he)
      rfl
    · cases he
  have hended : ∀ (t : Session Stmt Ans Seq ε α Write R) out, e ∈ ended o.slot t out → e.slot = o.slot := by
    intro t out he
    unfold ended at he
    split_ifs at he
    · cases he
    · rw [List.mem_singleton.1 he]
  cases o with
  | timeout i => cases h
  | _ =>
    cases x with
    | free =>
      cases y with
      | running u => exact hatEnd u h
      | _ => cases h
    | running t =>
      cases y with
      | free => cases h
      | running u =>
        simp only [taken] at h
        split_ifs at h
        · cases h
        · exact hatEnd u h
      | finished r out => exact hended t out h
    | finished r out => cases h

/-- a request that was answered before takes no effect any more -/
theorem history_finished {e : Event Seq ε α R} (h : e ∈ history E body s ops) :
    ∀ r out, s.slot e.slot ≠ .finished r out := by
  induction ops generalizing s with
  | nil => cases h
  | cons o ops ih =>
    intro r out hfin
    rcases List.mem_append.1 h with h | h
    · rw [taken_slot h] at hfin
      exact taken_finished h r out hfin
    · exact ih h r out (step_finished s o hfin)

/-- **Real time.** A request answered before another one began comes before it in the history. -/
theorem history_real_time (hbody : ∀ r, (body r).Disciplined E [] false) (d0 : Db) (q0 : Seq → ℤ)
    {pre ops : List (Op R)} (hp : pre <+: ops) {e e' : Event Seq ε α R}
    (he : e ∈ history E body (init d0 q0) ops) (he' : e' ∈ history E body (init d0 q0) ops)
    (hanswered : ∃ r out, (run E body (init d0 q0) pre).slot e.slot = .finished r out)
    (hfree : (run E body (init d0 q0) pre).slot e'.slot = .free) :
    List.Sublist [e, e'] (history E body (init d0 q0) ops) := by
  obtain ⟨later, rfl⟩ := hp
  obtain ⟨r, out, hfin⟩ := hanswered
  rw [history_append] at he he' ⊢
  have hfirst := (List.mem_append.1 he).resolve_right fun h => history_finished h r out hfin
  have hlast := (List.mem_append.1 he').resolve_left fun h =>
    (run_stage hbody d0 q0 pre).not_begun (Or.inl hfree) e' h rfl
  exact (List.singleton_sublist.2 hfirst).append (List.singleton_sublist.2 hlast)

end Runs

end BankServices.RowLock
