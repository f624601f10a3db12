/-
`ShutdownHook`: a deque of actions that a thread closes one after the other when the application exits.

A run is any list of operations: registrations at either end of the deque, by whoever holds the hook or by an action
that is being closed, and the steps of the thread, in any order. A call of `close` ends by returning or by throwing.
A registration after the loop has ended is never closed, so the runs looked at (`allowed`) have none.

- `drained`: what is closed and what is still queued are together what was registered, in every allowed run; each poll
  closes the foremost action; the thread can always go on until it ends, and ends after a number of steps that the
  number of registrations fixes; then everything is closed.
- `run_quiet`: what the actions throw changes nothing but the log.
- `closed_in_order`: without registrations after the start, actions are closed in the order of the deque at the start.
-/
import Mathlib.Tactic

namespace BankServices.Webapp.ShutdownHook

/-! ## Model -/

/-- where the thread is in its loop -/
inductive Thread (α : Type) where
  | new
  | polling
  | closing (action : α)
  /-- the deque was found empty and the loop is left -/
  | terminated
deriving DecidableEq, Repr

structure St (α ε : Type) where
  name : String
  shutdownActions : List α
  thread : Thread α
  /-- the actions whose `close` was called, in order -/
  closed : List α
  LOG : List (String × ε)
deriving DecidableEq, Repr

inductive Op (α ε : Type) where
  | addFirst (shutdownAction : α)
  | addLast (shutdownAction : α)
  | start
  | poll
  /-- the call of `close` returns, or throws -/
  | closeEnds (thrown : Option ε)
deriving DecidableEq, Repr

variable {α ε : Type}

def init (name : String) : St α ε := ⟨name, [], .new, [], []⟩

def addFirst (s : St α ε) (shutdownAction : α) : St α ε :=
  { s with shutdownActions := shutdownAction :: s.shutdownActions }

def addLast (s : St α ε) (shutdownAction : α) : St α ε :=
  { s with shutdownActions := s.shutdownActions ++ [shutdownAction] }

/-- the head of the deque is taken off and its `close` is called; the loop breaks when there is none -/
def poll (s : St α ε) : St α ε :=
  match s.shutdownActions with
  | [] => { s with thread := .terminated }
  | action :: rest =>
    { s with shutdownActions := rest, thread := .closing action, closed := s.closed ++ [action] }

/-- whatever is thrown is caught and logged, and the loop goes on -/
def closeEnds (s : St α ε) : Option ε → St α ε
  | none => { s with thread := .polling }
  | some ex => { s with thread := .polling, LOG := s.LOG ++ [(s.name, ex)] }

@[simp] theorem closeEnds_thread (s : St α ε) (thrown : Option ε) : (closeEnds s thrown).thread = .polling := by
  cases thrown <;> rfl

@[simp] theorem closeEnds_closed (s : St α ε) (thrown : Option ε) : (closeEnds s thrown).closed = s.closed := by
  cases thrown <;> rfl

@[simp] theorem closeEnds_shutdownActions (s : St α ε) (thrown : Option ε) :
    (closeEnds s thrown).shutdownActions = s.shutdownActions := by
  cases thrown <;> rfl

def step (s : St α ε) : Op α ε → St α ε
  | .addFirst a => addFirst s a
  | .addLast a => addLast s a
  | .start =>
    match s.thread with
    | .new => { s with thread := .polling }
    | _ => s
  | .poll =>
    match s.thread with
    | .polling => poll s
    | _ => s
  | .closeEnds thrown =>
    match s.thread with
    | .closing _ => closeEnds s thrown
    | _ => s

def run (name : String) (ops : List (Op α ε)) : St α ε := ops.foldl step (init name)

/-- the operation can happen now; a registration can until the loop has ended -/
def enabled (s : St α ε) : Op α ε → Bool
  | .addFirst _ | .addLast _ =>
    match s.thread with
    | .terminated => false
    | _ => true
  | .start =>
    match s.thread with
    | .new => true
    | _ => false
  | .poll =>
    match s.thread with
    | .polling => true
    | _ => false
  | .closeEnds _ =>
    match s.thread with
    | .closing _ => true
    | _ => false

/-- every operation can happen in the state that it meets -/
def allowed (s : St α ε) : List (Op α ε) → Bool
  | [] => true
  | o :: ops => enabled s o && allowed (step s o) ops

namespace Op

def first : Op α ε → Option α
  | .addFirst a => some a
  | _ => none

def last : Op α ε → Option α
  | .addLast a => some a
  | _ => none

/-- the action that the operation registers -/
def action (o : Op α ε) : Option α := o.first.or o.last

/-- a step of the thread, once it is started -/
def ofThread : Op α ε → Bool
  | .poll | .closeEnds _ => true
  | _ => false

/-- the same operation with nothing thrown -/
def quiet : Op α ε → Op α ε
  | .closeEnds _ => .closeEnds none
  | o => o

end Op

def registered (ops : List (Op α ε)) : List α := ops.filterMap Op.action

/-- what the operation closes: the head of the deque, when it is a poll -/
def foremost (s : St α ε) : Op α ε → List α
  | .poll => s.shutdownActions.head?.toList
  | _ => []

/-! ## Runs -/

theorem run_snoc (name : String) (ops : List (Op α ε)) (o : Op α ε) :
    run name (ops ++ [o]) = step (run name ops) o := by
  simp [run, List.foldl_append]

theorem run_append (name : String) (ops more : List (Op α ε)) :
    run name (ops ++ more) = more.foldl step (run name ops) := by
  simp [run, List.foldl_append]

theorem allowed_append {s : St α ε} {ops more : List (Op α ε)} :
    allowed s (ops ++ more) = (allowed s ops && allowed (ops.foldl step s) more) := by
  induction ops generalizing s with
  | nil => simp [allowed]
  | cons o ops ih => simp [allowed, ih, Bool.and_assoc]

theorem allowed_snoc {name : String} {ops : List (Op α ε)} {o : Op α ε} :
    allowed (init name) (ops ++ [o]) = true ↔ allowed (init name) ops = true ∧ enabled (run name ops) o = true := by
  rw [allowed_append, Bool.and_eq_true]
  unfold run
  simp [allowed]

/-- what holds at first and is kept by every step that can happen holds after every allowed run -/
theorem run_induction {name : String} {P : List (Op α ε) → St α ε → Prop} (h0 : P [] (init name))
    (hstep : ∀ ops o, enabled (run name ops) o = true → P ops (run name ops) →
      P (ops ++ [o]) (step (run name ops) o)) :
    ∀ ops, allowed (init name) ops = true → P ops (run name ops) := by
  intro ops
  induction ops using List.reverseRecOn with
  | nil =>
    intro _
    exact h0
  | append_singleton ops o ih =>
    intro h
    obtain ⟨hops, ho⟩ := allowed_snoc.1 h
    rw [run_snoc]
    exact hstep ops o ho (ih hops)

/-- what an operation that can happen does -/
inductive Move (s : St α ε) : Op α ε → St α ε → Prop where
  | addFirst (a : α) (h : s.thread ≠ .terminated) : Move s (.addFirst a) (addFirst s a)
  | addLast (a : α) (h : s.thread ≠ .terminated) : Move s (.addLast a) (addLast s a)
  | started (h : s.thread = .new) : Move s .start { s with thread := .polling }
  | broke (h : s.thread = .polling) (hq : s.shutdownActions = []) : Move s .poll { s with thread := .terminated }
  | polled {a : α} {rest : List α} (h : s.thread = .polling) (hq : s.shutdownActions = a :: rest) :
      Move s .poll { s with shutdownActions := rest, thread := .closing a, closed := s.closed ++ [a] }
  | closed {a : α} (h : s.thread = .closing a) (thrown : Option ε) :
      Move s (.closeEnds thrown) (closeEnds s thrown)

theorem step_move {s : St α ε} {o : Op α ε} (h : enabled s o = true) : Move s o (step s o) := by
  cases o with
  | addFirst a =>
    apply Move.addFirst
    intro ht
    simp [enabled, ht] at h
  | addLast a =>
    apply Move.addLast
    intro ht
    simp [enabled, ht] at h
  | start =>
    cases ht : s.thread with
    | new => simpa only [step, ht] using Move.started ht
    | _ => simp [enabled, ht] at h
  | poll =>
    cases ht : s.thread with
    | polling =>
      cases hq : s.shutdownActions with
      | nil => simpa only [step, ht, poll, hq] using Move.broke ht hq
      | cons a rest => simpa only [step, ht, poll, hq] using Move.polled ht hq
    | _ => simp [enabled, ht] at h
  | closeEnds thrown =>
    cases ht : s.thread with
    | closing a => simpa only [step, ht] using Move.closed ht thrown
    | _ => simp [enabled, ht] at h

/-- a step of the thread that cannot be made now changes nothing -/
theorem step_disabled {s : St α ε} {o : Op α ε} (h : enabled s o = false) (hno : o.action = none) : step s o = s := by
  cases o with
  | addFirst a => cases hno
  | addLast a => cases hno
  | start => cases ht : s.thread <;> simp [step, enabled, ht] at h ⊢
  | poll => cases ht : s.thread <;> simp [step, enabled, ht] at h ⊢
  | closeEnds thrown => cases ht : s.thread <;> simp [step, enabled, ht] at h ⊢

/-- the loop that has ended stays ended -/
theorem step_terminated {s : St α ε} {o : Op α ε} (h : s.thread = .terminated) (hno : o.action = none) :
    step s o = s := by
  refine step_disabled ?_ hno
  cases o with
  | addFirst a => cases hno
  | addLast a => cases hno
  | _ => simp [enabled, h]

/-- the loop ends with an empty deque only -/
theorem step_ends {s : St α ε} {o : Op α ε} (h : s.thread ≠ .terminated) (hno : o.action = none)
    (hends : (step s o).thread = .terminated) : (step s o).shutdownActions = [] := by
  cases he : enabled s o with
  | false =>
    rw [step_disabled he hno] at hends
    exact absurd hends h
  | true =>
    have hm := step_move he
    generalize step s o = s' at hm hends ⊢
    cases hm with
    | addFirst a _ => cases hno
    | addLast a _ => cases hno
    | started _ => cases hends
    | broke _ hq => exact hq
    | polled _ _ => cases hends
    | closed _ thrown =>
      rw [closeEnds_thread] at hends
      cases hends

/-! ## Nothing lost -/

/-- the steps that the thread still has to make, if nothing more is registered -/
def remaining (s : St α ε) : ℕ :=
  match s.thread with
  | .new | .polling => 2 * s.shutdownActions.length + 1
  | .closing _ => 2 * s.shutdownActions.length + 2
  | .terminated => 0

/-- closed and queued actions are those registered, and the steps of the thread are accounted for -/
structure Balanced (ops : List (Op α ε)) (s : St α ε) : Prop where
  kept : (s.closed ++ s.shutdownActions).Perm (registered ops)
  ended : s.thread = .terminated → s.shutdownActions = []
  steps : ops.countP Op.ofThread + remaining s = 2 * (registered ops).length + 1

theorem registered_snoc (ops : List (Op α ε)) (o : Op α ε) :
    registered (ops ++ [o]) = registered ops ++ o.action.toList := by
  unfold registered
  rw [List.filterMap_append]
  cases h : o.action <;> simp [h]

theorem remaining_of_thread {s : St α ε} (h : s.thread ≠ .terminated) (q : List α) :
    remaining { s with shutdownActions := q } + 2 * s.shutdownActions.length = remaining s + 2 * q.length := by
  cases ht : s.thread with
  | terminated => exact absurd ht h
  | _ =>
    simp only [remaining, ht]
    omega

/-- a registered action waits in the deque, wherever it was put -/
theorem Balanced.register {ops : List (Op α ε)} {s : St α ε} (h : Balanced ops s) (ht : s.thread ≠ .terminated)
    {o : Op α ε} {a : α} (ha : o.action = some a) (hno : o.ofThread = false) {q : List α}
    (hq : q.Perm (s.shutdownActions ++ [a])) : Balanced (ops ++ [o]) { s with shutdownActions := q } := by
  have hlen := hq.length_eq
  have hsteps := h.steps
  have hrem := remaining_of_thread ht q
  rw [List.length_append, List.length_singleton] at hlen
  refine ⟨?_, fun hterm => absurd hterm ht, ?_⟩
  · have hmore : (s.closed ++ q).Perm (s.closed ++ s.shutdownActions ++ [a]) := by
      rw [List.append_assoc]
      exact hq.append_left _
    rw [registered_snoc, ha]
    exact hmore.trans (h.kept.append_right _)
  · rw [registered_snoc, ha, List.countP_append, List.countP_singleton, hno]
    simp only [Option.toList_some, List.length_append, List.length_singleton, Bool.false_eq_true, if_false]
    omega

/-- an operation that registers nothing moves actions from the deque to the closed ones, at the cost of its own step -/
theorem Balanced.advance {ops : List (Op α ε)} {s s' : St α ε} (h : Balanced ops s) {o : Op α ε}
    (hno : o.action = none) (hkept : s'.closed ++ s'.shutdownActions = s.closed ++ s.shutdownActions)
    (hended : s'.thread = .terminated → s'.shutdownActions = [])
    (hrem : remaining s = remaining s' + if o.ofThread = true then 1 else 0) : Balanced (ops ++ [o]) s' := by
  have hsteps := h.steps
  refine ⟨?_, hended, ?_⟩
  · rw [registered_snoc, hno, hkept, Option.toList_none, List.append_nil]
    exact h.kept
  · rw [registered_snoc, hno, List.countP_append, List.countP_singleton, Option.toList_none, List.append_nil]
    omega

theorem step_balanced {ops : List (Op α ε)} {s : St α ε} {o : Op α ε} (he : enabled s o = true)
    (h : Balanced ops s) : Balanced (ops ++ [o]) (step s o) := by
  have hm := step_move he
  generalize step s o = s' at hm ⊢
  cases hm with
  | addFirst a ht => exact h.register ht rfl rfl (List.perm_append_singleton a _).symm
  | addLast a ht => exact h.register ht rfl rfl (List.Perm.refl _)
  | started ht =>
    refine h.advance rfl rfl ?_ ?_
    · intro hterm
      cases hterm
    · simp [remaining, ht, Op.ofThread]
  | broke ht hq =>
    refine h.advance rfl rfl ?_ ?_
    · intro _
      exact hq
    · simp [remaining, ht, hq, Op.ofThread]
  | @polled a rest ht hq =>
    refine h.advance rfl ?_ ?_ ?_
    · simp [hq]
    · intro hterm
      cases hterm
    · simp [remaining, ht, hq, Op.ofThread]
      omega
  | @closed a ht thrown =>
    refine h.advance rfl ?_ ?_ ?_
    · simp
    · intro hterm
      rw [closeEnds_thread] at hterm
      cases hterm
    · simp [remaining, ht, Op.ofThread]

theorem run_balanced (name : String) (ops : List (Op α ε)) (h : allowed (init name) ops = true) :
    Balanced ops (run name ops) := by
  refine run_induction (P := Balanced) ?_ (fun ops o he hb => step_balanced he hb) ops h
  exact ⟨List.Perm.refl _, fun _ => rfl, rfl⟩

/-- until the loop has ended, the started thread has a next step, whatever the action being closed throws -/
theorem thread_goes_on {s : St α ε} (hstart : s.thread ≠ .new) (hend : s.thread ≠ .terminated) :
    enabled s .poll = true ∨ ∀ thrown, enabled s (.closeEnds thrown) = true := by
  cases ht : s.thread with
  | new => exact absurd ht hstart
  | polling => exact Or.inl (by simp [enabled, ht])
  | closing a => exact Or.inr fun thrown => by simp [enabled, ht]
  | terminated => exact absurd ht hend

/-! ## Order -/

/-- only a poll closes, and it closes the head of the deque -/
theorem step_closed {s : St α ε} {o : Op α ε} (he : enabled s o = true) :
    (step s o).closed = s.closed ++ foremost s o := by
  have hm := step_move he
  generalize step s o = s' at hm ⊢
  cases hm with
  | broke ht hq => simp [foremost, hq]
  | polled ht hq => simp [foremost, hq]
  | closed ht thrown => simp [foremost]
  | _ => simp [foremost, addFirst, addLast]

/-- without registrations the closed actions and the deque after them are one fixed list -/
theorem step_row {s : St α ε} {o : Op α ε} (he : enabled s o = true) (hno : o.action = none) :
    (step s o).closed ++ (step s o).shutdownActions = s.closed ++ s.shutdownActions := by
  have hm := step_move he
  generalize step s o = s' at hm ⊢
  cases hm with
  | addFirst a ht => cases hno
  | addLast a ht => cases hno
  | polled ht hq => simp [hq]
  | closed ht thrown => simp
  | _ => rfl

/-- the same, whether the operation can happen or not -/
theorem any_row (s : St α ε) {o : Op α ε} (hno : o.action = none) :
    (step s o).closed ++ (step s o).shutdownActions = s.closed ++ s.shutdownActions := by
  cases he : enabled s o with
  | false => rw [step_disabled he hno]
  | true => exact step_row he hno

theorem run_row {s : St α ε} {ops : List (Op α ε)} (h : allowed s ops = true) (hno : registered ops = []) :
    (ops.foldl step s).closed ++ (ops.foldl step s).shutdownActions = s.closed ++ s.shutdownActions := by
  induction ops generalizing s with
  | nil => rfl
  | cons o ops ih =>
    obtain ⟨ho, hrest⟩ := Bool.and_eq_true_iff.1 h
    have hnone : o.action = none ∧ registered ops = [] := by
      unfold registered at hno ⊢
      cases ha : o.action with
      | none => simpa [ha] using hno
      | some a => simp [ha] at hno
    exact (ih hrest hnone.2).trans (step_row ho hnone.1)

/-- before the start only registrations happen, and the deque holds the first ones reversed, then the last ones -/
theorem run_new (name : String) (ops : List (Op α ε)) (h : allowed (init name) ops = true) :
    (run name ops).thread = .new → (run name ops).closed = [] ∧
      (run name ops).shutdownActions = (ops.filterMap Op.first).reverse ++ ops.filterMap Op.last := by
  refine run_induction (P := fun ops s => s.thread = .new → s.closed = [] ∧
    s.shutdownActions = (ops.filterMap Op.first).reverse ++ ops.filterMap Op.last) (fun _ => ⟨rfl, rfl⟩) ?_ ops h
  intro ops o he hbefore
  have hm := step_move he
  generalize step (run name ops) o = s' at hm ⊢
  intro hnew
  cases hm with
  | addFirst a ht =>
    obtain ⟨hclosed, hqueue⟩ := hbefore hnew
    refine ⟨hclosed, ?_⟩
    simp [addFirst, hqueue, Op.first, Op.last]
  | addLast a ht =>
    obtain ⟨hclosed, hqueue⟩ := hbefore hnew
    refine ⟨hclosed, ?_⟩
    simp [addLast, hqueue, Op.first, Op.last]
  | closed ht thrown =>
    rw [closeEnds_thread] at hnew
    cases hnew
  | _ => cases hnew

theorem enabled_start {s : St α ε} (h : enabled s .start = true) : s.thread = .new := by
  cases ht : s.thread with
  | new => rfl
  | _ => simp [enabled, ht] at h

/-- with all registrations before the start, the closed actions and those still queued are in the order of the deque -/
theorem closed_in_order (name : String) {adds rest : List (Op α ε)}
    (h : allowed (init name) (adds ++ .start :: rest) = true) (hno : registered rest = []) :
    (run name (adds ++ .start :: rest)).closed ++ (run name (adds ++ .start :: rest)).shutdownActions =
      (adds.filterMap Op.first).reverse ++ adds.filterMap Op.last := by
  rw [allowed_append, Bool.and_eq_true] at h
  obtain ⟨hadds, hrest⟩ := h
  have hnew : (run name adds).thread = .new := enabled_start (Bool.and_eq_true_iff.1 hrest).1
  obtain ⟨hclosed, hqueue⟩ := run_new name adds hadds hnew
  have hrow := run_row hrest (show registered (.start :: rest) = [] from hno)
  rw [run_append]
  refine hrow.trans ?_
  show (run name adds).closed ++ (run name adds).shutdownActions = _
  rw [hclosed, hqueue, List.nil_append]

/-! ## What is thrown -/

/-- the two states differ in their logs only -/
structure SameButLog (s s' : St α ε) : Prop where
  shutdownActions : s.shutdownActions = s'.shutdownActions
  thread : s.thread = s'.thread
  closed : s.closed = s'.closed

theorem step_quiet {s s' : St α ε} (h : SameButLog s s') (o : Op α ε) : SameButLog (step s o) (step s' o.quiet) := by
  obtain ⟨hqueue, hthread, hclosed⟩ := h
  cases o with
  | addFirst a => exact ⟨congrArg (a :: ·) hqueue, hthread, hclosed⟩
  | addLast a => exact ⟨congrArg (· ++ [a]) hqueue, hthread, hclosed⟩
  | start =>
    simp only [step, Op.quiet, ← hthread]
    cases s.thread with
    | new => exact ⟨hqueue, rfl, hclosed⟩
    | _ => exact ⟨hqueue, hthread, hclosed⟩
  | poll =>
    simp only [step, Op.quiet, ← hthread]
    cases s.thread with
    | polling =>
      unfold poll
      rw [← hqueue]
      cases s.shutdownActions with
      | nil => exact ⟨rfl, rfl, hclosed⟩
      | cons a rest => exact ⟨rfl, rfl, congrArg (· ++ [a]) hclosed⟩
    | _ => exact ⟨hqueue, hthread, hclosed⟩
  | closeEnds thrown =>
    simp only [step, Op.quiet, ← hthread]
    cases s.thread with
    | closing a =>
      constructor
      · rw [closeEnds_shutdownActions, closeEnds_shutdownActions, hqueue]
      · rw [closeEnds_thread, closeEnds_thread]
      · rw [closeEnds_closed, closeEnds_closed, hclosed]
    | _ => exact ⟨hqueue, hthread, hclosed⟩

/-- a run and the same run with nothing thrown -/
theorem run_quiet (name : String) (ops : List (Op α ε)) :
    SameButLog (run name ops) (run name (ops.map Op.quiet)) := by
  induction ops using List.reverseRecOn with
  | nil => exact ⟨rfl, rfl, rfl⟩
  | append_singleton ops o ih =>
    rw [run_snoc, List.map_append, List.map_singleton, run_snoc]
    exact step_quiet ih o

/-! ## The drain -/

/-- **Nothing lost, nothing repeated.** -/
theorem drained (name : String) (ops : List (Op α ε)) (h : allowed (init name) ops = true) :
    (∀ pre o, pre ++ [o] <+: ops → (run name (pre ++ [o])).closed = (run name pre).closed ++ foremost (run name pre) o) ∧
      ((run name ops).closed ++ (run name ops).shutdownActions).Perm (registered ops) ∧
      ((run name ops).thread = .terminated →
        (run name ops).shutdownActions = [] ∧ (run name ops).closed.Perm (registered ops)) ∧
      (ops.countP Op.ofThread ≤ 2 * (registered ops).length + 1 ∧
        ((run name ops).thread = .terminated ↔ ops.countP Op.ofThread = 2 * (registered ops).length + 1)) ∧
      ((run name ops).thread ≠ .new → (run name ops).thread ≠ .terminated →
        enabled (run name ops) .poll = true ∨ ∀ thrown, enabled (run name ops) (.closeEnds thrown) = true) ∧
      (∀ ops', ops'.map Op.quiet = ops.map Op.quiet → SameButLog (run name ops) (run name ops')) ∧
      ∀ adds rest, ops = adds ++ .start :: rest → registered rest = [] → (run name ops).thread = .terminated →
        (run name ops).closed = (adds.filterMap Op.first).reverse ++ adds.filterMap Op.last := by
  obtain ⟨hkept, hended, hsteps⟩ := run_balanced name ops h
  refine ⟨fun pre o hpre => ?_, hkept, fun hterm => ?_, ⟨by omega, ?_⟩, thread_goes_on, fun ops' hops => ?_,
    fun adds rest hops hno hterm => ?_⟩
  · obtain ⟨more, rfl⟩ := hpre
    rw [allowed_append, Bool.and_eq_true, allowed_snoc] at h
    rw [run_snoc]
    exact step_closed h.1.2
  · have hqueue := hended hterm
    rw [hqueue, List.append_nil] at hkept
    exact ⟨hqueue, hkept⟩
  · constructor
    · intro hterm
      simpa only [remaining, hterm, Nat.add_zero] using hsteps
    · intro hcount
      cases ht : (run name ops).thread with
      | terminated => rfl
      | _ =>
        simp only [remaining, ht] at hsteps
        omega
  · obtain ⟨h1, h2, h3⟩ := run_quiet name ops
    obtain ⟨h1', h2', h3'⟩ := run_quiet name ops'
    rw [hops] at h1' h2' h3'
    exact ⟨h1.trans h1'.symm, h2.trans h2'.symm, h3.trans h3'.symm⟩
  · subst hops
    have horder := closed_in_order name h hno
    rw [hended hterm, List.append_nil] at horder
    exact horder

/-- the action 0 registers the action 3 ahead of the others while it is being closed, and throws -/
def reentrant : List (Op ℕ Unit) :=
  [.addLast 1, .addLast 2, .addFirst 0, .start, .poll, .addFirst 3, .closeEnds (some ()), .poll, .closeEnds none, .poll,
    .closeEnds none, .poll, .closeEnds none, .poll]

theorem drained_reentrant : (run "test hook" reentrant).shutdownActions = [] ∧
    (run "test hook" reentrant).closed.Perm (registered reentrant) :=
  (drained "test hook" reentrant (by decide)).2.2.1 (by decide)

example : (run "test hook" reentrant).closed = [0, 3, 1, 2] ∧ (run "test hook" reentrant).LOG = [("test hook", ())] := by
  decide

end BankServices.Webapp.ShutdownHook
