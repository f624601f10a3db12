/-
Transaction programs: a piece of application code seen through the statements it sends to a store.

A `Prog` sends statements, branches on their answers, draws values of sequences and ends in a result (`done`) or in
an error (`fail`). `run` executes a program alone, statement after statement. It is generic in where drawn values come
from: the live sequences (`counters`) or a recorded tape (`tape`), which is how a past execution is replayed.

- `bind_bind`: the statements of a sequenced program come one after the other.
- `Holds`: the precondition of every statement that a run from a given store sends, whatever values are drawn.
- `Ends`: how a program may end, whatever happens to each of its statements.
- `Sends`: which statements it sends. On stores that all of these respect, a program does the same (`run_related`).
- `Disciplined`: the locking discipline of a program. It reads only rows that it holds or locks with this statement,
  takes every lock before its first write, and gives up as soon as a row it asks for is missing or stays locked.
- `Ascending`: it locks rows in increasing key order.
-/
import Mathlib.Tactic

namespace BankServices.Txn

/-- a transaction body: the statements it sends, the sequence values it draws and what it does with each answer -/
inductive Prog (Stmt : Type) (Ans : Stmt → Type) (Seq ε α : Type) : Type where
  | done (a : α)
  | fail (e : ε)
  | send (c : Stmt) (k : Ans c → Prog Stmt Ans Seq ε α)
  | draw (q : Seq) (k : ℤ → Prog Stmt Ans Seq ε α)

variable {Stmt : Type} {Ans : Stmt → Type} {Seq ε α β Db Write Key Face G : Type}

namespace Prog

def bind : Prog Stmt Ans Seq ε α → (α → Prog Stmt Ans Seq ε β) → Prog Stmt Ans Seq ε β
  | .done a, f => f a
  | .fail e, _ => .fail e
  | .send c k, f => .send c fun x => (k x).bind f
  | .draw q k, f => .draw q fun x => (k x).bind f

instance : Monad (Prog Stmt Ans Seq ε) where
  pure := .done
  bind := bind

@[simp] theorem pure_def (a : α) : (pure a : Prog Stmt Ans Seq ε α) = .done a := rfl

@[simp] theorem done_bind (a : α) (f : α → Prog Stmt Ans Seq ε β) : (.done a : Prog Stmt Ans Seq ε α) >>= f = f a := rfl

@[simp] theorem send_bind (c : Stmt) (k : Ans c → Prog Stmt Ans Seq ε α) (f : α → Prog Stmt Ans Seq ε β) :
    (Prog.send c k : Prog Stmt Ans Seq ε α) >>= f = .send c fun x => k x >>= f := rfl

@[simp] theorem draw_bind (q : Seq) (k : ℤ → Prog Stmt Ans Seq ε α) (f : α → Prog Stmt Ans Seq ε β) :
    (Prog.draw q k : Prog Stmt Ans Seq ε α) >>= f = .draw q fun x => k x >>= f := rfl

theorem bind_bind {γ : Type} (p : Prog Stmt Ans Seq ε α) (f : α → Prog Stmt Ans Seq ε β)
    (k : β → Prog Stmt Ans Seq ε γ) : p >>= f >>= k = p >>= fun a => f a >>= k := by
  induction p with
  | done a => rfl
  | fail e => rfl
  | send c h ih => exact congrArg (Prog.send c) (funext ih)
  | draw q h ih => exact congrArg (Prog.draw q) (funext ih)

def ofExcept : Except ε α → Prog Stmt Ans Seq ε α
  | .ok a => .done a
  | .error e => .fail e

@[simp] theorem ofExcept_ok (a : α) : (ofExcept (.ok a) : Prog Stmt Ans Seq ε α) = .done a := rfl

/-- a program with nothing left to send or draw -/
def Settled : Prog Stmt Ans Seq ε α → Prop
  | .done _ | .fail _ => True
  | _ => False

end Prog

/-- a store engine: the effect and the locks of each statement, what a store shows about a key, and the laws that tie
them. `exec` gives the answer of a statement on a view and the writes it makes there. -/
structure Engine (Stmt : Type) (Ans : Stmt → Type) (Db Write Key Face : Type) where
  exec : (c : Stmt) → Db → Ans c × List Write
  apply : Db → Write → Db
  /-- the answer to a statement that waited too long for a lock -/
  timeout : (c : Stmt) → Ans c
  /-- the row that the statement locks, when it exists -/
  lockKey : Stmt → Option Key
  /-- the rows whose contents the statement depends on -/
  reads : Stmt → List Key
  readOnly : Stmt → Bool
  /-- all that the store shows about one key -/
  look : Db → Key → Face
  present : Face → Bool
  /-- the keys that a write is about, when it does not only add a row -/
  touch : Write → List Key
  lock_reads : ∀ c k, lockKey c = some k → k ∈ reads c
  exec_congr : ∀ c d d', (∀ k ∈ reads c, look d k = look d' k) → exec c d = exec c d'
  exec_touch : ∀ c d, ∀ w ∈ (exec c d).2, ∀ k ∈ touch w, k ∈ reads c
  exec_readOnly : ∀ c d, readOnly c = true → (exec c d).2 = []
  apply_congr : ∀ d d' w k, look d k = look d' k → look (apply d w) k = look (apply d' w) k
  apply_frame : ∀ d w k, present (look d k) = true → k ∉ touch w → look (apply d w) k = look d k

namespace Engine

variable (E : Engine Stmt Ans Db Write Key Face)

/-- the store seen through pending writes -/
def view (d : Db) (ws : List Write) : Db := ws.foldl E.apply d

@[simp] theorem view_nil (d : Db) : E.view d [] = d := rfl

theorem view_append (d : Db) (a b : List Write) : E.view d (a ++ b) = E.view (E.view d a) b := by
  simp [view, List.foldl_append]

/-- one statement executed in place -/
def send (c : Stmt) (d : Db) : Ans c × Db := ((E.exec c d).1, E.view d (E.exec c d).2)

theorem look_view_congr (d d' : Db) (ws : List Write) (k : Key) (h : E.look d k = E.look d' k) :
    E.look (E.view d ws) k = E.look (E.view d' ws) k := by
  induction ws generalizing d d' with
  | nil => exact h
  | cons w ws ih => exact ih _ _ (E.apply_congr d d' w k h)

/-- pending writes about other keys do not change what is seen of an existing row -/
theorem look_view_frame (d : Db) (ws : List Write) (k : Key) (hp : E.present (E.look d k) = true)
    (hk : ∀ w ∈ ws, k ∉ E.touch w) : E.look (E.view d ws) k = E.look d k := by
  induction ws generalizing d with
  | nil => rfl
  | cons w ws ih =>
    have h1 : E.look (E.apply d w) k = E.look d k := E.apply_frame d w k hp (hk w List.mem_cons_self)
    have h2 := ih (E.apply d w) (by rw [h1]; exact hp) fun x hx => hk x (List.mem_cons_of_mem w hx)
    exact h2.trans h1

end Engine

/-! ## Running a program alone -/

/-- a program run alone on a store: its outcome, the source of drawn values after it, and the store after it -/
def Prog.run (E : Engine Stmt Ans Db Write Key Face) (next : Seq → G → ℤ × G) :
    Prog Stmt Ans Seq ε α → G → Db → Except ε α × G × Db
  | .done a, g, d => (.ok a, g, d)
  | .fail e, g, d => (.error e, g, d)
  | .send c k, g, d => (k (E.send c d).1).run E next g (E.send c d).2
  | .draw q k, g, d => (k (next q g).1).run E next (next q g).2 d

/-- draws from live sequences: each one hands out its next value and advances -/
def counters [DecidableEq Seq] (q : Seq) (g : Seq → ℤ) : ℤ × (Seq → ℤ) :=
  (g q, fun r => if r = q then g q + 1 else g r)

/-- draws from a recorded tape of drawn values, each kept with its sequence -/
def tape [DecidableEq Seq] (q : Seq) : List (Seq × ℤ) → ℤ × List (Seq × ℤ)
  | [] => (0, [])
  | x :: l => if x.1 = q then (x.2, l) else (0, x :: l)

theorem tape_cons [DecidableEq Seq] (q : Seq) (x : ℤ) (l : List (Seq × ℤ)) : tape q ((q, x) :: l) = (x, l) := if_pos rfl

/-- a draw that takes exactly the values `ids` off every tape that begins with them -/
theorem tape_takes [DecidableEq Seq] {q : Seq} {ids : List (Seq × ℤ)} (h : ∀ more, (tape q (ids ++ more)).2 = more) :
    ∃ x, ids = [(q, x)] := by
  cases ids with
  | nil =>
    have h1 := h [(q, 0)]
    rw [List.nil_append, tape_cons] at h1
    cases h1
  | cons y l =>
    have h1 := h []
    rw [List.append_nil] at h1
    simp only [tape] at h1
    split_ifs at h1 with hy
    · have hl : l = [] := h1
      rw [hl, ← hy]
      exact ⟨y.2, rfl⟩

section Run

variable (E : Engine Stmt Ans Db Write Key Face) (next : Seq → G → ℤ × G)

@[simp] theorem run_done (a : α) (g : G) (d : Db) :
    (.done a : Prog Stmt Ans Seq ε α).run E next g d = (.ok a, g, d) := rfl

@[simp] theorem run_send (c : Stmt) (k : Ans c → Prog Stmt Ans Seq ε α) (g : G) (d : Db) :
    (Prog.send c k).run E next g d = (k (E.send c d).1).run E next g (E.send c d).2 := rfl

@[simp] theorem run_draw (q : Seq) (k : ℤ → Prog Stmt Ans Seq ε α) (g : G) (d : Db) :
    (Prog.draw q k).run E next g d = (k (next q g).1).run E next (next q g).2 d := rfl

/-- a program run as one transaction: a failed one leaves the store as it was, the drawn values stay drawn -/
def Prog.transaction (p : Prog Stmt Ans Seq ε α) (g : G) (d : Db) : Except ε α × G × Db :=
  match p.run E next g d with
  | (.ok a, g', d') => (.ok a, g', d')
  | (.error e, g', _) => (.error e, g', d)

end Run

/-! ## Preconditions of the statements sent -/

/-- every statement that a run of the program from `d` sends is sent on a store where `Q` holds of it, for all drawn
values -/
def Prog.Holds (E : Engine Stmt Ans Db Write Key Face) (Q : Stmt → Db → Prop) : Prog Stmt Ans Seq ε α → Db → Prop
  | .done _, _ | .fail _, _ => True
  | .send c k, d => Q c d ∧ (k (E.send c d).1).Holds E Q (E.send c d).2
  | .draw _ k, d => ∀ x, (k x).Holds E Q d

/-- how a program may end, whatever each of its statements is answered: with a timeout, or as on some store. `P` holds
of the writes made and of the outcome. -/
def Prog.Ends (E : Engine Stmt Ans Db Write Key Face) (P : List Write → Except ε α → Prop) :
    Prog Stmt Ans Seq ε α → List Write → Prop
  | .done a, ws => P ws (.ok a)
  | .fail e, ws => P ws (.error e)
  | .send c k, ws => (k (E.timeout c)).Ends E P ws ∧ ∀ d, (k (E.exec c d).1).Ends E P (ws ++ (E.exec c d).2)
  | .draw _ k, ws => ∀ x, (k x).Ends E P ws

/-- a program that ends well has written something -/
def Wrote (ws : List Write) (outcome : Except ε α) : Prop := ∀ a, outcome = .ok a → ws ≠ []

theorem wrote_error (ws : List Write) (e : ε) : Wrote ws (.error e : Except ε α) := by
  intro a h
  cases h

theorem ends_wrote {E : Engine Stmt Ans Db Write Key Face} (p : Prog Stmt Ans Seq ε α) {ws : List Write} (h : ws ≠ []) :
    p.Ends E Wrote ws := by
  induction p generalizing ws with
  | done a => exact fun _ _ => h
  | fail e => exact fun _ _ => h
  | send c k ih => exact ⟨ih _ h, fun d => ih _ (List.append_ne_nil_of_left_ne_nil h _)⟩
  | draw q k ih => exact fun x => ih x h

/-! ## Statements sent -/

/-- every statement that the program sends, whatever it was answered before, is one of `P` -/
def Prog.Sends (P : Stmt → Prop) : Prog Stmt Ans Seq ε α → Prop
  | .done _ | .fail _ => True
  | .send c k => P c ∧ ∀ a, (k a).Sends P
  | .draw _ k => ∀ x, (k x).Sends P

theorem sends_bind {P : Stmt → Prop} {p : Prog Stmt Ans Seq ε α} {f : α → Prog Stmt Ans Seq ε β} (hp : p.Sends P)
    (hf : ∀ a, (f a).Sends P) : (p >>= f).Sends P := by
  induction p with
  | done a => exact hf a
  | fail e => trivial
  | send c k ih => exact ⟨hp.1, fun a => ih a (hp.2 a)⟩
  | draw q k ih => exact fun x => ih x (hp x)

section Related

variable {E : Engine Stmt Ans Db Write Key Face} {P : Stmt → Prop} {Rel : Db → Db → Prop}

/-- the statements of `P` are answered alike on related stores, and leave related stores -/
def Respects (E : Engine Stmt Ans Db Write Key Face) (P : Stmt → Prop) (Rel : Db → Db → Prop) : Prop :=
  ∀ c d d', P c → Rel d d' → (E.send c d).1 = (E.send c d').1 ∧ Rel (E.send c d).2 (E.send c d').2

/-- a program run on two related stores draws the same values and ends alike, and the stores after it are related -/
theorem run_related (hE : Respects E P Rel) (next : Seq → G → ℤ × G) {p : Prog Stmt Ans Seq ε α} (hp : p.Sends P) (g : G)
    {d d' : Db} (h : Rel d d') : ∃ out g' e e', p.run E next g d = (out, g', e) ∧ p.run E next g d' = (out, g', e') ∧
      Rel e e' := by
  induction p generalizing g d d' with
  | done a => exact ⟨_, _, _, _, rfl, rfl, h⟩
  | fail e => exact ⟨_, _, _, _, rfl, rfl, h⟩
  | send c k ih =>
    obtain ⟨hanswer, hrel⟩ := hE c d d' hp.1 h
    obtain ⟨out, g', e, e', hrun, hrun', hend⟩ := ih (E.send c d).1 (hp.2 _) g hrel
    rw [hanswer] at hrun
    refine ⟨out, g', e, e', ?_, ?_, hend⟩
    · rw [run_send, hanswer, hrun]
    · rw [run_send, ← hanswer, hrun']
  | draw q k ih => exact ih _ (hp _) _ h

theorem transaction_related (hE : Respects E P Rel) (next : Seq → G → ℤ × G) {p : Prog Stmt Ans Seq ε α}
    (hp : p.Sends P) (g : G) {d d' : Db} (h : Rel d d') : ∃ out g' e e', p.transaction E next g d = (out, g', e) ∧
      p.transaction E next g d' = (out, g', e') ∧ Rel e e' := by
  obtain ⟨out, g', e, e', hrun, hrun', hend⟩ := run_related hE next hp g h
  unfold Prog.transaction
  rw [hrun, hrun']
  cases out with
  | ok a => exact ⟨_, _, _, _, rfl, rfl, hend⟩
  | error x => exact ⟨_, _, _, _, rfl, rfl, h⟩

end Related

/-! ## Locking discipline -/

/-- two-phase locking seen from the program text. `H` are the keys it holds, `w` says that it may have written. Every
row a statement depends on is held or locked by that statement; a new lock comes before the first write; when the row
is missing or stays locked, nothing more is sent and nothing was written. -/
def Prog.Disciplined (E : Engine Stmt Ans Db Write Key Face) :
    Prog Stmt Ans Seq ε α → List Key → Bool → Prop
  | .done _, _, _ | .fail _, _, _ => True
  | .draw _ k, H, w => ∀ x, (k x).Disciplined E H w
  | .send c k, H, w =>
    (∀ x ∈ E.reads c, x ∈ H ∨ E.lockKey c = some x) ∧
    (∀ x, E.lockKey c = some x → x ∉ H → w = false ∧ (k (E.timeout c)).Settled ∧
      ∀ d, E.present (E.look d x) = false → (k (E.exec c d).1).Settled ∧ (E.exec c d).2 = []) ∧
    ∀ a, (k a).Disciplined E ((E.lockKey c).toList ++ H) (w || !E.readOnly c)

/-- the program waits for a row only while all rows it holds have smaller keys -/
def Prog.Ascending [LT Key] (E : Engine Stmt Ans Db Write Key Face) : Prog Stmt Ans Seq ε α → List Key → Prop
  | .done _, _ | .fail _, _ => True
  | .draw _ k, H => ∀ x, (k x).Ascending E H
  | .send c k, H =>
    (∀ x ∈ E.reads c, x ∈ H ∨ ∀ h ∈ H, h < x) ∧ ∀ a, (k a).Ascending E ((E.lockKey c).toList ++ H)

section Settled

variable {E : Engine Stmt Ans Db Write Key Face} {c : Stmt} {k : Ans c → Prog Stmt Ans Seq ε α}

theorem Prog.Settled.disciplined {p : Prog Stmt Ans Seq ε α} (h : p.Settled) (H : List Key) (w : Bool) :
    p.Disciplined E H w := by
  cases p with
  | done a => trivial
  | fail e => trivial
  | send c k => exact absurd h id
  | draw q k => exact absurd h id

theorem Prog.Settled.ascending [LT Key] {p : Prog Stmt Ans Seq ε α} (h : p.Settled) (H : List Key) :
    p.Ascending E H := by
  cases p with
  | done a => trivial
  | fail e => trivial
  | send c k => exact absurd h id
  | draw q k => exact absurd h id

theorem Prog.Settled.holds {p : Prog Stmt Ans Seq ε α} {Q : Stmt → Db → Prop} (h : p.Settled) (d : Db) :
    p.Holds E Q d := by
  cases p with
  | done a => trivial
  | fail e => trivial
  | send c k => exact absurd h id
  | draw q k => exact absurd h id

/-- a single statement about the row that it locks keeps the discipline -/
theorem disciplined_single (hr : ∀ x ∈ E.reads c, E.lockKey c = some x) (hk : ∀ a, (k a).Settled)
    (hm : ∀ x d, E.lockKey c = some x → E.present (E.look d x) = false → (E.exec c d).2 = []) :
    (Prog.send c k).Disciplined E [] false :=
  ⟨fun x hx => Or.inr (hr x hx), fun x hx _ => ⟨rfl, hk _, fun d hd => ⟨hk _, hm x d hx hd⟩⟩,
    fun a => (hk a).disciplined _ _⟩

theorem ascending_single [LT Key] (hk : ∀ a, (k a).Settled) : (Prog.send c k).Ascending E [] :=
  ⟨fun _ _ => Or.inr fun _ hh => absurd hh List.not_mem_nil, fun a => (hk a).ascending _⟩

end Settled

section Held

variable {E : Engine Stmt Ans Db Write Key Face} {c : Stmt} {k : Ans c → Prog Stmt Ans Seq ε α} {H : List Key}

/-- a statement about rows already held needs no new lock -/
theorem disciplined_held {w : Bool} (hr : ∀ x ∈ E.reads c, x ∈ H)
    (hk : ∀ a, (k a).Disciplined E ((E.lockKey c).toList ++ H) (w || !E.readOnly c)) :
    (Prog.send c k).Disciplined E H w :=
  ⟨fun x hx => Or.inl (hr x hx), fun x hc hx => absurd (hr x (E.lock_reads c x hc)) hx, hk⟩

theorem ascending_held [LT Key] (hr : ∀ x ∈ E.reads c, x ∈ H)
    (hk : ∀ a, (k a).Ascending E ((E.lockKey c).toList ++ H)) : (Prog.send c k).Ascending E H :=
  ⟨fun x hx => Or.inl (hr x hx), hk⟩

end Held

end BankServices.Txn
