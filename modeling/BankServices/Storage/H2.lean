/-
The storage engine of the service: the statements of `Statements` with their row locks, as an `Engine`.

The laws say that a statement depends on the tables only through the rows it reads, writes only about those rows, and
that a write about other rows is not seen at an existing one. An added account row is never seen at an existing id.
-/
import BankServices.Storage.Rows

namespace BankServices.Storage

open BankServices.Java BankServices.Txn BankServices.Fallible

/-! ## What a write changes -/

section Writes

variable (db : Tables) (k : ℤ)

@[simp] theorem findAccount_addAccount (r : AccountRow) : (applyWrite db (.addAccount r)).findAccount k =
    (db.findAccount k).or (if r.accountId = k then some r else none) :=
  KeyedList.lookup_append db.account r k

@[simp] theorem findAccount_putAccount (r : AccountRow) : (applyWrite db (.putAccount r)).findAccount k =
    if r.accountId = k then (db.findAccount k).map fun _ => r else db.findAccount k :=
  KeyedList.lookup_replace db.account r k

@[simp] theorem findAccount_dropAccount (i : ℤ) : (applyWrite db (.dropAccount i)).findAccount k =
    if k = i then none else db.findAccount k :=
  KeyedList.lookup_remove db.account k i

@[simp] theorem findAccount_addPayment (p : PaymentRow) :
    (applyWrite db (.addPayment p)).findAccount k = db.findAccount k := rfl

@[simp] theorem paymentsOf_addPayment (p : PaymentRow) : (applyWrite db (.addPayment p)).paymentsOf k =
    db.paymentsOf k ++ if p.refers k then [p] else [] := by
  simp only [Tables.paymentsOf, applyWrite, List.filter_append]
  cases hp : p.refers k <;> simp [hp]

@[simp] theorem paymentsOf_addAccount (r : AccountRow) :
    (applyWrite db (.addAccount r)).paymentsOf k = db.paymentsOf k := rfl

@[simp] theorem paymentsOf_putAccount (r : AccountRow) :
    (applyWrite db (.putAccount r)).paymentsOf k = db.paymentsOf k := rfl

@[simp] theorem paymentsOf_dropAccount (i : ℤ) :
    (applyWrite db (.dropAccount i)).paymentsOf k = db.paymentsOf k := rfl

end Writes

theorem findAccount_id {db : Tables} {k : ℤ} {r : AccountRow} (h : db.findAccount k = some r) : r.accountId = k :=
  (KeyedList.lookup_some h).2

theorem findAccount_mem {db : Tables} {k : ℤ} {r : AccountRow} (h : db.findAccount k = some r) : r ∈ db.account :=
  (KeyedList.lookup_some h).1

theorem balanceRow_id {r r' : AccountRow} {b : BigDecimal} {t : LocalDateTime} (h : balanceRow r b t = .ok r') :
    r'.accountId = r.accountId := by
  obtain ⟨v, -, -, rfl⟩ := balanceRow_ok_iff.1 h
  rfl

theorem profileRow_id {r r' : AccountRow} {n c : Option JavaString} (h : profileRow r n c = .ok r') :
    r'.accountId = r.accountId := by
  obtain ⟨name, comment, -, -, rfl⟩ := profileRow_ok_iff.1 h
  rfl

/-! ## Laws of the statements -/

theorem lock_reads (c : Statement) (k : ℤ) (h : lockKey c = some k) : k ∈ reads c := by
  cases c <;> simp_all [lockKey, reads]

theorem onRow_found {d : Tables} {i : ℤ} {r : AccountRow} (h : d.findAccount i = some r)
    (f : AccountRow → Except DataAccessException Write) : onRow d i f = wrote (f r) := by
  unfold onRow
  rw [h]

theorem onRow_missing {d : Tables} {i : ℤ} (h : d.findAccount i = none)
    (f : AccountRow → Except DataAccessException Write) : onRow d i f = (.ok 0, []) := by
  unfold onRow
  rw [h]

theorem onRow_congr {d d' : Tables} {i : ℤ} (h : d.findAccount i = d'.findAccount i)
    (f : AccountRow → Except DataAccessException Write) : onRow d i f = onRow d' i f := by
  unfold onRow
  rw [h]

theorem referenceTo_congr {d d' : Tables} {i : ℤ} (h : d.findAccount i = d'.findAccount i) (constraint : String) :
    referenceTo constraint d i = referenceTo constraint d' i := by
  unfold referenceTo
  rw [h]

theorem exec_congr (c : Statement) (d d' : Tables) (h : ∀ k ∈ reads c, look d k = look d' k) :
    exec c d = exec c d' := by
  have hrow : ∀ k ∈ reads c, d.findAccount k = d'.findAccount k := fun k hk => congrArg Prod.fst (h k hk)
  have hpay : ∀ k ∈ reads c, d.paymentsOf k = d'.paymentsOf k := fun k hk => congrArg Prod.snd (h k hk)
  cases c with
  | selectForUpdate i =>
    show (Except.ok ((d.findAccount i).map _), []) = _
    rw [hrow i (by simp [reads])]
    rfl
  | insertPayment i v =>
    show wrote ((paymentRow d i v).map _) = _
    unfold paymentRow
    rw [referenceTo_congr (hrow v.withdrawalAccountId (by simp [reads])),
      referenceTo_congr (hrow v.depositAccountId (by simp [reads]))]
    rfl
  | updateBalance i b t => exact onRow_congr (hrow i (by simp [reads])) _
  | insertAccount i v => rfl
  | updateProfile i n c => exact onRow_congr (hrow i (by simp [reads])) _
  | deleteAccount i =>
    show onRow d i (fun _ => dropRow i (d.paymentsOf i)) = _
    rw [onRow_congr (hrow i (by simp [reads])), hpay i (by simp [reads])]
    rfl

theorem mem_wrote {x : Except DataAccessException Write} {w : Write} (h : w ∈ (wrote x).2) : x = .ok w := by
  cases x with
  | error e => simp [wrote] at h
  | ok v => simp only [wrote, List.mem_singleton] at h; rw [h]

theorem mem_onRow {db : Tables} {i : ℤ} {f : AccountRow → Except DataAccessException Write} {w : Write}
    (h : w ∈ (onRow db i f).2) : ∃ r, db.findAccount i = some r ∧ f r = .ok w := by
  unfold onRow at h
  cases hr : db.findAccount i with
  | none => rw [hr] at h; simp at h
  | some r => rw [hr] at h; exact ⟨r, rfl, mem_wrote h⟩

theorem dropRow_ok {i : ℤ} {ps : List PaymentRow} {w : Write} (h : dropRow i ps = .ok w) :
    ps = [] ∧ w = .dropAccount i := by
  cases ps with
  | nil => cases h; exact ⟨rfl, rfl⟩
  | cons p ps => cases h

theorem exec_touch (c : Statement) (d : Tables) : ∀ w ∈ (exec c d).2, ∀ k ∈ touch w, k ∈ reads c := by
  intro w hw k hk
  cases c with
  | selectForUpdate i => simp [exec] at hw
  | insertPayment i v =>
    obtain ⟨p, hp, rfl⟩ := map_ok_iff.1 (mem_wrote hw)
    obtain ⟨-, -, -, h1, h2, -⟩ := paymentRow_ok_iff.1 hp
    simpa [touch, reads, h1, h2] using hk
  | updateBalance i b t =>
    obtain ⟨r, hr, h⟩ := mem_onRow hw
    obtain ⟨r', hr', rfl⟩ := map_ok_iff.1 h
    simpa [touch, reads, balanceRow_id hr', findAccount_id hr] using hk
  | insertAccount i v =>
    obtain ⟨r, -, rfl⟩ := map_ok_iff.1 (mem_wrote hw)
    simp [touch] at hk
  | updateProfile i n c =>
    obtain ⟨r, hr, h⟩ := mem_onRow hw
    obtain ⟨r', hr', rfl⟩ := map_ok_iff.1 h
    simpa [touch, reads, profileRow_id hr', findAccount_id hr] using hk
  | deleteAccount i =>
    obtain ⟨r, -, h⟩ := mem_onRow hw
    obtain ⟨-, rfl⟩ := dropRow_ok h
    simpa [touch, reads] using hk

theorem exec_readOnly (c : Statement) (d : Tables) (h : readOnly c = true) : (exec c d).2 = [] := by
  cases c <;> simp_all [readOnly, exec]

theorem look_congr (d d' : Tables) (w : Write) (k : ℤ) (h : look d k = look d' k) :
    look (applyWrite d w) k = look (applyWrite d' w) k := by
  obtain ⟨h1, h2⟩ := Prod.mk.inj h
  cases w <;> simp [look, h1, h2]

theorem look_frame (d : Tables) (w : Write) (k : ℤ) (hp : (look d k).1.isSome = true) (hk : k ∉ touch w) :
    look (applyWrite d w) k = look d k := by
  obtain ⟨r, hr⟩ := Option.isSome_iff_exists.1 hp
  cases w with
  | addAccount a => simp only [look, findAccount_addAccount, paymentsOf_addAccount] at hr ⊢; rw [hr]; rfl
  | putAccount a =>
    have : a.accountId ≠ k := fun e => hk (by simp [touch, e])
    simp [look, this]
  | dropAccount i =>
    have : k ≠ i := fun e => hk (by simp [touch, e])
    simp [look, this]
  | addPayment p =>
    have hw : p.withdrawalAccountId ≠ k := fun e => hk (by simp [touch, e])
    have hd : p.depositAccountId ≠ k := fun e => hk (by simp [touch, e])
    simp [look, PaymentRow.refers, hw, hd]

/-- the storage engine -/
def h2 : Engine Statement Answer Tables Write ℤ (Option AccountRow × List PaymentRow) where
  exec := exec
  apply := applyWrite
  timeout := lockTimeout
  lockKey := lockKey
  reads := reads
  readOnly := readOnly
  look := look
  present f := f.1.isSome
  touch := touch
  lock_reads := lock_reads
  exec_congr := exec_congr
  exec_touch := exec_touch
  exec_readOnly := exec_readOnly
  apply_congr := look_congr
  apply_frame := look_frame

end BankServices.Storage
