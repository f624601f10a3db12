/-
`java.time.LocalDateTime`: a date of the proleptic ISO calendar and a time of day in nanoseconds, ordered by date and
then by time, rounding to whole milliseconds as a TIMESTAMP(3) column does it, and the next millisecond.

- `truncMillis_eq_iff`: two date-times cut to whole milliseconds are equal when they agree to the millisecond.
- `roundMillis_eq_truncMillis_iff`: when rounding to whole milliseconds is the same as cutting.
- `plusMilli?_covers`: no whole number of milliseconds lies between one and the next, also across days and years.
-/
import Mathlib.Tactic

namespace BankServices.Java

def isLeapYear (y : ℤ) : Bool := y % 4 = 0 ∧ (y % 100 ≠ 0 ∨ y % 400 = 0)

def lengthOfMonth (y : ℤ) (m : ℕ) : ℕ :=
  if m = 2 then if isLeapYear y then 29 else 28 else if m = 4 ∨ m = 6 ∨ m = 9 ∨ m = 11 then 30 else 31

def YEAR_MIN : ℤ := -999999999

def YEAR_MAX : ℤ := 999999999

/-- a date of the calendar -/
def ValidDate (y : ℤ) (m d : ℕ) : Prop :=
  YEAR_MIN ≤ y ∧ y ≤ YEAR_MAX ∧ 1 ≤ m ∧ m ≤ 12 ∧ 1 ≤ d ∧ d ≤ lengthOfMonth y m

instance (y : ℤ) (m d : ℕ) : Decidable (ValidDate y m d) := by unfold ValidDate; infer_instance

structure LocalDate where
  year : ℤ
  month : ℕ
  day : ℕ
  valid : ValidDate year month day
deriving DecidableEq

def NANOS_PER_DAY : ℕ := 86400000000000

def NANOS_PER_SECOND : ℕ := 1000000000

def NANOS_PER_MILLI : ℕ := 1000000

structure LocalDateTime where
  date : LocalDate
  nanoOfDay : ℕ
  valid : nanoOfDay < NANOS_PER_DAY
deriving DecidableEq

theorem lengthOfMonth_le (y : ℤ) (m : ℕ) : lengthOfMonth y m ≤ 31 := by
  unfold lengthOfMonth
  split_ifs <;> omega

namespace LocalDate

@[ext] theorem ext {a b : LocalDate} (hy : a.year = b.year) (hm : a.month = b.month) (hd : a.day = b.day) : a = b := by
  cases a; cases b; simp_all

theorem day_le (a : LocalDate) : a.day ≤ 31 := a.valid.2.2.2.2.2.trans (lengthOfMonth_le _ _)

/-- the place of a date in the order of dates, with 31 places for every month -/
def ord (a : LocalDate) : ℤ := (a.year * 12 + (a.month - 1)) * 31 + (a.day - 1)

theorem ord_lt_iff (a b : LocalDate) : a.ord < b.ord ↔
    a.year < b.year ∨ a.year = b.year ∧ (a.month < b.month ∨ a.month = b.month ∧ a.day < b.day) := by
  obtain ⟨-, -, _, _, _, -⟩ := a.valid
  obtain ⟨-, -, _, _, _, -⟩ := b.valid
  have := a.day_le
  have := b.day_le
  unfold ord
  omega

theorem ord_injective : Function.Injective ord := by
  intro a b h
  have h1 := (ord_lt_iff a b).not.1 h.not_lt
  have h2 := (ord_lt_iff b a).not.1 h.not_gt
  ext <;> omega

/-- the day after, unless it is the last day of the range -/
def next? (a : LocalDate) : Option LocalDate :=
  if h : ValidDate a.year a.month (a.day + 1) then some ⟨a.year, a.month, a.day + 1, h⟩
  else if h : ValidDate a.year (a.month + 1) 1 then some ⟨a.year, a.month + 1, 1, h⟩
  else if h : ValidDate (a.year + 1) 1 1 then some ⟨a.year + 1, 1, 1, h⟩
  else none

/-- the day after is in the same month, or it is the first of the next month or of the next year -/
theorem next?_cases {a d : LocalDate} (h : a.next? = some d) :
    (d.year = a.year ∧ d.month = a.month ∧ d.day = a.day + 1) ∨
      (a.day = lengthOfMonth a.year a.month ∧ d.year = a.year ∧ d.month = a.month + 1 ∧ d.day = 1) ∨
      (a.month = 12 ∧ a.day = 31 ∧ d.year = a.year + 1 ∧ d.month = 1 ∧ d.day = 1) := by
  obtain ⟨hy, hy', hm, hm', hd, hd'⟩ := a.valid
  have hlast : ¬ ValidDate a.year a.month (a.day + 1) → a.day = lengthOfMonth a.year a.month := by
    intro hno
    by_contra hne
    exact hno ⟨hy, hy', hm, hm', by omega, by omega⟩
  have hdecember : ¬ ValidDate a.year (a.month + 1) 1 → a.month = 12 := by
    intro hno
    by_contra hne
    refine hno ⟨hy, hy', by omega, by omega, le_refl 1, ?_⟩
    unfold lengthOfMonth
    split_ifs <;> omega
  unfold next? at h
  split_ifs at h with h1 h2 h3
  · cases h
    exact Or.inl ⟨rfl, rfl, rfl⟩
  · cases h
    exact Or.inr (Or.inl ⟨hlast h1, rfl, rfl, rfl⟩)
  · cases h
    have hday := hlast h1
    rw [hdecember h2] at hday
    exact Or.inr (Or.inr ⟨hdecember h2, hday, rfl, rfl, rfl⟩)

/-- `next?` is the next date: no date lies between -/
theorem next?_covers {a d : LocalDate} (h : a.next? = some d) :
    a.ord < d.ord ∧ ∀ e : LocalDate, a.ord < e.ord → d.ord ≤ e.ord := by
  have hcases := next?_cases h
  refine ⟨?_, fun e he => ?_⟩
  · rw [ord_lt_iff]
    omega
  · obtain ⟨-, -, hmonth, hmonth', hday, hday'⟩ := e.valid
    have hle := e.day_le
    rw [← not_lt]
    rw [ord_lt_iff] at he ⊢
    rcases hcases with ⟨hy, hm, hd⟩ | ⟨hlast, hy, hm, hd⟩ | ⟨hm', hd', hy, hm, hd⟩
    · omega
    · rintro (hlt | ⟨hye, hlt | ⟨hme, hlt⟩⟩)
      · omega
      · -- a date of the same month would be after its last day
        have hsame : a.year = e.year ∧ a.month = e.month := by omega
        rw [← hsame.1, ← hsame.2, ← hlast] at hday'
        omega
      · omega
    · omega

end LocalDate

def LocalDate.atStartOfDay (a : LocalDate) : LocalDateTime := ⟨a, 0, by decide⟩

namespace LocalDateTime

@[ext] theorem ext {a b : LocalDateTime} (hd : a.date = b.date) (hn : a.nanoOfDay = b.nanoOfDay) : a = b := by
  cases a; cases b; simp_all

/-- the place of a date-time in the order of `compareTo`: by date, then by time -/
def ord (t : LocalDateTime) : ℤ := t.date.ord * NANOS_PER_DAY + t.nanoOfDay

theorem ord_lt_iff (a b : LocalDateTime) : a.ord < b.ord ↔
    a.date.ord < b.date.ord ∨ a.date.ord = b.date.ord ∧ a.nanoOfDay < b.nanoOfDay := by
  have ha := a.valid
  have hb := b.valid
  unfold ord
  unfold NANOS_PER_DAY at *
  omega

theorem ord_injective : Function.Injective ord := by
  intro a b h
  have h1 := (ord_lt_iff a b).not.1 h.not_lt
  have h2 := (ord_lt_iff b a).not.1 h.not_gt
  ext1
  · exact LocalDate.ord_injective (by omega)
  · omega

instance : LinearOrder LocalDateTime := LinearOrder.lift' ord ord_injective

def hour (t : LocalDateTime) : ℕ := t.nanoOfDay / (3600 * NANOS_PER_SECOND)

def minute (t : LocalDateTime) : ℕ := t.nanoOfDay / (60 * NANOS_PER_SECOND) % 60

def second (t : LocalDateTime) : ℕ := t.nanoOfDay / NANOS_PER_SECOND % 60

def nano (t : LocalDateTime) : ℕ := t.nanoOfDay % NANOS_PER_SECOND

theorem hour_lt (t : LocalDateTime) : t.hour < 24 := by
  have h := t.valid
  simp only [hour, NANOS_PER_DAY, NANOS_PER_SECOND] at *
  omega

theorem minute_lt (t : LocalDateTime) : t.minute < 60 := Nat.mod_lt _ (by decide)

theorem second_lt (t : LocalDateTime) : t.second < 60 := Nat.mod_lt _ (by decide)

/-- a whole number of milliseconds -/
def WholeMillis (t : LocalDateTime) : Prop := t.nanoOfDay % NANOS_PER_MILLI = 0

instance (t : LocalDateTime) : Decidable t.WholeMillis := by unfold WholeMillis; infer_instance

/-- cut down to whole milliseconds -/
def truncMillis (t : LocalDateTime) : LocalDateTime :=
  ⟨t.date, t.nanoOfDay / NANOS_PER_MILLI * NANOS_PER_MILLI, lt_of_le_of_lt (Nat.div_mul_le_self _ _) t.valid⟩

/-- rounded half-up to whole milliseconds; the last half millisecond of the range is cut, it has nothing above it -/
def roundMillis (t : LocalDateTime) : LocalDateTime :=
  let n := (t.nanoOfDay + NANOS_PER_MILLI / 2) / NANOS_PER_MILLI * NANOS_PER_MILLI
  if h : n < NANOS_PER_DAY then ⟨t.date, n, h⟩
  else
    match t.date.next? with
    | some d => d.atStartOfDay
    | none => t.truncMillis

theorem truncMillis_whole (t : LocalDateTime) : t.truncMillis.WholeMillis := Nat.mul_mod_left _ _

theorem truncMillis_of_whole {t : LocalDateTime} (h : t.WholeMillis) : t.truncMillis = t := by
  ext1
  · rfl
  · exact Nat.div_mul_cancel (Nat.dvd_of_mod_eq_zero h)

theorem roundMillis_whole (t : LocalDateTime) : t.roundMillis.WholeMillis := by
  unfold roundMillis
  dsimp only
  split_ifs
  · exact Nat.mul_mod_left _ _
  · split
    · rfl
    · exact t.truncMillis_whole

/-- the two agree to the millisecond -/
def SameMillis (t u : LocalDateTime) : Prop :=
  t.date = u.date ∧ t.nanoOfDay / NANOS_PER_MILLI = u.nanoOfDay / NANOS_PER_MILLI

instance (t u : LocalDateTime) : Decidable (t.SameMillis u) := inferInstanceAs (Decidable (_ ∧ _))

theorem truncMillis_eq_iff (t u : LocalDateTime) : t.truncMillis = u.truncMillis ↔ t.SameMillis u := by
  constructor
  · intro h
    have hdate : t.truncMillis.date = u.truncMillis.date := by rw [h]
    have hnano : t.truncMillis.nanoOfDay = u.truncMillis.nanoOfDay := by rw [h]
    exact ⟨hdate, Nat.eq_of_mul_eq_mul_right (by decide) hnano⟩
  · rintro ⟨hdate, hnano⟩
    ext1
    · exact hdate
    · exact congrArg (· * NANOS_PER_MILLI) hnano

/-- `plus(1, ChronoUnit.MILLIS)`, unless the result is out of range -/
def plusMilli? (t : LocalDateTime) : Option LocalDateTime :=
  if h : t.nanoOfDay + NANOS_PER_MILLI < NANOS_PER_DAY then some ⟨t.date, t.nanoOfDay + NANOS_PER_MILLI, h⟩
  else
    t.date.next?.map fun d => ⟨d, t.nanoOfDay + NANOS_PER_MILLI - NANOS_PER_DAY, by
      have := t.valid
      unfold NANOS_PER_MILLI NANOS_PER_DAY at *
      omega⟩

/-- half a millisecond or more is rounded up to the next millisecond, if there is one -/
theorem roundMillis_eq (t : LocalDateTime) : t.roundMillis =
    if t.nanoOfDay % NANOS_PER_MILLI < NANOS_PER_MILLI / 2 then t.truncMillis
    else t.truncMillis.plusMilli?.getD t.truncMillis := by
  have hvalid := t.valid
  have hnano : t.truncMillis.nanoOfDay = t.nanoOfDay / NANOS_PER_MILLI * NANOS_PER_MILLI := rfl
  unfold roundMillis plusMilli?
  dsimp only
  unfold NANOS_PER_MILLI NANOS_PER_DAY at *
  split_ifs with hday hdown hnext hdown
  · refine ext rfl ?_
    rw [hnano]
    dsimp only
    omega
  · refine ext rfl ?_
    rw [Option.getD_some]
    dsimp only
    omega
  · omega
  · omega
  · omega
  · show _ = (t.date.next?.map _).getD _
    cases t.date.next? with
    | none => rfl
    | some d =>
      refine ext rfl ?_
      show 0 = t.truncMillis.nanoOfDay + 1000000 - 86400000000000
      omega

/-- no whole number of milliseconds lies between a whole number of milliseconds and the next -/
theorem plusMilli?_covers {b n : LocalDateTime} (hb : b.WholeMillis) (h : b.plusMilli? = some n) :
    b < n ∧ ∀ t : LocalDateTime, t.WholeMillis → b < t → n ≤ t := by
  have lt_iff : ∀ x y : LocalDateTime, x < y ↔ x.ord < y.ord := fun _ _ => Iff.rfl
  have hvalid := b.valid
  unfold WholeMillis at hb
  unfold plusMilli? at h
  split_ifs at h with hday
  · cases h
    refine ⟨(lt_iff _ _).2 ((ord_lt_iff _ _).2 (Or.inr ⟨rfl, ?_⟩)), fun t ht hlt => ?_⟩
    · dsimp only
      unfold NANOS_PER_MILLI
      omega
    · unfold WholeMillis at ht
      have hlt' := (ord_lt_iff _ _).1 ((lt_iff _ _).1 hlt)
      rw [← not_lt, lt_iff, ord_lt_iff]
      dsimp only
      unfold NANOS_PER_MILLI at *
      omega
  · obtain ⟨d, hd, rfl⟩ := Option.map_eq_some_iff.1 h
    obtain ⟨hnext, hcovers⟩ := LocalDate.next?_covers hd
    refine ⟨(lt_iff _ _).2 ((ord_lt_iff _ _).2 (Or.inl hnext)), fun t ht hlt => ?_⟩
    unfold WholeMillis at ht
    have hlt' := (ord_lt_iff _ _).1 ((lt_iff _ _).1 hlt)
    have hvalid' := t.valid
    rw [← not_lt, lt_iff, ord_lt_iff]
    dsimp only
    rcases hlt' with hlt' | ⟨heq, hlt'⟩
    · have := hcovers t.date hlt'
      unfold NANOS_PER_MILLI NANOS_PER_DAY at *
      omega
    · unfold NANOS_PER_MILLI NANOS_PER_DAY at *
      omega

/-- rounding only cuts when less than half a millisecond is cut off, or when no millisecond follows -/
theorem roundMillis_eq_truncMillis_iff (t : LocalDateTime) : t.roundMillis = t.truncMillis ↔
    t.nanoOfDay % NANOS_PER_MILLI < NANOS_PER_MILLI / 2 ∨ t.truncMillis.plusMilli? = none := by
  rw [roundMillis_eq]
  split_ifs with hdown
  · exact iff_of_true rfl (Or.inl hdown)
  · rw [or_iff_right hdown]
    cases hnext : t.truncMillis.plusMilli? with
    | none => exact iff_of_true rfl rfl
    | some n =>
      have hlt := (plusMilli?_covers t.truncMillis_whole hnext).1
      refine iff_of_false ?_ (Option.some_ne_none n)
      exact hlt.ne'

end LocalDateTime

end BankServices.Java
