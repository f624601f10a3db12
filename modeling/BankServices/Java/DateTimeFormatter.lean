/-
`java.time.format.DateTimeFormatter`: the elements that the service's formatters are built of, their printing and their
parsing, and `ISO_LOCAL_DATE_TIME`. Both formatters parse strictly and ignore the case of literals, and their optional
sections run to the end.

- `parse_appendValue`, `parse_appendLiteral`, `parse_appendFraction`: each element reads back what it printed.
- `printFraction_cut_iff`: cutting the fraction before it is printed makes its text shorter when the last digit kept is
  zero.
- `resolve_given`, `resolve_fields`: the fields of a date-time determine it, up to a fraction that was cut.
A text is the list of its characters; every character that an element looks for is an ASCII one.
-/
import BankServices.Core.Digits
import BankServices.Java.LocalDateTime

namespace BankServices.Java

open BankServices.Digits

/-! ## Fields -/

inductive ChronoField where
  | YEAR
  | MONTH_OF_YEAR
  | DAY_OF_MONTH
  | HOUR_OF_DAY
  | MINUTE_OF_HOUR
  | SECOND_OF_MINUTE
  | NANO_OF_SECOND
deriving DecidableEq, Repr

def ChronoField.getFrom (t : LocalDateTime) : ChronoField → ℤ
  | .YEAR => t.date.year
  | .MONTH_OF_YEAR => t.date.month
  | .DAY_OF_MONTH => t.date.day
  | .HOUR_OF_DAY => t.hour
  | .MINUTE_OF_HOUR => t.minute
  | .SECOND_OF_MINUTE => t.second
  | .NANO_OF_SECOND => t.nano

inductive SignStyle where
  | EXCEEDS_PAD
  | NOT_NEGATIVE
deriving DecidableEq, Repr

/-! ## Elements -/

/-- the printed number; too many digits, or a sign that the style excludes, are an error -/
def printValue (minWidth maxWidth : ℕ) (signStyle : SignStyle) (value : ℤ) : Option (List Char) :=
  let digits := digitText (fixed (max minWidth (count value.natAbs)) value.natAbs)
  if maxWidth < count value.natAbs then none
  else
    match signStyle with
    | .EXCEEDS_PAD =>
      if value < 0 then some ('-' :: digits)
      else if 10 ^ minWidth ≤ value then some ('+' :: digits)
      else some digits
    | .NOT_NEGATIVE => if value < 0 then none else some digits

/-- a number read from the head of the text, and the rest of the text -/
def parseValue (minWidth maxWidth : ℕ) (signStyle : SignStyle) (text : List Char) : Option (ℤ × List Char) :=
  let positive := text.head? = some '+'
  let negative := text.head? = some '-'
  if (positive ∨ negative) ∧ signStyle = .NOT_NEGATIVE then none
  else
    let read := takeDigits maxWidth (if positive ∨ negative then text.tail else text)
    if read.1.length < minWidth then none
    else if negative then
      -- minus zero is not allowed
      if ofDigits read.1 = 0 then none else some (-ofDigits read.1, read.2)
    else if signStyle = .EXCEEDS_PAD ∧ positive ∧ read.1.length ≤ minWidth then none
    else if signStyle = .EXCEEDS_PAD ∧ ¬ positive ∧ minWidth < read.1.length then none
    else some (ofDigits read.1, read.2)

/-- the fraction of a second with its decimal point, cut after `maxWidth` digits; a zero without required digits is not
printed -/
def printFraction (minWidth maxWidth nano : ℕ) : List Char :=
  if nano = 0 then if 0 < minWidth then '.' :: digitText (List.replicate minWidth 0) else []
  else
    let digits := strip (fixed 9 nano)
    '.' :: digitText ((digits ++ List.replicate (minWidth - digits.length) 0).take maxWidth)

/-- the fraction read from the head of the text, if there is one, and the rest of the text -/
def parseFraction (minWidth maxWidth : ℕ) : List Char → Option (Option ℤ × List Char)
  | '.' :: text =>
    let read := takeDigits maxWidth text
    if read.1.length < minWidth then none else some (some (scaled 9 read.1 : ℕ), read.2)
  | text => if 0 < minWidth then none else some (none, text)

/-! ## Formatters -/

inductive DateTimeFormatter where
  | toFormatter
  | appendValue (field : ChronoField) (minWidth maxWidth : ℕ) (signStyle : SignStyle) (next : DateTimeFormatter)
  | appendLiteral (literal : Char) (next : DateTimeFormatter)
  | appendFraction (field : ChronoField) (minWidth maxWidth : ℕ) (next : DateTimeFormatter)
  | optionalStart (rest : DateTimeFormatter)

/-- the values of the fields parsed -/
abbrev Parsed := ChronoField → Option ℤ

namespace DateTimeFormatter

def format (t : LocalDateTime) : DateTimeFormatter → Option (List Char)
  | .toFormatter => some []
  | .appendValue field minWidth maxWidth signStyle next => do
    let value ← printValue minWidth maxWidth signStyle (field.getFrom t)
    let text ← next.format t
    return value ++ text
  | .appendLiteral literal next => do
    let text ← next.format t
    return literal :: text
  | .appendFraction field minWidth maxWidth next => do
    let text ← next.format t
    return printFraction minWidth maxWidth (field.getFrom t).toNat ++ text
  | .optionalStart rest => rest.format t

/-- the fields read from the head of the text, and the rest of the text -/
def parsePrefix : DateTimeFormatter → Parsed → List Char → Option (Parsed × List Char)
  | .toFormatter, parsed, text => some (parsed, text)
  | .appendValue field minWidth maxWidth signStyle next, parsed, text => do
    let (value, text) ← parseValue minWidth maxWidth signStyle text
    next.parsePrefix (Function.update parsed field (some value)) text
  | .appendLiteral _ _, _, [] => none
  | .appendLiteral literal next, parsed, c :: text =>
    if c.toLower = literal.toLower then next.parsePrefix parsed text else none
  | .appendFraction field minWidth maxWidth next, parsed, text => do
    let (value, text) ← parseFraction minWidth maxWidth text
    next.parsePrefix (if value.isSome then Function.update parsed field value else parsed) text
  | .optionalStart rest, parsed, text => some ((rest.parsePrefix parsed text).getD (parsed, text))

end DateTimeFormatter

/-- a time of day; fields that are absent are zero, unless a smaller one is present -/
def resolveTime (parsed : Parsed) : Option (ℤ × ℤ × ℤ × ℤ) :=
  match parsed .HOUR_OF_DAY, parsed .MINUTE_OF_HOUR, parsed .SECOND_OF_MINUTE, parsed .NANO_OF_SECOND with
  | some hour, none, none, none => some (hour, 0, 0, 0)
  | some hour, some minute, none, none => some (hour, minute, 0, 0)
  | some hour, some minute, some second, nano => some (hour, minute, second, nano.getD 0)
  | _, _, _, _ => none

/-- the date-time of the parsed fields, all of them in their ranges -/
def resolve (parsed : Parsed) : Option LocalDateTime := do
  let year ← parsed .YEAR
  let month ← parsed .MONTH_OF_YEAR
  let day ← parsed .DAY_OF_MONTH
  let (hour, minute, second, nano) ← resolveTime parsed
  if date : ValidDate year month.toNat day.toNat then
    if time : (0 ≤ hour ∧ hour < 24) ∧ (0 ≤ minute ∧ minute < 60) ∧ (0 ≤ second ∧ second < 60) ∧
        (0 ≤ nano ∧ nano < NANOS_PER_SECOND) then
      some ⟨⟨year, month.toNat, day.toNat, date⟩,
        ((hour * 60 + minute) * 60 + second).toNat * NANOS_PER_SECOND + nano.toNat, by
          simp only [NANOS_PER_SECOND, NANOS_PER_DAY] at *
          omega⟩
    else none
  else none

/-- `LocalDateTime.parse(text, formatter)`: the whole text has to be read -/
def LocalDateTime.parse (text : List Char) (formatter : DateTimeFormatter) : Option LocalDateTime :=
  match formatter.parsePrefix (fun _ => none) text with
  | some (parsed, []) => resolve parsed
  | _ => none

namespace DateTimeFormatter

/-- the elements of `ISO_LOCAL_DATE`, with what follows them -/
def ISO_LOCAL_DATE (next : DateTimeFormatter) : DateTimeFormatter :=
  .appendValue .YEAR 4 10 .EXCEEDS_PAD <|
  .appendLiteral '-' <|
  .appendValue .MONTH_OF_YEAR 2 2 .NOT_NEGATIVE <|
  .appendLiteral '-' <|
  .appendValue .DAY_OF_MONTH 2 2 .NOT_NEGATIVE next

/-- hours, minutes and optional seconds, with an optional fraction of at most `fraction` digits -/
def localTime (fraction : ℕ) : DateTimeFormatter :=
  .appendValue .HOUR_OF_DAY 2 2 .NOT_NEGATIVE <|
  .appendLiteral ':' <|
  .appendValue .MINUTE_OF_HOUR 2 2 .NOT_NEGATIVE <|
  .optionalStart <|
  .appendLiteral ':' <|
  .appendValue .SECOND_OF_MINUTE 2 2 .NOT_NEGATIVE <|
  .optionalStart <|
  .appendFraction .NANO_OF_SECOND 0 fraction .toFormatter

def ISO_LOCAL_TIME : DateTimeFormatter := localTime 9

def ISO_LOCAL_DATE_TIME : DateTimeFormatter := ISO_LOCAL_DATE (.appendLiteral 'T' ISO_LOCAL_TIME)

end DateTimeFormatter

/-! ## Elements read back -/

section Elements

variable {minWidth maxWidth : ℕ} {signStyle : SignStyle} {value : ℤ} {a text : List Char}

theorem digitChar_not_sign {d : ℕ} (h : d < 10) : Nat.digitChar d ≠ '+' ∧ Nat.digitChar d ≠ '-' := by
  interval_cases d <;> decide

/-- a text of digits begins with no sign -/
theorem digitText_not_sign (text : List Char) {l : List ℕ} (hl : ∀ d ∈ l, d < 10) (hne : l ≠ []) :
    (digitText l ++ text).head? ≠ some '+' ∧ (digitText l ++ text).head? ≠ some '-' := by
  cases l with
  | nil => exact absurd rfl hne
  | cons d l =>
    have hd := digitChar_not_sign (hl d List.mem_cons_self)
    simp [digitText, hd]

theorem parseValue_printValue (hmin : 0 < minWidth) (hmax : minWidth ≤ maxWidth)
    (h : printValue minWidth maxWidth signStyle value = some a) (ht : NoDigit text) :
    parseValue minWidth maxWidth signStyle (a ++ text) = some (value, text) := by
  simp only [printValue] at h
  by_cases hfits : maxWidth < count value.natAbs
  · rw [if_pos hfits] at h
    cases h
  rw [if_neg hfits] at h
  have hmem : ∀ d ∈ fixed (max minWidth (count value.natAbs)) value.natAbs, d < 10 := fun d hd => lt_ten_of_mem_fixed hd
  have hpow : value.natAbs < 10 ^ max minWidth (count value.natAbs) :=
    lt_of_lt_of_le (lt_pow_count _) (Nat.pow_le_pow_right (by omega) (le_max_right _ _))
  have hval := ofDigits_fixed hpow
  have hlen := length_fixed (max minWidth (count value.natAbs)) value.natAbs
  have hne : fixed (max minWidth (count value.natAbs)) value.natAbs ≠ [] := by
    apply List.ne_nil_of_length_pos
    omega
  have hread := takeDigits_append (n := maxWidth) hmem (by omega) ht
  obtain ⟨hplus, hminus⟩ := digitText_not_sign text hmem hne
  generalize fixed (max minWidth (count value.natAbs)) value.natAbs = l at *
  have hlong : minWidth ≤ l.length := by omega
  have hrest : ∀ c : Char, (c :: digitText l ++ text) = c :: (digitText l ++ text) := fun c => rfl
  cases signStyle with
  | EXCEEDS_PAD =>
    simp only at h
    split_ifs at h with hneg hbig
    · cases h
      have hzero : ofDigits l ≠ 0 := by omega
      have hback : -(ofDigits l : ℤ) = value := by omega
      rw [hrest]
      simp [parseValue, hread, hlong.not_gt, hzero, hback]
    · cases h
      have hcast : (10 : ℤ) ^ minWidth ≤ value.natAbs := by omega
      have hcount : minWidth < count value.natAbs := lt_count (by exact_mod_cast hcast)
      have hmore : ¬ l.length ≤ minWidth := by omega
      have hback : (ofDigits l : ℤ) = value := by omega
      rw [hrest]
      simp [parseValue, hread, hlong.not_gt, hmore, hback]
    · cases h
      have hcast : (value.natAbs : ℤ) < 10 ^ minWidth := by omega
      have hcount : count value.natAbs ≤ minWidth := count_le hmin (by exact_mod_cast hcast)
      have hless : ¬ minWidth < l.length := by omega
      have hback : (ofDigits l : ℤ) = value := by omega
      generalize digitText l ++ text = unsigned at *
      simp [parseValue, hread, hlong.not_gt, hless, hback, hplus, hminus]
  | NOT_NEGATIVE =>
    simp only at h
    split_ifs at h with hneg
    cases h
    have hback : (ofDigits l : ℤ) = value := by omega
    generalize digitText l ++ text = unsigned at *
    simp [parseValue, hread, hlong.not_gt, hback, hplus, hminus]

/-- a fraction of a second printed with at most `m` digits is read back cut after `m` digits -/
theorem parseFraction_printFraction {m k nano : ℕ} (hm : m + k = 9) (h : nano < 10 ^ 9) :
    ∃ n, parseFraction 0 9 (printFraction 0 m nano) = some (n, []) ∧ n.getD 0 = (nano / 10 ^ k * 10 ^ k : ℕ) := by
  by_cases h0 : nano = 0
  · refine ⟨none, ?_, ?_⟩
    · simp [h0, printFraction, parseFraction]
    · simp [h0]
  · have hscaled : scaled 9 ((strip (fixed 9 nano)).take m) = nano / 10 ^ k * 10 ^ k := by
      rw [scaled_take_strip m (by simp), ← hm]
      exact scaled_take_fixed (hm ▸ h)
    have hmem : ∀ d ∈ (strip (fixed 9 nano)).take m, d < 10 := by
      intro d hd
      have hstrip : strip (fixed 9 nano) <+: fixed 9 nano := List.rdropWhile_prefix _ _
      exact lt_ten_of_mem_fixed (hstrip.subset (List.mem_of_mem_take hd))
    have hlen : ((strip (fixed 9 nano)).take m).length ≤ 9 := by
      rw [List.length_take]
      omega
    have hread := takeDigits_append hmem hlen (show NoDigit [] by simp [NoDigit])
    rw [List.append_nil] at hread
    refine ⟨some (scaled 9 ((strip (fixed 9 nano)).take m) : ℕ), ?_, ?_⟩
    · simp [h0, printFraction, parseFraction, hread]
    · rw [hscaled]
      rfl

/-- a fraction and the same fraction cut after `m + 1` digits are printed alike when nothing is cut, or when the last of
these digits is not zero; else the cut one is printed shorter -/
theorem printFraction_cut_iff (nano : ℕ) {m k : ℕ} (hm : m + 1 + k = 9) :
    printFraction 0 (m + 1) nano = printFraction 0 (m + 1) (nano / 10 ^ k * 10 ^ k) ↔
      nano % 10 ^ k = 0 ∨ nano / 10 ^ k % 10 ≠ 0 := by
  by_cases hwhole : nano % 10 ^ k = 0
  · rw [Nat.div_mul_cancel (Nat.dvd_of_mod_eq_zero hwhole)]
    simp [hwhole]
  · have hnano : nano ≠ 0 := by
      rintro rfl
      simp at hwhole
    have hlong : strip (fixed 9 nano) = fixed (m + 1) (nano / 10 ^ k) ++ strip (fixed k nano) := by
      rw [← hm, fixed_add, strip_append, if_neg (strip_fixed_eq_nil_iff.not.2 hwhole)]
    have hcut : strip (fixed 9 (nano / 10 ^ k * 10 ^ k)) = strip (fixed (m + 1) (nano / 10 ^ k)) := by
      rw [← hm, fixed_add, strip_append, if_pos (strip_fixed_eq_nil_iff.2 (Nat.mul_mod_left _ _)),
        Nat.mul_div_cancel _ (by positivity)]
    have hprint : printFraction 0 (m + 1) nano = '.' :: digitText (fixed (m + 1) (nano / 10 ^ k)) := by
      simp [printFraction, hnano, hlong]
    have hshort : (strip (fixed (m + 1) (nano / 10 ^ k))) <+: fixed (m + 1) (nano / 10 ^ k) :=
      List.rdropWhile_prefix _ _
    have hlen := hshort.length_le
    rw [length_fixed] at hlen
    rw [hprint, or_iff_right hwhole, ← length_strip_fixed_iff (w := m)]
    by_cases hzero : nano / 10 ^ k * 10 ^ k = 0
    · have hnil : strip (fixed (m + 1) (nano / 10 ^ k)) = [] := by
        rw [← hcut, hzero]
        decide
      simp [hzero, printFraction, hnil]
    · have hprint' : printFraction 0 (m + 1) (nano / 10 ^ k * 10 ^ k) =
          '.' :: digitText (strip (fixed (m + 1) (nano / 10 ^ k))) := by
        simp only [printFraction, hzero, if_false, hcut]
        simp [List.take_of_length_le hlen]
      rw [hprint']
      constructor
      · intro h
        have hlength := congrArg List.length h
        simpa [digitText] using hlength.symm
      · intro h
        rw [hshort.eq_of_length (by rw [h, length_fixed])]

/-- a fraction of no more than `m` digits is printed in full -/
theorem printFraction_whole {m k nano : ℕ} (hm : m + k = 9) (h : nano % 10 ^ k = 0) :
    printFraction 0 m nano = printFraction 0 9 nano := by
  by_cases h0 : nano = 0
  · simp [h0, printFraction]
  · have hstrip : strip (fixed 9 nano) = strip (fixed m (nano / 10 ^ k)) := by
      rw [← hm, fixed_add, strip_append, if_pos (strip_fixed_eq_nil_iff.2 h)]
    have hshort : (strip (fixed m (nano / 10 ^ k))) <+: fixed m (nano / 10 ^ k) := List.rdropWhile_prefix _ _
    have hlen := hshort.length_le
    rw [length_fixed] at hlen
    have hlen9 : (strip (fixed m (nano / 10 ^ k))).length ≤ 9 := by omega
    simp [printFraction, h0, hstrip, List.take_of_length_le hlen, List.take_of_length_le hlen9]

theorem noDigit_cons {c : Char} (h : convertToDigit c = none) (text : List Char) : NoDigit (c :: text) := by
  intro x hx
  cases hx
  exact h

theorem noDigit_printFraction (m nano : ℕ) : NoDigit (printFraction 0 m nano) := by
  unfold printFraction
  split_ifs with h0 hmin
  · exact absurd hmin (lt_irrefl 0)
  · simp [NoDigit]
  · exact noDigit_cons (by decide) _

theorem printValue_year {y : ℤ} (hmin : YEAR_MIN ≤ y) (hmax : y ≤ YEAR_MAX) :
    ∃ a, printValue 4 10 .EXCEEDS_PAD y = some a := by
  have hcount : count y.natAbs ≤ 10 := by
    apply count_le (by omega)
    unfold YEAR_MIN at hmin
    unfold YEAR_MAX at hmax
    omega
  simp only [printValue, hcount.not_gt, if_false]
  split_ifs <;> simp

theorem printValue_two {n : ℕ} (h : n < 100) : ∃ a, printValue 2 2 .NOT_NEGATIVE n = some a := by
  have hcount : count n ≤ 2 := count_le (by omega) h
  simp [printValue, hcount]

end Elements

/-! ## Date-times read back -/

namespace DateTimeFormatter

section Parse

variable {minWidth maxWidth : ℕ} {signStyle : SignStyle} {value : ℤ} {a text : List Char} {field : ChronoField}
  {next : DateTimeFormatter} {parsed : Parsed}

theorem parse_appendValue (hmin : 0 < minWidth) (hmax : minWidth ≤ maxWidth)
    (h : printValue minWidth maxWidth signStyle value = some a) (ht : NoDigit text) :
    (appendValue field minWidth maxWidth signStyle next).parsePrefix parsed (a ++ text) =
      next.parsePrefix (Function.update parsed field (some value)) text := by
  simp [parsePrefix, parseValue_printValue hmin hmax h ht]

theorem parse_appendLiteral (c : Char) :
    (appendLiteral c next).parsePrefix parsed (c :: text) = next.parsePrefix parsed text := by
  simp [parsePrefix]

theorem parse_optionalStart {r : Parsed × List Char} (h : next.parsePrefix parsed text = some r) :
    (optionalStart next).parsePrefix parsed text = some r := by
  simp [parsePrefix, h]

theorem parse_appendFraction (field : ChronoField) (parsed : Parsed) {m k nano : ℕ} (hm : m + k = 9)
    (h : nano < 10 ^ 9) (hnone : parsed field = none) : ∃ parsed',
    (appendFraction field 0 9 .toFormatter).parsePrefix parsed (printFraction 0 m nano) = some (parsed', []) ∧
      (∀ f, f ≠ field → parsed' f = parsed f) ∧ (parsed' field).getD 0 = (nano / 10 ^ k * 10 ^ k : ℕ) := by
  obtain ⟨n, hn, hval⟩ := parseFraction_printFraction hm h
  refine ⟨if n.isSome then Function.update parsed field n else parsed, ?_, ?_, ?_⟩
  · simp [parsePrefix, hn]
  · intro f hf
    split_ifs
    · exact Function.update_of_ne hf _ _
    · rfl
  · cases n with
    | none => simpa [hnone] using hval
    | some v => simpa using hval

end Parse

/-- the fields of a date-time, with a fraction cut to `nano` -/
structure FieldsOf (t : LocalDateTime) (nano : ℕ) (parsed : Parsed) : Prop where
  given : ∀ f, f ≠ .NANO_OF_SECOND → parsed f = some (f.getFrom t)
  cut : (parsed .NANO_OF_SECOND).getD 0 = nano

/-- every field but the fraction is printed -/
theorem printValue_fields (t : LocalDateTime) : ∃ year month day hour minute second,
    printValue 4 10 .EXCEEDS_PAD t.date.year = some year ∧ printValue 2 2 .NOT_NEGATIVE t.date.month = some month ∧
      printValue 2 2 .NOT_NEGATIVE t.date.day = some day ∧ printValue 2 2 .NOT_NEGATIVE t.hour = some hour ∧
      printValue 2 2 .NOT_NEGATIVE t.minute = some minute ∧ printValue 2 2 .NOT_NEGATIVE t.second = some second := by
  obtain ⟨hymin, hymax, -, hmonth, -, -⟩ := t.date.valid
  have hday := t.date.day_le
  have hhour := t.hour_lt
  have hminute := t.minute_lt
  have hsecond := t.second_lt
  obtain ⟨year, hyear⟩ := printValue_year hymin hymax
  obtain ⟨month, hmo⟩ := printValue_two (n := t.date.month) (by omega)
  obtain ⟨day, hd⟩ := printValue_two (n := t.date.day) (by omega)
  obtain ⟨hour, hh⟩ := printValue_two (n := t.hour) (by omega)
  obtain ⟨minute, hmi⟩ := printValue_two (n := t.minute) (by omega)
  obtain ⟨second, hs⟩ := printValue_two (n := t.second) (by omega)
  exact ⟨year, month, day, hour, minute, second, hyear, hmo, hd, hh, hmi, hs⟩

/-- the texts of date-times that differ at most in their fractions differ at most in the texts of these -/
theorem format_fraction (t : LocalDateTime) (m : ℕ) :
    ∃ head, ∀ u : LocalDateTime, (∀ f : ChronoField, f ≠ .NANO_OF_SECOND → f.getFrom u = f.getFrom t) →
      (ISO_LOCAL_DATE (.appendLiteral 'T' (localTime m))).format u = some (head ++ printFraction 0 m u.nano) := by
  obtain ⟨year, month, day, hour, minute, second, hyear, hmo, hd, hh, hmi, hs⟩ := printValue_fields t
  refine ⟨year ++ '-' :: (month ++ '-' :: (day ++ 'T' :: (hour ++ ':' :: (minute ++ ':' :: second)))), fun u hu => ?_⟩
  have hyear' := hu .YEAR (by decide)
  have hmo' := hu .MONTH_OF_YEAR (by decide)
  have hd' := hu .DAY_OF_MONTH (by decide)
  have hh' := hu .HOUR_OF_DAY (by decide)
  have hmi' := hu .MINUTE_OF_HOUR (by decide)
  have hs' := hu .SECOND_OF_MINUTE (by decide)
  simp only [ChronoField.getFrom] at hyear' hmo' hd' hh' hmi' hs'
  simp [ISO_LOCAL_DATE, localTime, format, ChronoField.getFrom, hyear', hmo', hd', hh', hmi', hs', hyear, hmo, hd, hh,
    hmi, hs]

/-- what is printed with at most `m` digits in the fraction is read back with the fraction cut after `m` digits -/
theorem parsePrefix_format (t : LocalDateTime) {m k : ℕ} (hm : m + k = 9) :
    ∃ text parsed, (ISO_LOCAL_DATE (.appendLiteral 'T' (localTime m))).format t = some text ∧
      ISO_LOCAL_DATE_TIME.parsePrefix (fun _ => none) text = some (parsed, []) ∧
      FieldsOf t (t.nano / 10 ^ k * 10 ^ k) parsed := by
  obtain ⟨year, month, day, hour, minute, second, hyear, hmo, hd, hh, hmi, hs⟩ := printValue_fields t
  have hnano : t.nano < 10 ^ 9 := Nat.mod_lt _ (by decide)
  obtain ⟨parsed, hparsed, hsame, hcut⟩ := parse_appendFraction .NANO_OF_SECOND
    (Function.update (Function.update (Function.update (Function.update (Function.update (Function.update
      (fun _ => none) .YEAR (some t.date.year)) .MONTH_OF_YEAR (some t.date.month)) .DAY_OF_MONTH (some t.date.day))
      .HOUR_OF_DAY (some t.hour)) .MINUTE_OF_HOUR (some t.minute)) .SECOND_OF_MINUTE (some t.second)) hm
    hnano rfl
  refine ⟨year ++ '-' :: (month ++ '-' :: (day ++ 'T' :: (hour ++ ':' :: (minute ++ ':' :: (second ++
    printFraction 0 m t.nano))))), parsed, ?_, ?_, ?_, hcut⟩
  · simp [ISO_LOCAL_DATE, localTime, format, ChronoField.getFrom, hyear, hmo, hd, hh, hmi, hs]
  · unfold ISO_LOCAL_DATE_TIME ISO_LOCAL_DATE ISO_LOCAL_TIME localTime
    rw [parse_appendValue (by omega) (by omega) hyear (noDigit_cons (by decide) _), parse_appendLiteral,
      parse_appendValue (by omega) (by omega) hmo (noDigit_cons (by decide) _), parse_appendLiteral,
      parse_appendValue (by omega) (by omega) hd (noDigit_cons (by decide) _), parse_appendLiteral,
      parse_appendValue (by omega) (by omega) hh (noDigit_cons (by decide) _), parse_appendLiteral,
      parse_appendValue (by omega) (by omega) hmi (noDigit_cons (by decide) _)]
    apply parse_optionalStart
    rw [parse_appendLiteral, parse_appendValue (by omega) (by omega) hs (noDigit_printFraction m t.nano)]
    apply parse_optionalStart
    exact hparsed
  · intro f hf
    rw [hsame f hf]
    cases f with
    | NANO_OF_SECOND => exact absurd rfl hf
    | _ => rfl

/-- the fields of a date-time resolve to it -/
theorem resolve_given {t : LocalDateTime} {parsed : Parsed} (h : FieldsOf t t.nano parsed) :
    resolve parsed = some t := by
  have hyear := h.given .YEAR (by decide)
  have hmonth := h.given .MONTH_OF_YEAR (by decide)
  have hday := h.given .DAY_OF_MONTH (by decide)
  have htime : resolveTime parsed = some ((t.hour : ℤ), (t.minute : ℤ), (t.second : ℤ), (t.nano : ℤ)) := by
    unfold resolveTime
    rw [h.given .HOUR_OF_DAY (by decide), h.given .MINUTE_OF_HOUR (by decide), h.given .SECOND_OF_MINUTE (by decide)]
    simp only
    rw [h.cut]
    rfl
  have hhour := t.hour_lt
  have hminute := t.minute_lt
  have hsecond := t.second_lt
  have hnano : t.nano < NANOS_PER_SECOND := Nat.mod_lt _ (by decide)
  have hdate : ValidDate t.date.year (t.date.month : ℤ).toNat (t.date.day : ℤ).toNat := t.date.valid
  unfold resolve
  simp only [hyear, hmonth, hday, htime, ChronoField.getFrom, Option.bind_eq_bind, Option.bind_some]
  rw [dif_pos hdate, dif_pos (by omega)]
  refine congrArg some (LocalDateTime.ext ?_ ?_)
  · rfl
  · simp only [LocalDateTime.hour, LocalDateTime.minute, LocalDateTime.second, LocalDateTime.nano, NANOS_PER_SECOND]
    omega

/-- cutting a date-time to whole milliseconds changes the fraction of its second only -/
theorem getFrom_truncMillis (t : LocalDateTime) {f : ChronoField} (hf : f ≠ .NANO_OF_SECOND) :
    f.getFrom t.truncMillis = f.getFrom t := by
  cases f with
  | NANO_OF_SECOND => exact absurd rfl hf
  | HOUR_OF_DAY =>
    simp only [ChronoField.getFrom, LocalDateTime.hour, LocalDateTime.truncMillis, NANOS_PER_MILLI, NANOS_PER_SECOND]
    omega
  | MINUTE_OF_HOUR =>
    simp only [ChronoField.getFrom, LocalDateTime.minute, LocalDateTime.truncMillis, NANOS_PER_MILLI, NANOS_PER_SECOND]
    omega
  | SECOND_OF_MINUTE =>
    simp only [ChronoField.getFrom, LocalDateTime.second, LocalDateTime.truncMillis, NANOS_PER_MILLI, NANOS_PER_SECOND]
    omega
  | _ => rfl

theorem nano_truncMillis (t : LocalDateTime) : t.truncMillis.nano = t.nano / NANOS_PER_MILLI * NANOS_PER_MILLI := by
  simp only [LocalDateTime.nano, LocalDateTime.truncMillis, NANOS_PER_MILLI, NANOS_PER_SECOND]
  omega

/-- the fields of a date-time, cut to whole milliseconds, resolve to it -/
theorem resolve_fields {t : LocalDateTime} {parsed : Parsed}
    (h : FieldsOf t (t.nano / NANOS_PER_MILLI * NANOS_PER_MILLI) parsed) : resolve parsed = some t.truncMillis := by
  refine resolve_given ⟨fun f hf => ?_, ?_⟩
  · rw [getFrom_truncMillis t hf]
    exact h.given f hf
  · rw [nano_truncMillis]
    exact h.cut

end DateTimeFormatter

end BankServices.Java
