/-
The two texts of a date-time: the one that the JSON serializer prints with `DATE_TIME_FORMATTER`, and the one that a
query parameter is parsed from with `ISO_LOCAL_DATE_TIME`.

- `fromString_format`: a printed date-time is parsed back, cut down to whole milliseconds.
- `format_truncMillis_iff`: when cutting a date-time to whole milliseconds leaves its text as it is.
- `converter_serializer`: the converter prints without loss, and otherwise than the serializer where something smaller
  than a millisecond is there.
- `written_read_back`: so the writer and the reader tell apart exactly what differs in a millisecond.
-/
import BankServices.Java.DateTimeFormatter

namespace BankServices.Webapp.LocalDateTimeParamConverterProvider

open BankServices.Java BankServices.Java.DateTimeFormatter

/-- must be set respectively to the database TIMESTAMP precision -/
def FRACTION_LENGTH_FOR_SECONDS : ℕ := 3

/-- similar to `ISO_LOCAL_DATE_TIME` but having millis precision -/
def DATE_TIME_FORMATTER : DateTimeFormatter :=
  .appendValue .YEAR 4 10 .EXCEEDS_PAD <|
  .appendLiteral '-' <|
  .appendValue .MONTH_OF_YEAR 2 2 .NOT_NEGATIVE <|
  .appendLiteral '-' <|
  .appendValue .DAY_OF_MONTH 2 2 .NOT_NEGATIVE <|
  .appendLiteral 'T' <|
  .appendValue .HOUR_OF_DAY 2 2 .NOT_NEGATIVE <|
  .appendLiteral ':' <|
  .appendValue .MINUTE_OF_HOUR 2 2 .NOT_NEGATIVE <|
  .optionalStart <|
  .appendLiteral ':' <|
  .appendValue .SECOND_OF_MINUTE 2 2 .NOT_NEGATIVE <|
  .optionalStart <|
  .appendFraction .NANO_OF_SECOND 0 FRACTION_LENGTH_FOR_SECONDS .toFormatter

/-- `LocalDateTimeParamConverter.fromString` -/
def fromString (str : List Char) : Option LocalDateTime := LocalDateTime.parse str ISO_LOCAL_DATE_TIME

/-- `LocalDateTimeParamConverter.toString` -/
def toString (value : LocalDateTime) : Option (List Char) := ISO_LOCAL_DATE_TIME.format value

/-- a printed date-time is parsed back, without what is smaller than a millisecond -/
theorem fromString_format (t : LocalDateTime) :
    ∃ text, DATE_TIME_FORMATTER.format t = some text ∧ fromString text = some t.truncMillis := by
  obtain ⟨text, parsed, hformat, hparse, hfields⟩ := parsePrefix_format t (m := 3) (k := 6) rfl
  refine ⟨text, hformat, ?_⟩
  unfold fromString LocalDateTime.parse
  rw [hparse]
  exact resolve_fields hfields

/-- the text of a date-time is the text of its whole milliseconds, unless their last digit is a zero: the text of the
former shows it, if anything smaller follows -/
theorem format_truncMillis_iff (t : LocalDateTime) :
    DATE_TIME_FORMATTER.format t = DATE_TIME_FORMATTER.format t.truncMillis ↔
      t.WholeMillis ∨ t.nanoOfDay / NANOS_PER_MILLI % 10 ≠ 0 := by
  obtain ⟨head, hhead⟩ := format_fraction t 3
  have hcut : t.truncMillis.nano = t.nano / 10 ^ 6 * 10 ^ 6 := nano_truncMillis t
  have hfields : ∀ f : ChronoField, f ≠ .NANO_OF_SECOND → f.getFrom t.truncMillis = f.getFrom t :=
    fun f hf => getFrom_truncMillis t hf
  have hcut_iff := printFraction_cut_iff t.nano (m := 2) (k := 6) rfl
  rw [show DATE_TIME_FORMATTER.format t = _ from hhead t fun _ _ => rfl,
    show DATE_TIME_FORMATTER.format t.truncMillis = _ from hhead t.truncMillis hfields, hcut, Option.some.injEq,
    List.append_cancel_left_eq]
  refine hcut_iff.trans ?_
  simp only [LocalDateTime.WholeMillis, LocalDateTime.nano, NANOS_PER_MILLI, NANOS_PER_SECOND]
  omega

/-- **Writer and reader.** Every date-time has a text, which is read back without what is smaller than a millisecond; two
texts are read back as equal exactly when their date-times agree to the millisecond. -/
theorem written_read_back (t u : LocalDateTime) :
    ∃ a b, DATE_TIME_FORMATTER.format t = some a ∧ DATE_TIME_FORMATTER.format u = some b ∧
      LocalDateTime.parse a ISO_LOCAL_DATE_TIME = some t.truncMillis ∧
      LocalDateTime.parse b ISO_LOCAL_DATE_TIME = some u.truncMillis ∧
      (LocalDateTime.parse a ISO_LOCAL_DATE_TIME = LocalDateTime.parse b ISO_LOCAL_DATE_TIME ↔ t.SameMillis u) := by
  obtain ⟨a, hformat, hread⟩ := fromString_format t
  obtain ⟨b, hformat', hread'⟩ := fromString_format u
  unfold fromString at hread hread'
  refine ⟨a, b, hformat, hformat', hread, hread', ?_⟩
  rw [hread, hread', Option.some.injEq]
  exact LocalDateTime.truncMillis_eq_iff t u

/-- what the converter prints is parsed back as it was -/
theorem fromString_toString (t : LocalDateTime) : ∃ text, toString t = some text ∧ fromString text = some t := by
  obtain ⟨text, parsed, hformat, hparse, hfields⟩ := parsePrefix_format t (m := 9) (k := 0) rfl
  rw [pow_zero, Nat.div_one, mul_one] at hfields
  refine ⟨text, hformat, ?_⟩
  unfold fromString LocalDateTime.parse
  rw [hparse]
  exact resolve_given hfields

/-- **The two texts.** The converter's text of a date-time is read back as it was, the serializer's without what is
smaller than a millisecond; they are the same text exactly for whole milliseconds. -/
theorem converter_serializer (t : LocalDateTime) :
    ∃ iso json, toString t = some iso ∧ DATE_TIME_FORMATTER.format t = some json ∧ fromString iso = some t ∧
      fromString json = some t.truncMillis ∧ (iso = json ↔ t.WholeMillis) := by
  obtain ⟨iso, hiso, hread⟩ := fromString_toString t
  obtain ⟨json, hjson, hread'⟩ := fromString_format t
  refine ⟨iso, json, hiso, hjson, hread, hread', ?_⟩
  constructor
  · intro h
    rw [h, hread', Option.some.injEq] at hread
    rw [← hread]
    exact t.truncMillis_whole
  · intro h
    have hnano : t.nano % 10 ^ 6 = 0 := by
      have hwhole : t.nanoOfDay % 1000000 = 0 := h
      simp only [LocalDateTime.nano, NANOS_PER_SECOND]
      omega
    have hsame : toString t = DATE_TIME_FORMATTER.format t := by
      simp only [toString, ISO_LOCAL_DATE_TIME, ISO_LOCAL_DATE, ISO_LOCAL_TIME, localTime, DATE_TIME_FORMATTER,
        FRACTION_LENGTH_FOR_SECONDS, format, ChronoField.getFrom, Int.toNat_natCast,
        printFraction_whole (m := 3) rfl hnano]
    rw [hiso, hjson] at hsame
    exact Option.some.inj hsame

example : DATE_TIME_FORMATTER.format ⟨⟨2020, 2, 2, by decide⟩, 45296120000000, by decide⟩ =
    some ['2', '0', '2', '0', '-', '0', '2', '-', '0', '2', 'T',
      '1', '2', ':', '3', '4', ':', '5', '6', '.', '1', '2'] := by
  decide

end BankServices.Webapp.LocalDateTimeParamConverterProvider
