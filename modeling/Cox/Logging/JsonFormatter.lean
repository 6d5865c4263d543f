import Cox.Lib.Json
import Cox.Logging.Timestamp

/-!
# JSON log lines

`JsonFormatter` of logging/json_formatter.cc. A line holds no control character, and a JSON
reader gets back every string of the record, whatever its bytes are; so no record can be written
as the line of another.
-/
namespace Cox.Logging

open Cox.Lib Cox.Lib.Json List

inductive LogLevel where
  | debug
  | info
  | warning
  | error
  | fatal
  deriving DecidableEq

def LogLevel.toString : LogLevel → Bytes
  | debug => text "DEBUG"
  | info => text "INFO"
  | warning => text "WARNING"
  | error => text "ERROR"
  | fatal => text "FATAL"

theorem LogLevel.toString_injective (a b : LogLevel) (same : a.toString = b.toString) : a = b := by
  cases a <;> cases b <;> first | rfl | exact absurd same (by decide)

structure LogRecord where
  level : LogLevel
  timestamp : Timestamp
  tid : Bytes
  message : Bytes
  fields : List (Bytes × Bytes)

namespace JsonFormatter

/-- What the loop of `appendEscaped` appends for one character. -/
def escape (c : UInt8) : Bytes :=
  if c = 34 then text "\\\""
  else if c = 92 then text "\\\\"
  else if c = 10 then text "\\n"
  else if c = 13 then text "\\r"
  else if c = 9 then text "\\t"
  else if c = 8 then text "\\b"
  else if c = 12 then text "\\f"
  -- The buffer of `snprintf` has eight bytes.
  else if c < 32 then (text "\\u" ++ padded 4 16 c.toNat).take 7
  else [c]

def appendEscaped (out s : Bytes) : Bytes := s.foldl (fun out c => out ++ escape c) out

def appendField (out : Bytes) (field : Bytes × Bytes) : Bytes :=
  let out := out ++ text ",\""
  let out := appendEscaped out field.1
  let out := out ++ text "\":\""
  let out := appendEscaped out field.2
  out ++ text "\""

def format (record : LogRecord) : Bytes :=
  let out := text "\x7b\"ts\":\""
  let out := appendEscaped out record.timestamp.toString
  let out := out ++ text "\",\"level\":\""
  let out := out ++ record.level.toString
  let out := out ++ text "\",\"tid\":\""
  let out := appendEscaped out record.tid
  let out := out ++ text "\",\"msg\":\""
  let out := appendEscaped out record.message
  let out := out ++ text "\""
  let out := record.fields.foldl appendField out
  out ++ text "\x7d"

/-! ### The text as an object of strings -/

def escaped (s : Bytes) : Bytes := s.flatMap escape

theorem appendEscaped_eq (out s : Bytes) : appendEscaped out s = out ++ escaped s := by
  unfold appendEscaped escaped
  induction s generalizing out with
  | nil => rw [foldl_nil, flatMap_nil, append_nil]
  | cons c s ih => rw [foldl_cons, ih, flatMap_cons, append_assoc]

theorem appendField_eq (out : Bytes) (field : Bytes × Bytes) :
    appendField out field = out ++ comma :: member (escaped field.1) (escaped field.2) := by
  have opening : text ",\"" = [comma, quote] := rfl
  have middle : text "\":\"" = [quote, colon, quote] := rfl
  have closing : text "\"" = [quote] := rfl
  simp only [appendField, appendEscaped_eq, opening, middle, closing, member, append_assoc,
    cons_append, nil_append]

theorem foldl_appendField (fields : List (Bytes × Bytes)) (out : Bytes) :
    fields.foldl appendField out =
      out ++ fields.flatMap fun m => comma :: member (escaped m.1) (escaped m.2) := by
  induction fields generalizing out with
  | nil => rw [foldl_nil, flatMap_nil, append_nil]
  | cons field fields ih =>
    rw [foldl_cons, ih, appendField_eq, flatMap_cons, append_assoc]

def entries (record : LogRecord) : List (Bytes × Bytes) :=
  [(text "ts", record.timestamp.toString), (text "level", record.level.toString),
    (text "tid", record.tid), (text "msg", record.message)] ++ record.fields

theorem escaped_level (level : LogLevel) : escaped level.toString = level.toString := by
  cases level <;> rfl

theorem format_eq (record : LogRecord) :
    format record = leftBrace :: (members escaped (entries record) ++ [rightBrace]) := by
  have ts : text "\x7b\"ts\":\"" =
      [leftBrace, quote] ++ escaped (text "ts") ++ [quote, colon, quote] := rfl
  have level : text "\",\"level\":\"" =
      [quote, comma, quote] ++ escaped (text "level") ++ [quote, colon, quote] := rfl
  have tid : text "\",\"tid\":\"" =
      [quote, comma, quote] ++ escaped (text "tid") ++ [quote, colon, quote] := rfl
  have msg : text "\",\"msg\":\"" =
      [quote, comma, quote] ++ escaped (text "msg") ++ [quote, colon, quote] := rfl
  have closing : text "\"" = [quote] := rfl
  have brace : text "\x7d" = [rightBrace] := rfl
  dsimp only [format, entries]
  rw [cons_append, members_eq_flatMap, ts, level, tid, msg, closing, brace]
  simp only [foldl_appendField, appendEscaped_eq, escaped_level, member,
    flatMap_cons, cons_append, nil_append, append_assoc]

/-! ### Reading it back -/

theorem code_control : ∀ n < 32, (codePoint (padded 4 16 n)).bind utf8 = some [UInt8.ofNat n] := by
  decide

theorem readString_escape (c : UInt8) (rest : Bytes) :
    readString (escape c ++ rest) = behind [c] (readString rest) := by
  fun_cases escape c
  next quoted => exact readString_unescape rest 34 c (by decide) (by rw [quoted]; rfl)
  next _ backslash => exact readString_unescape rest 92 c (by decide) (by rw [backslash]; rfl)
  next _ _ newline => exact readString_unescape rest 110 c (by decide) (by rw [newline]; rfl)
  next _ _ _ ret => exact readString_unescape rest 114 c (by decide) (by rw [ret]; rfl)
  next _ _ _ _ tab => exact readString_unescape rest 116 c (by decide) (by rw [tab]; rfl)
  next _ _ _ _ _ bell => exact readString_unescape rest 98 c (by decide) (by rw [bell]; rfl)
  next _ _ _ _ _ _ feed => exact readString_unescape rest 102 c (by decide) (by rw [feed]; rfl)
  next control =>
    have small : c.toNat < 32 := UInt8.lt_iff_toNat_lt.mp control
    have four : (padded 4 16 c.toNat).length = 4 :=
      length_padded 4 16 c.toNat (by decide) (by decide) (by omega)
    have fits : (text "\\u" ++ padded 4 16 c.toNat).take 7 =
        backslash :: 117 :: padded 4 16 c.toNat := by
      apply take_of_length_le
      rw [length_append, four]
      decide
    have code := code_control c.toNat small
    rw [UInt8.ofNat_toNat] at code
    rw [fits]
    exact readString_code rest _ _ four code
  next quoted escaped _ _ _ _ _ control => exact readString_plain rest c quoted escaped control

theorem readString_escaped (s rest : Bytes) :
    readString (escaped s ++ quote :: rest) = some (s, rest) := by
  unfold escaped
  induction s with
  | nil => exact readString_quote rest
  | cons c s ih =>
    rw [flatMap_cons, append_assoc, readString_escape, ih]
    rfl

theorem parse_format (record : LogRecord) :
    parse (format record) = some (.object (strings (entries record))) := by
  rw [format_eq]
  exact parse_members readString_escaped _ _

/-! ### No control characters -/

theorem printable_padded (n : Nat) : ∀ b ∈ padded 4 16 n, 32 ≤ b := by
  intro b member
  obtain ⟨d, small, rfl⟩ := mem_padded 4 16 n (by decide) (by decide) b member
  have digits : ∀ d < 16, 32 ≤ digitByte d := by decide
  exact digits d small

theorem printable_pair (e : UInt8) (high : 32 ≤ e) : ∀ b ∈ [backslash, e], 32 ≤ b := by
  intro b member
  rcases mem_pair.mp member with rfl | rfl
  · decide
  · exact high

theorem printable_escape (c : UInt8) : ∀ b ∈ escape c, 32 ≤ b := by
  fun_cases escape c
  case case8 =>
    intro b member
    rcases mem_append.mp (mem_of_mem_take member) with letter | digit
    · exact printable_pair 117 (by decide) b letter
    · exact printable_padded _ b digit
  case case9 control =>
    intro b member
    obtain rfl : b = c := mem_singleton.mp member
    exact UInt8.not_lt.mp control
  case case1 => exact printable_pair 34 (by decide)
  case case2 => exact printable_pair 92 (by decide)
  case case3 => exact printable_pair 110 (by decide)
  case case4 => exact printable_pair 114 (by decide)
  case case5 => exact printable_pair 116 (by decide)
  case case6 => exact printable_pair 98 (by decide)
  case case7 => exact printable_pair 102 (by decide)

theorem printable_escaped (s : Bytes) : ∀ b ∈ escaped s, 32 ≤ b := by
  intro b member
  obtain ⟨c, _, inside⟩ := mem_flatMap.mp member
  exact printable_escape c b inside

theorem printable_member (m : Bytes × Bytes) :
    ∀ b ∈ member (escaped m.1) (escaped m.2), 32 ≤ b := by
  have mark : 32 ≤ quote := by decide
  have colon : 32 ≤ colon := by decide
  simp only [member, forall_mem_cons, forall_mem_append, not_mem_nil,
    false_imp_iff, implies_true, and_true]
  exact ⟨mark, printable_escaped m.1, mark, colon, mark, printable_escaped m.2, mark⟩

theorem printable_members (m : Bytes × Bytes) (ms : List (Bytes × Bytes)) :
    ∀ b ∈ members escaped (m :: ms), 32 ≤ b := by
  intro b inside
  rw [members_eq_flatMap] at inside
  rcases mem_append.mp inside with first | later
  · exact printable_member m b first
  · obtain ⟨m', _, inside⟩ := mem_flatMap.mp later
    rcases mem_cons.mp inside with rfl | behind
    · decide
    · exact printable_member m' b behind

theorem printable_format (record : LogRecord) : ∀ b ∈ format record, 32 ≤ b := by
  intro b inside
  rw [format_eq] at inside
  rcases mem_cons.mp inside with rfl | inside
  · decide
  · rcases mem_append.mp inside with entry | brace
    · exact printable_members _ _ b entry
    · obtain rfl := mem_singleton.mp brace
      decide

/-! ### The line determines the record -/

theorem strings_injective (ms ms' : List (Bytes × Bytes)) (same : strings ms = strings ms') :
    ms = ms' := by
  apply map_injective_iff.mpr _ same
  intro m m' equal
  obtain ⟨key, value⟩ := Prod.mk.inj equal
  exact Prod.ext key (Json.string.inj value)

theorem entries_injective (record other : LogRecord) (same : entries record = entries other) :
    record = other := by
  cases record
  cases other
  simp only [entries, cons_append, nil_append, List.cons.injEq, Prod.mk.injEq, true_and]
    at same
  obtain ⟨timestamp, level, tid, message, fields⟩ := same
  rw [Timestamp.toString_injective _ _ timestamp, LogLevel.toString_injective _ _ level, tid,
    message, fields]

/-- A line is one line of printable bytes, a JSON reader gets the members `ts`, `level`, `tid`,
`msg` and the fields from it in this order, with the strings that the record has, and no other
record is written as it. -/
theorem unforgeable (record : LogRecord) :
    (∀ b ∈ format record, 32 ≤ b) ∧
      parse (format record) = some (.object (strings
        ((text "ts", record.timestamp.toString) :: (text "level", record.level.toString) ::
          (text "tid", record.tid) :: (text "msg", record.message) :: record.fields))) ∧
      ∀ other, format other = format record → other = record := by
  refine ⟨printable_format record, parse_format record, fun other same => ?_⟩
  have read := parse_format other
  rw [same, parse_format record] at read
  exact (entries_injective _ _ (strings_injective _ _ (Json.object.inj (Option.some.inj read)))).symm

/-- A message that tries to end its string and to add a member. -/
theorem unforgeable_quotes :
    let record : LogRecord :=
      { level := .info, timestamp := ⟨0, by decide, by decide⟩, tid := text "1",
        message := text "a\",\"level\":\"FATAL\n\u0001", fields := [(text "k", [200, 92])] }
    format record = text ("\x7b\"ts\":\"1970-01-01 00:00:00.000000\",\"level\":\"INFO\"," ++
        "\"tid\":\"1\",\"msg\":\"a\\\",\\\"level\\\":\\\"FATAL\\n\\u0001\"," ++
        "\"k\":\"") ++ [200, 92, 92, 34, 125] ∧
      ∀ other, format other = format record → other = record :=
  ⟨by decide +kernel, fun other same => (unforgeable _).2.2 other same⟩

end JsonFormatter

end Cox.Logging
