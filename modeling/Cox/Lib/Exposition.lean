import Mathlib.Data.List.Nodup
import Cox.Lib.Bytes
import Cox.Lib.Split

/-!
# The text format of metrics

A writer and a reader of the line-based exposition format, version 0.0.4. A line is a sample, a
`HELP` or `TYPE` line of a metric, or a comment. The value of a label has its backslashes, quotes
and line feeds escaped, the text of a `HELP` line its backslashes and line feeds. Between the
tokens of a line there may be any number of blanks.

The lines of a metric stand together, with `HELP` and `TYPE` first and at most once. So the lines
are put into families in the order in which they come, and a name that belongs to two families
is an error. Values are numbers, and are kept as they are printed.
-/
namespace Cox.Lib.Exposition

open List

def lineFeed : UInt8 := 10

def space : UInt8 := 32

def quote : UInt8 := 34

def hash : UInt8 := 35

def comma : UInt8 := 44

def equals : UInt8 := 61

def backslash : UInt8 := 92

def leftBrace : UInt8 := 123

def rightBrace : UInt8 := 125

abbrev Labels := List (Bytes × Bytes)

inductive Kind where
  | counter
  | gauge
  | histogram
  | summary
  | untyped
  deriving DecidableEq, Repr

structure Sample where
  name : Bytes
  labels : Labels
  value : Bytes
  timestamp : Option Bytes := none
  deriving DecidableEq

inductive Line where
  | help (name doc : Bytes)
  | kind (name : Bytes) (kind : Kind)
  | sample (s : Sample)
  | comment
  deriving DecidableEq

/-! ### Writing -/

def Kind.word : Kind → Bytes
  | .counter => text "counter"
  | .gauge => text "gauge"
  | .histogram => text "histogram"
  | .summary => text "summary"
  | .untyped => text "untyped"

/-- Quotes are only escaped where they would end the text. -/
def escapeByte (quoted : Bool) (c : UInt8) : Bytes :=
  if c = backslash then [backslash, backslash]
  else if c = lineFeed then [backslash, 110]
  else if quoted = true ∧ c = quote then [backslash, quote]
  else [c]

def escape (quoted : Bool) (s : Bytes) : Bytes := s.flatMap (escapeByte quoted)

section Write

-- how the texts between quotes and those behind `HELP` are put down
variable (esc : Bool → Bytes → Bytes)

def writeLabel (l : Bytes × Bytes) : Bytes := l.1 ++ [equals, quote] ++ esc true l.2 ++ [quote]

def writeLabels : Labels → Bytes
  | [] => []
  | l :: ls =>
    leftBrace :: (writeLabel esc l ++ ls.flatMap (fun l => comma :: writeLabel esc l)) ++ [rightBrace]

def writeTimestamp : Option Bytes → Bytes
  | none => []
  | some t => space :: t

def writeSample (s : Sample) : Bytes :=
  s.name ++ writeLabels esc s.labels ++ space :: s.value ++ writeTimestamp s.timestamp

def writeLine : Line → Bytes
  | .help name doc => text "# HELP " ++ name ++ space :: esc false doc
  | .kind name kind => text "# TYPE " ++ name ++ space :: kind.word
  | .sample s => writeSample esc s
  | .comment => []

def writeLines (lines : List Line) : Bytes := lines.flatMap fun l => writeLine esc l ++ [lineFeed]

end Write

/-! ### Reading a line -/

def blank (c : UInt8) : Bool := c == 32 || c == 9

def skip (s : Bytes) : Bytes := s.dropWhile blank

def separated : Bytes → Option Bytes
  | c :: rest => if blank c then some (skip rest) else none
  | [] => none

def expect (c : UInt8) : Bytes → Option Bytes
  | d :: rest => if d = c then some rest else none
  | [] => none

def readToken (s : Bytes) : Option (Bytes × Bytes) :=
  if (s.takeWhile fun c => !blank c).isEmpty then none
  else some (s.takeWhile fun c => !blank c, s.dropWhile fun c => !blank c)

def digit (c : UInt8) : Bool := 48 ≤ c && c ≤ 57

def labelByte (c : UInt8) : Bool :=
  (65 ≤ c && c ≤ 90) || (97 ≤ c && c ≤ 122) || c == 95 || digit c

def metricByte (c : UInt8) : Bool := labelByte c || c == 58

/-- A name is not empty and does not begin with a digit. -/
def named (byte : UInt8 → Bool) (s : Bytes) : Bool := s.all byte && s.head?.any fun c => !digit c

def readName (byte : UInt8 → Bool) (s : Bytes) : Option (Bytes × Bytes) :=
  if named byte (s.takeWhile byte) then some (s.takeWhile byte, s.dropWhile byte) else none

def unescape (quoted : Bool) (e : UInt8) : Option UInt8 :=
  if e = backslash then some backslash
  else if e = 110 then some lineFeed
  else if quoted = true ∧ e = quote then some quote
  else none

/-- The text up to the closing quote, or up to the end, from behind a backslash or not. -/
def decode (quoted : Bool) : Bool → Bytes → Option (Bytes × Bytes)
  | true, [] => none
  | false, [] => if quoted then none else some ([], [])
  | true, e :: rest =>
    (unescape quoted e).bind fun c => (decode quoted false rest).map fun r => (c :: r.1, r.2)
  | false, c :: rest =>
    if quoted = true ∧ c = quote then some ([], rest)
    else if c = backslash then decode quoted true rest
    else if c = lineFeed then none
    else (decode quoted false rest).map fun r => (c :: r.1, r.2)

def readLabel (s : Bytes) : Option ((Bytes × Bytes) × Bytes) :=
  (readName labelByte s).bind fun key =>
    (expect equals (skip key.2)).bind fun s =>
      (expect quote (skip s)).bind fun s =>
        (decode true false s).map fun value => ((key.1, value.1), value.2)

/-- The labels up to the closing brace. A comma may stand behind the last one. -/
def readLabels : Nat → Bytes → Option (Labels × Bytes)
  | 0, _ => none
  | fuel + 1, s =>
    match expect rightBrace (skip s) with
    | some rest => some ([], rest)
    | none =>
      (readLabel (skip s)).bind fun l =>
        match expect comma (skip l.2) with
        | some rest => (readLabels fuel rest).map fun ls => (l.1 :: ls.1, ls.2)
        | none => (expect rightBrace (skip l.2)).map fun rest => ([l.1], rest)

def readLabelSet (s : Bytes) : Option (Labels × Bytes) :=
  match expect leftBrace (skip s) with
  | some rest => readLabels (rest.length + 1) rest
  | none => some ([], s)

def unsigned (s : Bytes) : Bytes := if s.head? = some 43 ∨ s.head? = some 45 then s.tail else s

def digits (s : Bytes) : Bool := !s.isEmpty && s.all digit

def integer (s : Bytes) : Bool := digits (unsigned s)

/-- Digits with at most one point among them, and an exponent or none. -/
def decimal (s : Bytes) : Bool :=
  let mantissa := s.takeWhile fun c => digit c || c == 46
  let exponent := s.dropWhile fun c => digit c || c == 46
  mantissa.any digit && mantissa.count 46 ≤ 1 &&
    (exponent.isEmpty || exponent.head?.any (tolower · == 101) && integer exponent.tail)

/-- A decimal, an infinity or `nan`, made of digits, letters, signs and points. -/
def number (s : Bytes) : Bool :=
  s.all (fun c => labelByte c || decide (c ∈ text "+-.")) &&
    (decimal (unsigned s) || [text "inf", text "infinity"].contains (toLower (unsigned s)) ||
      toLower s == text "nan")

def readTimestamp (s : Bytes) : Option (Option Bytes) :=
  if (skip s).isEmpty then some none
  else
    (separated s).bind fun s =>
      (readToken s).bind fun t =>
        if integer t.1 && (skip t.2).isEmpty then some (some t.1) else none

/-- The value is a number, and no label is named twice. -/
def readSample (s : Bytes) : Option Sample :=
  (readName metricByte s).bind fun name =>
    (readLabelSet name.2).bind fun labels =>
      (separated labels.2).bind fun s =>
        (readToken s).bind fun value =>
          (readTimestamp value.2).bind fun timestamp =>
            if number value.1 = true ∧ (labels.1.map Prod.fst).Nodup then
              some { name := name.1, labels := labels.1, value := value.1, timestamp }
            else none

def Kind.read (w : Bytes) : Option Kind :=
  [Kind.counter, .gauge, .histogram, .summary, .untyped].find? fun k => k.word == w

/-- The text begins behind the blanks that follow the name. -/
def readHelp (s : Bytes) : Option Line :=
  (separated s).bind fun s =>
    (readName metricByte s).bind fun name =>
      (separated name.2).bind fun doc => (decode false false doc).map fun r => .help name.1 r.1

def readKind (s : Bytes) : Option Line :=
  (separated s).bind fun s =>
    (readName metricByte s).bind fun name =>
      (separated name.2).bind fun s =>
        (readToken s).bind fun word =>
          if (skip word.2).isEmpty then (Kind.read word.1).map fun k => .kind name.1 k else none

/-- What follows a `#`: comments are told by the first word behind it. -/
def readComment (s : Bytes) : Option Line :=
  match (separated s).bind readToken with
  | some (word, rest) =>
    if word = text "HELP" then readHelp rest
    else if word = text "TYPE" then readKind rest
    else some .comment
  | none => some .comment

def readLine (s : Bytes) : Option Line :=
  match skip s with
  | [] => some .comment
  | c :: rest => if c = hash then readComment rest else (readSample (c :: rest)).map .sample

/-- Every line ends with a line feed, the last one too. -/
def readLines (s : Bytes) : Option (List Line) :=
  if (s.splitOn lineFeed).getLast? = some [] then (s.splitOn lineFeed).dropLast.mapM readLine
  else none

/-! ### Reading what has been written -/

/-- The bytes that need no care: they end no token, no label and no line. -/
def solid (c : UInt8) : Bool :=
  !blank c && c != lineFeed && c != quote && c != backslash && c != leftBrace

def Token (w : Bytes) : Prop := w ≠ [] ∧ ∀ c ∈ w, solid c = true

structure Sample.Proper (s : Sample) : Prop where
  name : named metricByte s.name = true
  keys : ∀ l ∈ s.labels, named labelByte l.1 = true
  once : (s.labels.map Prod.fst).Nodup
  value : number s.value = true
  timeless : s.timestamp = none

/-- A line as it is written: comments are not, and neither are blanks in front of a text. -/
def Line.Proper : Line → Prop
  | .help name doc => named metricByte name = true ∧ skip doc = doc
  | .kind name _ => named metricByte name = true
  | .sample s => s.Proper
  | .comment => False

section Written

variable (rest : Bytes)

theorem metricByte_of_labelByte (c : UInt8) (label : labelByte c = true) : metricByte c = true := by
  rw [metricByte, label, Bool.true_or]

theorem blank_eq_true (c : UInt8) (isBlank : blank c = true) : c = 32 ∨ c = 9 := by
  simpa [blank] using isBlank

theorem solid_of_metricByte (c : UInt8) (name : metricByte c = true) :
    solid c = true ∧ c ≠ hash ∧ c ≠ rightBrace ∧ c ≠ comma ∧ c ≠ equals := by
  have other (d : UInt8) (not : metricByte d = false) : c ≠ d := by
    rintro rfl
    rw [name] at not
    cases not
  have notBlank : blank c = false := by
    cases isBlank : blank c with
    | false => rfl
    | true =>
      rcases blank_eq_true c isBlank with same | same
      · exact absurd same (other 32 (by decide))
      · exact absurd same (other 9 (by decide))
  refine ⟨?_, other hash (by decide), other rightBrace (by decide), other comma (by decide),
    other equals (by decide)⟩
  simp [solid, notBlank, other lineFeed (by decide), other quote (by decide),
    other backslash (by decide), other leftBrace (by decide)]

theorem not_blank_of_solid (c : UInt8) (isSolid : solid c = true) : blank c = false := by
  simp only [solid, Bool.and_eq_true] at isSolid
  simpa using isSolid.1.1.1.1

theorem skip_cons (c : UInt8) (other : blank c = false) : skip (c :: rest) = c :: rest := by
  rw [skip, dropWhile_cons_of_neg (by simp [other])]

theorem not_blank_of_skip (c : UInt8) (kept : skip (c :: rest) = c :: rest) : blank c = false := by
  cases isBlank : blank c with
  | false => rfl
  | true =>
    have shorter := (dropWhile_sublist (l := rest) blank).length_le
    rw [skip, dropWhile_cons_of_pos isBlank] at kept
    rw [kept, length_cons] at shorter
    omega

theorem skip_token (w : Bytes) (token : Token w) : skip (w ++ rest) = w ++ rest := by
  obtain ⟨c, cs, rfl⟩ := exists_cons_of_ne_nil token.1
  exact skip_cons _ c (not_blank_of_solid c (token.2 c (mem_cons_self ..)))

theorem separated_token (w : Bytes) (token : Token w) :
    separated (space :: (w ++ rest)) = some (w ++ rest) := by
  rw [separated, if_pos (by decide), skip_token rest w token]

theorem token_of_number (s : Bytes) (isNumber : number s = true) : Token s := by
  simp only [number, Bool.and_eq_true, all_eq_true, Bool.or_eq_true, decide_eq_true_eq] at isNumber
  constructor
  · rintro rfl
    exact absurd isNumber.2 (by decide)
  · intro c inside
    rcases isNumber.1 c inside with letter | mark
    · exact (solid_of_metricByte c (metricByte_of_labelByte c letter)).1
    · exact all_eq_true.mp (by decide : (text "+-.").all solid = true) c mark

section Names

variable (byte : UInt8 → Bool) (name : Bytes) (valid : named byte name = true)
include valid

theorem named_head : ∃ c cs, name = c :: cs ∧ byte c = true := by
  cases name with
  | nil => simp [named] at valid
  | cons c cs => exact ⟨c, cs, rfl, by simp [named] at valid; exact valid.1.1⟩

theorem token_of_named (proper : ∀ c, byte c = true → metricByte c = true) : Token name := by
  obtain ⟨c, cs, same, -⟩ := named_head byte name valid
  simp only [named, Bool.and_eq_true, all_eq_true] at valid
  exact ⟨by simp [same], fun c inside => (solid_of_metricByte c (proper c (valid.1 c inside))).1⟩

theorem readName_append (ends : ∀ c, rest.head? = some c → byte c = false) :
    readName byte (name ++ rest) = some (name, rest) := by
  have all : ∀ c ∈ name, byte c = true := by
    simp only [named, Bool.and_eq_true, all_eq_true] at valid
    exact valid.1
  obtain ⟨taken, dropped⟩ := takeWhile_append_end rest byte name all ends
  rw [readName, taken, dropped, if_pos valid]

end Names

theorem readToken_append (w : Bytes) (token : Token w)
    (ends : ∀ c, rest.head? = some c → blank c = true) :
    readToken (w ++ rest) = some (w, rest) := by
  obtain ⟨taken, dropped⟩ := takeWhile_append_end rest (fun c => !blank c) w
    (fun c inside => by simp [not_blank_of_solid c (token.2 c inside)])
    (fun c first => by simp [ends c first])
  rw [readToken, taken, dropped, if_neg (by simpa using token.1)]

theorem decode_escapeByte (quoted : Bool) (c : UInt8) :
    decode quoted false (escapeByte quoted c ++ rest) =
      (decode quoted false rest).map fun r => (c :: r.1, r.2) := by
  have behind (e : UInt8) (stands : unescape quoted e = some c) :
      decode quoted false ([backslash, e] ++ rest) =
        (decode quoted false rest).map fun r => (c :: r.1, r.2) := by
    rw [cons_append, cons_append, nil_append, decode,
      if_neg (fun closes => absurd closes.2 (by decide)), if_pos rfl, decode, stands]
    rfl
  unfold escapeByte
  split
  next same => exact behind backslash (by rw [same]; rfl)
  next unescaped =>
    split
    next same => exact behind 110 (by rw [same]; rfl)
    next noFeed =>
      split
      next isQuote =>
        refine behind quote ?_
        rw [unescape, if_neg (by decide), if_neg (by decide), if_pos ⟨isQuote.1, rfl⟩, isQuote.2]
      next open' =>
        rw [cons_append, nil_append, decode, if_neg open', if_neg unescaped, if_neg noFeed]

theorem decode_escape (quoted : Bool) (s : Bytes) :
    decode quoted false (escape quoted s ++ rest) =
      (decode quoted false rest).map fun r => (s ++ r.1, r.2) := by
  induction s with
  | nil => simp [escape]
  | cons c s ih =>
    have split : escape quoted (c :: s) = escapeByte quoted c ++ escape quoted s := flatMap_cons
    rw [split, append_assoc, decode_escapeByte, ih, Option.map_map]
    rfl

theorem readLabel_write (l : Bytes × Bytes) (valid : named labelByte l.1 = true) :
    readLabel (writeLabel escape l ++ rest) = some (l, rest) := by
  have value : decode true false (escape true l.2 ++ quote :: rest) = some (l.2, rest) := by
    rw [decode_escape]
    simp [decode]
  have whole : writeLabel escape l ++ rest =
      l.1 ++ equals :: quote :: (escape true l.2 ++ quote :: rest) := by
    simp [writeLabel]
  have name := readName_append (equals :: quote :: (escape true l.2 ++ quote :: rest)) labelByte l.1
    valid (by
      intro c first
      cases first
      decide)
  rw [whole, readLabel, name, Option.bind_some, skip_cons _ _ (by decide)]
  simp only [expect, if_true, Option.bind_some]
  rw [skip_cons _ _ (by decide)]
  simp only [if_true, Option.bind_some]
  rw [value]
  rfl

theorem skip_label (l : Bytes × Bytes) (valid : named labelByte l.1 = true) :
    skip (writeLabel escape l ++ rest) = writeLabel escape l ++ rest ∧
      expect rightBrace (writeLabel escape l ++ rest) = none := by
  obtain ⟨c, cs, name, isName⟩ := named_head labelByte l.1 valid
  obtain ⟨isSolid, -, notBrace, -, -⟩ := solid_of_metricByte c (metricByte_of_labelByte c isName)
  simp only [writeLabel, name, cons_append]
  exact ⟨skip_cons _ c (not_blank_of_solid c isSolid), if_neg notBrace⟩

theorem readLabels_write (fuel : Nat) (l : Bytes × Bytes) (ls : Labels)
    (valid : ∀ x ∈ l :: ls, named labelByte x.1 = true) (enough : ls.length < fuel) :
    readLabels fuel (writeLabel escape l ++ (ls.flatMap (fun l => comma :: writeLabel escape l) ++
      rightBrace :: rest)) = some (l :: ls, rest) := by
  induction ls generalizing l fuel with
  | nil =>
    obtain ⟨fuel, rfl⟩ : ∃ n, fuel = n + 1 := ⟨fuel - 1, by simp at enough; omega⟩
    have first := valid l (mem_cons_self ..)
    obtain ⟨skipped, noBrace⟩ := skip_label (rightBrace :: rest) l first
    rw [flatMap_nil, nil_append, readLabels, skipped, noBrace]
    dsimp only
    rw [readLabel_write _ l first, Option.bind_some, skip_cons _ _ (by decide)]
    rfl
  | cons l' ls ih =>
    obtain ⟨fuel, rfl⟩ : ∃ n, fuel = n + 1 := ⟨fuel - 1, by simp at enough; omega⟩
    have first := valid l (mem_cons_self ..)
    have others := ih fuel l' (fun x inside => valid x (mem_cons_of_mem _ inside))
      (by simpa using enough)
    rw [flatMap_cons, append_assoc, cons_append]
    obtain ⟨skipped, noBrace⟩ := skip_label (comma :: (writeLabel escape l' ++
      (ls.flatMap (fun l => comma :: writeLabel escape l) ++ rightBrace :: rest))) l first
    rw [readLabels, skipped, noBrace]
    dsimp only
    rw [readLabel_write _ l first, Option.bind_some, skip_cons _ _ (by decide)]
    simp only [expect, if_true]
    rw [others]
    rfl

theorem length_le_written (ls : Labels) :
    ls.length ≤ (ls.flatMap fun l => comma :: writeLabel escape l).length := by
  induction ls with
  | nil => exact le_rfl
  | cons l ls ih =>
    rw [flatMap_cons, length_append, length_cons, length_cons]
    omega

theorem readLabelSet_write (ls : Labels) (valid : ∀ l ∈ ls, named labelByte l.1 = true)
    (value : Bytes) (token : Token value) :
    readLabelSet (writeLabels escape ls ++ space :: (value ++ rest)) =
      some (ls, space :: (value ++ rest)) := by
  cases ls with
  | nil =>
    obtain ⟨c, cs, rfl⟩ := exists_cons_of_ne_nil token.1
    have isSolid := token.2 c (mem_cons_self ..)
    have notBrace : c ≠ leftBrace := by
      simp only [solid, Bool.and_eq_true, bne_iff_ne] at isSolid
      exact isSolid.2
    have skipped : skip (space :: (c :: cs ++ rest)) = c :: (cs ++ rest) := by
      rw [skip, dropWhile_cons_of_pos (by decide)]
      exact skip_cons _ c (not_blank_of_solid c isSolid)
    rw [writeLabels, nil_append, readLabelSet, skipped, expect, if_neg notBrace]
  | cons l ls =>
    have whole : writeLabels escape (l :: ls) ++ space :: (value ++ rest) =
        leftBrace :: (writeLabel escape l ++ (ls.flatMap (fun l => comma :: writeLabel escape l) ++
          rightBrace :: space :: (value ++ rest))) := by
      simp [writeLabels]
    rw [whole, readLabelSet, skip_cons _ _ (by decide), expect, if_pos rfl]
    dsimp only
    refine readLabels_write _ _ l ls valid ?_
    have fuel := length_le_written ls
    simp only [length_append]
    omega

theorem readSample_write (s : Sample) (proper : s.Proper) :
    readSample (writeSample escape s) = some s := by
  obtain ⟨name, labels, value, timestamp⟩ := s
  obtain ⟨isName, keys, once, isNumber, timeless⟩ := proper
  dsimp only at isName keys once isNumber timeless
  subst timeless
  have token := token_of_number value isNumber
  have whole : writeSample escape ⟨name, labels, value, none⟩ =
      name ++ (writeLabels escape labels ++ space :: (value ++ [])) := by
    simp [writeSample, writeTimestamp]
  have ends : ∀ c, (writeLabels escape labels ++ space :: (value ++ [])).head? = some c →
      metricByte c = false := by
    intro c first
    cases labels <;> cases first <;> decide
  rw [whole, readSample, readName_append _ metricByte name isName ends, Option.bind_some,
    readLabelSet_write [] labels keys value token, Option.bind_some,
    separated_token [] value token, Option.bind_some,
    readToken_append [] value token (by simp), Option.bind_some]
  exact if_pos ⟨isNumber, once⟩

theorem readLine_sample (s : Sample) (proper : s.Proper) :
    readLine (writeSample escape s) = some (.sample s) := by
  obtain ⟨c, cs, name, isName⟩ := named_head metricByte s.name proper.name
  obtain ⟨isSolid, notHash, -⟩ := solid_of_metricByte c isName
  have start : ∃ rest, writeSample escape s = c :: rest := ⟨_, by rw [writeSample, name]; rfl⟩
  obtain ⟨rest, start⟩ := start
  rw [readLine, start, skip_cons rest c (not_blank_of_solid c isSolid)]
  dsimp only
  rw [if_neg notHash, ← start, readSample_write s proper]
  rfl

theorem readComment_word (word : Bytes) (token : Token word) :
    readComment (space :: (word ++ space :: rest)) =
      if word = text "HELP" then readHelp (space :: rest)
      else if word = text "TYPE" then readKind (space :: rest)
      else some .comment := by
  have read := readToken_append (space :: rest) word token (by
    intro c first
    cases first
    decide)
  rw [readComment, separated_token _ word token, Option.bind_some, read]

theorem readLine_hash : readLine (hash :: rest) = readComment rest := by
  rw [readLine, skip_cons _ _ (by decide)]
  exact if_pos rfl

theorem skip_escape (quoted : Bool) (s : Bytes) (kept : skip s = s) :
    skip (escape quoted s) = escape quoted s := by
  cases s with
  | nil => rfl
  | cons c s =>
    have other := not_blank_of_skip s c kept
    rw [escape, flatMap_cons]
    unfold escapeByte
    split
    · exact skip_cons _ _ (by decide)
    · split
      · exact skip_cons _ _ (by decide)
      · split
        · exact skip_cons _ _ (by decide)
        · exact skip_cons _ _ other

theorem readLine_help (name doc : Bytes) (valid : named metricByte name = true) :
    readLine (text "# HELP " ++ name ++ space :: doc) =
      (decode false false (skip doc)).map fun r => .help name r.1 := by
  have whole : text "# HELP " ++ name ++ space :: doc =
      hash :: space :: (text "HELP" ++ space :: (name ++ space :: doc)) := by
    have word : text "# HELP " = hash :: space :: (text "HELP" ++ [space]) := rfl
    rw [word]
    simp
  have ends : ∀ c, (space :: doc).head? = some c → metricByte c = false := by
    intro c first
    cases first
    decide
  rw [whole, readLine_hash, readComment_word _ _ ⟨by decide, all_eq_true.mp (by decide)⟩,
    if_pos rfl, readHelp, separated_token _ name (token_of_named metricByte name valid fun _ => id),
    Option.bind_some,
    readName_append _ metricByte name valid ends, Option.bind_some, separated, if_pos (by decide),
    Option.bind_some]

theorem readLine_kind (name : Bytes) (kind : Kind) (valid : named metricByte name = true) :
    readLine (writeLine escape (.kind name kind)) = some (.kind name kind) := by
  have whole : writeLine escape (.kind name kind) =
      hash :: space :: (text "TYPE" ++ space :: (name ++ space :: (kind.word ++ []))) := by
    have word : text "# TYPE " = hash :: space :: (text "TYPE" ++ [space]) := rfl
    rw [writeLine, word]
    simp
  have ends : ∀ c, (space :: (kind.word ++ [])).head? = some c → metricByte c = false := by
    intro c first
    cases first
    decide
  have token : Token kind.word := by
    cases kind <;> exact ⟨by decide, all_eq_true.mp (by decide)⟩
  have known : Kind.read kind.word = some kind := by cases kind <;> rfl
  rw [whole, readLine_hash, readComment_word _ _ ⟨by decide, all_eq_true.mp (by decide)⟩,
    if_neg (by decide), if_pos rfl, readKind,
    separated_token _ name (token_of_named metricByte name valid fun _ => id), Option.bind_some,
    readName_append _ metricByte name valid ends, Option.bind_some,
    separated_token [] kind.word token, Option.bind_some,
    readToken_append [] kind.word token (by simp), Option.bind_some]
  dsimp only
  rw [known]
  rfl

theorem readLine_write (line : Line) (proper : line.Proper) :
    readLine (writeLine escape line) = some line := by
  cases line with
  | help name doc =>
    rw [writeLine, readLine_help name _ proper.1, skip_escape false doc proper.2,
      ← append_nil (escape false doc), decode_escape]
    simp [decode]
  | kind name kind => exact readLine_kind name kind proper
  | sample s => exact readLine_sample s proper
  | comment => exact proper.elim

/-! ### Lines -/

theorem lineFeed_notMem_escape (quoted : Bool) (s : Bytes) : lineFeed ∉ escape quoted s := by
  intro inside
  obtain ⟨c, -, inside⟩ := mem_flatMap.mp inside
  unfold escapeByte at inside
  split at inside
  · exact absurd inside (by decide)
  · split at inside
    · exact absurd inside (by decide)
    next noFeed =>
      split at inside
      · exact absurd inside (by decide)
      · exact noFeed (mem_singleton.mp inside).symm

theorem lineFeed_notMem_token (w : Bytes) (token : Token w) : lineFeed ∉ w :=
  fun inside => absurd (token.2 lineFeed inside) (by decide)

theorem lineFeed_notMem_metric (name : Bytes) (valid : named metricByte name = true) :
    lineFeed ∉ name :=
  lineFeed_notMem_token name (token_of_named metricByte name valid fun _ => id)

theorem lineFeed_notMem_label (l : Bytes × Bytes) (valid : named labelByte l.1 = true) :
    lineFeed ∉ writeLabel escape l := by
  simp only [writeLabel, mem_append, not_or]
  have key := token_of_named labelByte l.1 valid metricByte_of_labelByte
  exact ⟨⟨⟨lineFeed_notMem_token l.1 key, by decide⟩,
    lineFeed_notMem_escape true l.2⟩, by decide⟩

theorem lineFeed_notMem_labels (ls : Labels) (valid : ∀ l ∈ ls, named labelByte l.1 = true) :
    lineFeed ∉ writeLabels escape ls := by
  cases ls with
  | nil => exact not_mem_nil
  | cons l ls =>
    simp only [writeLabels, mem_append, mem_cons, mem_flatMap, not_or, not_exists,
      not_and]
    refine ⟨⟨by decide, lineFeed_notMem_label l (valid l (mem_cons_self ..)), ?_⟩, by decide⟩
    intro l' inside
    exact ⟨by decide, lineFeed_notMem_label l' (valid l' (mem_cons_of_mem l inside))⟩

theorem lineFeed_notMem_writeLine (line : Line) (proper : line.Proper) :
    lineFeed ∉ writeLine escape line := by
  cases line with
  | help name doc =>
    simp only [writeLine, mem_append, mem_cons, not_or]
    exact ⟨⟨by decide, lineFeed_notMem_metric name proper.1⟩, by decide,
      lineFeed_notMem_escape false doc⟩
  | kind name kind =>
    simp only [writeLine, mem_append, mem_cons, not_or]
    refine ⟨⟨by decide, lineFeed_notMem_metric name proper⟩, by decide, ?_⟩
    cases kind <;> decide
  | sample s =>
    obtain ⟨isName, keys, -, isNumber, timeless⟩ := proper
    have token := token_of_number s.value isNumber
    simp only [writeLine, writeSample, timeless, writeTimestamp, append_nil, mem_append,
      mem_cons, not_or]
    exact ⟨⟨lineFeed_notMem_metric s.name isName,
      lineFeed_notMem_labels s.labels keys⟩, by decide, lineFeed_notMem_token s.value token⟩
  | comment => exact proper.elim

theorem splitOn_closed (lines : List Bytes) (free : ∀ l ∈ lines, lineFeed ∉ l) :
    (lines.flatMap fun l => l ++ [lineFeed]).splitOn lineFeed = lines ++ [[]] := by
  induction lines with
  | nil => rfl
  | cons l lines ih =>
    have first := free l (mem_cons_self ..)
    rw [flatMap_cons, append_assoc, cons_append, nil_append,
      splitOn_append_sep, ih fun l' inside => free l' (mem_cons_of_mem l inside),
      splitOn_eq_singleton first]
    rfl

/-- **What is written is read back.** -/
theorem readLines_write (lines : List Line) (proper : ∀ l ∈ lines, l.Proper) :
    readLines (writeLines escape lines) = some lines := by
  have pieces : (writeLines escape lines).splitOn lineFeed = lines.map (writeLine escape) ++ [[]] := by
    rw [writeLines, ← splitOn_closed (lines.map (writeLine escape))]
    · rw [flatMap_map]
    · intro l inside
      obtain ⟨line, written, rfl⟩ := mem_map.mp inside
      exact lineFeed_notMem_writeLine line (proper line written)
  rw [readLines, pieces, List.getLast?_concat, if_pos rfl, dropLast_concat]
  clear pieces
  induction lines with
  | nil => rfl
  | cons line lines ih =>
    rw [map_cons, mapM_cons, readLine_write line (proper line (mem_cons_self ..)),
      ih fun l inside => proper l (mem_cons_of_mem line inside)]
    rfl

end Written

end Cox.Lib.Exposition
