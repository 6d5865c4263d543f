import Cox.Lib.Bytes

/-!
# Reading JSON

A reader for JSON texts as byte strings. In a string every byte from a space on stands for
itself, except for the quote and the backslash; the escapes are the standard ones, and those
with four digits give the bytes of the code point, without surrogates. The members of an object
keep their order, and their names may be repeated.
-/
namespace Cox.Lib

open List

inductive Json where
  | null
  | bool (b : Bool)
  | number (text : Bytes)
  | string (s : Bytes)
  | array (items : List Json)
  | object (members : List (Bytes × Json))

namespace Json

def quote : UInt8 := 34

def backslash : UInt8 := 92

def comma : UInt8 := 44

def colon : UInt8 := 58

def leftBrace : UInt8 := 123

def rightBrace : UInt8 := 125

def leftBracket : UInt8 := 91

def rightBracket : UInt8 := 93

def skipSpace (s : Bytes) : Bytes := s.dropWhile fun c => c == 32 || c == 9 || c == 10 || c == 13

def expect (c : UInt8) (s : Bytes) : Option Bytes :=
  match skipSpace s with
  | [] => none
  | d :: rest => if d = c then some rest else none

/-! ### Strings -/

def unescape (c : UInt8) : Option UInt8 :=
  if c = 34 then some 34
  else if c = 92 then some 92
  else if c = 47 then some 47
  else if c = 98 then some 8
  else if c = 102 then some 12
  else if c = 110 then some 10
  else if c = 114 then some 13
  else if c = 116 then some 9
  else none

def codePoint (digits : Bytes) : Option Nat :=
  (digits.mapM (digitValue 16)).map fun values => values.foldl (fun n d => 16 * n + d) 0

def utf8 (code : Nat) : Option Bytes :=
  if code < 0x80 then some [UInt8.ofNat code]
  else if code < 0x800 then some [UInt8.ofNat (0xC0 + code / 64), UInt8.ofNat (0x80 + code % 64)]
  else if 0xD800 ≤ code ∧ code < 0xE000 then none
  else
    some [UInt8.ofNat (0xE0 + code / 4096), UInt8.ofNat (0x80 + code / 64 % 64),
      UInt8.ofNat (0x80 + code % 64)]

/-- Where the reader of a string stands: between characters, behind a backslash, or behind some
of the four digits. -/
inductive Mode where
  | between
  | escape
  | digits (before : Bytes)

/-- The bytes come before what is read behind them. -/
def behind (bytes : Bytes) (read : Option (Bytes × Bytes)) : Option (Bytes × Bytes) :=
  read.map fun r => (bytes ++ r.1, r.2)

/-- The rest of a string, and what follows its closing quote. -/
def scan : Mode → Bytes → Option (Bytes × Bytes)
  | _, [] => none
  | .between, c :: rest =>
    if c = quote then some ([], rest)
    else if c = backslash then scan .escape rest
    else if c < 32 then none
    else behind [c] (scan .between rest)
  | .escape, c :: rest =>
    if c = 117 then scan (.digits []) rest
    else
      match unescape c with
      | some byte => behind [byte] (scan .between rest)
      | none => none
  | .digits before, c :: rest =>
    if before.length < 3 then scan (.digits (before ++ [c])) rest
    else
      match (codePoint (before ++ [c])).bind utf8 with
      | some bytes => behind bytes (scan .between rest)
      | none => none

def readString (s : Bytes) : Option (Bytes × Bytes) := scan .between s

section Strings

variable (rest : Bytes)

theorem readString_quote : readString (quote :: rest) = some ([], rest) := rfl

theorem readString_plain (c : UInt8) (quoted : c ≠ quote) (escaped : c ≠ backslash)
    (control : ¬c < 32) : readString (c :: rest) = behind [c] (readString rest) := by
  rw [readString, scan, if_neg quoted, if_neg escaped, if_neg control]
  rfl

theorem readString_unescape (e c : UInt8) (letter : e ≠ 117) (stands : unescape e = some c) :
    readString (backslash :: e :: rest) = behind [c] (readString rest) := by
  show scan .escape (e :: rest) = _
  rw [scan, if_neg letter, stands]
  rfl

theorem readString_code (digits bytes : Bytes) (four : digits.length = 4)
    (stands : (codePoint digits).bind utf8 = some bytes) :
    readString (backslash :: 117 :: (digits ++ rest)) = behind bytes (readString rest) := by
  obtain ⟨d₁, d₂, d₃, d₄, rfl⟩ := length_eq_four.mp four
  show (match (codePoint [d₁, d₂, d₃, d₄]).bind utf8 with
    | some bytes => behind bytes (scan .between rest)
    | none => none) = _
  rw [stands]
  rfl

end Strings

/-! ### Numbers and words -/

def isDigit (c : UInt8) : Bool := 48 ≤ c && c ≤ 57

def readDigitRun (s : Bytes) : Option (Bytes × Bytes) :=
  if s.takeWhile isDigit = [] then none else some (s.takeWhile isDigit, s.dropWhile isDigit)

def readSign (signs : Bytes) : Bytes → Bytes × Bytes
  | [] => ([], [])
  | c :: rest => if signs.contains c then ([c], rest) else ([], c :: rest)

/-- A part that begins with one of these letters, if it is there. -/
def readPart (letters signs : Bytes) : Bytes → Option (Bytes × Bytes)
  | [] => some ([], [])
  | c :: rest =>
    if letters.contains c then do
      let (sign, rest) := readSign signs rest
      let (digits, rest) ← readDigitRun rest
      pure (c :: (sign ++ digits), rest)
    else some ([], c :: rest)

def readNumber (s : Bytes) : Option (Json × Bytes) := do
  let (sign, s) := readSign (text "-") s
  let (int, s) ← readDigitRun s
  if int.length > 1 ∧ int.head? = some 48 then none
  else
    let (frac, s) ← readPart (text ".") [] s
    let (exp, s) ← readPart (text "eE") (text "+-") s
    pure (.number (sign ++ int ++ frac ++ exp), s)

def readWord (s : Bytes) : Option (Json × Bytes) :=
  if (text "null").isPrefixOf s then some (.null, s.drop 4)
  else if (text "true").isPrefixOf s then some (.bool true, s.drop 4)
  else if (text "false").isPrefixOf s then some (.bool false, s.drop 5)
  else none

/-! ### Values -/

mutual

/-- A value, with a bound on how far the reader may go down and on. -/
def readValue : Nat → Bytes → Option (Json × Bytes)
  | 0, _ => none
  | more + 1, s =>
    match skipSpace s with
    | [] => none
    | c :: rest =>
      if c = quote then do
        let (s, rest) ← readString rest
        pure (.string s, rest)
      else if c = leftBrace then
        match expect rightBrace rest with
        | some rest => some (.object [], rest)
        | none => do
          let (members, rest) ← readMembers more rest
          pure (.object members, rest)
      else if c = leftBracket then
        match expect rightBracket rest with
        | some rest => some (.array [], rest)
        | none => do
          let (items, rest) ← readItems more rest
          pure (.array items, rest)
      else (readWord (c :: rest)).or (readNumber (c :: rest))

def readMembers : Nat → Bytes → Option (List (Bytes × Json) × Bytes)
  | 0, _ => none
  | more + 1, s => do
    let s ← expect quote s
    let (key, s) ← readString s
    let s ← expect colon s
    let (value, s) ← readValue more s
    match expect comma s with
    | some s =>
      let (members, s) ← readMembers more s
      pure ((key, value) :: members, s)
    | none =>
      let s ← expect rightBrace s
      pure ([(key, value)], s)

def readItems : Nat → Bytes → Option (List Json × Bytes)
  | 0, _ => none
  | more + 1, s => do
    let (item, s) ← readValue more s
    match expect comma s with
    | some s =>
      let (items, s) ← readItems more s
      pure (item :: items, s)
    | none =>
      let s ← expect rightBracket s
      pure ([item], s)

end

/-- The whole text is one value. -/
def parse (s : Bytes) : Option Json := do
  let (value, rest) ← readValue (s.length + 1) s
  if skipSpace rest = [] then pure value else none

/-! ### Objects of strings -/

/-- A member with its name and value as they are written. -/
def member (key value : Bytes) : Bytes :=
  quote :: (key ++ quote :: colon :: quote :: (value ++ [quote]))

/-- The members of an object of strings, each written with the same escapes. -/
def members (escape : Bytes → Bytes) : List (Bytes × Bytes) → Bytes
  | [] => []
  | [m] => member (escape m.1) (escape m.2)
  | m :: m' :: ms => member (escape m.1) (escape m.2) ++ comma :: members escape (m' :: ms)

def strings (ms : List (Bytes × Bytes)) : List (Bytes × Json) := ms.map fun m => (m.1, .string m.2)

section Members

variable (escape : Bytes → Bytes) (m : Bytes × Bytes) (ms : List (Bytes × Bytes))

theorem members_eq_flatMap :
    members escape (m :: ms) = member (escape m.1) (escape m.2) ++
      ms.flatMap fun m => comma :: member (escape m.1) (escape m.2) := by
  induction ms generalizing m with
  | nil => rw [members, flatMap_nil, append_nil]
  | cons m' ms ih => rw [members, ih, flatMap_cons, cons_append]

theorem members_cons : ∃ rest, members escape (m :: ms) = quote :: rest := by
  cases ms with
  | nil => exact ⟨_, rfl⟩
  | cons m' ms => exact ⟨_, rfl⟩

theorem length_le_members : ms.length ≤ (members escape (m :: ms)).length := by
  induction ms generalizing m with
  | nil => exact Nat.zero_le _
  | cons m' ms ih =>
    have others := ih m'
    rw [members, length_append, length_cons, length_cons]
    omega

end Members

section Objects

variable {escape : Bytes → Bytes}
  (reads : ∀ s rest, readString (escape s ++ quote :: rest) = some (s, rest))

include reads

theorem readMembers_member (key value rest : Bytes) (more : Nat) :
    readMembers (more + 2) (member (escape key) (escape value) ++ rest) =
      match expect comma rest with
      | some s => (readMembers (more + 1) s).map fun r => ((key, .string value) :: r.1, r.2)
      | none => (expect rightBrace rest).map fun s => ([(key, .string value)], s) := by
  have split : member (escape key) (escape value) ++ rest =
      quote :: (escape key ++ quote :: colon :: quote :: (escape value ++ quote :: rest)) := by
    simp [member]
  have value' : readValue (more + 1) (quote :: (escape value ++ quote :: rest)) =
      some (.string value, rest) := by
    rw [readValue]
    show ((readString (escape value ++ quote :: rest)).bind fun r => some (string r.1, r.2)) = _
    rw [reads]
    rfl
  rw [split, readMembers]
  show ((readString (escape key ++ quote :: colon :: quote ::
    (escape value ++ quote :: rest))).bind _) = _
  rw [reads, Option.bind_some]
  show ((readValue (more + 1) (quote :: (escape value ++ quote :: rest))).bind _) = _
  rw [value', Option.bind_some]
  dsimp only
  cases expect comma rest with
  | some s =>
    dsimp only
    cases readMembers (more + 1) s <;> rfl
  | none =>
    dsimp only
    cases expect rightBrace rest <;> rfl

theorem readMembers_members (m : Bytes × Bytes) (ms : List (Bytes × Bytes)) (rest : Bytes)
    (more : Nat) (enough : ms.length ≤ more) :
    readMembers (more + 2) (members escape (m :: ms) ++ rightBrace :: rest) =
      some (strings (m :: ms), rest) := by
  induction ms generalizing m more with
  | nil =>
    rw [members, readMembers_member reads]
    rfl
  | cons m' ms ih =>
    obtain ⟨more, rfl⟩ : ∃ k, more = k + 1 := ⟨more - 1, by simp at enough; omega⟩
    have others := ih m' more (Nat.le_of_succ_le_succ enough)
    rw [members, append_assoc, readMembers_member reads, cons_append]
    show (readMembers (more + 2) (members escape (m' :: ms) ++ rightBrace :: rest)).map _ = _
    rw [others]
    rfl

theorem parse_members (m : Bytes × Bytes) (ms : List (Bytes × Bytes)) :
    parse (leftBrace :: (members escape (m :: ms) ++ [rightBrace])) =
      some (.object (strings (m :: ms))) := by
  obtain ⟨first, opens⟩ := members_cons escape m ms
  have length := length_le_members escape m ms
  obtain ⟨more, enough, fuel⟩ : ∃ more, ms.length ≤ more ∧
      (leftBrace :: (members escape (m :: ms) ++ [rightBrace])).length = more + 2 :=
    ⟨(members escape (m :: ms)).length, length, by simp⟩
  have object : readValue (more + 2 + 1)
      (leftBrace :: (members escape (m :: ms) ++ [rightBrace])) =
        some (.object (strings (m :: ms)), []) := by
    have inner := readMembers_members reads m ms [] more enough
    rw [opens, cons_append] at inner ⊢
    rw [readValue]
    show ((readMembers (more + 2) (quote :: (first ++ [rightBrace]))).bind fun r =>
      some (object r.1, r.2)) = _
    rw [inner]
    rfl
  rw [parse, fuel, object]
  rfl

end Objects

end Json

end Cox.Lib
