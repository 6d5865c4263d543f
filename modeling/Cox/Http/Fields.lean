import Mathlib.Data.List.Chain
import Cox.Http.Request

/-!
# Lines and header fields

How a message head is cut into lines, and a header line into a name and a value. A line
ends at the first CRLF, so whatever holds no CRLF can be sent as a line; a `\r` or `\n`
alone does not end it. Both parsers keep the fields in a map under their names in lower
case, where a later field replaces an earlier one.
-/
namespace Cox.Http

open Cox.Lib List

/-! ### Lines -/

def Unbroken (line : Bytes) : Prop := line.IsChain fun a b => ¬(a = cr ∧ b = lf)

instance (line : Bytes) : Decidable (Unbroken line) := inferInstanceAs (Decidable (List.IsChain ..))

namespace Unbroken

theorem of_no_cr (line : Bytes) (plain : cr ∉ line) : Unbroken line := by
  induction line with
  | nil => exact .nil
  | cons a line ih =>
    simp only [mem_cons, not_or] at plain
    refine isChain_cons.mpr ⟨fun b _ => ?_, ih plain.2⟩
    rintro ⟨rfl, _⟩
    exact plain.1 rfl

theorem append {left right : Bytes} (first : Unbroken left) (second : Unbroken right)
    (meets : right.head? ≠ some lf) : Unbroken (left ++ right) := by
  refine List.IsChain.append first second fun a _ b starts => ?_
  rintro ⟨_, rfl⟩
  exact meets starts

variable {line : Bytes} (whole : Unbroken line)
include whole

theorem take (n : Nat) : Unbroken (line.take n) :=
  List.IsChain.take whole n

theorem drop (n : Nat) : Unbroken (line.drop n) :=
  List.IsChain.drop whole n

theorem dropWhile (p : UInt8 → Bool) :
    Unbroken (line.dropWhile p) := List.IsChain.suffix whole (dropWhile_suffix p)

theorem toLower : Unbroken (toLower line) := by
  refine isChain_map_of_isChain tolower (fun a b => ?_) whole
  rw [tolower_eq_low a cr (by decide), tolower_eq_low b lf (by decide)]
  exact id

end Unbroken

theorem findCrlf_unbroken (line rest : Bytes) (whole : Unbroken line) :
    findCrlf (line ++ crlf ++ rest) = some line.length := by
  induction line with
  | nil => simp [findCrlf, crlf]
  | cons a line ih =>
    obtain ⟨first, tail⟩ := isChain_cons.mp whole
    have later := ih tail
    cases line with
    -- a `\r` before the CRLF does not end the line
    | nil => simp [findCrlf, crlf, cr, lf]
    | cons b line =>
      have apart : ¬(a = cr ∧ b = lf) := first b rfl
      simp only [cons_append] at later ⊢
      rw [findCrlf, if_neg apart, later]
      rfl

theorem unbroken_of_findCrlf (s : Bytes) (i : Nat) (found : findCrlf s = some i) :
    Unbroken (s.take i) := by
  induction s generalizing i with
  | nil => cases found
  | cons a s ih =>
    rcases findCrlf_cons a s i found with ⟨rfl, _⟩ | ⟨j, b, rest, rfl, rfl, miss, later⟩
    · exact .nil
    · refine isChain_cons.mpr ⟨fun c starts => ?_, ih j later⟩
      cases j with
      | zero => cases starts
      | succ j =>
        cases starts
        exact miss

theorem findCrlf_split (s : Bytes) (i : Nat) (found : findCrlf s = some i) :
    s = s.take i ++ crlf ++ s.drop (i + 2) := by
  induction s generalizing i with
  | nil => cases found
  | cons a s ih =>
    rcases findCrlf_cons a s i found with ⟨rfl, rest, rfl, rfl⟩ | ⟨j, b, rest, rfl, _, _, later⟩
    · rfl
    · have tail := ih j later
      rw [take_succ_cons, cons_append, cons_append,
        show j + 1 + 2 = (j + 2) + 1 from rfl, drop_succ_cons, ← tail]

def endLines (lines : List Bytes) : Bytes := lines.flatMap (· ++ crlf)

theorem endLines_cons (line : Bytes) (lines : List Bytes) (rest : Bytes) :
    endLines (line :: lines) ++ rest = line ++ crlf ++ (endLines lines ++ rest) := by
  simp only [endLines, flatMap_cons, append_assoc]

theorem endLines_append (left right : List Bytes) :
    endLines (left ++ right) = endLines left ++ endLines right := flatMap_append ..

theorem length_endLines (lines : List Bytes) :
    (endLines lines).length = (lines.map fun line => line.length + 2).sum := by
  induction lines with
  | nil => rfl
  | cons line lines ih =>
    have parts := congrArg List.length (endLines_cons line lines [])
    simp only [append_nil, length_append, show crlf.length = 2 from rfl] at parts
    rw [parts, ih, map_cons, sum_cons]

/-- The lines of a message, where the first one has already begun. -/
def linesFrom (begun : Bytes) : Bytes → List Bytes
  | a :: b :: rest =>
    if a = cr ∧ b = lf then begun :: linesFrom [] rest else linesFrom (begun ++ [a]) (b :: rest)
  | _ => []

/-- The lines of a message up to the first blank one. -/
def headLines (message : Bytes) : List Bytes := (linesFrom [] message).takeWhile (· ≠ [])

theorem linesFrom_line (begun line rest : Bytes) (whole : Unbroken line) :
    linesFrom begun (line ++ crlf ++ rest) = (begun ++ line) :: linesFrom [] rest := by
  induction line generalizing begun with
  | nil => simp [linesFrom, crlf]
  | cons a line ih =>
    obtain ⟨first, tail⟩ := isChain_cons.mp whole
    have later := ih (begun ++ [a]) tail
    rw [append_assoc begun, singleton_append] at later
    cases line with
    | nil =>
      have step : linesFrom begun ([a] ++ crlf ++ rest) =
          linesFrom (begun ++ [a]) ([] ++ crlf ++ rest) := by
        show linesFrom begun (a :: cr :: lf :: rest) = _
        rw [linesFrom, if_neg (by rintro ⟨_, same⟩; exact absurd same (by decide))]
        rfl
      rw [step, later]
    | cons b line =>
      have apart : ¬(a = cr ∧ b = lf) := first b rfl
      rw [← later]
      simp only [cons_append]
      rw [linesFrom, if_neg apart]

theorem linesFrom_endLines (lines : List Bytes) (rest : Bytes)
    (whole : ∀ line ∈ lines, Unbroken line) :
    linesFrom [] (endLines lines ++ rest) = lines ++ linesFrom [] rest := by
  induction lines with
  | nil => rfl
  | cons line lines ih =>
    rw [endLines_cons, linesFrom_line [] line _ (whole line (mem_cons_self ..)),
      ih fun l later => whole l (mem_cons_of_mem _ later)]
    rfl

theorem linesFrom_none (begun s : Bytes) (missing : findCrlf s = none) : linesFrom begun s = [] := by
  induction s generalizing begun with
  | nil => rfl
  | cons a s ih =>
    cases s with
    | nil => rfl
    | cons b rest =>
      rw [linesFrom]
      split
      next ends => simp [findCrlf, ends] at missing
      next apart =>
        rw [findCrlf, if_neg apart, Option.map_eq_none_iff] at missing
        exact ih _ missing

theorem linesFrom_split (s : Bytes) : ∃ rest, s = endLines (linesFrom [] s) ++ rest ∧
    findCrlf rest = none ∧ ∀ line ∈ linesFrom [] s, Unbroken line := by
  induction size : s.length using Nat.strongRecOn generalizing s with
  | _ n ih =>
    cases found : findCrlf s with
    | none =>
      rw [linesFrom_none [] s found]
      exact ⟨s, rfl, found, fun _ member => absurd member not_mem_nil⟩
    | some i =>
      have whole := unbroken_of_findCrlf s i found
      have split := findCrlf_split s i found
      have lengths := congrArg List.length split
      simp only [length_append, show crlf.length = 2 from rfl] at lengths
      obtain ⟨rest, later, ended, lines⟩ := ih (s.drop (i + 2)).length (by omega) _ rfl
      have first : linesFrom [] s = s.take i :: linesFrom [] (s.drop (i + 2)) := by
        conv_lhs => rw [split, linesFrom_line [] _ _ whole, nil_append]
      rw [first]
      refine ⟨rest, ?_, ended, forall_mem_cons.mpr ⟨whole, lines⟩⟩
      rw [endLines_cons, ← later]
      exact split

theorem headLines_eq (lines : List Bytes) (rest : Bytes) (whole : ∀ line ∈ lines, Unbroken line)
    (nonempty : ∀ line ∈ lines, line ≠ []) : headLines (endLines lines ++ (crlf ++ rest)) = lines := by
  have blank : linesFrom [] (crlf ++ rest) = [] :: linesFrom [] rest := linesFrom_line [] [] rest .nil
  rw [headLines, linesFrom_endLines lines _ whole, blank,
    takeWhile_append_of_pos (by simpa using nonempty), takeWhile_cons_of_neg (by simp), append_nil]

/-! ### Fields -/

def fieldName (line : Bytes) : Bytes := line.take (line.idxOf colonByte)

/-- The value starts behind the colon, without the blanks there. -/
def fieldValue (line : Bytes) : Bytes :=
  (line.drop (line.idxOf colonByte + 1)).dropWhile (· == sp)

def fieldLine (name value : Bytes) : Bytes := name ++ text ": " ++ value

/-- The text of a field value: no line end in it and no blank in front of it. -/
def FieldText (s : Bytes) : Prop := (cr ∉ s ∧ lf ∉ s) ∧ s.head? ≠ some sp

instance (s : Bytes) : Decidable (FieldText s) := inferInstanceAs (Decidable (_ ∧ _))

theorem numeral_trimmed (n : Nat) : (numeral 10 n).head? ≠ some sp := by
  intro blank
  have member := mem_of_mem_head? blank
  exact absurd (numeral_plain 10 n (by decide) (by decide) sp member).1 (by decide)

theorem numeral_unbroken (n : Nat) : Unbroken (numeral 10 n) :=
  .of_no_cr _ fun member =>
    (numeral_plain 10 n (by decide) (by decide) cr member).2.2.2.1 rfl

section Fields

variable (name value : Bytes)

theorem fieldLine_eq : fieldLine name value = name ++ colonByte :: (sp :: value) := by
  simp only [fieldLine, append_assoc]
  rfl

theorem colon_mem_fieldLine : colonByte ∈ fieldLine name value := by
  simp [fieldLine_eq]

theorem fieldName_fieldLine (plain : colonByte ∉ name) :
    fieldName (fieldLine name value) = name := by
  rw [fieldName, fieldLine_eq, idxOf_cut _ _ _ plain, take_left]

theorem fieldValue_fieldLine (plain : colonByte ∉ name) (trimmed : value.head? ≠ some sp) :
    fieldValue (fieldLine name value) = value := by
  rw [fieldValue, fieldLine_eq, idxOf_cut _ _ _ plain, drop_cut,
    dropWhile_cons_of_pos (by simp)]
  cases value with
  | nil => rfl
  | cons a value =>
    refine dropWhile_cons_of_neg ?_
    intro blank
    exact trimmed (congrArg some (beq_iff_eq.mp blank))

theorem unbroken_fieldLine {name value : Bytes} (first : Unbroken name) (second : Unbroken value) :
    Unbroken (fieldLine name value) := by
  have blank : Unbroken (text ": " ++ value) := by
    refine isChain_append.mpr ⟨by decide, second, ?_⟩
    rintro a ends b _ ⟨rfl, _⟩
    exact absurd ends (by decide)
  rw [fieldLine, append_assoc]
  exact first.append blank (by simp [text, lf])

end Fields

theorem endLines_field (name value : Bytes) :
    endLines [fieldLine name value] = name ++ text ": " ++ value ++ crlf := append_nil _

theorem headerLines_eq (skip : Bytes → Bool) (entries : List (Bytes × Bytes)) :
    HttpRequest.headerLines skip entries =
      endLines ((entries.filter fun e => !skip e.1).map fun e => fieldLine e.1 e.2) := by
  simp only [HttpRequest.headerLines, endLines, flatMap_map, fieldLine]

/-- What a header section with so many bytes read leaves in the buffer: the lines from the
first one on that has no colon or exceeds the limit. -/
def refused (limit read : Nat) : List Bytes → Option Bytes
  | [] => none
  | line :: lines =>
    if colonByte ∈ line ∧ read + (line.length + 2) ≤ limit then
      refused limit (read + (line.length + 2)) lines
    else some (endLines (line :: lines))

theorem refused_taken (limit read : Nat) (line : Bytes) (lines : List Bytes)
    (fits : colonByte ∈ line ∧ read + (line.length + 2) ≤ limit) :
    refused limit read (line :: lines) = refused limit (read + (line.length + 2)) lines :=
  if_pos fits

theorem refused_here (limit read : Nat) (line : Bytes) (lines : List Bytes)
    (bad : ¬(colonByte ∈ line ∧ read + (line.length + 2) ≤ limit)) :
    refused limit read (line :: lines) = some (endLines (line :: lines)) := if_neg bad

theorem length_endLines_cons (line : Bytes) (lines : List Bytes) :
    (endLines (line :: lines)).length = line.length + 2 + (endLines lines).length := by
  simp only [length_endLines, map_cons, sum_cons]

theorem refused_none (limit read : Nat) (lines : List Bytes)
    (colons : ∀ line ∈ lines, colonByte ∈ line) (small : read + (endLines lines).length ≤ limit) :
    refused limit read lines = none := by
  induction lines generalizing read with
  | nil => rfl
  | cons line lines ih =>
    rw [length_endLines_cons] at small
    rw [refused_taken _ _ _ _ ⟨colons line (mem_cons_self ..), by omega⟩]
    exact ih _ (fun l member => colons l (mem_cons_of_mem _ member)) (by omega)

theorem fits_of_refused_none (limit read : Nat) (lines : List Bytes) (start : read ≤ limit)
    (taken : refused limit read lines = none) :
    (∀ line ∈ lines, colonByte ∈ line) ∧ read + (endLines lines).length ≤ limit := by
  induction lines generalizing read with
  | nil => exact ⟨fun _ member => absurd member not_mem_nil, start⟩
  | cons line lines ih =>
    by_cases fits : colonByte ∈ line ∧ read + (line.length + 2) ≤ limit
    · rw [refused_taken _ _ _ _ fits] at taken
      obtain ⟨colons, small⟩ := ih _ fits.2 taken
      rw [length_endLines_cons]
      exact ⟨forall_mem_cons.mpr ⟨fits.1, colons⟩, by omega⟩
    · rw [refused_here _ _ _ _ fits] at taken
      cases taken

theorem refused_exceeds (limit read : Nat) (lines : List Bytes) (nonempty : lines ≠ [])
    (large : limit < read + (endLines lines).length) : ∃ left, refused limit read lines = some left := by
  induction lines generalizing read with
  | nil => exact absurd rfl nonempty
  | cons line lines ih =>
    rw [length_endLines_cons] at large
    by_cases fits : colonByte ∈ line ∧ read + (line.length + 2) ≤ limit
    · rw [refused_taken _ _ _ _ fits]
      refine ih _ ?_ (by omega)
      rintro rfl
      rw [show (endLines []).length = 0 from rfl] at large
      omega
    · exact ⟨_, refused_here _ _ _ _ fits⟩

theorem refused_mono (limit less read : Nat) (lines : List Bytes) (le : less ≤ read)
    (taken : refused limit read lines = none) : refused limit less lines = none := by
  induction lines generalizing less read with
  | nil => rfl
  | cons line lines ih =>
    by_cases fits : colonByte ∈ line ∧ read + (line.length + 2) ≤ limit
    · rw [refused_taken _ _ _ _ fits] at taken
      rw [refused_taken _ _ _ _ ⟨fits.1, by omega⟩]
      exact ih _ _ (by omega) taken
    · rw [refused_here _ _ _ _ fits] at taken
      cases taken

/-- The fields of some lines put into a map, each under its name in lower case. -/
def storeLines (m : HeaderMap) (lines : List Bytes) : HeaderMap :=
  lines.foldl (fun m line => m.insert (toLower (fieldName line)) (fieldValue line)) m

theorem storeLines_append (m : HeaderMap) (left right : List Bytes) :
    storeLines m (left ++ right) = storeLines (storeLines m left) right :=
  foldl_append ..

theorem storeLines_field (m : HeaderMap) (name value : Bytes) (plain : colonByte ∉ name)
    (trimmed : value.head? ≠ some sp) :
    storeLines m [fieldLine name value] = m.insert (toLower name) value := by
  rw [storeLines, foldl_cons, foldl_nil, fieldName_fieldLine name value plain,
    fieldValue_fieldLine name value plain trimmed]

theorem find?_storeLines (m : HeaderMap) (lines : List Bytes) (name : Bytes)
    (others : ∀ line ∈ lines, toLower (fieldName line) ≠ name) :
    (storeLines m lines).find? name = m.find? name := by
  induction lines generalizing m with
  | nil => rfl
  | cons line lines ih =>
    have other := (others line (mem_cons_self ..)).symm
    rw [← singleton_append, storeLines_append,
      ih _ fun l later => others l (mem_cons_of_mem _ later)]
    exact (SortedMap.find?_insert ..).trans (if_neg other)

theorem find?_storeLines_same (m : HeaderMap) (lines : List Bytes) (name value : Bytes)
    (same : ∀ line ∈ lines, toLower (fieldName line) = name → fieldValue line = value)
    (present : m.find? name = some value ∨ ∃ line ∈ lines, toLower (fieldName line) = name) :
    (storeLines m lines).find? name = some value := by
  induction lines generalizing m with
  | nil =>
    rcases present with stored | ⟨line, member, _⟩
    · exact stored
    · cases member
  | cons line lines ih =>
    rw [← singleton_append, storeLines_append]
    apply ih _ fun l later => same l (mem_cons_of_mem _ later)
    have first : (storeLines m [line]).find? name =
        if name = toLower (fieldName line) then some (fieldValue line) else m.find? name :=
      SortedMap.find?_insert ..
    by_cases named : toLower (fieldName line) = name
    · left
      rw [first, if_pos named.symm, same line (mem_cons_self ..) named]
    · rcases present with stored | ⟨l, member, found⟩
      · left
        rw [first, if_neg (Ne.symm named), stored]
      · right
        rcases mem_cons.mp member with rfl | later
        · exact absurd found named
        · exact ⟨l, later, found⟩

theorem storeLines_entries (m : HeaderMap) (es : List (Bytes × Bytes))
    (names : ∀ e ∈ es, colonByte ∉ e.1 ∧ toLower e.1 = e.1)
    (trimmed : ∀ e ∈ es, e.2.head? ≠ some sp) :
    storeLines m (es.map fun e => fieldLine e.1 e.2) =
      es.foldl (fun m e => m.insert e.1 e.2) m := by
  induction es generalizing m with
  | nil => rfl
  | cons e es ih =>
    obtain ⟨plain, lower⟩ := names e (mem_cons_self ..)
    have first := storeLines_field m e.1 e.2 plain (trimmed e (mem_cons_self ..))
    rw [map_cons, ← singleton_append, storeLines_append, first, lower,
      ih _ (fun f later => names f (mem_cons_of_mem _ later))
        fun f later => trimmed f (mem_cons_of_mem _ later)]
    rfl

end Cox.Http
