import Mathlib.Algebra.Order.BigOperators.Group.List
import Mathlib.Data.List.Flatten
import Cox.Lib.Families

/-!
# The shortest text of some families

A reader of the text format drops blanks and comments and takes an escape for one byte, so it
never finds more than was written: the families that it finds, written with their escapes, are
no longer than the text. So a writer without escapes is read back only where it had nothing to
escape.
-/
namespace Cox.Lib.Exposition

open List

/-! ### What is left of a line -/

section Parts

variable {s r : Bytes}

theorem length_skip (s : Bytes) : (skip s).length ≤ s.length := (dropWhile_sublist _).length_le

theorem skip_skip (s : Bytes) : skip (skip s) = skip s := by
  induction s with
  | nil => rfl
  | cons c s ih =>
    cases isBlank : blank c with
    | true => rwa [show skip (c :: s) = skip s from dropWhile_cons_of_pos isBlank]
    | false => rw [skip_cons s c isBlank, skip_cons s c isBlank]

theorem length_separated (read : separated s = some r) : skip r = r ∧ r.length + 1 ≤ s.length := by
  cases s with
  | nil => cases read
  | cons c rest =>
    obtain ⟨-, ⟨⟩⟩ := Option.ite_none_right_eq_some.mp read
    exact ⟨skip_skip rest, Nat.succ_le_succ (length_skip rest)⟩

theorem length_expect {c : UInt8} (read : expect c s = some r) : r.length + 1 = s.length := by
  cases s with
  | nil => cases read
  | cons d rest =>
    obtain ⟨-, ⟨⟩⟩ := Option.ite_none_right_eq_some.mp read
    rfl

theorem length_readName {byte : UInt8 → Bool} {name : Bytes × Bytes}
    (read : readName byte s = some name) :
    named byte name.1 = true ∧ name.1.length + name.2.length = s.length := by
  obtain ⟨valid, ⟨⟩⟩ := Option.ite_none_right_eq_some.mp read
  exact ⟨valid, by rw [← length_append, takeWhile_append_dropWhile]⟩

theorem length_readToken {word : Bytes × Bytes} (read : readToken s = some word) :
    word.1.length + word.2.length = s.length := by
  obtain ⟨-, ⟨⟩⟩ := Option.ite_none_left_eq_some.mp read
  rw [← length_append, takeWhile_append_dropWhile]

theorem length_unescape {quoted : Bool} {e c : UInt8} (stands : unescape quoted e = some c) :
    (escapeByte quoted c).length = 2 ∧ blank c = false := by
  unfold unescape at stands
  split_ifs at stands with isBackslash isFeed isQuote
  · cases stands
    exact ⟨rfl, rfl⟩
  · cases stands
    exact ⟨rfl, rfl⟩
  · cases stands
    rw [isQuote.1]
    exact ⟨rfl, rfl⟩

theorem length_escape_cons (quoted : Bool) (c : UInt8) (s : Bytes) :
    (escape quoted (c :: s)).length = (escapeByte quoted c).length + (escape quoted s).length := by
  rw [escape, flatMap_cons, length_append]
  rfl

/-- A text is not shorter than what it stands for with its escapes. The closing quote counts, and
a backslash that has been read. -/
theorem length_decode (quoted behind : Bool) (s : Bytes) (r : Bytes × Bytes)
    (read : decode quoted behind s = some r) :
    (escape quoted r.1).length + r.2.length + quoted.toNat ≤ s.length + behind.toNat := by
  induction s generalizing behind r with
  | nil =>
    cases behind with
    | true => cases read
    | false =>
      cases quoted with
      | true => cases read
      | false =>
        cases read
        exact Nat.le_refl 0
  | cons c s ih =>
    cases behind with
    | true =>
      obtain ⟨d, stands, decoded⟩ := Option.bind_eq_some_iff.mp read
      obtain ⟨later, rest, rfl⟩ := Option.map_eq_some_iff.mp decoded
      have rest := ih false later rest
      have two := (length_unescape stands).1
      simp only [length_escape_cons, length_cons, Bool.toNat_false, Bool.toNat_true] at rest ⊢
      omega
    | false =>
      rw [decode] at read
      split at read
      next closes =>
        cases read
        rw [closes.1]
        simp [escape]
      next opened =>
        split at read
        · have rest := ih true r read
          simp only [length_cons, Bool.toNat_false, Bool.toNat_true] at rest ⊢
          omega
        next unescaped =>
          split at read
          · cases read
          next noFeed =>
            obtain ⟨later, rest, rfl⟩ := Option.map_eq_some_iff.mp read
            have rest := ih false later rest
            have one : escapeByte quoted c = [c] := by
              rw [escapeByte, if_neg unescaped, if_neg noFeed, if_neg opened]
            simp only [length_escape_cons, one, length_cons, length_nil] at rest ⊢
            omega

theorem skip_decode (s : Bytes) (r : Bytes × Bytes) (kept : skip s = s)
    (read : decode false false s = some r) : skip r.1 = r.1 := by
  cases s with
  | nil =>
    cases read
    rfl
  | cons c s =>
    have other := not_blank_of_skip s c kept
    rw [decode, if_neg (by simp)] at read
    split at read
    · cases s with
      | nil => cases read
      | cons e s =>
        obtain ⟨d, stands, read⟩ := Option.bind_eq_some_iff.mp read
        obtain ⟨later, -, rfl⟩ := Option.map_eq_some_iff.mp read
        exact skip_cons _ d (length_unescape stands).2
    · split at read
      · cases read
      · obtain ⟨later, -, rfl⟩ := Option.map_eq_some_iff.mp read
        exact skip_cons _ c other

end Parts

/-! ### Labels and lines -/

theorem length_readLabel {s : Bytes} {l : (Bytes × Bytes) × Bytes} (read : readLabel s = some l) :
    named labelByte l.1.1 = true ∧ (writeLabel escape l.1).length + l.2.length ≤ s.length := by
  simp only [readLabel, Option.bind_eq_some_iff, Option.map_eq_some_iff] at read
  obtain ⟨key, readKey, s₁, readEquals, s₂, readQuote, value, readValue, rfl⟩ := read
  obtain ⟨valid, first⟩ := length_readName readKey
  have second := length_expect readEquals
  have third := length_expect readQuote
  have fourth := length_decode true false s₂ value readValue
  have skipped := length_skip key.2
  have skipped' := length_skip s₁
  refine ⟨valid, ?_⟩
  simp only [writeLabel, length_append, length_cons, length_nil, Bool.toNat_true,
    Bool.toNat_false] at fourth ⊢
  omega

/-- The length of the labels, each with the comma or the brace behind it. -/
def labelsLength (ls : Labels) : Nat := (ls.map fun l => (writeLabel escape l).length + 1).sum

theorem length_writeLabels (ls : Labels) :
    (writeLabels escape ls).length = if ls = [] then 0 else labelsLength ls + 1 := by
  cases ls with
  | nil => rfl
  | cons l ls =>
    have others : (ls.flatMap fun l => comma :: writeLabel escape l).length = labelsLength ls := by
      rw [length_flatMap]
      rfl
    have all : labelsLength (l :: ls) = (writeLabel escape l).length + 1 + labelsLength ls := sum_cons
    rw [if_neg (cons_ne_nil l ls), writeLabels, cons_append, length_cons, length_append, length_append,
      others, length_singleton, all]
    omega

theorem length_readLabels (fuel : Nat) (s : Bytes) (ls : Labels × Bytes)
    (read : readLabels fuel s = some ls) :
    (∀ l ∈ ls.1, named labelByte l.1 = true) ∧ labelsLength ls.1 + ls.2.length ≤ s.length := by
  induction fuel generalizing s ls with
  | zero => cases read
  | succ fuel ih =>
    have skipped := length_skip s
    rw [readLabels] at read
    split at read
    next rest closed =>
      cases read
      have brace := length_expect closed
      refine ⟨fun _ inside => absurd inside not_mem_nil, ?_⟩
      show 0 + rest.length ≤ s.length
      omega
    next =>
      obtain ⟨l, readFirst, read⟩ := Option.bind_eq_some_iff.mp read
      obtain ⟨valid, first⟩ := length_readLabel readFirst
      have skipped' := length_skip l.2
      split at read
      next rest comma =>
        obtain ⟨later, readLater, rfl⟩ := Option.map_eq_some_iff.mp read
        obtain ⟨others, length⟩ := ih rest later readLater
        have mark := length_expect comma
        refine ⟨forall_mem_cons.mpr ⟨valid, others⟩, ?_⟩
        simp only [labelsLength, map_cons, sum_cons] at length ⊢
        omega
      next =>
        obtain ⟨rest, closed, rfl⟩ := Option.map_eq_some_iff.mp read
        have brace := length_expect closed
        refine ⟨forall_mem_cons.mpr ⟨valid, fun _ inside => absurd inside not_mem_nil⟩, ?_⟩
        simp only [labelsLength, map_cons, map_nil, sum_cons, sum_nil]
        omega

theorem length_readLabelSet {s : Bytes} {ls : Labels × Bytes} (read : readLabelSet s = some ls) :
    (∀ l ∈ ls.1, named labelByte l.1 = true) ∧
      (writeLabels escape ls.1).length + ls.2.length ≤ s.length := by
  have skipped := length_skip s
  unfold readLabelSet at read
  split at read
  next rest opened =>
    obtain ⟨valid, length⟩ := length_readLabels _ rest ls read
    have brace := length_expect opened
    refine ⟨valid, ?_⟩
    rw [length_writeLabels]
    split <;> omega
  · cases read
    refine ⟨fun _ inside => absurd inside not_mem_nil, ?_⟩
    show 0 + s.length ≤ s.length
    omega

theorem length_readTimestamp {s : Bytes} {t : Option Bytes} (read : readTimestamp s = some t) :
    (writeTimestamp t).length ≤ s.length := by
  unfold readTimestamp at read
  split at read
  · cases read
    exact Nat.zero_le _
  · simp only [Option.bind_eq_some_iff, Option.ite_none_right_eq_some] at read
    obtain ⟨s₁, readBlank, word, readWord, -, ⟨⟩⟩ := read
    have first := (length_separated readBlank).2
    have second := length_readToken readWord
    rw [writeTimestamp, length_cons]
    omega

/-- What is known of a line that has been read. -/
def Line.Legible : Line → Prop
  | .help _ doc => skip doc = doc
  | .sample s => (∀ l ∈ s.labels, named labelByte l.1 = true) ∧ (s.labels.map Prod.fst).Nodup
  | .kind _ _ | .comment => True

section Lines

variable {s : Bytes} {line : Line}

theorem length_readSample {x : Sample} (read : readSample s = some x) :
    (Line.sample x).Legible ∧ (writeSample escape x).length ≤ s.length := by
  simp only [readSample, Option.bind_eq_some_iff, Option.ite_none_right_eq_some] at read
  obtain ⟨name, readName, labels, readLabels, s₁, readBlank, value, readValue, timestamp, readTime,
    proper, ⟨⟩⟩ := read
  have first := (length_readName readName).2
  obtain ⟨valid, second⟩ := length_readLabelSet readLabels
  have third := (length_separated readBlank).2
  have fourth := length_readToken readValue
  have fifth := length_readTimestamp readTime
  refine ⟨⟨valid, proper.2⟩, ?_⟩
  simp only [writeSample, length_append, length_cons]
  omega

theorem length_readHelp (read : readHelp s = some line) :
    line.Legible ∧ (writeLine escape line).length ≤ s.length + 6 := by
  simp only [readHelp, Option.bind_eq_some_iff, Option.map_eq_some_iff] at read
  obtain ⟨s₁, readBlank, name, readName, doc, readBlank', value, readText, rfl⟩ := read
  have first := (length_separated readBlank).2
  have second := (length_readName readName).2
  obtain ⟨kept, third⟩ := length_separated readBlank'
  have fourth := length_decode false false doc value readText
  refine ⟨skip_decode doc value kept readText, ?_⟩
  simp only [writeLine, length_append, length_cons, show (text "# HELP ").length = 7 from rfl,
    Bool.toNat_false] at fourth ⊢
  omega

theorem length_readKind (read : readKind s = some line) :
    line.Legible ∧ (writeLine escape line).length ≤ s.length + 6 := by
  simp only [readKind, Option.bind_eq_some_iff, Option.ite_none_right_eq_some,
    Option.map_eq_some_iff] at read
  obtain ⟨s₁, readBlank, name, readName, s₂, readBlank', word, readWord, -, kind, known, rfl⟩ := read
  have first := (length_separated readBlank).2
  have second := (length_readName readName).2
  have third := (length_separated readBlank').2
  have fourth := length_readToken readWord
  have same : kind.word = word.1 := by simpa using find?_some known
  refine ⟨trivial, ?_⟩
  simp only [writeLine, length_append, length_cons, show (text "# TYPE ").length = 7 from rfl, same]
  omega

theorem length_readComment (read : readComment s = some line) :
    line.Legible ∧ (writeLine escape line).length ≤ s.length + 1 := by
  unfold readComment at read
  split at read
  next word rest found =>
    obtain ⟨s₁, readBlank, readWord⟩ := Option.bind_eq_some_iff.mp found
    have first := (length_separated readBlank).2
    have second : word.length + rest.length = s₁.length := length_readToken readWord
    split at read
    next help =>
      obtain ⟨legible, length⟩ := length_readHelp read
      have four : word.length = 4 := by rw [help]; rfl
      exact ⟨legible, by omega⟩
    · split at read
      next type =>
        obtain ⟨legible, length⟩ := length_readKind read
        have four : word.length = 4 := by rw [type]; rfl
        exact ⟨legible, by omega⟩
      · cases read
        exact ⟨trivial, Nat.zero_le _⟩
  · cases read
    exact ⟨trivial, Nat.zero_le _⟩

theorem length_readLine (read : readLine s = some line) :
    line.Legible ∧ (writeLine escape line).length ≤ s.length := by
  have skipped := length_skip s
  unfold readLine at read
  split at read
  · cases read
    exact ⟨trivial, Nat.zero_le _⟩
  next c rest begins =>
    rw [begins] at skipped
    split at read
    · obtain ⟨legible, length⟩ := length_readComment read
      exact ⟨legible, length.trans skipped⟩
    · obtain ⟨x, readSample, rfl⟩ := Option.map_eq_some_iff.mp read
      obtain ⟨legible, length⟩ := length_readSample readSample
      exact ⟨legible, length.trans skipped⟩

theorem length_mapM (pieces : List Bytes) (lines : List Line)
    (read : pieces.mapM readLine = some lines) :
    (∀ line ∈ lines, line.Legible) ∧
      (writeLines escape lines).length ≤ (pieces.flatMap (· ++ [lineFeed])).length := by
  induction pieces generalizing lines with
  | nil =>
    cases read
    exact ⟨fun _ inside => absurd inside not_mem_nil, Nat.le_refl 0⟩
  | cons piece pieces ih =>
    rw [mapM_cons] at read
    obtain ⟨line, readFirst, read⟩ := Option.bind_eq_some_iff.mp read
    obtain ⟨later, readLater, read⟩ := Option.bind_eq_some_iff.mp read
    cases read
    obtain ⟨legible, length⟩ := length_readLine readFirst
    obtain ⟨others, lengths⟩ := ih later readLater
    refine ⟨forall_mem_cons.mpr ⟨legible, others⟩, ?_⟩
    simp only [writeLines, flatMap_cons, length_append] at lengths ⊢
    omega

theorem intercalate_closed (pieces : List Bytes) :
    [lineFeed].intercalate (pieces ++ [[]]) = pieces.flatMap (· ++ [lineFeed]) := by
  induction pieces with
  | nil => rfl
  | cons piece pieces ih =>
    obtain ⟨next, others, split⟩ := exists_cons_of_ne_nil (append_ne_nil_of_right_ne_nil pieces
      (cons_ne_nil ([] : Bytes) []))
    rw [cons_append, split, intercalate_cons_cons, ← split, ih]
    rfl

theorem length_readLines (lines : List Line) (read : readLines s = some lines) :
    (∀ line ∈ lines, line.Legible) ∧ (writeLines escape lines).length ≤ s.length := by
  obtain ⟨ended, read⟩ := Option.ite_none_right_eq_some.mp read
  have text : [lineFeed].intercalate (s.splitOn lineFeed) = s := intercalate_splitOn lineFeed
  rw [← dropLast_append_getLast? _ ended, intercalate_closed] at text
  have length := length_mapM _ lines read
  rwa [text] at length

end Lines

/-! ### Families -/

theorem addLine_perm (fs : List Family) (line : Line) (meant : line ≠ .comment) :
    ((addLine fs line).flatMap Family.lines).Perm (line :: fs.flatMap Family.lines) := by
  cases line with
  | comment => exact absurd rfl meant
  | help name doc =>
    cases fs with
    | nil => rfl
    | cons f others =>
      rw [addLine]
      split
      next wants =>
        simp only [Family.wantsHelp, Bool.and_eq_true, beq_iff_eq, Option.isNone_iff_eq_none] at wants
        obtain ⟨⟨rfl, none⟩, -⟩ := wants
        simp [Family.lines, none]
      · rfl
  | kind name kind =>
    cases fs with
    | nil => rfl
    | cons f others =>
      rw [addLine]
      split
      next wants =>
        simp only [Family.wantsKind, Bool.and_eq_true, beq_iff_eq, Option.isNone_iff_eq_none,
          List.isEmpty_iff] at wants
        obtain ⟨⟨rfl, none⟩, empty⟩ := wants
        simp only [Family.lines, none, empty, flatMap_cons, Option.toList_some, Option.toList_none,
          map_cons, map_nil, append_nil, append_assoc, cons_append, nil_append]
        exact perm_middle
      · rfl
  | sample s =>
    cases fs with
    | nil => rfl
    | cons f others =>
      rw [addLine]
      split
      · simp only [Family.lines, flatMap_cons, map_append, map_cons, map_nil, ← append_assoc]
        rw [append_assoc _ [Line.sample s], singleton_append]
        exact perm_middle
      · rfl

theorem lines_families (lines : List Line) :
    ((families lines).flatMap Family.lines).Perm (lines.filter (· ≠ .comment)) := by
  suffices run : ∀ fs : List Family, ((lines.foldl addLine fs).flatMap Family.lines).Perm
      (lines.filter (· ≠ .comment) ++ fs.flatMap Family.lines) by
    have all := ((reverse_perm (lines.foldl addLine [])).flatMap_right Family.lines).trans (run [])
    rwa [flatMap_nil, append_nil] at all
  induction lines with
  | nil => exact fun _ => Perm.refl _
  | cons line lines ih =>
    intro fs
    rw [foldl_cons]
    by_cases comment : line = .comment
    · rw [comment, filter_cons_of_neg (by simp)]
      exact ih fs
    · rw [filter_cons_of_pos (by simpa using comment), cons_append]
      exact (ih _).trans (((addLine_perm fs line comment).append_left _).trans perm_middle)

/-- **No text is shorter** than the families that are read from it, written with their escapes. -/
theorem length_read (s : Bytes) (fs : List Family) (found : read s = some fs) :
    (fs.flatMap Family.names).Nodup ∧ (∀ line ∈ fs.flatMap Family.lines, line.Legible) ∧
      (writeFamilies escape fs).length ≤ s.length := by
  simp only [read, Option.bind_eq_some_iff, Option.ite_none_right_eq_some] at found
  obtain ⟨lines, readLines, distinct, ⟨⟩⟩ := found
  obtain ⟨legible, length⟩ := length_readLines lines readLines
  have held := lines_families lines
  refine ⟨distinct, fun line inside => ?_, ?_⟩
  · exact legible line (mem_filter.mp (held.mem_iff.mp inside)).1
  · have written := (held.flatMap_right fun l => writeLine escape l ++ [lineFeed]).length_eq
    exact (written.trans_le (filter_sublist.flatMap _).length_le).trans length

/-! ### Where nothing was escaped -/

theorem escapeByte_pos (quoted : Bool) (c : UInt8) : 1 ≤ (escapeByte quoted c).length := by
  unfold escapeByte
  split_ifs <;> simp

theorem unescaped_of_length (quoted : Bool) (c : UInt8) (one : (escapeByte quoted c).length ≤ 1) :
    c ≠ backslash ∧ c ≠ lineFeed ∧ (quoted = true → c ≠ quote) := by
  unfold escapeByte at one
  split_ifs at one with isBackslash isFeed isQuote
  · simp at one
  · simp at one
  · simp at one
  · exact ⟨isBackslash, isFeed, fun isQuoted same => isQuote ⟨isQuoted, same⟩⟩

theorem length_escape (quoted : Bool) (s : Bytes) : s.length ≤ (escape quoted s).length := by
  induction s with
  | nil => exact Nat.le_refl 0
  | cons c s ih =>
    have one := escapeByte_pos quoted c
    rw [length_escape_cons, length_cons]
    omega

theorem plain_of_length (quoted : Bool) (s : Bytes) (short : (escape quoted s).length ≤ s.length) :
    Plain quoted s := by
  induction s with
  | nil => exact ⟨not_mem_nil, not_mem_nil, fun _ => not_mem_nil⟩
  | cons c s ih =>
    have one := escapeByte_pos quoted c
    have rest := length_escape quoted s
    rw [length_escape_cons, length_cons] at short
    obtain ⟨backslashes, feeds, quotes⟩ := ih (by omega)
    obtain ⟨noBackslash, noFeed, noQuote⟩ := unescaped_of_length quoted c (by omega)
    simp only [Plain, mem_cons, not_or]
    exact ⟨⟨noBackslash.symm, backslashes⟩, ⟨noFeed.symm, feeds⟩,
      fun isQuoted => ⟨(noQuote isQuoted).symm, quotes isQuoted⟩⟩

theorem length_writeLine (esc : Bool → Bytes → Bytes) (line : Line) :
    (writeLine esc line).length = (writeLine (fun _ _ => []) line).length +
      (line.texts.map fun t => (esc t.1 t.2).length).sum := by
  cases line with
  | help name doc =>
    simp only [writeLine, Line.texts, length_append, length_cons, map_cons, map_nil, sum_cons, sum_nil,
      length_nil]
    omega
  | kind | comment => rfl
  | sample s =>
    have label (l : Bytes × Bytes) : (writeLabel esc l).length =
        (writeLabel (fun _ _ => []) l).length + (esc true l.2).length := by
      simp only [writeLabel, length_append, length_cons, length_nil]
      omega
    have others (ls : Labels) : (ls.flatMap fun l => comma :: writeLabel esc l).length =
        (ls.flatMap fun l => comma :: writeLabel (fun _ _ => []) l).length +
          (ls.map fun l => (esc true l.2).length).sum := by
      induction ls with
      | nil => rfl
      | cons l ls ih =>
        simp only [flatMap_cons, length_append, length_cons, map_cons, sum_cons, ih, label l]
        omega
    simp only [writeLine, writeSample, Line.texts, map_map, length_append, length_cons]
    cases s.labels with
    | nil => simp [writeLabels]
    | cons l ls =>
      simp only [writeLabels, length_append, length_cons, cons_append, label l, others ls, map_cons,
        sum_cons, Function.comp_def]
      omega

/-- A writer without escapes that needs no fewer bytes had nothing to escape. -/
theorem plain_of_writeLines (lines : List Line)
    (short : (writeLines escape lines).length ≤ (writeLines verbatim lines).length) :
    ∀ line ∈ lines, ∀ t ∈ line.texts, Plain t.1 t.2 := by
  have total (esc : Bool → Bytes → Bytes) : (writeLines esc lines).length =
      (writeLines (fun _ _ => []) lines).length +
        ((lines.flatMap Line.texts).map fun t => (esc t.1 t.2).length).sum := by
    clear short
    induction lines with
    | nil => rfl
    | cons line lines ih =>
      simp only [writeLines, flatMap_cons, length_append, map_append, sum_append] at ih ⊢
      rw [length_writeLine esc line, ih]
      omega
  rw [total escape, total verbatim] at short
  intro line member t inside
  apply plain_of_length
  by_contra long
  have longer := sum_lt_sum (l := lines.flatMap Line.texts) (fun t => (verbatim t.1 t.2).length)
    (fun t => (escape t.1 t.2).length) (fun t _ => length_escape t.1 t.2)
    ⟨t, mem_flatMap.mpr ⟨line, member, inside⟩, Nat.lt_of_not_le long⟩
  omega

end Cox.Lib.Exposition
