import Cox.Lib.Exposition

/-!
# Families of samples

The lines of an exposition text are put together by metric. A line belongs to the family that is
open if it may still stand there, and otherwise opens a family of its own. A text is accepted if
no name belongs to two families; so a second `HELP` or `TYPE` line for a metric, or samples of
it in two places, are an error. Families that share no name are read as they were written, and
escapes are not missed where no text needs one.
-/
namespace Cox.Lib.Exposition

open List

structure Family where
  name : Bytes
  help : Option Bytes := none
  kind : Option Kind := none
  samples : List Sample := []
  deriving DecidableEq

namespace Family

def sampleNames (f : Family) : List Bytes :=
  match f.kind with
  | some .histogram => [f.name ++ text "_bucket", f.name ++ text "_sum", f.name ++ text "_count"]
  | some .summary => [f.name, f.name ++ text "_sum", f.name ++ text "_count"]
  | _ => [f.name]

/-- The names that no other family may use. -/
def names (f : Family) : List Bytes :=
  match f.kind with
  | some .histogram => f.name :: f.sampleNames
  | _ => f.sampleNames

/-- The family is given the text of its `HELP` line before its first sample. -/
def wantsHelp (f : Family) (name : Bytes) : Bool :=
  f.name == name && f.help.isNone && f.samples.isEmpty

def wantsKind (f : Family) (name : Bytes) : Bool :=
  f.name == name && f.kind.isNone && f.samples.isEmpty

def lines (f : Family) : List Line :=
  f.help.toList.map (.help f.name) ++ f.kind.toList.map (.kind f.name) ++ f.samples.map .sample

end Family

/-- A line belongs to the family in front, or opens one. -/
def addLine (families : List Family) (line : Line) : List Family :=
  match line, families with
  | .comment, _ => families
  | .help name doc, f :: others =>
    if f.wantsHelp name then { f with help := some doc } :: others
    else { name, help := some doc } :: families
  | .help name doc, [] => [{ name, help := some doc }]
  | .kind name kind, f :: others =>
    if f.wantsKind name then { f with kind := some kind } :: others
    else { name, kind := some kind } :: families
  | .kind name kind, [] => [{ name, kind := some kind }]
  | .sample s, f :: others =>
    if s.name ∈ f.sampleNames then { f with samples := f.samples ++ [s] } :: others
    else { name := s.name, samples := [s] } :: families
  | .sample s, [] => [{ name := s.name, samples := [s] }]

/-- The families of the lines, in the order of the text. -/
def families (lines : List Line) : List Family := (lines.foldl addLine []).reverse

/-- The text format 0.0.4: the families of a text, if it is well formed. -/
def read (s : Bytes) : Option (List Family) :=
  (readLines s).bind fun lines =>
    if ((families lines).flatMap Family.names).Nodup then some (families lines) else none

def writeFamilies (esc : Bool → Bytes → Bytes) (fs : List Family) : Bytes :=
  writeLines esc (fs.flatMap Family.lines)

/-! ### Families that have been written -/

/-- A family with both lines at its head and with samples of its own. -/
structure Family.Declared (f : Family) : Prop where
  help : f.help.isSome
  kind : f.kind.isSome
  own : ∀ s ∈ f.samples, s.name ∈ f.sampleNames

theorem foldl_samples (f : Family) (samples : List Sample) (others : List Family)
    (own : ∀ s ∈ samples, s.name ∈ f.sampleNames) :
    (samples.map Line.sample).foldl addLine (f :: others) =
      { f with samples := f.samples ++ samples } :: others := by
  induction samples generalizing f with
  | nil => simp
  | cons s samples ih =>
    have rest := ih { f with samples := f.samples ++ [s] }
      fun s' inside => own s' (mem_cons_of_mem s inside)
    rw [map_cons, foldl_cons, addLine, if_pos (own s (mem_cons_self ..)), rest]
    simp

/-- The `HELP` line opens the family, whatever is open before, as that has its own. -/
theorem foldl_declared (f : Family) (declared : f.Declared) (others : List Family)
    (closed : ∀ g ∈ others, g.help.isSome) :
    f.lines.foldl addLine others = f :: others := by
  obtain ⟨name, help, kind, samples⟩ := f
  obtain ⟨hasHelp, hasKind, own⟩ := declared
  obtain ⟨doc, rfl⟩ := Option.isSome_iff_exists.mp hasHelp
  obtain ⟨k, rfl⟩ := Option.isSome_iff_exists.mp hasKind
  have opened : addLine others (.help name doc) = { name, help := some doc } :: others := by
    cases others with
    | nil => rfl
    | cons g others =>
      have has := closed g (mem_cons_self ..)
      rw [addLine, if_neg]
      simp [Family.wantsHelp, Option.isSome_iff_ne_none.mp has]
  rw [Family.lines, foldl_append, foldl_append]
  simp only [Option.toList_some, map_cons, map_nil, foldl_cons, foldl_nil]
  rw [opened, addLine, if_pos (by simp [Family.wantsKind])]
  exact foldl_samples { name, help := some doc, kind := some k } samples others own

theorem families_lines (fs : List Family) (declared : ∀ f ∈ fs, f.Declared) :
    families (fs.flatMap Family.lines) = fs := by
  suffices run : ∀ others : List Family, (∀ g ∈ others, g.help.isSome) →
      (fs.flatMap Family.lines).foldl addLine others = fs.reverse ++ others by
    rw [families, run [] (by simp), append_nil, reverse_reverse]
  induction fs with
  | nil => exact fun _ _ => rfl
  | cons f fs ih =>
    intro others closed
    have first := declared f (mem_cons_self ..)
    rw [flatMap_cons, foldl_append, foldl_declared f first others closed,
      ih (fun g inside => declared g (mem_cons_of_mem f inside)) (f :: others)
        (forall_mem_cons.mpr ⟨first.help, closed⟩)]
    simp

/-- **Families that are written with their escapes are read back**, if they share no name. -/
theorem read_writeFamilies (fs : List Family) (declared : ∀ f ∈ fs, f.Declared)
    (proper : ∀ f ∈ fs, named metricByte f.name = true ∧ (∀ doc ∈ f.help, skip doc = doc) ∧
      ∀ s ∈ f.samples, s.Proper)
    (distinct : (fs.flatMap Family.names).Nodup) :
    read (writeFamilies escape fs) = some fs := by
  have lines : ∀ l ∈ fs.flatMap Family.lines, l.Proper := by
    intro l inside
    obtain ⟨f, member, inside⟩ := mem_flatMap.mp inside
    obtain ⟨name, help, samples⟩ := proper f member
    simp only [Family.lines, mem_append, mem_map] at inside
    rcases inside with (⟨doc, given, rfl⟩ | ⟨kind, -, rfl⟩) | ⟨s, own, rfl⟩
    · exact ⟨name, help doc (Option.mem_toList.mp given)⟩
    · exact name
    · exact samples s own
  rw [read, writeFamilies, readLines_write _ lines, Option.bind_some, families_lines fs declared,
    if_pos distinct]

/-! ### Texts without escapes -/

/-- A writer that puts the texts down as they are. -/
def verbatim (_ : Bool) (s : Bytes) : Bytes := s

/-- Nothing in a text needs an escape. -/
def Plain (quoted : Bool) (s : Bytes) : Prop :=
  backslash ∉ s ∧ lineFeed ∉ s ∧ (quoted = true → quote ∉ s)

theorem escape_plain (quoted : Bool) (s : Bytes) (plain : Plain quoted s) : escape quoted s = s := by
  induction s with
  | nil => rfl
  | cons c s ih =>
    simp only [Plain, mem_cons, not_or] at plain
    obtain ⟨backslashes, feeds, quotes⟩ := plain
    have rest := ih ⟨backslashes.2, feeds.2, fun isQuoted => (quotes isQuoted).2⟩
    have first : escapeByte quoted c = [c] := by
      rw [escapeByte, if_neg (Ne.symm backslashes.1), if_neg (Ne.symm feeds.1),
        if_neg fun isQuote => (quotes isQuote.1).1 isQuote.2.symm]
    rw [escape, flatMap_cons, first, ← escape, rest]
    rfl

/-- The texts that may need escapes, and whether they stand between quotes. -/
def Line.texts : Line → List (Bool × Bytes)
  | .help _ doc => [(false, doc)]
  | .sample s => s.labels.map fun l => (true, l.2)
  | _ => []

theorem writeLine_verbatim (line : Line) (plain : ∀ t ∈ line.texts, Plain t.1 t.2) :
    writeLine verbatim line = writeLine escape line := by
  have same (t : Bool × Bytes) (inside : t ∈ line.texts) : verbatim t.1 t.2 = escape t.1 t.2 :=
    (escape_plain t.1 t.2 (plain t inside)).symm
  cases line with
  | help name doc => rw [writeLine, writeLine, same (false, doc) (mem_singleton_self _)]
  | kind | comment => rfl
  | sample s =>
    have label (l : Bytes × Bytes) (inside : l ∈ s.labels) :
        writeLabel verbatim l = writeLabel escape l := by
      rw [writeLabel, writeLabel, same (true, l.2) (mem_map_of_mem inside)]
    have labels : writeLabels verbatim s.labels = writeLabels escape s.labels := by
      cases listed : s.labels with
      | nil => rfl
      | cons l ls =>
        rw [listed] at label
        have others : (ls.flatMap fun l => comma :: writeLabel verbatim l) =
            ls.flatMap fun l => comma :: writeLabel escape l :=
          flatMap_congr fun l inside => by rw [label l (mem_cons_of_mem _ inside)]
        rw [writeLabels, writeLabels, label l (mem_cons_self ..), others]
    rw [writeLine, writeLine, writeSample, writeSample, labels]

/-- Where nothing needs an escape, a writer without escapes will do. -/
theorem writeFamilies_verbatim (fs : List Family)
    (plain : ∀ f ∈ fs, ∀ l ∈ f.lines, ∀ t ∈ l.texts, Plain t.1 t.2) :
    writeFamilies verbatim fs = writeFamilies escape fs := by
  refine flatMap_congr fun line inside => ?_
  obtain ⟨f, member, inside⟩ := mem_flatMap.mp inside
  rw [writeLine_verbatim line (plain f member line inside)]

end Cox.Lib.Exposition
