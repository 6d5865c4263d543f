import Mathlib.Data.List.Induction
import Cox.Logging.RotatingFileSink

/-!
# What the rotating log files hold

How the lines fall into files does not depend on the files that are gone or on how often the
sink was opened: it is a function of the lines, and the sink keeps the newest of these files.
-/
namespace Cox.Logging.RotatingFileSink

open Cox.Lib List

/-! ### How lines fall into files -/

def render (lines : List Bytes) : Bytes := lines.flatMap (· ++ [newline])

/-- A line is placed in the newest file, or in a new one if it would make that too large. The
newest file comes first. -/
def place (maxBytes : Nat) (files : List (List Bytes)) (line : Bytes) : List (List Bytes) :=
  match files with
  | [] => [[line]]
  | newest :: older =>
    if (render newest).length + line.length + 1 > maxBytes ∧ (render newest).length > 0 then
      [line] :: newest :: older
    else (newest ++ [line]) :: older

def cut (maxBytes : Nat) (lines : List Bytes) : List (List Bytes) :=
  lines.foldl (place maxBytes) [[]]

/-- The contents of the files from the number `m` on, the oldest first. -/
def readBack (s : RotatingFileSink) (m : Nat) : Bytes :=
  (List.range (m + 1)).reverse.flatMap fun n => (s.files (name s.path n)).getD []

section Cut

variable (maxBytes : Nat) (lines : List Bytes)

theorem render_concat (line : Bytes) :
    render (lines ++ [line]) = render lines ++ (line ++ [newline]) := by
  simp [render]

theorem length_render_concat (line : Bytes) :
    (render (lines ++ [line])).length = (render lines).length + line.length + 1 := by
  rw [render_concat, length_append, length_append, length_singleton]
  omega

theorem length_le_render : lines.length ≤ (render lines).length := by
  induction lines with
  | nil => exact Nat.zero_le _
  | cons line lines ih =>
    have both : render (line :: lines) = (line ++ [newline]) ++ render lines := rfl
    rw [both, length_append, length_append, length_cons, length_singleton]
    omega

theorem cut_concat (line : Bytes) :
    cut maxBytes (lines ++ [line]) = place maxBytes (cut maxBytes lines) line :=
  foldl_concat ..

theorem cut_cons : ∃ newest older, cut maxBytes lines = newest :: older := by
  induction lines using List.reverseRecOn with
  | nil => exact ⟨[], [], rfl⟩
  | append_singleton lines line ih =>
    obtain ⟨newest, older, files⟩ := ih
    rw [cut_concat, files, place]
    split
    · exact ⟨_, _, rfl⟩
    · exact ⟨_, _, rfl⟩

theorem flatten_place (files : List (List Bytes)) (line : Bytes) :
    (place maxBytes files line).reverse.flatten = files.reverse.flatten ++ [line] := by
  cases files with
  | nil => rfl
  | cons newest older =>
    rw [place]
    split
    · simp
    · simp

theorem flatten_cut : (cut maxBytes lines).reverse.flatten = lines := by
  induction lines using List.reverseRecOn with
  | nil => rfl
  | append_singleton lines line ih => rw [cut_concat, flatten_place, ih]

/-- At most as long as allowed, or a single line. -/
def Fits (file : List Bytes) : Prop := (render file).length ≤ maxBytes ∨ file.length = 1

theorem fits_place (files : List (List Bytes)) (line : Bytes)
    (fit : ∀ file ∈ files, Fits maxBytes file) :
    ∀ file ∈ place maxBytes files line, Fits maxBytes file := by
  cases files with
  | nil => exact forall_mem_singleton.mpr (.inr rfl)
  | cons newest older =>
    obtain ⟨_, others⟩ := forall_mem_cons.mp fit
    rw [place]
    split
    next => exact forall_mem_cons.mpr ⟨.inr rfl, fit⟩
    next small =>
      refine forall_mem_cons.mpr ⟨?_, others⟩
      by_cases empty : (render newest).length = 0
      · -- the first line of the file, which may have any length
        have none := length_le_render newest
        refine .inr ?_
        rw [length_append, length_singleton]
        omega
      · refine .inl ?_
        rw [length_render_concat]
        omega

theorem fits_cut : ∀ file ∈ cut maxBytes lines, Fits maxBytes file := by
  induction lines using List.reverseRecOn with
  | nil => exact forall_mem_singleton.mpr (.inl (Nat.zero_le _))
  | append_singleton lines line ih =>
    rw [cut_concat]
    exact fits_place maxBytes _ line ih

end Cut

/-! ### The invariant -/

/-- The newest of these files are there, as many as are kept. -/
def Holds (s : RotatingFileSink) (files : List (List Bytes)) : Prop :=
  ∀ n, s.files (name s.path n) = if n ≤ s.maxFiles then (files[n]?).map render else none

structure Kept (x : RotatingFileSink × List Bytes) : Prop where
  opened : x.1.opened = true
  positive : x.1.maxBytes ≠ 0
  holds : Holds x.1 (cut x.1.maxBytes x.2)
  written : x.1.written = ((x.1.files x.1.path).getD []).length

section Invariant

variable {s : RotatingFileSink} {lines newest : List Bytes} {older : List (List Bytes)}

theorem Holds.active (holds : Holds s (newest :: older)) :
    s.files s.path = some (render newest) :=
  (holds 0).trans (if_pos (Nat.zero_le _))

theorem Holds.rotate {files : List (List Bytes)} (holds : Holds s files) :
    Holds s.rotate ([] :: files) := by
  obtain ⟨path, _, maxFiles, _⟩ := same_rotate s
  intro n
  rw [path, maxFiles, files_rotate]
  cases n with
  | zero => rw [if_pos rfl, if_pos (Nat.zero_le _)]; rfl
  | succ n =>
    rw [if_neg (Nat.succ_ne_zero n), Nat.add_sub_cancel]
    split
    next kept => rw [holds n, if_pos (by omega), List.getElem?_cons_succ]
    next gone => rw [holds (n + 1), if_neg gone]

theorem Holds.write (holds : Holds s (newest :: older)) (line : Bytes) (written : Nat) :
    Holds { s with files := s.files.write s.path (line ++ [newline]), written }
      ((newest ++ [line]) :: older) := by
  intro n
  refine (write_name s.files s.path (line ++ [newline]) n).trans ?_
  cases n with
  | zero =>
    rw [if_pos rfl, if_pos (Nat.zero_le _), holds.active]
    exact congrArg some (render_concat newest line).symm
  | succ n =>
    rw [if_neg (Nat.succ_ne_zero n)]
    exact holds (n + 1)

theorem kept_new (path : Bytes) (maxBytes maxFiles : Nat) (files : FileSystem)
    (fresh : ∀ n, files (name path n) = none) :
    Kept (new path maxBytes maxFiles files, []) := by
  refine ⟨rfl, ?_, ?_, rfl⟩
  · show (if maxBytes = 0 then 1 else maxBytes) ≠ 0
    split <;> omega
  · intro n
    refine (files_open _ n).trans ?_
    cases n with
    | zero => exact congrArg (fun found => some (found.getD [])) (fresh 0)
    | succ n =>
      rw [if_neg (Nat.succ_ne_zero n)]
      refine (fresh (n + 1)).trans ?_
      split <;> rfl

theorem Kept.restart (kept : Kept (s, lines)) :
    Kept (new s.path s.maxBytes s.maxFiles s.close.files, lines) := by
  obtain ⟨newest, older, cuts⟩ := cut_cons s.maxBytes lines
  have holds : Holds s (newest :: older) := cuts ▸ kept.holds
  have same : (if s.maxBytes = 0 then 1 else s.maxBytes) = s.maxBytes := if_neg kept.positive
  refine ⟨rfl, ?_, ?_, rfl⟩
  · show (if s.maxBytes = 0 then 1 else s.maxBytes) ≠ 0
    rw [same]
    exact kept.positive
  · show Holds _ (cut (if s.maxBytes = 0 then 1 else s.maxBytes) lines)
    rw [same, cuts]
    intro n
    refine (files_open _ n).trans (Eq.trans ?_ (holds n))
    cases n with
    | zero =>
      have file : s.files (name s.path 0) = some (render newest) := holds.active
      rw [if_pos rfl, file]
      exact congrArg (fun found => some (found.getD [])) file
    | succ n => rw [if_neg (Nat.succ_ne_zero n)]; rfl

theorem kept_write (opened : s.opened = true) (positive : s.maxBytes ≠ 0)
    (holds : Holds s (newest :: older)) (written : s.written = (render newest).length)
    (line : Bytes) (placed : cut s.maxBytes lines = (newest ++ [line]) :: older) :
    Kept ({ s with
      files := s.files.write s.path (line ++ [newline])
      written := s.written + line.length + 1 }, lines) := by
  have files := holds.write line (s.written + line.length + 1)
  refine ⟨opened, positive, ?_, ?_⟩
  · show Holds _ (cut s.maxBytes lines)
    rw [placed]
    exact files
  · have file := files.active
    show s.written + line.length + 1 = _
    dsimp only at file ⊢
    rw [file, written]
    exact (length_render_concat newest line).symm

theorem Kept.append (kept : Kept (s, lines)) (line : Bytes) :
    Kept (s.append line, lines ++ [line]) := by
  obtain ⟨newest, older, cuts⟩ := cut_cons s.maxBytes lines
  have holds : Holds s (newest :: older) := cuts ▸ kept.holds
  have written : s.written = (render newest).length := by
    have length := kept.written
    rw [holds.active] at length
    exact length
  have opened : s.opened = true := kept.opened
  have placed : cut s.maxBytes (lines ++ [line]) = place s.maxBytes (newest :: older) line := by
    rw [cut_concat, cuts]
  rw [place, ← written] at placed
  unfold RotatingFileSink.append
  rw [if_neg (by rw [opened]; decide)]
  split
  next full =>
    rw [if_pos full] at placed
    obtain ⟨_, maxBytes, _, opened⟩ := same_rotate s
    rw [← maxBytes] at placed
    exact kept_write opened (maxBytes.symm ▸ kept.positive) holds.rotate (written_rotate s) line
      placed
  next small =>
    rw [if_neg small] at placed
    exact kept_write opened kept.positive holds written line placed

theorem Kept.step (kept : Kept (s, lines)) (e : Event) (s' : RotatingFileSink)
    (stepped : s.step e = some s') : Kept (s', s.noteLines e lines) := by
  cases e with
  | append line =>
    cases stepped
    exact kept.append line
  | flush =>
    cases stepped
    exact kept
  | restart =>
    cases stepped
    exact kept.restart

/-- By induction on the number of the oldest file that is read. -/
theorem Holds.readBack {files : List (List Bytes)} (holds : Holds s files) (m : Nat)
    (kept : m ≤ s.maxFiles) (filled : m < files.length) :
    s.readBack m = render (files.take (m + 1)).reverse.flatten := by
  have file (n : Nat) (kept : n ≤ s.maxFiles) (filled : n < files.length) :
      s.files (name s.path n) = some (render files[n]) := by
    rw [holds n, if_pos kept, List.getElem?_eq_getElem filled, Option.map_some]
  induction m with
  | zero =>
    have newest := file 0 kept filled
    simp [RotatingFileSink.readBack, newest, take_one, List.head?_eq_getElem?, filled]
  | succ m ih =>
    have rest := ih (by omega) (by omega)
    have split : s.readBack (m + 1) =
        (s.files (name s.path (m + 1))).getD [] ++ s.readBack m := by
      simp [RotatingFileSink.readBack, range_succ (n := m + 1)]
    rw [split, rest, file (m + 1) kept filled, take_succ_eq_append_getElem filled,
      reverse_append, flatten_append]
    simp [render]

end Invariant

/-! ### Whole runs -/

/-- What holds of a sink made with these arguments: the lines fall into files, each of which is
small enough or a single line; those that are there are the newest, from the one written to
without a gap, and no more than allowed; none is gone before that many are there; and read from
the oldest on they are the last lines. -/
structure KeepsNewest (maxBytes maxFiles : Nat) (x : RotatingFileSink × List Bytes) : Prop where
  whole : (cut x.1.maxBytes x.2).reverse.flatten = x.2
  limit : ∀ file ∈ cut x.1.maxBytes x.2, Fits maxBytes file
  newest : ∃ m ≤ maxFiles,
    (∀ n, x.1.files (name x.1.path n) =
      if n ≤ m then ((cut x.1.maxBytes x.2)[n]?).map render else none) ∧
    (∀ n, (x.1.files (name x.1.path n)).isSome = true ↔ n ≤ m) ∧
    (m < maxFiles → (cut x.1.maxBytes x.2).length = m + 1) ∧
    x.1.readBack m = render ((cut x.1.maxBytes x.2).take (m + 1)).reverse.flatten

theorem fits_zero (file : List Bytes) (fits : Fits 1 file) : Fits 0 file := by
  rcases fits with small | single
  · have lines := length_le_render file
    by_cases empty : file.length = 0
    · rw [length_eq_zero_iff.mp empty]
      exact .inl (Nat.le_refl 0)
    · exact .inr (by omega)
  · exact .inr single

structure Made (maxBytes maxFiles : Nat) (s : RotatingFileSink) : Prop where
  maxBytes : s.maxBytes = if maxBytes = 0 then 1 else maxBytes
  maxFiles : s.maxFiles = maxFiles

theorem Made.step {maxBytes maxFiles : Nat} {s s' : RotatingFileSink}
    (made : Made maxBytes maxFiles s) (e : Event) (stepped : s.step e = some s') :
    Made maxBytes maxFiles s' := by
  cases e with
  | append line =>
    cases stepped
    obtain ⟨_, maxBytes, maxFiles, _⟩ := same_rotate s
    unfold append
    split
    · exact made
    · split
      · exact ⟨maxBytes.trans made.maxBytes, maxFiles.trans made.maxFiles⟩
      · exact ⟨made.maxBytes, made.maxFiles⟩
  | flush =>
    cases stepped
    exact made
  | restart =>
    cases stepped
    refine ⟨?_, made.maxFiles⟩
    show (if s.maxBytes = 0 then 1 else s.maxBytes) = _
    rw [made.maxBytes]
    by_cases zero : maxBytes = 0
    · rw [if_pos zero]
      rfl
    · rw [if_neg zero, if_neg zero]

theorem Kept.keepsNewest {maxBytes maxFiles : Nat} {s : RotatingFileSink} {lines : List Bytes}
    (kept : Kept (s, lines)) (made : Made maxBytes maxFiles s) :
    KeepsNewest maxBytes maxFiles (s, lines) := by
  have holds : Holds s (cut s.maxBytes lines) := kept.holds
  have filled : 0 < (cut s.maxBytes lines).length := by
    obtain ⟨newest, older, cuts⟩ := cut_cons s.maxBytes lines
    rw [cuts]
    exact Nat.succ_pos _
  have maxFiles' := made.maxFiles
  refine ⟨flatten_cut s.maxBytes lines, fun file member => ?_,
    min maxFiles ((cut s.maxBytes lines).length - 1), by omega, ?_⟩
  · have fits := fits_cut s.maxBytes lines file member
    rw [made.maxBytes] at fits
    split at fits
    next zero =>
      rw [zero]
      exact fits_zero file fits
    next => exact fits
  · have files : ∀ n, s.files (name s.path n) =
        if n ≤ min maxFiles ((cut s.maxBytes lines).length - 1) then
          ((cut s.maxBytes lines)[n]?).map render else none := by
      intro n
      rw [holds n, maxFiles']
      by_cases there : n ≤ min maxFiles ((cut s.maxBytes lines).length - 1)
      · rw [if_pos there, if_pos (by omega)]
      · rw [if_neg there]
        split
        next => rw [List.getElem?_eq_none (by omega), Option.map_none]
        next => rfl
    refine ⟨files, fun n => ?_, fun below => ?_, holds.readBack _ (by omega) (by omega)⟩
    · show (s.files (name s.path n)).isSome = true ↔ _
      rw [files]
      split
      next there =>
        rw [List.getElem?_eq_getElem (by omega)]
        exact iff_of_true rfl there
      next gone => exact iff_of_false Bool.false_ne_true gone
    · show (cut s.maxBytes lines).length = _
      omega

/-- **Rotation.** For all limits, however lines are appended and however often the sink is opened
again, the files are the newest of those that the lines fill. -/
theorem keepsNewest_always (path : Bytes) (maxBytes maxFiles : Nat) (files : FileSystem)
    (fresh : ∀ n, files (name path n) = none) (events : List Event) :
    Machine.Always (Machine.remembering step noteLines) (KeepsNewest maxBytes maxFiles)
      (new path maxBytes maxFiles files, []) events := by
  apply Machine.Always.mono (P := fun x => Kept x ∧ Made maxBytes maxFiles x.1)
  · rintro ⟨s, lines⟩ ⟨kept, made⟩
    exact kept.keepsNewest made
  · apply Machine.always_of_keeps
    · rintro ⟨s, lines⟩ e x ⟨kept, made⟩ stepped
      obtain ⟨s', moved, rfl⟩ := Option.map_eq_some_iff.mp stepped
      exact ⟨kept.step e s' moved, made.step e moved⟩
    · exact ⟨kept_new path maxBytes maxFiles files fresh, rfl, rfl⟩

/-- Ten bytes and one older file: the first two of five lines are gone. -/
theorem keepsNewest_fiveLines :
    let events : List Event := [.append (text "one"), .append (text "two"), .restart,
      .append (text "three"), .append (text "four"), .append (text "five")]
    Machine.Always (Machine.remembering step noteLines) (KeepsNewest 10 1)
        (new (text "log") 10 1 fun _ => none, []) events ∧
      ((Machine.run step (new (text "log") 10 1 fun _ => none) events).map fun s =>
        (s.files (text "log"), s.files (text "log.1"), s.files (text "log.2"))) =
        some (some (text "four\nfive\n"), some (text "three\n"), none) := by
  refine ⟨?_, by decide⟩
  exact keepsNewest_always (text "log") 10 1 (fun _ => none) (fun _ => rfl) _

end Cox.Logging.RotatingFileSink
