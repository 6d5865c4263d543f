import Mathlib.Logic.Function.Basic
import Cox.Lib.Bytes
import Cox.Lib.Machine

/-!
# The rotating log file

`RotatingFileSink` of logging/sink.cc over a file system whose operations succeed: lines are
appended to a file until the next would make it too large, and then the files are renamed, each
to the next number, and the oldest goes. A sink may be closed and opened again on its files.

What was written counts as in the file at once, without the buffer of `stdio`.
-/
namespace Cox.Logging

open Cox.Lib Function

/-! ### Files -/

abbrev FileSystem := Bytes → Option Bytes

namespace FileSystem

def remove (fs : FileSystem) (path : Bytes) : FileSystem := Function.update fs path none

/-- `rename`, which fails if there is no such file. -/
def rename (fs : FileSystem) (source target : Bytes) : FileSystem :=
  match fs source with
  | none => fs
  | some contents => Function.update (Function.update fs target (some contents)) source none

def openAppend (fs : FileSystem) (path : Bytes) : FileSystem :=
  Function.update fs path (some ((fs path).getD []))

def truncate (fs : FileSystem) (path : Bytes) : FileSystem := Function.update fs path (some [])

def write (fs : FileSystem) (path bytes : Bytes) : FileSystem :=
  Function.update fs path ((fs path).map (· ++ bytes))

end FileSystem

/-! ### The sink -/

structure RotatingFileSink where
  path : Bytes
  maxBytes : Nat
  maxFiles : Nat
  /-- `fp_` is set. -/
  opened : Bool := false
  written : Nat := 0
  files : FileSystem

namespace RotatingFileSink

def newline : UInt8 := 10

def open' (s : RotatingFileSink) : RotatingFileSink :=
  let files := s.files.openAppend s.path
  { s with files, opened := true, written := ((files s.path).getD []).length }

def close (s : RotatingFileSink) : RotatingFileSink := { s with opened := false }

def new (path : Bytes) (maxBytes maxFiles : Nat) (files : FileSystem) : RotatingFileSink :=
  open' { path, maxBytes := if maxBytes = 0 then 1 else maxBytes, maxFiles, files }

def rolled (base : Bytes) (n : Nat) : Bytes := base ++ text "." ++ numeral 10 n

/-- The loop that renames, from the number `i` down to 2. -/
def shift (path : Bytes) : Nat → FileSystem → FileSystem
  | 0, fs | 1, fs => fs
  | i + 2, fs => shift path (i + 1) (fs.rename (rolled path (i + 1)) (rolled path (i + 2)))

def rotate (s : RotatingFileSink) : RotatingFileSink :=
  let s := s.close
  if s.maxFiles = 0 then open' { s with files := s.files.truncate s.path }
  else
    let files := s.files.remove (rolled s.path s.maxFiles)
    let files := shift s.path s.maxFiles files
    open' { s with files := files.rename s.path (rolled s.path 1) }

def append (s : RotatingFileSink) (line : Bytes) : RotatingFileSink :=
  if s.opened = false then s
  else
    let s := if s.written + line.length + 1 > s.maxBytes ∧ s.written > 0 then s.rotate else s
    { s with
      files := s.files.write s.path (line ++ [newline])
      written := s.written + line.length + 1 }

/-! ### The machine -/

inductive Event where
  | append (line : Bytes)
  | flush
  /-- The sink is destroyed, and made again with the same arguments. -/
  | restart

def step (s : RotatingFileSink) : Event → Option RotatingFileSink
  | .append line => some (s.append line)
  | .flush => some s
  | .restart => some (new s.path s.maxBytes s.maxFiles s.close.files)

def noteLines (_ : RotatingFileSink) (e : Event) (lines : List Bytes) : List Bytes :=
  match e with
  | .append line => lines ++ [line]
  | .flush | .restart => lines

/-! ### The names -/

/-- The path of the newest file, and of the one that is `n` older. -/
def name (path : Bytes) : Nat → Bytes
  | 0 => path
  | n + 1 => rolled path (n + 1)

section Names

variable (path : Bytes)

theorem rolled_ne_self (n : Nat) : rolled path n ≠ path := by
  intro same
  have length := congrArg List.length same
  have dot : (text ".").length = 1 := by decide
  rw [rolled, List.length_append, List.length_append, dot] at length
  omega

theorem rolled_inj (m n : Nat) (same : rolled path m = rolled path n) : m = n :=
  numeral_injective 10 m n (by decide) (by decide) (List.append_cancel_left same)

theorem name_inj {m n : Nat} : name path m = name path n ↔ m = n := by
  refine ⟨fun same => ?_, congrArg _⟩
  cases m with
  | zero =>
    cases n with
    | zero => rfl
    | succ n => exact absurd same.symm (rolled_ne_self path (n + 1))
  | succ m =>
    cases n with
    | zero => exact absurd same (rolled_ne_self path (m + 1))
    | succ n => exact rolled_inj path (m + 1) (n + 1) same

theorem rename_apply (fs : FileSystem) (source target q : Bytes) (apart : source ≠ target)
    (free : fs target = none) :
    fs.rename source target q =
      if q = target then fs source else if q = source then none else fs q := by
  unfold FileSystem.rename
  cases found : fs source with
  | none =>
    by_cases isTarget : q = target
    · simp [isTarget, free]
    · by_cases isSource : q = source
      · simp [isSource, found, apart]
      · simp [isTarget, isSource]
  | some contents =>
    by_cases isTarget : q = target
    · simp [isTarget, apart.symm]
    · by_cases isSource : q = source
      · simp [isSource, apart]
      · simp [isTarget, isSource]

/-- By induction on the number that the loop starts from, which is free each time. -/
theorem shift_name (i : Nat) (fs : FileSystem) (free : fs (name path (i + 1)) = none) (n : Nat) :
    shift path (i + 1) fs (name path n) =
      if n = 1 then none
      else if 1 < n ∧ n ≤ i + 1 then fs (name path (n - 1))
      else fs (name path n) := by
  induction i generalizing fs with
  | zero =>
    rw [shift]
    split
    next one => rw [one, free]
    next => rw [if_neg (by omega)]
  | succ i ih =>
    have apart : name path (i + 1) ≠ name path (i + 2) := mt (name_inj path).mp (by omega)
    have renamed := fun q => rename_apply fs (name path (i + 1)) (name path (i + 2)) q apart free
    have free' : fs.rename (name path (i + 1)) (name path (i + 2)) (name path (i + 1)) = none := by
      rw [renamed, if_neg apart, if_pos rfl]
    show shift path (i + 1) (fs.rename (name path (i + 1)) (name path (i + 2))) (name path n) = _
    rw [ih _ free', renamed, renamed]
    simp only [name_inj]
    by_cases one : n = 1
    · rw [if_pos one, if_pos one]
    · rw [if_neg one, if_neg one]
      by_cases last : n = i + 2
      · rw [if_neg (by omega), if_pos last, if_pos (by omega), last]
        rfl
      · by_cases inside : 1 < n ∧ n ≤ i + 1
        · rw [if_pos inside, if_neg (by omega), if_neg (by omega), if_pos (by omega)]
        · rw [if_neg inside, if_neg last, if_neg (by omega), if_neg (by omega)]

theorem remove_name (fs : FileSystem) (m n : Nat) :
    fs.remove (name path m) (name path n) = if n = m then none else fs (name path n) := by
  simp only [FileSystem.remove, update_apply, name_inj]

theorem roll_name (i : Nat) (fs : FileSystem) (n : Nat) :
    ((shift path (i + 1) (fs.remove (rolled path (i + 1)))).rename path (rolled path 1))
        (name path n) =
      if n = 0 then none
      else if n ≤ i + 1 then fs (name path (n - 1))
      else fs (name path n) := by
  have removed := remove_name path fs (i + 1)
  have shifted := shift_name path i (fs.remove (name path (i + 1)))
    ((removed (i + 1)).trans (if_pos rfl))
  have apart : name path 0 ≠ name path 1 := mt (name_inj path).mp (by decide)
  refine (rename_apply _ (name path 0) (name path 1) _ apart
    ((shifted 1).trans (if_pos rfl))).trans ?_
  simp only [name_inj]
  cases n with
  | zero => rfl
  | succ k =>
    refine Eq.trans ?_ (if_neg (Nat.succ_ne_zero k)).symm
    by_cases first : k = 0
    · subst first
      refine (if_pos rfl).trans ((shifted 0).trans ?_)
      simp [removed]
    · have later : ¬k + 1 = 1 := by omega
      rw [if_neg later, if_neg (Nat.succ_ne_zero k)]
      refine (shifted (k + 1)).trans ?_
      rw [if_neg later, removed, removed]
      by_cases within : k + 1 ≤ i + 1
      · rw [if_pos ⟨by omega, within⟩, if_neg (by omega), if_pos within]
      · rw [if_neg (fun both => within both.2), if_neg (by omega), if_neg within]

end Names

/-! ### What the operations do to the files -/

section Operations

variable (s : RotatingFileSink)

theorem files_open (n : Nat) :
    s.open'.files (name s.path n) =
      if n = 0 then some ((s.files s.path).getD []) else s.files (name s.path n) := by
  show s.files.openAppend (name s.path 0) (name s.path n) = _
  simp only [FileSystem.openAppend, update_apply, name_inj]
  rfl

theorem files_rotate (n : Nat) :
    s.rotate.files (name s.path n) =
      if n = 0 then some []
      else if n ≤ s.maxFiles then s.files (name s.path (n - 1))
      else s.files (name s.path n) := by
  unfold rotate
  dsimp only [close]
  split
  next none =>
    refine (files_open _ n).trans ?_
    dsimp only [FileSystem.truncate]
    rw [update_self, none]
    split
    next => rfl
    next older =>
      have apart : name s.path n ≠ name s.path 0 := mt (name_inj s.path).mp older
      rw [if_neg (by omega)]
      exact update_of_ne apart _ _
  next history =>
    obtain ⟨i, last⟩ : ∃ i, s.maxFiles = i + 1 := ⟨s.maxFiles - 1, by omega⟩
    have rolled := roll_name s.path i s.files
    rw [last]
    refine (files_open _ n).trans ?_
    by_cases newest : n = 0
    · have gone := (rolled 0).trans (if_pos rfl)
      rw [if_pos newest, if_pos newest]
      exact congrArg (fun found => some (found.getD [])) gone
    · rw [if_neg newest, if_neg newest]
      exact (rolled n).trans (if_neg newest)

theorem written_rotate : s.rotate.written = 0 := by
  have length : s.rotate.written = ((s.rotate.files (name s.path 0)).getD []).length := by
    unfold rotate
    dsimp only
    split <;> rfl
  rw [length, files_rotate]
  rfl

theorem same_rotate : s.rotate.path = s.path ∧ s.rotate.maxBytes = s.maxBytes ∧
    s.rotate.maxFiles = s.maxFiles ∧ s.rotate.opened = true := by
  unfold rotate
  dsimp only
  split <;> exact ⟨rfl, rfl, rfl, rfl⟩

theorem write_name (fs : FileSystem) (path bytes : Bytes) (n : Nat) :
    fs.write path bytes (name path n) =
      if n = 0 then (fs path).map (· ++ bytes) else fs (name path n) := by
  show fs.write (name path 0) bytes (name path n) = _
  simp only [FileSystem.write, update_apply, name_inj]
  rfl

end Operations

end RotatingFileSink

end Cox.Logging
