import Cox.Lib.Bytes

/-!
# Sending through TLS

`TlsConnection::send` of tls/tls_connection.h: plaintext is offered to the engine until it has
taken all of it, and what the engine has encrypted is sent on after each round. The engine is
any that takes something of what it is offered if it takes it at all; `TlsEngine` makes one of
`SSL_write`.

An engine that wants input before it goes on is asked again at once, and no input can come
before the loop ends. Each such answer is a call that takes nothing, so the calls stay within
their bound exactly as long as the slices have enough bytes beyond the first to make up for
them.
-/
namespace Cox.Tls

open Cox.Lib List

/-! ### The engine -/

inductive Status where
  | ok
  | wantIo
  | closed
  | error
  deriving DecidableEq

/-- What `writePlaintext` returns, and the engine after it. -/
structure Written (σ : Type) where
  status : Status
  consumed : Nat
  engine : σ

structure Engine (σ : Type) where
  writePlaintext : σ → Bytes → Written σ
  takeEncrypted : σ → Bytes × σ
  accepts : ∀ s data, data ≠ [] → (writePlaintext s data).status = .ok →
    0 < (writePlaintext s data).consumed ∧ (writePlaintext s data).consumed ≤ data.length

/-- The codes of `SSL_get_error`. -/
inductive SslError where
  | none
  | wantRead
  | wantWrite
  | zeroReturn
  | syscall
  | ssl
  | other

def mapError : SslError → Status
  | .none => .ok
  | .wantRead | .wantWrite => .wantIo
  | .zeroReturn => .closed
  | .syscall | .ssl | .other => .error

/-- `SSL_write`, with its code, and what can be read of the outbound bytes. What is written is
no more than was asked for, and there is a code if nothing is. -/
structure Ssl (σ : Type) where
  write : σ → Bytes → Int → Int × SslError × σ
  outbound : σ → Bytes × σ
  most : ∀ s data num, 0 < (write s data num).1 → (write s data num).1 ≤ num
  failed : ∀ s data num, (write s data num).1 ≤ 0 → mapError (write s data num).2.1 ≠ .ok

/-- A `size_t` as an `int`. -/
def toInt (len : Nat) : Int := (BitVec.ofNat 32 len).toInt

theorem toInt_le (len : Nat) : toInt len ≤ len := by
  have small := Nat.mod_le len (2 ^ 32)
  rw [toInt, BitVec.toInt, BitVec.toNat_ofNat]
  split <;> omega

def Ssl.writePlaintext {σ : Type} (ssl : Ssl σ) (s : σ) (data : Bytes) : Written σ :=
  if data.length = 0 then ⟨.ok, 0, s⟩
  else
    let ret := ssl.write s data (toInt data.length)
    if ret.1 > 0 then ⟨.ok, ret.1.toNat, ret.2.2⟩ else ⟨mapError ret.2.1, 0, ret.2.2⟩

/-- `TlsEngine`. -/
def Ssl.engine {σ : Type} (ssl : Ssl σ) : Engine σ where
  writePlaintext := ssl.writePlaintext
  takeEncrypted := ssl.outbound
  accepts := by
    intro s data nonempty ok
    have some : data.length ≠ 0 := mt List.length_eq_zero_iff.mp nonempty
    have most := ssl.most s data (toInt data.length)
    have int := toInt_le data.length
    simp only [Ssl.writePlaintext, some, if_false] at ok ⊢
    split at ok
    next written =>
      have asked := most written
      rw [if_pos written]
      dsimp only
      omega
    next nothing => exact absurd ok (ssl.failed s data _ (Int.not_lt.mp nothing))

/-! ### The loop -/

/-- What `send` does to the engine and to the TCP connection. -/
inductive Note where
  /-- The engine took this slice. -/
  | accepted (slice : Bytes)
  | wantIo
  | refused (status : Status)
  /-- What was encrypted so far is sent, if there is anything. -/
  | flushed (enc : Bytes)
  | forceClose
  | warning
  deriving DecidableEq

/-- The call has returned, or has used up the rounds it was given. -/
structure Sending (σ : Type) where
  returned : Bool
  engine : σ
  notes : List Note

structure TlsConnection (σ : Type) where
  engine : σ
  handshakeDone : Bool := false
  closed : Bool := false

section Loop

variable {σ : Type} (e : Engine σ)

def flushOutbound (s : σ) : Note × σ :=
  let (enc, s) := e.takeEncrypted s
  (.flushed enc, s)

def Sending.after (notes : List Note) (x : Sending σ) : Sending σ :=
  { x with notes := notes ++ x.notes }

/-- The rounds of the loop, as many as are given. -/
def sendLoop (data : Bytes) : Nat → Nat → σ → Sending σ
  | 0, offset, s => ⟨decide (data.length ≤ offset), s, []⟩
  | rounds + 1, offset, s =>
    if offset < data.length then
      let written := e.writePlaintext s (data.drop offset)
      match written.status with
      | .ok =>
        let flushed := flushOutbound e written.engine
        (sendLoop data rounds (offset + written.consumed) flushed.2).after
          [.accepted ((data.drop offset).take written.consumed), flushed.1]
      | .wantIo =>
        let flushed := flushOutbound e written.engine
        (sendLoop data rounds offset flushed.2).after [.wantIo, flushed.1]
      | .closed | .error => ⟨true, written.engine, [.refused written.status, .forceClose]⟩
    else ⟨true, s, []⟩

def TlsConnection.send (c : TlsConnection σ) (data : Bytes) (rounds : Nat) : Sending σ :=
  if c.handshakeDone = false ∨ c.closed = true then ⟨true, c.engine, [.warning]⟩
  else sendLoop e data rounds 0 c.engine

end Loop

/-! ### What is asked of it -/

def slices (notes : List Note) : List Bytes :=
  notes.filterMap fun
    | .accepted slice => some slice
    | .wantIo | .refused _ | .flushed _ | .forceClose | .warning => none

def calls (notes : List Note) : Nat :=
  notes.countP fun
    | .accepted _ | .wantIo | .refused _ => true
    | .flushed _ | .forceClose | .warning => false

/-- The calls that the engine answered with a wish for input. -/
def waits (notes : List Note) : Nat := notes.count .wantIo

/-- What the slices allow for: one call, and one more for each of their bytes but the first. -/
def allowance (notes : List Note) : Nat := 1 + ((slices notes).map (·.length - 1)).sum

/-- The connection is closed because of an error. -/
def fails (notes : List Note) : Bool := notes.contains .forceClose

/-- Each slice that is taken is followed by a flush. -/
def Flushes : List Note → Prop
  | [] => True
  | .accepted _ :: notes => (∃ enc rest, notes = .flushed enc :: rest) ∧ Flushes notes
  | .wantIo :: notes | .refused _ :: notes | .flushed _ :: notes | .forceClose :: notes
  | .warning :: notes => Flushes notes

/-- The call returns; the slices are a first part of the data, and all of it unless the
connection was closed; and each is sent on at once. -/
structure Sent {σ : Type} (c : TlsConnection σ) (data : Bytes) (x : Sending σ) : Prop where
  returned : x.returned = true
  calls : calls x.notes ≤ data.length + 1
  begins : ∃ left, (slices x.notes).flatten ++ left = data
  all : c.handshakeDone = true → c.closed = false → fails x.notes = false →
    (slices x.notes).flatten = data
  flushes : Flushes x.notes

/-! ### Rounds -/

/-- The rounds that are made with this much left of the data. -/
structure Rounds {σ : Type} (left : Bytes) (rounds : Nat) (x : Sending σ) : Prop where
  begins : ∃ rest, (slices x.notes).flatten ++ rest = left
  all : x.returned = true → fails x.notes = false → (slices x.notes).flatten = left
  /-- A call that goes on has made all its rounds and has not sent all. -/
  unfinished : x.returned = false → fails x.notes = false ∧ calls x.notes = rounds ∧
    (slices x.notes).flatten.length < left.length
  bounded : calls x.notes ≤ rounds
  counted : fails x.notes = false → calls x.notes = (slices x.notes).length + waits x.notes
  nonempty : ∀ slice ∈ slices x.notes, 0 < slice.length
  flushes : Flushes x.notes

section Rounds

variable {σ : Type} {x : Sending σ} {left : Bytes} {rounds : Nat}

theorem rounds_none (s : σ) (left : Bytes) : Rounds left 0 ⟨decide (left.length = 0), s, []⟩ where
  begins := ⟨left, rfl⟩
  all := by
    intro returned _
    exact (length_eq_zero_iff.mp (of_decide_eq_true returned)).symm
  unfinished := fun unfinished => ⟨rfl, rfl, Nat.pos_of_ne_zero (of_decide_eq_false unfinished)⟩
  bounded := Nat.le_refl 0
  counted := fun _ => rfl
  nonempty := nofun
  flushes := trivial

theorem rounds_done (s : σ) (rounds : Nat) : Rounds [] rounds (⟨true, s, []⟩ : Sending σ) where
  begins := ⟨[], rfl⟩
  all := fun _ _ => rfl
  unfinished := nofun
  bounded := Nat.zero_le _
  counted := fun _ => rfl
  nonempty := nofun
  flushes := trivial

theorem rounds_refused (s : σ) (status : Status) :
    Rounds left (rounds + 1) (⟨true, s, [.refused status, .forceClose]⟩ : Sending σ) where
  begins := ⟨left, rfl⟩
  all := nofun
  unfinished := nofun
  bounded := Nat.le_add_left 1 rounds
  counted := nofun
  nonempty := nofun
  flushes := trivial

theorem calls_wantIo (notes : List Note) (enc : Bytes) :
    calls (.wantIo :: .flushed enc :: notes) = calls notes + 1 := by simp [calls]

theorem waits_wantIo (notes : List Note) (enc : Bytes) :
    waits (.wantIo :: .flushed enc :: notes) = waits notes + 1 := by simp [waits]

theorem calls_accepted (notes : List Note) (slice enc : Bytes) :
    calls (.accepted slice :: .flushed enc :: notes) = calls notes + 1 := by simp [calls]

theorem waits_accepted (notes : List Note) (slice enc : Bytes) :
    waits (.accepted slice :: .flushed enc :: notes) = waits notes := by simp [waits]

theorem Rounds.wantIo (rest : Rounds left rounds x) (enc : Bytes) :
    Rounds left (rounds + 1) (x.after [.wantIo, .flushed enc]) where
  begins := rest.begins
  all := rest.all
  unfinished := by
    intro unfinished
    obtain ⟨ok, rounds, short⟩ := rest.unfinished unfinished
    exact ⟨ok, (calls_wantIo x.notes enc).trans (congrArg (· + 1) rounds), short⟩
  bounded := (calls_wantIo x.notes enc).trans_le (Nat.succ_le_succ rest.bounded)
  counted := by
    intro ok
    have counted := rest.counted ok
    show calls (.wantIo :: .flushed enc :: x.notes) =
      (slices x.notes).length + waits (.wantIo :: .flushed enc :: x.notes)
    rw [calls_wantIo, waits_wantIo]
    omega
  nonempty := rest.nonempty
  flushes := rest.flushes

theorem Rounds.accepted {n : Nat} (rest : Rounds (left.drop n) rounds x) (some : 0 < n)
    (most : n ≤ left.length) (enc : Bytes) :
    Rounds left (rounds + 1) (x.after [.accepted (left.take n), .flushed enc]) where
  begins := by
    obtain ⟨more, begins⟩ := rest.begins
    refine ⟨more, ?_⟩
    show (left.take n ++ (slices x.notes).flatten) ++ more = left
    rw [append_assoc, begins, take_append_drop]
  all := by
    intro returned ok
    show left.take n ++ (slices x.notes).flatten = left
    rw [rest.all returned ok, take_append_drop]
  unfinished := by
    intro unfinished
    obtain ⟨ok, rounds, short⟩ := rest.unfinished unfinished
    refine ⟨ok, (calls_accepted x.notes _ enc).trans (congrArg (· + 1) rounds), ?_⟩
    show (left.take n ++ (slices x.notes).flatten).length < left.length
    rw [length_append, length_take_of_le most]
    rw [length_drop] at short
    omega
  bounded := (calls_accepted x.notes _ enc).trans_le (Nat.succ_le_succ rest.bounded)
  counted := by
    intro ok
    have counted := rest.counted ok
    show calls (.accepted (left.take n) :: .flushed enc :: x.notes) =
      (slices x.notes).length + 1 + waits (.accepted (left.take n) :: .flushed enc :: x.notes)
    rw [calls_accepted, waits_accepted]
    omega
  nonempty := forall_mem_cons.mpr ⟨by rwa [length_take_of_le most], rest.nonempty⟩
  flushes := ⟨⟨enc, x.notes, rfl⟩, rest.flushes⟩

/-- By induction on the rounds, along the answers of the engine. -/
theorem rounds_sendLoop (e : Engine σ) (data : Bytes) (rounds offset : Nat) (s : σ) :
    Rounds (data.drop offset) rounds (sendLoop e data rounds offset s) := by
  induction rounds generalizing offset s with
  | zero =>
    have nothing : data.length ≤ offset ↔ (data.drop offset).length = 0 := by
      rw [length_drop]
      omega
    rw [sendLoop, decide_eq_decide.mpr nothing]
    exact rounds_none s (data.drop offset)
  | succ rounds ih =>
    rw [sendLoop]
    split
    next more =>
      have some : data.drop offset ≠ [] := by
        rw [Ne, drop_eq_nil_iff]
        omega
      dsimp only
      split
      next ok =>
        obtain ⟨positive, most⟩ := e.accepts s (data.drop offset) some ok
        have rest := ih (offset + (e.writePlaintext s (data.drop offset)).consumed)
          (flushOutbound e (e.writePlaintext s (data.drop offset)).engine).2
        rw [← drop_drop] at rest
        exact rest.accepted positive most _
      next => exact (ih offset _).wantIo _
      next => exact rounds_refused _ _
      next => exact rounds_refused _ _
    next done =>
      rw [drop_eq_nil_iff.mpr (Nat.not_lt.mp done)]
      exact rounds_done s (rounds + 1)

end Rounds

/-! ### Whole calls -/

theorem length_slices (slices : List Bytes) (nonempty : ∀ slice ∈ slices, 0 < slice.length) :
    (slices.map (·.length - 1)).sum + slices.length = slices.flatten.length := by
  induction slices with
  | nil => rfl
  | cons slice slices ih =>
    obtain ⟨first, later⟩ := forall_mem_cons.mp nonempty
    have rest := ih later
    simp only [map_cons, sum_cons, length_cons, flatten_cons, length_append]
    omega

/-- An `SSL_write` that wants to read some times, and then writes what it is asked to. -/
def lateSsl : Ssl Nat where
  write s _ num := if s = 0 ∧ 0 < num then (num, .none, 0) else (-1, .wantRead, s - 1)
  outbound s := ([], s)
  most := by
    intro s _ num
    split <;> omega
  failed := by
    intro s _ num
    split
    · omega
    · exact fun _ => nofun

/-- Wants input, whatever it is offered: `SSL_write` needs a message of the peer first. -/
def waitingEngine : Engine Unit where
  writePlaintext _ _ := ⟨.wantIo, 0, ()⟩
  takeEncrypted _ := ([], ())
  accepts := nofun

end Cox.Tls
