import Mathlib.Algebra.GroupWithZero.Nat
import Cox.Lib.Bytes
import Cox.Lib.Cells
import Cox.Lib.Machine

/-!
# The byte buffer

`Buffer` of buffer/buffer.h. The readable bytes lie between two indices of a vector, behind
eight bytes that are kept free. When the room behind them is used up they are moved to the
front, or the vector grows. `readFd` offers the kernel the room in the vector and, if that is
small, an array on the stack, whose bytes are appended afterwards.

For its users it is a queue of bytes, whatever the indices are.
-/
namespace Cox.ByteBuffer

open Cox.Lib Cox.Lib.Cells List

/-- `size_t` counts modulo this. -/
def sizeLimit : Nat := 2 ^ 64

structure Buffer where
  data : Bytes
  readerIndex : Nat
  writerIndex : Nat
  deriving DecidableEq

/-- What `readv` answers. -/
inductive Readv where
  | error (errno : Nat)
  | read (bytes : Bytes)

namespace Buffer

def kCheapPrepend : Nat := 8

def create (initialSize : Nat) : Buffer where
  data := List.replicate ((kCheapPrepend + initialSize) % sizeLimit) 0
  readerIndex := kCheapPrepend
  writerIndex := kCheapPrepend

def readableBytes (b : Buffer) : Nat := b.writerIndex - b.readerIndex

def writableBytes (b : Buffer) : Nat := b.data.length - b.writerIndex

def prependableBytes (b : Buffer) : Nat := b.readerIndex

def readable (b : Buffer) : Bytes := b.data.extract b.readerIndex b.writerIndex

def retrieveAll (b : Buffer) : Buffer :=
  { b with readerIndex := kCheapPrepend, writerIndex := kCheapPrepend }

def retrieve (b : Buffer) (len : Nat) : Buffer :=
  if len < b.readableBytes then { b with readerIndex := b.readerIndex + len } else b.retrieveAll

def retrieveAsString (b : Buffer) (len : Nat) : Bytes × Buffer :=
  (b.data.extract b.readerIndex (b.readerIndex + len), b.retrieve len)

def retrieveAllAsString (b : Buffer) : Bytes × Buffer := b.retrieveAsString b.readableBytes

def resize (data : Bytes) (size : Nat) : Bytes :=
  data.take size ++ List.replicate (size - data.length) 0

/-- The content moves to the front. The two ranges may overlap: `memmove` copies as if by way
of another array. -/
def compact (b : Buffer) : Buffer where
  data := overwrite b.data kCheapPrepend b.readable
  readerIndex := kCheapPrepend
  writerIndex := kCheapPrepend + b.readableBytes

def makeSpace (b : Buffer) (len : Nat) : Buffer :=
  if (b.writableBytes + b.prependableBytes) % sizeLimit < (len + kCheapPrepend) % sizeLimit then
    -- not enough room even after compaction
    { b with data := resize b.data ((b.writerIndex + len) % sizeLimit) }
  else b.compact

def ensureWritable (b : Buffer) (len : Nat) : Buffer :=
  if b.writableBytes < len then b.makeSpace len else b

/-- Bytes are written at `beginWrite`, by a caller or by the kernel. -/
def write (b : Buffer) (bytes : Bytes) : Buffer :=
  { b with data := overwrite b.data b.writerIndex bytes }

def hasWritten (b : Buffer) (len : Nat) : Buffer := { b with writerIndex := b.writerIndex + len }

def append (b : Buffer) (data : Bytes) : Buffer :=
  ((b.ensureWritable data.length).write data).hasWritten data.length

def kExtraSize : Nat := 65536

def capacity (b : Buffer) : Nat :=
  b.writableBytes + if b.writableBytes < kExtraSize then kExtraSize else 0

/-- `readFd`, with its result and the saved `errno`. The kernel fills the room in the vector
before the array on the stack. -/
def readFd (b : Buffer) : Readv → Buffer × Int × Option Nat
  | .error errno => (b, -1, some errno)
  | .read bytes =>
    let extrabuf := bytes.drop b.writableBytes
    let filled := b.write (bytes.take b.writableBytes)
    if bytes.length ≤ b.writableBytes then (filled.hasWritten bytes.length, bytes.length, none)
    else
      ({ filled with writerIndex := filled.data.length }.append
        (extrabuf.take (bytes.length - b.writableBytes)), bytes.length, none)

/-! ### One operation -/

structure WellFormed (b : Buffer) : Prop where
  reserved : kCheapPrepend ≤ b.readerIndex
  ordered : b.readerIndex ≤ b.writerIndex
  inside : b.writerIndex ≤ b.data.length
  sized : b.data.length < sizeLimit

namespace WellFormed

variable {b : Buffer}

theorem create (initialSize : Nat) (small : kCheapPrepend + initialSize < sizeLimit) :
    WellFormed (create initialSize) := by
  have size : (Buffer.create initialSize).data.length = kCheapPrepend + initialSize := by
    simp only [Buffer.create, length_replicate]
    exact Nat.mod_eq_of_lt small
  refine ⟨le_refl _, le_refl _, ?_, ?_⟩
  · rw [size]
    exact Nat.le_add_right ..
  · rw [size]
    exact small

variable (wf : WellFormed b)
include wf

theorem length_readable : b.readable.length = b.readableBytes :=
  length_extract _ _ _ wf.inside

theorem retrieveAll : WellFormed b.retrieveAll :=
  ⟨le_refl _, le_refl _, wf.reserved.trans (wf.ordered.trans wf.inside), wf.sized⟩

theorem retrieve (len : Nat) (most : len ≤ b.readableBytes) :
    WellFormed (b.retrieve len) ∧ (b.retrieve len).readable = b.readable.drop len := by
  unfold Buffer.retrieve
  split
  next less =>
    have ordered := wf.ordered
    unfold readableBytes at less
    refine ⟨⟨wf.reserved.trans (Nat.le_add_right ..), ?_, wf.inside, wf.sized⟩, ?_⟩
    · show b.readerIndex + len ≤ b.writerIndex
      omega
    · exact (drop_extract ..).symm
  next all =>
    refine ⟨wf.retrieveAll, ?_⟩
    rw [drop_eq_nil_of_le (by rw [wf.length_readable]; omega)]
    exact extract_self ..

theorem grow (size : Nat) (more : b.data.length ≤ size) (fits : size < sizeLimit) :
    WellFormed { b with data := resize b.data size } ∧
      readable { b with data := resize b.data size } = b.readable ∧
      (resize b.data size).length = size := by
  have whole : resize b.data size = b.data ++ List.replicate (size - b.data.length) 0 := by
    rw [resize, take_of_length_le more]
  have length : (resize b.data size).length = size := by
    rw [whole, length_append, length_replicate]
    omega
  refine ⟨⟨wf.reserved, wf.ordered, ?_, ?_⟩, ?_, length⟩
  · rw [length]
    exact wf.inside.trans more
  · rw [length]
    exact fits
  · rw [readable, whole]
    exact extract_append _ _ _ _ wf.inside

theorem compact :
    WellFormed b.compact ∧ b.compact.readable = b.readable ∧
      b.compact.data.length = b.data.length := by
  obtain ⟨reserved, ordered, inside, sized⟩ := wf
  have content := length_readable ⟨reserved, ordered, inside, sized⟩
  have fits : kCheapPrepend + b.readable.length ≤ b.data.length := by
    rw [content, readableBytes]
    omega
  have length : b.compact.data.length = b.data.length := length_overwrite _ _ _ fits
  refine ⟨⟨le_refl _, Nat.le_add_right .., ?_, ?_⟩, ?_, length⟩
  · rw [length]
    rwa [content] at fits
  · rw [length]
    exact sized
  · have moved := extract_overwrite b.data b.readable kCheapPrepend kCheapPrepend b.readable.length
      (le_refl _) (reserved.trans (ordered.trans inside)) (le_refl _)
    rw [extract_self, nil_append, take_length, content] at moved
    exact moved

theorem makeSpace (len : Nat) (fits : b.writerIndex + len < sizeLimit)
    (short : b.writableBytes < len) :
    WellFormed (b.makeSpace len) ∧ (b.makeSpace len).readable = b.readable ∧
      len ≤ (b.makeSpace len).writableBytes := by
  have reserved := wf.reserved
  have ordered := wf.ordered
  have inside := wf.inside
  have sized := wf.sized
  -- below the limit the comparison is the one of the numbers
  have left : (b.writableBytes + b.prependableBytes) % sizeLimit =
      b.writableBytes + b.prependableBytes := by
    refine Nat.mod_eq_of_lt ?_
    simp only [writableBytes, prependableBytes]
    omega
  have right : (len + kCheapPrepend) % sizeLimit = len + kCheapPrepend :=
    Nat.mod_eq_of_lt (by omega)
  unfold Buffer.makeSpace
  rw [left, right, Nat.mod_eq_of_lt fits]
  rw [writableBytes] at short
  by_cases large : b.writableBytes + b.prependableBytes < len + kCheapPrepend
  · rw [if_pos large]
    obtain ⟨grown, same, length⟩ := wf.grow (b.writerIndex + len) (by omega) fits
    refine ⟨grown, same, ?_⟩
    show len ≤ (resize b.data (b.writerIndex + len)).length - b.writerIndex
    omega
  · rw [if_neg large]
    simp only [writableBytes, prependableBytes] at large
    obtain ⟨compacted, same, length⟩ := wf.compact
    refine ⟨compacted, same, ?_⟩
    rw [writableBytes, length]
    show len ≤ b.data.length - (kCheapPrepend + (b.writerIndex - b.readerIndex))
    omega

theorem ensureWritable (len : Nat) (fits : b.writerIndex + len < sizeLimit) :
    WellFormed (b.ensureWritable len) ∧ (b.ensureWritable len).readable = b.readable ∧
      len ≤ (b.ensureWritable len).writableBytes := by
  unfold Buffer.ensureWritable
  split
  next short => exact wf.makeSpace len fits short
  next room => exact ⟨wf, rfl, Nat.le_of_not_lt room⟩

theorem written (bytes : Bytes) (len : Nat) (room : bytes.length ≤ b.writableBytes)
    (most : len ≤ bytes.length) :
    WellFormed ((b.write bytes).hasWritten len) ∧
      ((b.write bytes).hasWritten len).readable = b.readable ++ bytes.take len ∧
      ((b.write bytes).hasWritten len).data.length = b.data.length := by
  have inside := wf.inside
  rw [writableBytes] at room
  have fits : b.writerIndex + bytes.length ≤ b.data.length := by omega
  have length : (overwrite b.data b.writerIndex bytes).length = b.data.length :=
    length_overwrite _ _ _ fits
  refine ⟨⟨wf.reserved, wf.ordered.trans (Nat.le_add_right ..), ?_, ?_⟩, ?_, length⟩
  · show b.writerIndex + len ≤ (overwrite b.data b.writerIndex bytes).length
    omega
  · exact length.trans_lt wf.sized
  · exact extract_overwrite _ _ _ _ _ wf.ordered inside most

theorem append (data : Bytes) (fits : b.writerIndex + data.length < sizeLimit) :
    WellFormed (b.append data) ∧ (b.append data).readable = b.readable ++ data := by
  obtain ⟨room, same, enough⟩ := wf.ensureWritable data.length fits
  obtain ⟨after, content, _⟩ := room.written data data.length enough (le_refl _)
  rw [same, take_length] at content
  exact ⟨after, content⟩

theorem readFd (bytes : Bytes) (fits : b.writerIndex + bytes.length < sizeLimit) :
    WellFormed (b.readFd (.read bytes)).1 ∧
      (b.readFd (.read bytes)).1.readable = b.readable ++ bytes := by
  have inside := wf.inside
  unfold Buffer.readFd
  dsimp only
  split
  next small =>
    rw [take_of_length_le small]
    obtain ⟨after, content, _⟩ := wf.written bytes bytes.length small (le_refl _)
    rw [take_length] at content
    exact ⟨after, content⟩
  next large =>
    -- the vector is full, and the rest is appended from the stack
    have first : (bytes.take b.writableBytes).length = b.writableBytes :=
      length_take_of_le (by omega)
    obtain ⟨full, content, length⟩ := wf.written (bytes.take b.writableBytes) b.writableBytes
      (by omega) (by omega)
    have ends : (b.write (bytes.take b.writableBytes)).data.length =
        b.writerIndex + b.writableBytes := by
      rw [writableBytes, Nat.add_sub_cancel' inside]
      exact length
    have rest : (bytes.drop b.writableBytes).take (bytes.length - b.writableBytes) =
        bytes.drop b.writableBytes := take_of_length_le (by rw [length_drop])
    obtain ⟨after, appended⟩ := full.append (bytes.drop b.writableBytes) (by
      show b.writerIndex + b.writableBytes + (bytes.drop b.writableBytes).length < sizeLimit
      rw [length_drop]
      omega)
    rw [rest, ends]
    refine ⟨after, appended.trans ?_⟩
    rw [content, take_take, Nat.min_self, append_assoc, take_append_drop]

end WellFormed

end Buffer

/-! ### Use of a buffer -/

inductive Op where
  | append (data : Bytes)
  | retrieve (len : Nat)
  | retrieveAll
  | retrieveAsString (len : Nat)
  | retrieveAllAsString
  | ensureWritable (len : Nat)
  /-- `ensureWritable(room)`, bytes are written at `beginWrite`, and `hasWritten(len)`. -/
  | fill (room : Nat) (bytes : Bytes) (len : Nat)
  | readFd (result : Readv)

/-- A buffer and the strings that it has handed out. -/
structure Use where
  buffer : Buffer
  strings : List Bytes := []

/-- The operations within their preconditions: no more is retrieved than there is, nor written
or read than there is room for, and the sizes stay below the limit of `size_t`. -/
def step (u : Use) : Op → Option Use
  | .append data =>
    if u.buffer.writerIndex + data.length < sizeLimit then
      some { u with buffer := u.buffer.append data }
    else none
  | .retrieve len =>
    if len ≤ u.buffer.readableBytes then some { u with buffer := u.buffer.retrieve len } else none
  | .retrieveAll => some { u with buffer := u.buffer.retrieveAll }
  | .retrieveAsString len =>
    if len ≤ u.buffer.readableBytes then
      some ⟨(u.buffer.retrieveAsString len).2, u.strings ++ [(u.buffer.retrieveAsString len).1]⟩
    else none
  | .retrieveAllAsString =>
    some ⟨u.buffer.retrieveAllAsString.2, u.strings ++ [u.buffer.retrieveAllAsString.1]⟩
  | .ensureWritable len =>
    if u.buffer.writerIndex + len < sizeLimit then
      some { u with buffer := u.buffer.ensureWritable len }
    else none
  | .fill room bytes len =>
    if u.buffer.writerIndex + room < sizeLimit ∧
        bytes.length ≤ (u.buffer.ensureWritable room).writableBytes ∧ len ≤ bytes.length then
      some { u with buffer := ((u.buffer.ensureWritable room).write bytes).hasWritten len }
    else none
  | .readFd (.error errno) => some { u with buffer := (u.buffer.readFd (.error errno)).1 }
  | .readFd (.read bytes) =>
    if bytes.length ≤ u.buffer.capacity ∧ u.buffer.writerIndex + bytes.length < sizeLimit then
      some { u with buffer := (u.buffer.readFd (.read bytes)).1 }
    else none

/-- A queue of bytes, the strings taken from it, and the room that was asked for last. -/
structure Queue where
  content : Bytes := []
  strings : List Bytes := []
  room : Nat := 0

namespace Queue

def put (q : Queue) (bytes : Bytes) : Queue := { q with content := q.content ++ bytes, room := 0 }

def drop (q : Queue) (len : Nat) : Queue := { q with content := q.content.drop len, room := 0 }

def take (q : Queue) (len : Nat) : Queue :=
  { q.drop len with strings := q.strings ++ [q.content.take len] }

def apply : Op → Queue → Queue
  | .append data, q => q.put data
  | .retrieve len, q => q.drop len
  | .retrieveAll, q => q.drop q.content.length
  | .retrieveAsString len, q => q.take len
  | .retrieveAllAsString, q => q.take q.content.length
  | .ensureWritable len, q => { q with room := len }
  | .fill _ bytes len, q => q.put (bytes.take len)
  | .readFd (.error _), q => { q with room := 0 }
  | .readFd (.read bytes), q => q.put bytes

end Queue

/-- The buffer is well formed, holds the bytes of the queue, has handed out the same strings, and
has the room that was asked for. -/
structure IsQueue (x : Use × Queue) : Prop where
  wellFormed : x.1.buffer.WellFormed
  content : x.1.buffer.readable = x.2.content
  strings : x.1.strings = x.2.strings
  room : x.2.room ≤ x.1.buffer.writableBytes

namespace IsQueue

variable {u : Use} {q : Queue}

theorem of_parts {b : Buffer} {strings : List Bytes} (wf : b.WellFormed ∧ b.readable = q.content)
    (same : strings = q.strings) (free : q.room = 0) : IsQueue (⟨b, strings⟩, q) :=
  ⟨wf.1, wf.2, same, free ▸ Nat.zero_le _⟩

variable (is : IsQueue (u, q))
include is

theorem retrieved (len : Nat) (most : len ≤ u.buffer.readableBytes) :
    (u.buffer.retrieve len).WellFormed ∧ (u.buffer.retrieve len).readable = q.content.drop len := by
  have after := is.wellFormed.retrieve len most
  rwa [is.content] at after

theorem handedOut (len : Nat) (most : len ≤ u.buffer.readableBytes) :
    IsQueue (⟨(u.buffer.retrieveAsString len).2,
      u.strings ++ [(u.buffer.retrieveAsString len).1]⟩, q.take len) := by
  refine of_parts (is.retrieved len most) ?_ rfl
  have ordered : u.buffer.readerIndex ≤ u.buffer.writerIndex := is.wellFormed.ordered
  have string : (u.buffer.retrieveAsString len).1 = q.content.take len := by
    rw [← is.content]
    refine (take_extract _ _ _ _ ?_).symm
    rw [Buffer.readableBytes] at most
    show u.buffer.readerIndex + len ≤ u.buffer.writerIndex
    omega
  rw [is.strings, string]
  rfl

theorem length_content : q.content.length = u.buffer.readableBytes := by
  rw [← is.content]
  exact is.wellFormed.length_readable

theorem put {b : Buffer} (bytes : Bytes)
    (after : b.WellFormed ∧ b.readable = u.buffer.readable ++ bytes) :
    IsQueue ({ u with buffer := b }, q.put bytes) := by
  refine of_parts ⟨after.1, ?_⟩ is.strings rfl
  rw [after.2, is.content]
  rfl

theorem step (op : Op) (u' : Use) (stepped : step u op = some u') : IsQueue (u', q.apply op) := by
  have wf := is.wellFormed
  cases op with
  | append data =>
    simp only [ByteBuffer.step] at stepped
    split at stepped <;> cases stepped
    next fits => exact is.put data (wf.append data fits)
  | retrieve len =>
    simp only [ByteBuffer.step] at stepped
    split at stepped <;> cases stepped
    next most => exact of_parts (is.retrieved len most) is.strings rfl
  | retrieveAll =>
    cases stepped
    refine of_parts ⟨wf.retrieveAll, ?_⟩ is.strings rfl
    show _ = q.content.drop q.content.length
    rw [drop_length]
    exact extract_self ..
  | retrieveAsString len =>
    simp only [ByteBuffer.step] at stepped
    split at stepped <;> cases stepped
    next most => exact is.handedOut len most
  | retrieveAllAsString =>
    cases stepped
    show IsQueue (_, q.take q.content.length)
    rw [is.length_content]
    exact is.handedOut u.buffer.readableBytes (le_refl _)
  | ensureWritable len =>
    simp only [ByteBuffer.step] at stepped
    split at stepped <;> cases stepped
    next fits =>
      obtain ⟨after, same, enough⟩ := wf.ensureWritable len fits
      exact ⟨after, same.trans is.content, is.strings, enough⟩
  | fill room bytes len =>
    simp only [ByteBuffer.step] at stepped
    split at stepped <;> cases stepped
    next allowed =>
      obtain ⟨fits, inside, counted⟩ := allowed
      obtain ⟨ready, same, _⟩ := wf.ensureWritable room fits
      obtain ⟨after, content, _⟩ := ready.written bytes len inside counted
      exact is.put _ ⟨after, by rw [content, same]⟩
  | readFd result =>
    cases result with
    | error errno =>
      cases stepped
      exact of_parts ⟨wf, is.content⟩ is.strings rfl
    | read bytes =>
      simp only [ByteBuffer.step] at stepped
      split at stepped <;> cases stepped
      next allowed => exact is.put bytes (wf.readFd bytes allowed.2)

end IsQueue

/-- **A buffer is a queue of bytes**, whatever is done with it. -/
theorem isQueue_always (initialSize : Nat) (small : Buffer.kCheapPrepend + initialSize < sizeLimit)
    (ops : List Op) :
    Machine.Always (Machine.remembering step fun _ => Queue.apply) IsQueue
      (⟨Buffer.create initialSize, []⟩, {}) ops := by
  refine Machine.always_of_keeps (fun x op x' is moved => ?_) _ ops ?_
  · obtain ⟨u', stepped, rfl⟩ := Option.map_eq_some_iff.mp moved
    exact is.step op u' stepped
  · exact ⟨.create initialSize small, extract_self .., rfl, Nat.zero_le _⟩

/-- The second append moves the content to the front, and the read spills over. -/
def tightUse : List Op :=
  [.append (text "abcd"), .retrieve 2, .append (text "ef"), .readFd (.read (text "ghi")),
    .retrieveAsString 5]

theorem isQueue_tightUse :
    (Machine.run step ⟨Buffer.create 4, []⟩ tightUse).map
        (fun u => (u.buffer.readable, u.strings, u.buffer.data.length)) =
      some (text "hi", [text "cdefg"], 15) ∧
    Machine.Always (Machine.remembering step fun _ => Queue.apply) IsQueue
      (⟨Buffer.create 4, []⟩, {}) tightUse :=
  ⟨by decide +kernel, isQueue_always 4 (by decide +kernel) tightUse⟩

end Cox.ByteBuffer
