import Cox.Lib.Bytes

/-!
# Strings with their lengths

A list of byte strings as one, each with its length before it in a single byte.
-/
namespace Cox.Lib

open List

def frame (s : Bytes) : Bytes := UInt8.ofNat s.length :: s

/-- Reads strings as long as there are any; each takes at least the byte of its length. -/
def readFrames : Nat → Bytes → Option (List Bytes)
  | _, [] => some []
  | 0, _ :: _ => none
  | more + 1, n :: rest =>
    if n.toNat ≤ rest.length then
      (readFrames more (rest.drop n.toNat)).map (rest.take n.toNat :: ·)
    else none

def decodeFrames (bytes : Bytes) : Option (List Bytes) := readFrames bytes.length bytes

theorem readFrames_frame (more : Nat) (s rest : Bytes) (short : s.length < 256) :
    readFrames (more + 1) (frame s ++ rest) = (readFrames more rest).map (s :: ·) := by
  have length : (UInt8.ofNat s.length).toNat = s.length := by
    rw [UInt8.toNat_ofNat']
    exact Nat.mod_eq_of_lt short
  simp only [frame, cons_append, readFrames, length, length_append,
    Nat.le_add_right, if_true, take_left, drop_left]

theorem readFrames_flatMap (strings : List Bytes) (short : ∀ s ∈ strings, s.length < 256)
    (more : Nat) (enough : strings.length ≤ more) :
    readFrames more (strings.flatMap frame) = some strings := by
  induction strings generalizing more with
  | nil => cases more <;> rfl
  | cons s strings ih =>
    obtain ⟨more, rfl⟩ : ∃ k, more = k + 1 := ⟨more - 1, by simp at enough; omega⟩
    have rest := ih (fun t member => short t (mem_cons_of_mem _ member)) more
      (Nat.le_of_succ_le_succ enough)
    rw [flatMap_cons, readFrames_frame more s _ (short s mem_cons_self), rest]
    rfl

theorem length_le_flatMap (strings : List Bytes) :
    strings.length ≤ (strings.flatMap frame).length := by
  induction strings with
  | nil => exact Nat.zero_le _
  | cons s strings ih =>
    simp only [flatMap_cons, length_append, length_cons, frame]
    omega

theorem decodeFrames_flatMap (strings : List Bytes) (short : ∀ s ∈ strings, s.length < 256) :
    decodeFrames (strings.flatMap frame) = some strings := by
  exact readFrames_flatMap strings short _ (length_le_flatMap strings)

end Cox.Lib
