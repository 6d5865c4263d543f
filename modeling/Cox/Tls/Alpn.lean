import Cox.Lib.Frames
import Cox.Tls.Context

/-!
# Protocol names

`setAlpnProtocols` and `alpnSelectCallback` of tls/tls_context.h. The list of names is written
into `alpn_wire_`, which the callback reads in later handshakes. The old list is cleared first
and the names are checked as they are written, so that a call that throws leaves the names
before the one it objects to. What OpenSSL selects from two lists is a parameter.
-/
namespace Cox.Tls

open Cox.Lib

/-- The part of `TlsContext` that ALPN uses, with what OpenSSL has been told. -/
structure Alpn where
  role : Role
  wire : Bytes := []
  /-- The list that a client offers. -/
  advertised : Bytes := []
  /-- The callback of a server is installed. -/
  selects : Bool := false
  deriving DecidableEq

namespace Alpn

def refused (p : Bytes) : Bool := p.isEmpty || p.length > 255

def message (p : Bytes) : Bytes :=
  text "ALPN protocol name must be 1..255 bytes: '" ++ p ++ text "'"

/-- The loop: what is thrown, if anything, and the wire format so far. -/
def encode (wire : Bytes) : List Bytes → Option Bytes × Bytes
  | [] => (none, wire)
  | p :: protocols =>
    if refused p then (some (message p), wire)
    else encode (wire ++ [UInt8.ofNat p.length] ++ p) protocols

def setAlpnProtocols (c : Alpn) (protocols : List Bytes) : Option Bytes × Alpn :=
  match encode [] protocols with
  | (some message, wire) => (some message, { c with wire })
  | (none, wire) =>
    match c.role with
    | .client => (none, { c with wire, advertised := wire })
    | .server => (none, { c with wire, selects := true })

section Select

-- `SSL_select_next_proto`, with the list of the server and that of the client
variable (selectNextProto : Bytes → Bytes → Option Bytes)

/-- The name that is selected, if any. -/
def alpnSelectCallback (c : Alpn) (client : Bytes) : Option Bytes :=
  if c.wire.isEmpty then none else selectNextProto c.wire client

end Select

/-! ### The loop -/

/-- The names before the first that is refused. -/
def accepted (protocols : List Bytes) : List Bytes := protocols.takeWhile fun p => !refused p

theorem encode_eq (wire : Bytes) (protocols : List Bytes) :
    encode wire protocols =
      ((protocols.find? refused).map message, wire ++ (accepted protocols).flatMap frame) := by
  induction protocols generalizing wire with
  | nil => simp [encode, accepted]
  | cons p protocols ih =>
    cases bad : refused p with
    | true => simp [encode, accepted, bad]
    | false => simp [encode, accepted, bad, ih, frame]

theorem wire_setAlpnProtocols (c : Alpn) (protocols : List Bytes) :
    (c.setAlpnProtocols protocols).2.wire = (accepted protocols).flatMap frame := by
  rw [setAlpnProtocols, encode_eq, List.nil_append]
  cases protocols.find? refused with
  | some p => rfl
  | none => cases c.role <;> rfl

theorem thrown_setAlpnProtocols (c : Alpn) (protocols : List Bytes) :
    (c.setAlpnProtocols protocols).1 = (protocols.find? refused).map message := by
  rw [setAlpnProtocols, encode_eq]
  cases protocols.find? refused with
  | some p => rfl
  | none => cases c.role <;> rfl

theorem accepted_eq_self (protocols : List Bytes) (valid : ∀ p ∈ protocols, refused p = false) :
    accepted protocols = protocols := by
  apply List.takeWhile_eq_self_iff.mpr
  intro p member
  rw [valid p member]
  rfl

theorem short_of_valid (p : Bytes) (valid : refused p = false) : p.length < 256 := by
  have long := (Bool.or_eq_false_iff.mp valid).2
  have long := of_decide_eq_false long
  omega

/-! ### All or nothing -/

/-- A call throws if it is given a name that is empty or too long; it takes effect as a whole, or
it changes neither the list nor what is selected later. -/
structure AllOrNothing (selectNextProto : Bytes → Bytes → Option Bytes) (c : Alpn)
    (protocols : List Bytes) : Prop where
  throws : (c.setAlpnProtocols protocols).1 ≠ none ↔
    ∃ p ∈ protocols, p = [] ∨ p.length > 255
  all : (c.setAlpnProtocols protocols).1 = none →
    decodeFrames (c.setAlpnProtocols protocols).2.wire = some protocols
  nothing : (c.setAlpnProtocols protocols).1 ≠ none →
    (c.setAlpnProtocols protocols).2.wire = c.wire ∧
      ∀ client, (c.setAlpnProtocols protocols).2.alpnSelectCallback selectNextProto client =
        c.alpnSelectCallback selectNextProto client

theorem throws_iff (c : Alpn) (protocols : List Bytes) :
    (c.setAlpnProtocols protocols).1 ≠ none ↔ ∃ p ∈ protocols, refused p = true := by
  rw [thrown_setAlpnProtocols, Ne, Option.map_eq_none_iff, List.find?_eq_none]
  push Not
  exact Iff.rfl

theorem refused_iff (p : Bytes) : refused p = true ↔ p = [] ∨ p.length > 255 := by
  rw [refused, Bool.or_eq_true_iff, List.isEmpty_iff, decide_eq_true_iff]

/-- **Protocol names.** A call takes effect as a whole or not at all, exactly if no name is
refused, or the names before the first that is refused are the list that was there. -/
theorem allOrNothing_iff (selectNextProto : Bytes → Bytes → Option Bytes) (c : Alpn)
    (protocols : List Bytes) :
    AllOrNothing selectNextProto c protocols ↔
      (∀ p ∈ protocols, refused p = false) ∨ c.wire = (accepted protocols).flatMap frame := by
  have throws := throws_iff c protocols
  constructor
  · intro holds
    by_cases thrown : (c.setAlpnProtocols protocols).1 = none
    · left
      intro p member
      by_contra bad
      exact throws.mpr ⟨p, member, eq_true_of_ne_false bad⟩ thrown
    · right
      rw [← (holds.nothing thrown).1, wire_setAlpnProtocols]
  · intro either
    refine ⟨?_, ?_, ?_⟩
    · rw [throws]
      exact exists_congr fun p => and_congr_right fun _ => refused_iff p
    · intro returns
      have valid : ∀ p ∈ protocols, refused p = false := by
        intro p member
        by_contra bad
        exact throws.mpr ⟨p, member, eq_true_of_ne_false bad⟩ returns
      rw [wire_setAlpnProtocols, accepted_eq_self protocols valid]
      exact decodeFrames_flatMap protocols fun p member => short_of_valid p (valid p member)
    · intro thrown
      obtain ⟨p, member, bad⟩ := throws.mp thrown
      have same : (c.setAlpnProtocols protocols).2.wire = c.wire := by
        rw [wire_setAlpnProtocols]
        rcases either with valid | same
        · rw [valid p member] at bad
          cases bad
        · exact same.symm
      refine ⟨same, fun client => ?_⟩
      rw [alpnSelectCallback, alpnSelectCallback, same]

/-- The first name of the server that the client has as well. -/
def firstCommon (server client : Bytes) : Option Bytes :=
  match decodeFrames server, decodeFrames client with
  | some server, some client => server.find? (client.contains ·)
  | some _, none | none, _ => none

/-- The list was HTTP/2; the second name of a new list is empty. The call throws, and a client
that can do both is given HTTP/1.1 from then on. -/
theorem setAlpnProtocols_half :
    let c : Alpn := { role := .server, wire := frame (text "h2"), selects := true }
    let after := c.setAlpnProtocols [text "http/1.1", []]
    let client := frame (text "h2") ++ frame (text "http/1.1")
    after.1 ≠ none ∧ after.2.wire = frame (text "http/1.1") ∧
      c.alpnSelectCallback firstCommon client = some (text "h2") ∧
      after.2.alpnSelectCallback firstCommon client = some (text "http/1.1") ∧
      ¬AllOrNothing firstCommon c [text "http/1.1", []] := by
  refine ⟨by decide, by decide, by decide, by decide, fun holds => ?_⟩
  have same := (holds.nothing (by decide)).1
  exact absurd same (by decide)

end Alpn

end Cox.Tls
