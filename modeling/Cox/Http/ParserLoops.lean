import Cox.Http.ContextRounds
import Cox.Http.ResponseRounds

/-!
# The parser loops

The progress loops of `HttpContext::parseRequest` and `ResponseParser::parse` go on while a flag
is set. They end, whatever is in the buffer, because every round that sets the flag consumes
bytes, and they end where another call without new bytes would do nothing.

That `content_length_ - body_received_` does not wrap around rests on the counters. The request
parser sets `body_received_` itself when a body begins. The response parser relies on the zero
that its constructor and `reset` have put there.
-/
namespace Cox.Http

open Cox.Lib Cox.Lib.Resumable

/-! ### The request parser -/

namespace HttpContext

def Subtracts (c : HttpContext) : Prop :=
  c.state = .expectBody → c.bodyReceived ≤ c.contentLength

/-- The counters of the data states are in order; a body may be complete. -/
structure Counted (c : HttpContext) : Prop where
  body : Subtracts c
  chunk : c.state = .expectChunkData → 0 < c.chunkRemaining

theorem Sound.subtracts (c : HttpContext) (sound : Sound c) : Subtracts c :=
  fun here => (sound.body here).le

theorem round_complete (c : HttpContext) (buf : Bytes) (here : c.state = .expectBody)
    (complete : c.bodyReceived = c.contentLength) :
    c.round buf = .stop { c with state := .gotAll } := by
  simp only [round, here, bodyData, complete, Nat.sub_self, Nat.min_zero]
  simp [complete]

theorem settles_of_counted (c : HttpContext) (buf : Bytes) (counted : Counted c) :
    Settles round Subtracts c buf := by
  by_cases complete : c.state = .expectBody ∧ c.bodyReceived = c.contentLength
  · exact settles_of_stop round_consumes c _ buf counted.body
      (round_complete c buf complete.1 complete.2) rfl
  · have sound : Sound c := by
      refine ⟨fun here => ?_, counted.chunk⟩
      exact lt_of_le_of_ne (counted.body here) fun same => complete ⟨here, same⟩
    exact round_lawful.settles Sound.subtracts c buf sound

end HttpContext

/-! ### The response parser -/

namespace ResponseParser

def Subtracts (p : ResponseParser) : Prop :=
  p.state = .expectBody → p.bodyReceived ≤ p.contentLength

/-- The counters of the data states are in order, and nothing of a body has been counted while
the head is read. -/
structure Counted (p : ResponseParser) : Prop where
  body : Subtracts p
  chunk : p.state = .expectChunkData → 0 < p.chunkRemaining
  head : p.state = .expectStatusLine ∨ p.state = .expectHeaders → p.bodyReceived = 0

theorem Ready.subtracts (p : ResponseParser) (ready : Ready p) : Subtracts p :=
  fun here => (ready.sound.body here).le

theorem round_complete (p : ResponseParser) (buf : Bytes) (here : p.state = .expectBody)
    (complete : p.bodyReceived = p.contentLength) : p.round buf = .stop p.finish := by
  simp only [round, here, bodyData, complete, Nat.sub_self, Nat.min_zero]
  simp [finish, complete]

theorem settles_of_counted (p : ResponseParser) (buf : Bytes) (counted : Counted p) :
    Settles round Subtracts p buf := by
  by_cases complete : p.state = .expectBody ∧ p.bodyReceived = p.contentLength
  · exact settles_of_stop round_consumes p _ buf counted.body
      (round_complete p buf complete.1 complete.2) rfl
  · have sound : Sound p := by
      refine ⟨fun here => ?_, counted.chunk⟩
      exact lt_of_le_of_ne (counted.body here) fun same => complete ⟨here, same⟩
    exact round_phased.lawful.settles Ready.subtracts p buf ⟨sound, counted.head⟩

end ResponseParser

/-- **The loops of both parsers end where another call does nothing**: from every state whose
counters are in order and with every buffer they return, every round that goes on consumes at
least one byte, the missing part of a body is never computed from more than its length, and
calling again without new bytes changes neither the parser nor the buffer. -/
theorem loops_settle (c : HttpContext) (p : ResponseParser) (buf : Bytes) (request : c.Counted)
    (response : p.Counted) :
    Settles HttpContext.round HttpContext.Subtracts c buf ∧
      Settles ResponseParser.round ResponseParser.Subtracts p buf :=
  ⟨HttpContext.settles_of_counted c buf request, ResponseParser.settles_of_counted p buf response⟩

/-- A body that is complete but has not been noticed, and a chunk of which two bytes are missing. -/
theorem settle_unnoticed :
    Settles HttpContext.round HttpContext.Subtracts
        { state := .expectBody, contentLength := 4, bodyReceived := 4 } (text "abc") ∧
      Settles ResponseParser.round ResponseParser.Subtracts
        { state := .expectChunkData, chunkRemaining := 2 } (text "abc") :=
  loops_settle _ _ _ ⟨fun _ => le_rfl, by decide⟩ ⟨fun _ => le_rfl, by decide, by decide⟩

/-- Five bytes have been counted before the body begins, of which the head says that it has
three. -/
def staleCount : ResponseParser :=
  { state := .expectHeaders, hasContentLength := true, contentLength := 3, bodyReceived := 5 }

/-- The counters are in order as far as the data states go, and the body still begins with more
received than it has. -/
theorem staleCount_wraps :
    (staleCount.state = .expectBody → staleCount.bodyReceived ≤ staleCount.contentLength) ∧
      (staleCount.state = .expectChunkData → 0 < staleCount.chunkRemaining) ∧
      ¬Settles ResponseParser.round ResponseParser.Subtracts staleCount (text "\r\nabc") := by
  refine ⟨by decide, by decide, fun settles => ?_⟩
  have begun : Visits ResponseParser.round staleCount (text "\r\nabc")
      { staleCount with state := .expectBody } (text "abc") :=
    .next _ _ _ 2 _ _ (by decide +kernel) (.first _ _)
  exact absurd (settles.always _ _ begun rfl) (by decide)

end Cox.Http
