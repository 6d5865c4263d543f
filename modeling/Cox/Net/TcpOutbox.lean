import Cox.Lib.Outbox
import Cox.Net.TcpControl

/-!
# A connection as an outbox

The output side of a connection implements a buffered output stream: every task of the
loop thread is a step of the outbox or leaves it alone.
-/
namespace Cox.Net.TcpConnection

open Cox.Lib

def outbox (c : TcpConnection) : Outbox UInt8 where
  live := c.state != .disconnected
  interest := c.isWriting
  buffer := c.outputBuffer
  accepted := c.accepted
  count := c.bytesWritten
  messages := c.sent.map (·.data)

section Frame

variable (c : TcpConnection)

@[simp] theorem outbox_note (n : ConnNote) : (c.note n).outbox = c.outbox := rfl

@[simp] theorem outbox_next (tasks : List ConnTask) : (c.next tasks).outbox = c.outbox := rfl

@[simp] theorem outbox_invoke (n : ConnNote) (rest : List ConnTask) :
    (c.invoke n rest).outbox = c.outbox := rfl

@[simp] theorem outbox_notify (rest : List ConnTask) : (c.notify rest).outbox = c.outbox := rfl

@[simp] theorem outbox_reach (message : Message) : (c.reach message).outbox = c.outbox := rfl

@[simp] theorem outbox_receive (data : Bytes) : (c.receive data).outbox = c.outbox := rfl

@[simp] theorem outbox_enableRead : c.enableRead.outbox = c.outbox := rfl

@[simp] theorem outbox_cancelWriteTimer : c.cancelWriteTimer.outbox = c.outbox := rfl

@[simp] theorem outbox_resetIdleTimer : c.resetIdleTimer.outbox = c.outbox := by
  unfold resetIdleTimer
  split <;> rfl

@[simp] theorem outbox_armWriteTimer : c.armWriteTimer.outbox = c.outbox := by
  unfold armWriteTimer
  split <;> rfl

@[simp] theorem outbox_armMaxAgeTimer : c.armMaxAgeTimer.outbox = c.outbox := by
  unfold armMaxAgeTimer
  split <;> rfl

end Frame

section Effects

variable (c : TcpConnection)

theorem outbox_record (message : Message) :
    (c.record message).outbox =
      { c.outbox with messages := c.outbox.messages ++ [message.data] } := by
  simp [outbox, record]

theorem outbox_accept (data : Bytes) (n : Nat) :
    (c.accept data n).outbox = c.outbox.accept data n := rfl

theorem outbox_append (data : Bytes) :
    (c.append data).outbox = { c.outbox with buffer := c.outbox.buffer ++ data } := rfl

theorem outbox_retrieve (n : Nat) :
    (c.retrieve n).outbox = { c.outbox with buffer := c.outbox.buffer.drop n } := rfl

theorem outbox_enableWrite : c.enableWrite.outbox = { c.outbox with interest := true } := rfl

theorem outbox_disableWrite : c.disableWrite.outbox = { c.outbox with interest := false } := rfl

theorem outbox_setState (state : TcpState) (up : c.state ≠ .disconnected)
    (still : state ≠ .disconnected) : (c.setState state).outbox = c.outbox := by
  simp only [outbox, setState, bne_iff_ne.mpr up, bne_iff_ne.mpr still]

theorem outbox_queueRest (data : Bytes) (rest : List ConnTask) (unmarked : c.highWaterMark = none) :
    (c.queueRest data rest).outbox =
      { c.outbox with
        buffer := c.outbox.buffer ++ data
        interest := c.outbox.interest || !data.isEmpty } := by
  unfold queueRest
  split
  next empty => simp [empty]
  next some =>
    have more : data.isEmpty = false := by simpa using some
    dsimp only
    rw [unmarked]
    dsimp only [queueOutput]
    rw [outbox_next]
    split
    next on =>
      have interest : (c.outbox.interest || !false) = c.outbox.interest := by
        rw [show c.outbox.interest = true from on]
        rfl
      simp only [outbox_append, more, interest]
    · simp only [outbox_enableWrite, outbox_append, more, Bool.not_false, Bool.or_true]

end Effects

section Unmarked

variable (c c' : TcpConnection) (message : Message) (wrote : Option Nat) (rest : List ConnTask)
  (unmarked : c.highWaterMark = none)
include unmarked

theorem outbox_writeDirectly (off : c.outbox.interest = false) (empty : c.outbox.buffer = [])
    (live : c.outbox.live = true)
    (ran : (c.record message).writeDirectly message.data wrote rest = some c') :
    Outbox.Step c.outbox c'.outbox := by
  cases offers_writeDirectly _ c' message.data wrote rest ran with
  | whole n all next =>
    have step := Outbox.Step.offer message.data n (Nat.le_of_eq all) empty
    have nothing : message.data.drop n = [] := List.drop_eq_nil_of_le (by omega)
    convert step using 1
    rw [next, outbox_invoke, outbox_accept, outbox_record]
    simp [Outbox.offer, Outbox.accept, nothing, off, empty]
  | part n within next =>
    have step := Outbox.Step.offer message.data n within empty
    convert step using 1
    rw [next, outbox_queueRest ((c.record message).accept message.data n) _ _ unmarked,
      outbox_accept, outbox_record]
    simp [Outbox.offer, Outbox.accept, off, empty]
  | failed next =>
    convert Outbox.Step.store message.data live using 1
    rw [next, outbox_queueRest (c.record message) _ _ unmarked, outbox_record]
    rfl

theorem outbox_sendInLoop (ran : c.sendInLoop message wrote rest = some c') :
    Outbox.Step c.outbox c'.outbox := by
  unfold sendInLoop at ran
  split at ran
  · cases ran
    exact .rest
  next up =>
    have live : c.outbox.live = true := bne_iff_ne.mpr up
    split at ran
    next fast =>
      obtain ⟨off, empty⟩ := fast
      have same : ((c.reach message).note .write).outbox = c.outbox := by simp
      have quiet : c.outbox.interest = false := by simpa [outbox] using off
      rw [← same]
      exact outbox_writeDirectly ((c.reach message).note .write) c' message wrote rest unmarked
        quiet empty live ran
    · cases ran
      convert Outbox.Step.store message.data live using 1
      rw [outbox_queueRest ((c.reach message).record message) _ _ unmarked, outbox_record,
        outbox_reach]
      rfl

end Unmarked

theorem outbox_handleWrite (c c' : TcpConnection) (wrote : Option Nat) (rest : List ConnTask)
    (ran : c.handleWrite wrote rest = some c') : Outbox.Step c.outbox c'.outbox := by
  cases flushes_handleWrite c c' wrote rest ran with
  | unasked next =>
    rw [next]
    exact .rest
  | nothing on next =>
    rw [next]
    exact .rest
  | takes n on within next =>
    rw [next]
    have part : n ≤ c.outbox.buffer.length := within
    convert Outbox.Step.flush n part using 1
    unfold written
    split
    next drained =>
      have nothing : c.outbox.buffer.drop n = [] := drained
      rw [outbox_invoke, outbox_cancelWriteTimer, outbox_disableWrite, outbox_retrieve,
        outbox_accept, outbox_note]
      simp [Outbox.flush, Outbox.accept, nothing]
      rfl
    next more =>
      have interest : c.outbox.interest = true := on
      have some : (c.outbox.buffer.drop n).isEmpty = false :=
        List.isEmpty_eq_false_iff.mpr more
      rw [outbox_next, outbox_retrieve, outbox_accept, outbox_note]
      simp only [Outbox.flush, Outbox.accept, some, Bool.not_false, ← interest]
      rfl

/-- Every task is a step of the outbox, if a store of `kDisconnecting` finds the connection
still open. -/
theorem outbox_exec (c c' : TcpConnection) (read : Option Bytes) (wrote : Option Nat)
    (rest : List ConnTask) (t : ConnTask) (unmarked : c.highWaterMark = none)
    (direct : ∀ data, t ≠ .queueOutput data)
    (stillOpen : t = .setDisconnecting → c.state ≠ .disconnected)
    (ran : c.exec read wrote rest t = some c') : Outbox.Step c.outbox c'.outbox := by
  have same (eq : c'.outbox = c.outbox) : Outbox.Step c.outbox c'.outbox := eq ▸ .rest
  cases t with
  | sendInLoop message => exact outbox_sendInLoop c c' message wrote rest unmarked ran
  | handleWrite => exact outbox_handleWrite c c' wrote rest ran
  | queueOutput data => exact absurd rfl (direct data)
  | handleClose | disconnect =>
    cases ran
    exact .close
  | setDisconnecting =>
    cases ran
    apply same
    rw [outbox_next, outbox_setState c _ (stillOpen rfl) (by simp)]
  | handleRead =>
    cases ran
    apply same
    unfold handleRead
    split <;> simp
  | handleError | closeCallback | removeChannel =>
    cases ran
    exact .rest
  | resetIdleTimer | armWriteTimer | armMaxAgeTimer =>
    cases ran
    apply same
    simp
  | capInput | finishShutdown | shutdown | shutdownInLoop | forceClose | forceCloseDisconnecting
  | forceCloseInLoop | stopReadInLoop | startReadInLoop =>
    simp only [exec] at ran
    split at ran <;> cases ran <;> exact .rest

end Cox.Net.TcpConnection
