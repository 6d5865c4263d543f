import Cox.Lib.Watermark
import Cox.Net.TcpTeardown

/-!
# The callback for the high-water mark

`sendInLoop` calls the callback for the high-water mark between the direct write and the
buffering of what is left. The connection is then a queue with a mark whose growth has been
announced and has not happened yet. If the callback sends, its bytes come before the rest of
the message, and the length that is compared with the mark is not the one that was announced.
Without that, the bytes stay in order and the callback is called once for every time the
queue grows over the mark.
-/
namespace Cox.Net.TcpConnection

open Cox.Lib Machine List

/-! ### What the callback interrupts -/

/-- What is still to be buffered when callbacks return, the innermost first. -/
def owed (c : TcpConnection) : List Bytes := c.ahead.filterMap holds

def isHighWaterMark : ConnNote → Bool
  | .highWaterMark _ => true
  | _ => false

def fired (c : TcpConnection) : Nat := c.log.countP isHighWaterMark

def crossed (c c' : TcpConnection) (crossings : Nat) : Nat :=
  if Crosses c.highWaterMark c.outputBuffer.length c'.outputBuffer.length then crossings + 1
  else crossings

/-- Counts the steps in which the queued length goes from below the mark to at least the
mark. -/
def noteCrossing (c : TcpConnection) (e : Event) (crossings : Nat) : Nat :=
  match c.step e with
  | some c' => c.crossed c' crossings
  | none => crossings

/-- When no callback has interrupted `sendInLoop`, the messages are in order, and the callback
was called as often as the queue has grown over the mark. -/
def MarkedInOrder (x : TcpConnection × Nat) : Prop :=
  x.1.owed = [] →
    x.1.accepted ++ x.1.outputBuffer = (x.1.sent.map (·.data)).flatten ∧ x.1.fired = x.2

instance (x : TcpConnection × Nat) : Decidable (MarkedInOrder x) :=
  inferInstanceAs (Decidable (_ → _ ∧ _))

/-- The callback for the high-water mark sends nothing on the connection. -/
def HoldsBack (c : TcpConnection) : Event → Prop
  | .send data => c.owed ≠ [] → c.state = .connected → data = []
  | _ => True

instance (c : TcpConnection) (e : Event) : Decidable (HoldsBack c e) := by
  apply @Event.casesOn (fun e => Decidable (HoldsBack c e)) e <;> intros <;> unfold HoldsBack <;>
    infer_instance

def watermark (c : TcpConnection) (crossings : Nat) : Watermark UInt8 where
  mark := c.highWaterMark
  written := c.accepted
  queue := c.outputBuffer
  deferred := c.owed
  sent := (c.sent.map (·.data)).flatten
  fired := c.fired
  crossings := crossings

/-- Tasks that leave the output alone. -/
def Idle : ConnTask → Prop
  | .handleWrite | .queueOutput _ => False
  | .sendInLoop m => m.data = []
  | _ => True

/-- Nothing that has to do with the output comes before what is still to be buffered. -/
def Clear (tasks : List ConnTask) : Prop := tasks.Pairwise fun t u => holds u ≠ none → Idle t

structure Careful (x : TcpConnection × Nat) : Prop where
  asks : Asks x.1
  clear : Clear x.1.ahead
  sound : (x.1.watermark x.2).Sound

/-! ### Tasks that leave the output alone -/

section Mute

variable {c c' d : TcpConnection} {rest : List ConnTask}

theorem holds_idle (t : ConnTask) (idle : Idle t) : holds t = none := by
  cases t <;> first | rfl | exact idle.elim

/-- The output is as before, and the tasks have been replaced by others that leave it alone. -/
structure Mute (c c' : TcpConnection) (rest : List ConnTask) : Prop where
  accepted : c'.accepted = c.accepted
  buffer : c'.outputBuffer = c.outputBuffer
  mark : c'.highWaterMark = c.highWaterMark
  sent : (c'.sent.map (·.data)).flatten = (c.sent.map (·.data)).flatten
  fired : c'.fired = c.fired
  ahead : ∃ new, c'.ahead = new ++ (rest ++ c.stack.flatten) ∧ ∀ t ∈ new, Idle t

theorem ahead_next (tasks : List ConnTask) :
    (d.next tasks).ahead = tasks ++ d.stack.flatten := rfl

theorem ahead_invoke (n : ConnNote) (tasks : List ConnTask) :
    (d.invoke n tasks).ahead = tasks ++ d.stack.flatten := rfl

theorem fired_note (n : ConnNote) (other : isHighWaterMark n = false) :
    (d.note n).fired = d.fired := by
  simp [fired, note, other]

theorem fired_invoke (queued : Nat) (tasks : List ConnTask) :
    (d.invoke (.highWaterMark queued) tasks).fired = d.fired + 1 := by
  simp [fired, invoke, note, isHighWaterMark]

theorem Wrote.fired {m : Message} {n : Nat} (wrote : Wrote c d m n) : d.fired = c.fired := by
  unfold TcpConnection.fired
  rcases wrote.log with log | log <;> simp [log, isHighWaterMark]

theorem mute_same (accepted : c'.accepted = c.accepted) (buffer : c'.outputBuffer = c.outputBuffer)
    (mark : c'.highWaterMark = c.highWaterMark) (sent : c'.sent = c.sent)
    (fired : c'.fired = c.fired) (new : List ConnTask)
    (ahead : c'.ahead = new ++ (rest ++ c.stack.flatten)) (idle : ∀ t ∈ new, Idle t) :
    Mute c c' rest :=
  ⟨accepted, buffer, mark, by rw [sent], fired, new, ahead, idle⟩

theorem mute_push (new : List ConnTask) (idle : ∀ t ∈ new, Idle t) :
    Mute c (c.next (new ++ rest)) rest :=
  mute_same rfl rfl rfl rfl rfl new (by rw [ahead_next, append_assoc]) idle

theorem mute_next : Mute c (c.next rest) rest := mute_push [] (by simp)

theorem mute_invoke (n : ConnNote) (other : isHighWaterMark n = false) (new : List ConnTask)
    (idle : ∀ t ∈ new, Idle t) : Mute c (c.invoke n (new ++ rest)) rest :=
  mute_same rfl rfl rfl rfl (fired_note n other) new (by rw [ahead_invoke, append_assoc]) idle

theorem Mute.beside (mute : Mute d c' rest) (accepted : d.accepted = c.accepted)
    (buffer : d.outputBuffer = c.outputBuffer) (mark : d.highWaterMark = c.highWaterMark)
    (sent : (d.sent.map (·.data)).flatten = (c.sent.map (·.data)).flatten)
    (log : d.fired = c.fired) (stack : d.stack = c.stack) : Mute c c' rest where
  accepted := mute.accepted.trans accepted
  buffer := mute.buffer.trans buffer
  mark := mute.mark.trans mark
  sent := mute.sent.trans sent
  fired := mute.fired.trans log
  ahead := stack ▸ mute.ahead

theorem mute_handleRead (read : Option Bytes) : Mute c (c.handleRead read rest) rest := by
  unfold handleRead
  split
  · exact mute_push [.handleClose] (by simp [Idle])
  next data _ =>
    have same : (c.receive data).resetIdleTimer = c.receive data ∨
        (c.receive data).resetIdleTimer = { c.receive data with idleTimerArmed := true } := by
      unfold resetIdleTimer
      split
      · exact .inl rfl
      · exact .inr rfl
    refine Mute.beside (mute_invoke .message rfl [.capInput] (by simp [Idle])) ?_ ?_ ?_ ?_ ?_ ?_
    all_goals rcases same with eq | eq
    all_goals rw [eq]
    all_goals rfl
  · exact mute_push [.handleError] (by simp [Idle])

theorem mute_sendInLoop (m : Message) (nothing : m.data = []) (wrote : Option Nat)
    (ran : c.sendInLoop m wrote rest = some c') : Mute c c' rest := by
  have sent (d : TcpConnection) (same : d.sent = c.sent ++ [m]) :
      (d.sent.map (·.data)).flatten = (c.sent.map (·.data)).flatten := by
    simp [same, nothing]
  -- what is left of no bytes is no bytes
  have none (d : TcpConnection) (n : Nat) :
      d.queueRest (m.data.drop n) rest = d.next rest := if_pos (by rw [nothing, drop_nil])
  have accepted (d : TcpConnection) (n : Nat) (written : Wrote c d m n) :
      d.accepted = c.accepted := by
    rw [written.accepted, nothing, take_nil, append_nil]
  cases sends_sendInLoop wrote rest ran with
  | drops closed next =>
    rw [next]
    exact Mute.beside mute_next rfl rfl rfl rfl rfl rfl
  | whole d written direct next =>
    rw [next]
    exact Mute.beside (mute_invoke .writeComplete rfl [] (by simp)) (accepted d _ written)
      written.output.2 (congrArg Mail.highWaterMark written.mail)
      (sent d (congrArg Mail.sent written.mail)) written.fired written.stack
  | leaves d n written direct next =>
    rw [next, none]
    exact Mute.beside mute_next (accepted d n written) written.output.2
      (congrArg Mail.highWaterMark written.mail) (sent d (congrArg Mail.sent written.mail))
      written.fired written.stack

theorem mute_branch (q : Prop) [Decidable q] (new : List ConnTask) (idle : ∀ t ∈ new, Idle t)
    (ran : (if q then some (c.next (new ++ rest)) else some (c.next rest)) = some c') :
    Mute c c' rest := by
  split at ran
  · cases ran
    exact mute_push new idle
  · cases ran
    exact mute_next

theorem mute_exec (read : Option Bytes) (wrote : Option Nat) (t : ConnTask) (idle : Idle t)
    (ran : c.exec read wrote rest t = some c') : Mute c c' rest := by
  cases t with
  | handleWrite | queueOutput => exact idle.elim
  | sendInLoop m => exact mute_sendInLoop m idle wrote ran
  | handleRead =>
    cases ran
    exact mute_handleRead read
  | handleError =>
    cases ran
    exact mute_push [.handleClose] (by simp [Idle])
  | closeCallback =>
    cases ran
    exact mute_invoke .closed rfl [] (by simp)
  | handleClose =>
    cases ran
    exact Mute.beside (mute_invoke _ rfl [.closeCallback] (by simp [Idle])) rfl rfl rfl rfl rfl rfl
  | disconnect =>
    cases ran
    exact Mute.beside (mute_invoke _ rfl [] (by simp)) rfl rfl rfl rfl rfl rfl
  | setDisconnecting | removeChannel =>
    cases ran
    exact Mute.beside mute_next rfl rfl rfl rfl rfl rfl
  | resetIdleTimer | armWriteTimer | armMaxAgeTimer =>
    cases ran
    simp only [resetIdleTimer, armWriteTimer, armMaxAgeTimer]
    split <;> exact Mute.beside mute_next rfl rfl rfl rfl rfl rfl
  | capInput => exact mute_branch _ [.forceClose] (by simp [Idle]) ran
  | finishShutdown => exact mute_branch _ [.shutdownInLoop] (by simp [Idle]) ran
  | shutdown => exact mute_branch _ [.setDisconnecting, .shutdownInLoop] (by simp [Idle]) ran
  | forceCloseDisconnecting =>
    exact mute_branch _ [.setDisconnecting, .forceCloseInLoop] (by simp [Idle]) ran
  | forceClose =>
    simp only [exec] at ran
    split at ran <;> cases ran
    · exact mute_push [.setDisconnecting, .forceCloseInLoop] (by simp [Idle])
    · exact mute_push [.forceCloseDisconnecting] (by simp [Idle])
  | forceCloseInLoop =>
    simp only [exec] at ran
    split at ran <;> cases ran
    · exact mute_next
    · exact mute_push [.handleClose] (by simp [Idle])
  | shutdownInLoop =>
    simp only [exec] at ran
    split at ran <;> cases ran
    · exact mute_next
    · exact Mute.beside mute_next rfl rfl rfl rfl (fired_note .shutdownWrite rfl) rfl
  | stopReadInLoop | startReadInLoop =>
    simp only [exec] at ran
    split at ran <;> cases ran
    · exact Mute.beside mute_next rfl rfl rfl rfl rfl rfl
    · exact mute_next

end Mute

/-! ### One step -/

section Step

variable {c c' d : TcpConnection} {rest : List ConnTask} {crossings : Nat}

theorem crossed_le (le : c'.outputBuffer.length ≤ c.outputBuffer.length) (crossings : Nat) :
    c.crossed c' crossings = crossings :=
  if_neg (not_crosses_of_le _ _ _ le)

theorem filterMap_holds_idle (tasks : List ConnTask) (idle : ∀ t ∈ tasks, Idle t) :
    tasks.filterMap holds = [] :=
  filterMap_eq_nil_iff.mpr fun t inside => holds_idle t (idle t inside)

theorem Clear.before {later : List ConnTask} (clear : Clear later) (new : List ConnTask)
    (idle : ∀ t ∈ new, Idle t) : Clear (new ++ later) := by
  refine pairwise_append.mpr ⟨?_, clear, fun t inside _ _ _ => idle t inside⟩
  exact pairwise_of_forall_mem_list fun t inside _ _ _ => idle t inside

theorem Clear.none_behind (t : ConnTask) {later : List ConnTask} (clear : Clear (t :: later))
    (busy : ¬Idle t) : later.filterMap holds = [] := by
  refine filterMap_eq_nil_iff.mpr fun u inside => ?_
  by_contra some
  exact busy ((pairwise_cons.mp clear).1 u inside some)

theorem clear_of_none (tasks : List ConnTask) (none : tasks.filterMap holds = []) : Clear tasks := by
  refine pairwise_iff_forall_sublist.mpr fun {t u} sub some => absurd ?_ some
  exact filterMap_eq_nil_iff.mp none u (sub.subset (by simp))

theorem ahead_running {t : ConnTask} (head : c.todo = t :: rest) :
    c.ahead = t :: (rest ++ c.stack.flatten) := by
  rw [ahead, head, cons_append]

theorem owed_running {t : ConnTask} (head : c.todo = t :: rest) (unheld : holds t = none)
    (none : (rest ++ c.stack.flatten).filterMap holds = []) : c.owed = [] := by
  rw [owed, ahead_running head, filterMap_cons_none unheld, none]

theorem ahead_queueOutput (data : Bytes) :
    (d.queueOutput data rest).ahead = .armWriteTimer :: (rest ++ d.stack.flatten) := by
  unfold queueOutput
  split <;> rfl

theorem buffer_queueOutput (data : Bytes) :
    (d.queueOutput data rest).outputBuffer = d.outputBuffer ++ data := by
  unfold queueOutput
  split <;> rfl

theorem fired_queueOutput (data : Bytes) : (d.queueOutput data rest).fired = d.fired := by
  unfold fired
  rw [log_queueOutput]

theorem accepted_queueOutput (data : Bytes) :
    (d.queueOutput data rest).accepted = d.accepted := by
  unfold queueOutput
  split <;> rfl

theorem Wrote.watermark {m : Message} {n : Nat} (wrote : Wrote c d m n)
    (accepted : c'.accepted = d.accepted) (mail : c'.mail = d.mail) (k k' : Nat) :
    c'.watermark k' = { c.watermark k with
      written := c.accepted ++ m.data.take n
      queue := c'.outputBuffer
      deferred := c'.owed
      sent := (c.watermark k).sent ++ m.data
      fired := c'.fired
      crossings := k' } := by
  have mark : c'.highWaterMark = c.highWaterMark :=
    (congrArg Mail.highWaterMark mail).trans (congrArg Mail.highWaterMark wrote.mail)
  have sent : c'.sent = c.sent ++ [m] :=
    (congrArg Mail.sent mail).trans (congrArg Mail.sent wrote.mail)
  simp only [TcpConnection.watermark, accepted, wrote.accepted, mark, sent, map_append,
    flatten_append, map_singleton, flatten_singleton]

theorem queueRest_eq (data : Bytes) :
    d.queueRest data rest =
      if data = [] then d.next rest
      else if Crosses d.highWaterMark d.outputBuffer.length (d.outputBuffer.length + data.length) then
        d.invoke (.highWaterMark (d.outputBuffer.length + data.length)) (.queueOutput data :: rest)
      else d.queueOutput data rest := by
  unfold queueRest
  split
  · rfl
  · dsimp only
    cases mark : d.highWaterMark with
    | none => rfl
    | some limit => rfl

theorem idle_begun {e : Event} (stepped : c.step e = some c') (tasks : List ConnTask)
    (starts : ∀ t ∈ tasks.head?, Starts c e t) (behind : ∀ t ∈ tasks.tail, Waits c e t)
    (begins : e.Begins) (t : ConnTask) (inside : t ∈ tasks) : Idle t ∨ c.stack = [] := by
  have opening := begun_mem tasks starts behind begins t inside
  by_cases writes : t = .handleWrite
  · right
    subst writes
    have dispatched : ∃ error read write, e = .dispatch error read write := by
      cases tasks with
      | nil => cases inside
      | cons first tasks =>
        rcases mem_cons.mp inside with rfl | later
        · have first := starts _ rfl
          cases e <;> simp_all [Starts]
        · have waits := behind _ later
          cases e <;> simp_all [Waits, Event.Begins]
    obtain ⟨error, read, write, rfl⟩ := dispatched
    simp only [step] at stepped
    split at stepped
    next between => exact between.1.2.1
    · cases stepped
  · left
    simp only [openings, mem_cons, not_mem_nil, or_false] at opening
    rcases opening with rfl | rfl | rfl | rfl | rfl | rfl | rfl | rfl | rfl
    all_goals trivial

variable (careful : Careful (c, crossings))
include careful

theorem Careful.same (asks : Asks c') (accepted : c'.accepted = c.accepted)
    (buffer : c'.outputBuffer = c.outputBuffer) (mark : c'.highWaterMark = c.highWaterMark)
    (sent : (c'.sent.map (·.data)).flatten = (c.sent.map (·.data)).flatten)
    (fired : c'.fired = c.fired) (owed : c'.owed = c.owed) (clear : Clear c'.ahead) :
    Careful (c', c.crossed c' crossings) := by
  refine ⟨asks, clear, ?_⟩
  have same : c'.watermark (c.crossed c' crossings) = c.watermark crossings := by
    unfold watermark
    rw [crossed_le (by rw [buffer]), accepted, buffer, mark, sent, fired, owed]
  exact same ▸ careful.sound

theorem Careful.none_behind {t : ConnTask} (head : c.todo = t :: rest) (busy : ¬Idle t) :
    (rest ++ c.stack.flatten).filterMap holds = [] := by
  have clear : Clear c.ahead := careful.clear
  rw [ahead_running head] at clear
  exact clear.none_behind t busy

theorem Careful.mute (asks : Asks c') (t : ConnTask) (idle : Idle t) (head : c.todo = t :: rest)
    (mute : Mute c c' rest) : Careful (c', c.crossed c' crossings) := by
  obtain ⟨new, ahead, fresh⟩ := mute.ahead
  have before := ahead_running head
  have clear : Clear (t :: (rest ++ c.stack.flatten)) := before ▸ careful.clear
  refine careful.same asks mute.accepted mute.buffer mute.mark mute.sent mute.fired ?_ ?_
  · unfold owed
    rw [ahead, before, filterMap_append, filterMap_holds_idle new fresh,
      filterMap_cons_none (holds_idle t idle), nil_append]
  · rw [ahead]
    exact Clear.before (pairwise_cons.mp clear).2 new fresh

theorem Careful.queueOutput (data : Bytes) (head : c.todo = .queueOutput data :: rest)
    (asks : Asks (c.queueOutput data rest)) :
    Careful (c.queueOutput data rest, c.crossed (c.queueOutput data rest) crossings) := by
  have none := careful.none_behind head id
  have after : (c.queueOutput data rest).owed = [] := by
    unfold owed
    rw [ahead_queueOutput, filterMap_cons_none rfl, none]
  refine ⟨asks, clear_of_none _ after, ?_⟩
  have only : (c.watermark crossings).deferred = [data] := by
    show c.owed = _
    have held : holds (.queueOutput data) = some data := rfl
    rw [owed, ahead_running head, filterMap_cons_some held, none]
  have step := Watermark.Step.commit data (c.crossed (c.queueOutput data rest) crossings) only
    (fun crosses => by
      unfold crossed
      rw [buffer_queueOutput]
      exact if_pos crosses)
  have mail := mail_queueOutput c data rest
  have mark : (c.queueOutput data rest).highWaterMark = c.highWaterMark :=
    congrArg Mail.highWaterMark mail
  have sent : (c.queueOutput data rest).sent = c.sent := congrArg Mail.sent mail
  convert careful.sound.step step using 1
  simp only [watermark, buffer_queueOutput, after, mark, sent, fired_queueOutput,
    accepted_queueOutput]

section Send

variable {m : Message} {n : Nat}

section Wrote

variable (asks : Asks c') (wrote : Wrote c d m n)
  (direct : m.data.take n = [] ∨ c.outputBuffer = []) (free : c.owed = [])
  (accepted : c'.accepted = d.accepted) (mail : c'.mail = d.mail)
include asks wrote direct free accepted mail

theorem Careful.put (buffer : c'.outputBuffer = c.outputBuffer ++ m.data.drop n)
    (fired : c'.fired = c.fired) (owed : c'.owed = [])
    (quiet : ¬Crosses c.highWaterMark c.outputBuffer.length
      (c.outputBuffer.length + (m.data.drop n).length)) :
    Careful (c', c.crossed c' crossings) := by
  refine ⟨asks, clear_of_none _ owed, ?_⟩
  have same : c.crossed c' crossings = crossings := by
    unfold crossed
    rw [buffer, length_append]
    exact if_neg quiet
  have step : (c.watermark crossings).Step _ := .put m.data n free direct quiet
  convert careful.sound.step step using 1
  rw [same, wrote.watermark accepted mail crossings crossings, buffer, fired, owed]
  simp only [watermark, free]

/-- The callback comes first; what is left of the message waits behind it. -/
theorem Careful.announce (buffer : c'.outputBuffer = c.outputBuffer)
    (fired : c'.fired = c.fired + 1) {later : List ConnTask}
    (ahead : c'.ahead = .queueOutput (m.data.drop n) :: later) (none : later.filterMap holds = [])
    (crosses : Crosses c.highWaterMark c.outputBuffer.length
      (c.outputBuffer.length + (m.data.drop n).length)) :
    Careful (c', c.crossed c' crossings) := by
  have owed : c'.owed = [m.data.drop n] := by
    have held : holds (.queueOutput (m.data.drop n)) = some (m.data.drop n) := rfl
    rw [owed, ahead, filterMap_cons_some held, none]
  refine ⟨asks, ?_, ?_⟩
  · show Clear c'.ahead
    rw [ahead]
    refine pairwise_cons.mpr ⟨fun u inside held => ?_, clear_of_none _ none⟩
    exact absurd (filterMap_eq_nil_iff.mp none u inside) held
  · have same : c.crossed c' crossings = crossings := crossed_le (by rw [buffer]) crossings
    have step : (c.watermark crossings).Step _ := .announce m.data n free direct crosses
    convert careful.sound.step step using 1
    rw [same, wrote.watermark accepted mail crossings crossings, buffer, fired, owed]
    rfl

end Wrote

theorem Careful.queueRest (wrote : Wrote c d m n)
    (direct : m.data.take n = [] ∨ c.outputBuffer = []) (free : c.owed = [])
    (none : (rest ++ c.stack.flatten).filterMap holds = [])
    (asks : Asks (d.queueRest (m.data.drop n) rest)) :
    Careful (d.queueRest (m.data.drop n) rest,
      c.crossed (d.queueRest (m.data.drop n) rest) crossings) := by
  have mark : d.highWaterMark = c.highWaterMark := congrArg Mail.highWaterMark wrote.mail
  have stack := wrote.stack
  have buffer := wrote.output.2
  rw [queueRest_eq] at asks ⊢
  split at asks
  next nothing =>
    rw [if_pos nothing]
    refine careful.put asks wrote direct free rfl rfl ?_ wrote.fired ?_ ?_
    · rw [nothing, append_nil]
      exact buffer
    · rw [owed, ahead_next, stack, none]
    · rw [nothing]
      exact not_crosses_of_le _ _ _ (le_of_eq rfl)
  next some =>
    rw [if_neg some]
    split at asks
    next crosses =>
      rw [if_pos crosses]
      rw [mark, buffer] at crosses
      refine careful.announce asks wrote direct free rfl (mail_invoke _ _ _) buffer ?_ ?_ none crosses
      · rw [fired_invoke, wrote.fired]
      · rw [ahead_invoke, stack, cons_append]
    next quiet =>
      rw [if_neg quiet]
      rw [mark, buffer] at quiet
      refine careful.put asks wrote direct free (accepted_queueOutput _) (mail_queueOutput _ _ _) ?_
        ?_ ?_ quiet
      · rw [buffer_queueOutput, buffer]
      · rw [fired_queueOutput, wrote.fired]
      · rw [owed, ahead_queueOutput, stack, filterMap_cons_none rfl, none]

theorem Careful.sendInLoop (wrote : Option Nat) (filled : m.data ≠ [])
    (head : c.todo = .sendInLoop m :: rest) (asks : Asks c')
    (ran : c.sendInLoop m wrote rest = some c') : Careful (c', c.crossed c' crossings) := by
  have none := careful.none_behind head filled
  have free : c.owed = [] := owed_running head rfl none
  cases sends_sendInLoop wrote rest ran with
  | drops closed next =>
    subst next
    refine careful.same asks rfl rfl rfl rfl rfl ?_ (clear_of_none _ none)
    rw [free]
    exact none
  | whole d written direct next =>
    subst next
    have nothing : m.data.drop m.data.length = [] := drop_length
    refine careful.put asks written (.inr direct) free rfl (mail_invoke _ _ _) ?_ ?_ ?_ ?_
    · rw [nothing, append_nil]
      exact written.output.2
    · exact (fired_note .writeComplete rfl).trans written.fired
    · rw [owed, ahead_invoke, written.stack, none]
    · rw [nothing]
      exact not_crosses_of_le _ _ _ (le_of_eq rfl)
  | leaves d n written direct next =>
    subst next
    exact careful.queueRest written direct free none asks

end Send

theorem Careful.drain (n : Nat) (asks : Asks d) (free : c.owed = []) (mail : d.mail = c.mail)
    (accepted : d.accepted = c.accepted ++ c.outputBuffer.take n)
    (buffer : d.outputBuffer = c.outputBuffer.drop n) (fired : d.fired = c.fired)
    (owed : d.owed = []) : Careful (d, c.crossed d crossings) := by
  refine ⟨asks, clear_of_none _ owed, ?_⟩
  have step : (c.watermark crossings).Step _ := .drain n free
  have mark : d.highWaterMark = c.highWaterMark := congrArg Mail.highWaterMark mail
  have sent : d.sent = c.sent := congrArg Mail.sent mail
  have shorter : d.outputBuffer.length ≤ c.outputBuffer.length := by
    rw [buffer, length_drop]
    omega
  convert careful.sound.step step using 1
  rw [crossed_le shorter]
  simp only [watermark, mark, sent, accepted, buffer, fired, owed, free]

theorem Careful.handleWrite (wrote : Option Nat) (head : c.todo = .handleWrite :: rest)
    (asks : Asks c') (ran : c.handleWrite wrote rest = some c') :
    Careful (c', c.crossed c' crossings) := by
  have none := careful.none_behind head id
  have free : c.owed = [] := owed_running head rfl none
  have unchanged (d : TcpConnection) (asks : Asks d) (same : d.mail = c.mail)
      (accepted : d.accepted = c.accepted) (buffer : d.outputBuffer = c.outputBuffer)
      (fired : d.fired = c.fired) (owed : d.owed = []) : Careful (d, c.crossed d crossings) :=
    careful.drain 0 asks free same (accepted.trans (append_nil _).symm) buffer fired owed
  cases flushes_handleWrite c c' wrote rest ran with
  | unasked next =>
    subst next
    exact unchanged _ asks rfl rfl rfl rfl none
  | nothing on next =>
    subst next
    exact unchanged _ asks rfl rfl rfl (fired_note .write rfl) none
  | takes n on within next =>
    subst next
    unfold written at asks ⊢
    split
    next empty =>
      rw [if_pos empty] at asks
      refine careful.drain n asks free (by simp) ?_ ?_ ?_ ?_
      · dsimp only [invoke, note, accept, retrieve, disableWrite, cancelWriteTimer]
      · dsimp only [invoke, note, accept, retrieve, disableWrite, cancelWriteTimer]
      -- by projection: `rfl` would compare the byte counters
      · simp [fired, invoke, note, accept, retrieve, disableWrite, cancelWriteTimer,
          isHighWaterMark]
      · rw [owed, ahead_invoke]
        dsimp only [note, accept, retrieve, disableWrite, cancelWriteTimer]
        exact none
    next more =>
      rw [if_neg more] at asks
      refine careful.drain n asks free (by simp) ?_ ?_ ?_ ?_
      · dsimp only [next, note, accept, retrieve]
      · dsimp only [next, note, accept, retrieve]
      · simp [fired, next, note, accept, retrieve, isHighWaterMark]
      · rw [owed, ahead_next]
        dsimp only [note, accept, retrieve]
        exact none

theorem Careful.task (read : Option Bytes) (wrote : Option Nat) (t : ConnTask)
    (head : c.todo = t :: rest) (asks : Asks c') (ran : c.exec read wrote rest t = some c') :
    Careful (c', c.crossed c' crossings) := by
  by_cases idle : Idle t
  · exact careful.mute asks t idle head (mute_exec read wrote t idle ran)
  · cases t with
    | handleWrite => exact careful.handleWrite wrote head asks ran
    | sendInLoop m => exact careful.sendInLoop wrote idle head asks ran
    | queueOutput data =>
      cases ran
      exact careful.queueOutput data head asks
    | _ => exact absurd trivial idle

/-- The loop thread begins with tasks that have nothing to buffer yet; those that write only
when no callback is between them and something to buffer. -/
theorem Careful.begins (asks : Asks c') (accepted : c'.accepted = c.accepted)
    (buffer : c'.outputBuffer = c.outputBuffer) (mark : c'.highWaterMark = c.highWaterMark)
    (sent : c'.sent = c.sent) (fired : c'.fired = c.fired) (tasks : List ConnTask)
    (ahead : c'.ahead = tasks ++ c.ahead) (unheld : ∀ t ∈ tasks, holds t = none)
    (idle : c.owed = [] ∨ ∀ t ∈ tasks, Idle t) : Careful (c', c.crossed c' crossings) := by
  have owed : c'.owed = c.owed := by
    unfold owed
    rw [ahead, filterMap_append, filterMap_eq_nil_iff.mpr unheld, nil_append]
  refine careful.same asks accepted buffer mark (by rw [sent]) fired owed ?_
  rcases idle with none | idle
  · exact clear_of_none _ (owed.trans none)
  · rw [ahead]
    exact careful.clear.before tasks idle

theorem Careful.step (e : Event) (holdsBack : HoldsBack c e) (stepped : c.step e = some c') :
    Careful (c', noteCrossing c e crossings) := by
  have asks := careful.asks.step e stepped
  have noted : noteCrossing c e crossings = c.crossed c' crossings := by
    simp only [noteCrossing, stepped]
  rw [noted]
  cases moves_step stepped with
  | task read wrote t rest head ran => exact careful.task read wrote t head asks ran
  | establish between fresh =>
    refine careful.begins asks rfl rfl rfl rfl (fired_note (.connection true) rfl)
      [.resetIdleTimer, .armMaxAgeTimer] ?_ (by simp [holds]) (.inr (by simp [Idle]))
    simp [ahead, notify, invoke, note, enableRead, setState, between.1]
  | begins begins idle tasks _ _ _ _ starts behind =>
    refine careful.begins asks rfl rfl rfl rfl rfl tasks ?_ (fun t inside => ?_) ?_
    · rw [ahead, ahead, idle]
      rfl
    · exact (light_openings t (begun_mem tasks starts behind begins t inside)).1.2
    · by_cases empty : c.stack = []
      · left
        simp [owed, ahead, idle, empty]
      · right
        intro t inside
        exact (idle_begun stepped tasks starts behind begins t inside).resolve_right empty
  | returns rest stack idle framed =>
    have same : ({ c with todo := rest, stack } : TcpConnection).ahead = c.ahead := by
      simp [ahead, idle, framed]
    refine careful.same asks rfl rfl rfl rfl rfl ?_ ?_
    · rw [owed, same, owed]
    · rw [same]
      exact careful.clear
  | send data idle up =>
    refine careful.begins asks rfl rfl rfl rfl rfl [.sendInLoop ⟨none, data⟩] ?_ (by simp [holds]) ?_
    · rw [ahead, ahead, idle]
      rfl
    · by_cases free : c.owed = []
      · exact .inl free
      · right
        simpa [Idle] using holdsBack free up
  | refuses | doPendingTasks | call | proceed =>
    exact careful.same asks rfl rfl rfl rfl rfl rfl careful.clear
  | nextPendingTask t batch idle empty first =>
    have asked : Asked t := careful.asks.queued t (by simp [first])
    refine careful.begins asks rfl rfl rfl rfl rfl [t] ?_ ?_ (.inl ?_)
    · rw [ahead, ahead, idle]
      rfl
    · cases t <;> simp_all [holds, Asked]
    · simp [owed, ahead, idle, empty]

end Step

/-! ### Whole runs -/

theorem Careful.markedInOrder {x : TcpConnection × Nat} (careful : Careful x) :
    MarkedInOrder x := by
  intro free
  have whole := careful.sound.whole
  have matched := careful.sound.matched
  simp only [watermark, free, flatten_nil, append_nil] at whole matched
  exact ⟨whole, matched⟩

theorem careful_initial (settings : Settings) :
    Careful (initial settings, 0) where
  asks := (inOrder_initial ..).asks
  clear := List.Pairwise.nil
  sound := ⟨rfl, fun _ inside => (by cases inside), rfl⟩

/-- **Bytes stay in order, and the callback is called once for each time the queue grows over
the high-water mark**, on every run on which that callback does not send. -/
theorem markedInOrder_of_holdsBack (settings : Settings) (events : List Event) :
    let start := initial settings
    Meets step HoldsBack start events →
      Always (remembering step noteCrossing) MarkedInOrder (start, 0) events := by
  intro start holdsBack
  have careful : Always (remembering step noteCrossing) Careful (start, 0) events :=
    always_remembering (fun _ _ e _ careful back stepped => careful.step e back stepped) start 0
      events (careful_initial ..) holdsBack
  exact Always.mono (fun _ careful => careful.markedInOrder) _ events careful

/-- A message of three bytes of which the kernel takes one; the rest reaches the mark. The
callback stops reading. Then the queue is drained, and grows over the mark again. -/
def slowedDown : List Event :=
  [.establish, .returns, .task none none, .task none none,
    .send [1, 2, 3], .task none (some 1), .stopRead, .task none none, .returns, .task none none,
    .task none none, .dispatch false false true, .task none (some 2), .returns, .task none none,
    .send [4, 5], .task none none, .returns, .task none none, .task none none]

theorem markedInOrder_slowedDown :
    (run (remembering step noteCrossing) (initial { highWaterMark := some 2 }, 0) slowedDown).map
        (fun x => (x.1.accepted, x.1.outputBuffer, x.1.fired, x.2)) =
      some ([1, 2, 3], [4, 5], 2, 2) ∧
    Always (remembering step noteCrossing) MarkedInOrder (initial { highWaterMark := some 2 }, 0)
      slowedDown :=
  ⟨by decide +kernel,
    markedInOrder_of_holdsBack { highWaterMark := some 2 } slowedDown (by decide +kernel)⟩

/-! ### Sending inside the callback -/

section Overtaking

variable {c c' d : TcpConnection} {m : Message} {rest : List ConnTask}

/-- What has been taken on, in the order in which it is written: what is still to be buffered
comes last. -/
def outgoing (c : TcpConnection) : Bytes := c.accepted ++ c.outputBuffer ++ c.owed.flatten

theorem Wrote.places {n : Nat} (wrote : Wrote c d m n)
    (direct : m.data.take n = [] ∨ c.outputBuffer = []) :
    d.accepted ++ (d.outputBuffer ++ m.data.drop n) = c.accepted ++ c.outputBuffer ++ m.data := by
  rw [wrote.accepted, wrote.output.2, Watermark.append_written _ _ _ _ direct]

theorem outgoing_sendInLoop (wrote : Option Nat) (head : c.todo = .sendInLoop m :: rest)
    (up : c.state ≠ .disconnected) (ran : c.sendInLoop m wrote rest = some c') :
    c'.outgoing = c.accepted ++ c.outputBuffer ++ m.data ++ c.owed.flatten ∧
      c'.sent = c.sent ++ [m] := by
  have owed : c.owed = (rest ++ c.stack.flatten).filterMap holds := by
    rw [owed, ahead, head]
    rfl
  cases sends_sendInLoop wrote rest ran with
  | drops closed => exact absurd closed up
  | whole d written direct next =>
    subst next
    have places := written.places (.inr direct)
    rw [drop_length, append_nil] at places
    refine ⟨?_, congrArg Mail.sent written.mail⟩
    rw [outgoing, ← places, owed, ← written.stack]
    rfl
  | leaves d n written direct next =>
    subst next
    rw [queueRest_eq, outgoing, ← written.places direct, owed, ← written.stack]
    have sent : d.sent = c.sent ++ [m] := congrArg Mail.sent written.mail
    split
    next nothing =>
      rw [nothing, append_nil]
      exact ⟨rfl, sent⟩
    next =>
      split
      -- the callback is called again, and what is left here comes before what was owed
      · refine ⟨?_, sent⟩
        rw [TcpConnection.owed, ahead_invoke]
        simp [holds, invoke, note]
      · refine ⟨?_, (congrArg Mail.sent (mail_queueOutput d _ rest)).trans sent⟩
        rw [accepted_queueOutput, buffer_queueOutput, TcpConnection.owed, ahead_queueOutput]
        rfl

/-- What is sent inside the callback comes before the rest of the message it is called for.
The order is then kept only if it makes no difference which of the two comes first. -/
theorem ordered_sendInLoop_iff (wrote : Option Nat) (head : c.todo = .sendInLoop m :: rest)
    (up : c.state ≠ .disconnected) (ran : c.sendInLoop m wrote rest = some c')
    (ordered : c.outgoing = (c.sent.map (·.data)).flatten) :
    c'.outgoing = (c'.sent.map (·.data)).flatten ↔
      m.data ++ c.owed.flatten = c.owed.flatten ++ m.data := by
  obtain ⟨after, sent⟩ := outgoing_sendInLoop wrote head up ran
  rw [after, sent, map_append, flatten_append, ← ordered, outgoing]
  simp

end Overtaking

/-- The callback answers with a message of its own, while the kernel takes nothing. -/
def answered : List Event :=
  [.establish, .returns, .task none none, .task none none,
    .send [1, 2], .task none none, .send [3, 4], .task none none, .returns, .task none none,
    .task none none, .returns, .task none none, .task none none]

/-- What the callback sends is buffered before the message it was called for, and it is called
twice although the queue grows over the mark once. -/
theorem answered_overtakes :
    (run (remembering step noteCrossing) (initial { highWaterMark := some 2 }, 0) answered).map
        (fun x => (x.1.sent.map (·.data), x.1.accepted ++ x.1.outputBuffer, x.1.fired, x.2)) =
      some ([[1, 2], [3, 4]], [3, 4, 1, 2], 2, 1) ∧
    ¬Always (remembering step noteCrossing) MarkedInOrder (initial { highWaterMark := some 2 }, 0)
      answered := by
  decide +kernel

end Cox.Net.TcpConnection
