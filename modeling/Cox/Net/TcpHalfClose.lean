import Cox.Net.TcpOutput
import Cox.Net.TcpPosts

/-!
# Half-close

`shutdown` says that nothing will follow, and `shutdownInLoop` tells the kernel so as soon as
the output is drained. What was sent before must have been handed to `write` by then, and after
it nothing is written or buffered any more.

That is so on every run that half-closes only when the loop thread has run the `sendInLoop` of
every `send` that saw `kConnected`, and has buffered what `write` did not take. Nothing in the
code waits for that: `shutdown` on the loop thread runs `shutdownInLoop` at once, ahead of the
tasks in the queue, and `handleWrite` half-closes as soon as it finds `kDisconnecting`.
-/
namespace Cox.Net.TcpConnection

open Cox.Lib Cox.Lib.Machine List

def HalfCloses (c : TcpConnection) : Event → Prop
  | .task _ _ => c.todo.head? = some .shutdownInLoop ∧ c.isWriting = false
  | _ => False

/-- The step is a call of `shutdown` that sees `kConnected`. -/
def CallsShutdown (c : TcpConnection) : Event → Prop
  | .task _ _ => c.todo.head? = some .shutdown ∧ c.state = .connected
  | .call _ .shutdown => c.state = .connected
  | _ => False

instance (c : TcpConnection) (e : Event) : Decidable (HalfCloses c e) := by
  apply @Event.casesOn (fun e => Decidable (HalfCloses c e)) e <;> intros <;> unfold HalfCloses <;>
    infer_instance

instance (c : TcpConnection) (e : Event) : Decidable (CallsShutdown c e) := by
  apply @Event.casesOn (fun e => Decidable (CallsShutdown c e)) e <;> intros <;>
    unfold CallsShutdown
  case call t call => split <;> infer_instance
  all_goals infer_instance

/-- The messages that are due: those whose `send` saw `kConnected` before `shutdown` was
called. -/
def noteDue (c : TcpConnection) (e : Event) (due : List Message) : List Message :=
  if CallsShutdown c e then c.called else due

/-- The messages that are due are among the sent ones, and `write` has taken all their bytes. -/
def HandedOver (due : List Message) (c : TcpConnection) : Prop :=
  due.Subperm c.sent ∧ c.accepted.Perm (c.sent.map Message.data).flatten

/-- A half-close of a connection that was never disconnected comes after what is due, and
after it nothing is written and nothing is buffered. -/
def Orderly (x : TcpConnection × List Message) (e : Event) : Prop :=
  (HalfCloses x.1 e → .connection false ∉ x.1.log → HandedOver x.2 x.1) ∧
    (.shutdownWrite ∈ x.1.log → ∀ c' ∈ x.1.step e,
      c'.log.count .write = x.1.log.count .write ∧ c'.outputBuffer = x.1.outputBuffer)

/-- When the connection is half-closed, the loop thread has come to every message, and none
waits for a callback to be buffered. -/
def HalfClosesSettled (c : TcpConnection) (e : Event) : Prop :=
  HalfCloses c e → c.executed.Perm c.called ∧ c.waiting.filterMap holds = []

instance (x : TcpConnection × List Message) (e : Event) : Decidable (Orderly x e) :=
  inferInstanceAs (Decidable ((_ → _ → _ ∧ _) ∧ (_ → ∀ c' ∈ x.1.step e, _ ∧ _)))

instance (c : TcpConnection) (e : Event) : Decidable (HalfClosesSettled c e) :=
  inferInstanceAs (Decidable (_ → _ ∧ _))

/-! ### Only `shutdownInLoop` half-closes -/

section Unended

variable {c c' d : TcpConnection} {rest : List ConnTask}

theorem log_queueOutput (data : Bytes) : (d.queueOutput data rest).log = d.log := by
  unfold queueOutput
  split <;> rfl

theorem unended_queueRest (data : Bytes) (ended : .shutdownWrite ∈ (d.queueRest data rest).log) :
    .shutdownWrite ∈ d.log := by
  unfold queueRest at ended
  split at ended
  · exact ended
  · dsimp only at ended
    split at ended
    · split at ended
      · simpa [invoke, note] using ended
      · rwa [log_queueOutput] at ended
    · rwa [log_queueOutput] at ended

theorem unended_sendInLoop (m : Message) (wrote : Option Nat)
    (ran : c.sendInLoop m wrote rest = some c') (ended : .shutdownWrite ∈ c'.log) :
    .shutdownWrite ∈ c.log := by
  -- at most the write is noted
  have noted (d : TcpConnection) (n : Nat) (written : Wrote c d m n)
      (inside : .shutdownWrite ∈ d.log) : .shutdownWrite ∈ c.log := by
    rcases written.log with log | log
    · rwa [log] at inside
    · simpa [log] using inside
  cases sends_sendInLoop wrote rest ran with
  | drops closed next =>
    rw [next] at ended
    exact ended
  | whole d written direct next =>
    rw [next] at ended
    exact noted d _ written (by simpa [invoke, note] using ended)
  | leaves d n written direct next =>
    rw [next] at ended
    exact noted d n written (unended_queueRest _ ended)

theorem unended_handleWrite (wrote : Option Nat) (ran : c.handleWrite wrote rest = some c')
    (ended : .shutdownWrite ∈ c'.log) : .shutdownWrite ∈ c.log := by
  have noted (inside : .shutdownWrite ∈ (c.note .write).log) : .shutdownWrite ∈ c.log := by
    simpa [note] using inside
  cases flushes_handleWrite c c' wrote rest ran with
  | unasked next =>
    rw [next] at ended
    exact ended
  | nothing on next =>
    rw [next] at ended
    exact noted ended
  | takes n on within next =>
    rw [next, written] at ended
    refine noted ?_
    split at ended
    · simpa [invoke, note, accept, retrieve, disableWrite, cancelWriteTimer] using ended
    · exact ended

theorem unended_exec (read : Option Bytes) (wrote : Option Nat) (t : ConnTask)
    (other : t ≠ .shutdownInLoop) (ran : c.exec read wrote rest t = some c')
    (ended : .shutdownWrite ∈ c'.log) : .shutdownWrite ∈ c.log := by
  by_cases handles : Handles t
  · cases t with
    | sendInLoop m => exact unended_sendInLoop m wrote ran ended
    | handleWrite => exact unended_handleWrite wrote ran ended
    | queueOutput data =>
      cases ran
      rwa [log_queueOutput] at ended
    | handleClose | disconnect =>
      cases ran
      simpa [handleClose, notify, invoke, note, disableAll, cancelTimers, setState] using ended
    | setDisconnecting =>
      cases ran
      exact ended
    | shutdownInLoop => exact absurd rfl other
    | _ => exact handles.elim
  · obtain ⟨new, passes⟩ := passes_exec rest read wrote t handles ran
    obtain ⟨notes, log, plain⟩ := passes.aside.log
    rw [log] at ended
    exact (mem_append.mp ended).elim id fun inside => absurd rfl (plain _ inside).2.1

/-- A step of the connection is one of the handover, and only a half-close ends it. -/
theorem Posts.step (posts : Posts c) (e : Event) (stepped : c.step e = some c') :
    Posts c' ∧ Hands c c' ∧
      (.shutdownWrite ∈ c'.log → .shutdownWrite ∈ c.log ∨ HalfCloses c e) := by
  have moves := moves_step stepped
  -- the loop thread's tasks on the one side, everything else on the other
  by_cases runs : ∃ read wrote, e = .task read wrote
  · obtain ⟨read, wrote, rfl⟩ := runs
    cases moves with
    | begins begins => exact begins.elim
    | task _ _ t rest head ran =>
      refine ⟨posts.task read wrote t head ran, hands_exec posts read wrote t head ran,
        fun ended => ?_⟩
      by_cases closes : t = .shutdownInLoop
      · subst closes
        simp only [exec] at ran
        split at ran <;> cases ran
        · exact .inl ended
        -- `SHUT_WR` is issued here and nowhere else
        next drained => exact .inr ⟨by rw [head]; rfl, (Bool.not_eq_true _).mp drained⟩
      · exact .inl (unended_exec read wrote t closes ran ended)
  · have keeps := keeps_moves posts e (fun read wrote same => runs ⟨read, wrote, same⟩) moves
    exact ⟨keeps.posts, keeps.hands, fun ended => .inl (keeps.unended ended)⟩

end Unended

/-! ### Runs -/

section Run

variable {c c' : TcpConnection} {due : List Message}

structure Handed (x : TcpConnection × List Message) : Prop where
  posts : Posts x.1
  sound : Handover.Sound Message.data x.1.handover
  due : x.2.Subperm x.1.called

theorem settled_iff (c : TcpConnection) : Handover.Settled c.handover ↔
    c.executed.Perm c.called ∧ c.waiting.filterMap holds = [] :=
  ⟨fun settled => ⟨settled.reached, settled.placed⟩, fun settled => ⟨settled.1, settled.2⟩⟩

section Handed

variable (handed : Handed (c, due)) (e : Event) (settled : HalfClosesSettled c e)
  (stepped : c.step e = some c')
include handed settled stepped

theorem Handed.step : Handed (c', noteDue c e due) := by
  obtain ⟨posts, hands, ended⟩ := handed.posts.step e stepped
  refine ⟨posts, handed.sound.step hands fun after => ?_, ?_⟩
  -- the end was told before, or it is told now, when everything is settled
  · rcases ended (contains_iff_mem.mp after) with before | closes
    · exact .inl (contains_iff_mem.mpr before)
    · exact .inr ((settled_iff c).mpr (settled closes))
  · obtain ⟨more, grown⟩ := hands.called_grows
    have within : c.called.Subperm c'.called := by
      rw [show c'.called = c.called ++ more from grown]
      exact (sublist_append_left ..).subperm
    show (noteDue c e due).Subperm _
    unfold noteDue
    split
    · exact within
    · exact handed.due.trans within

theorem Handed.orderly : Orderly (c, due) e := by
  obtain ⟨_, hands, _⟩ := handed.posts.step e stepped
  constructor
  · intro closes up
    -- `shutdownInLoop` looks at the interest in writability, not at the buffer
    have drained : c.isWriting = false := by
      cases e with
      | task read wrote => exact closes.2
      | _ => exact closes.elim
    have intact : c.handover.intact = true := by
      show (!c.log.contains _) = true
      simpa using up
    obtain ⟨all, taken⟩ := handed.sound.delivered ((settled_iff c).mpr (settled closes)) intact drained
    exact ⟨handed.due.trans all.subperm, taken⟩
  -- after the end: nothing is on its way, nothing is held and nothing is watched
  · intro ended d same
    have same' : c.step e = some d := same
    rw [stepped] at same'
    cases same'
    exact handed.sound.still (contains_iff_mem.mpr ended) hands

end Handed

theorem handed_initial (settings : Settings) : Handed (initial settings, []) := by
  refine ⟨⟨?_, ?_, ?_⟩, ⟨?_, ?_, ?_, ?_, ?_, ?_, ?_⟩, ?_⟩
  · intro t phase entered
    cases entered
  · intro _
    exact ⟨.inr not_mem_nil, not_mem_nil, fun t entered => by cases entered⟩
  · intro closed
    cases closed
  · intro m
    have nobody : calling (fun _ => none) m.origin = [] := by
      cases m.origin with
      | none => rfl
      | some t => rfl
    show 0 = 0 + (0 + (calling (fun _ => none) m.origin).count m)
    rw [nobody]
    rfl
  · intro _
    rfl
  · exact List.Perm.refl _
  · intro rest inside
    cases inside
  · intro interest
    cases interest
  · intro _ some
    exact absurd rfl some
  · intro ended
    cases ended
  · exact List.Subperm.refl _

end Run

/-- **Half-close**: on every run that half-closes only when the loop thread has come to every
message, what is due is handed to `write` before `SHUT_WR`, and nothing is written or buffered
after it. -/
theorem orderly_of_settled (settings : Settings) (events : List Event)
    (settled : Meets step HalfClosesSettled (initial settings) events) :
    Meets (remembering step noteDue) Orderly (initial settings, []) events :=
  meets_remembering (fun _ _ e _ handed settled stepped => handed.step e settled stepped)
    (fun _ _ e _ handed settled stepped => handed.orderly e settled stepped) _ _ events
    (handed_initial ..) settled

/-! ### Only the loop thread sends -/

section Alone

variable {c c' : TcpConnection} {due : List Message}

/-- Nothing of another thread carries a message, and nothing waits behind a callback for the
high-water mark. -/
structure Alone (c : TcpConnection) : Prop where
  unmarked : c.highWaterMark = none
  shaped : Shaped Passive c
  queued : ∀ t ∈ c.batch ++ c.pendingTasks, Light t
  calls : ∀ t, calling c.inCall (some t) = []

theorem light_of_passive (t : ConnTask) (passive : Passive t) : Light t := by
  cases t <;> first | exact ⟨rfl, rfl⟩ | exact passive.elim

variable (alone : Alone c)
include alone

theorem Alone.light (head : c.todo.head? = some .shutdownInLoop) : ∀ t ∈ c.waiting, Light t := by
  intro t inside
  rcases mem_append.mp inside with ahead | later
  · cases todo : c.todo with
    | nil =>
      rw [todo] at head
      cases head
    | cons first rest =>
      rw [todo] at ahead head
      cases head
      -- a `sendInLoop` of the loop thread's own runs at once, so none stands behind
      rcases mem_cons.mp ahead with rfl | behind
      · exact ⟨rfl, rfl⟩
      · exact light_of_passive t (alone.shaped.todo t (by rw [todo]; exact behind))
  · rcases mem_append.mp later with stacked | queued
    · obtain ⟨frame, framed, member⟩ := mem_flatten.mp stacked
      exact light_of_passive t (alone.shaped.stack frame framed t member)
    · exact alone.queued t queued

theorem Alone.settled (sound : Handover.Sound Message.data c.handover) (e : Event) :
    HalfClosesSettled c e := by
  intro closes
  have head : c.todo.head? = some .shutdownInLoop := by
    cases e with
    | task read wrote => exact closes.1
    | _ => exact closes.elim
  have light := alone.light head
  have carried : c.waiting.filterMap carries = [] :=
    filterMap_eq_nil_iff.mpr fun t inside => (light t inside).1
  refine ⟨perm_iff_count.mpr fun m => ?_, filterMap_eq_nil_iff.mpr fun t inside =>
    (light t inside).2⟩
  have calling : calling c.inCall m.origin = [] := by
    cases m.origin with
    | none => rfl
    | some t => exact alone.calls t
  -- no message is on its way, so all that were called have been run
  have flight : c.inFlight m = 0 := by rw [inFlight, carried, calling]; rfl
  have accounted : c.called.count m = c.executed.count m + c.inFlight m := sound.accounted m
  omega

theorem Alone.elsewhere (shaped : Shaped Passive c') (mark : c'.highWaterMark = c.highWaterMark)
    (inCall : c'.inCall = c.inCall)
    (queued : ∀ t ∈ c'.batch ++ c'.pendingTasks, t ∈ c.batch ++ c.pendingTasks) : Alone c' :=
  ⟨mark.trans alone.unmarked, shaped, fun t inside => alone.queued t (queued t inside),
    inCall ▸ alone.calls⟩

theorem Alone.enter (t : ThreadId) (phase : Option CallPhase)
    (empty : calling (fun _ => phase) (some t) = []) : Alone (c.enter t phase) := by
  refine ⟨alone.unmarked, alone.shaped.same rfl rfl, alone.queued, fun u => ?_⟩
  show calling (Function.update c.inCall t phase) (some u) = []
  rw [calling_update]
  split
  next here =>
    cases here
    exact empty
  · exact alone.calls u

theorem Alone.startCall (t : ThreadId) (call : Call) (own : ∀ data, call ≠ .send data) :
    Alone (c.startCall t call) := by
  cases call with
  | send data => exact absurd rfl (own data)
  | shutdown =>
    unfold TcpConnection.startCall
    dsimp only
    split
    · exact alone.enter t _ rfl
    · exact alone
  | forceClose =>
    unfold TcpConnection.startCall
    dsimp only
    split
    · exact alone.enter t _ rfl
    · exact alone.enter t _ rfl
  | stopRead | startRead => exact alone.enter t _ rfl

theorem Alone.continueCall (posts : Posts c) (t : ThreadId) (phase : CallPhase)
    (inCall : c.inCall t = some phase) : Alone (c.continueCall t phase) := by
  cases phase with
  | forceCloseDisconnecting =>
    unfold TcpConnection.continueCall
    dsimp only
    split
    · exact alone.enter t _ rfl
    · exact alone.enter t _ rfl
  | storing task =>
    have allowed : task = .shutdownInLoop ∨ task = .forceCloseInLoop := posts.proper t _ inCall
    have empty : calling (fun _ => some (.queueing task)) (some t) = [] := by
      rcases allowed with rfl | rfl
      · rfl
      · rfl
    -- the state plays no part in this
    have stored : Alone (c.setState .disconnecting) :=
      alone.elsewhere (alone.shaped.same rfl rfl) rfl rfl fun _ => id
    exact stored.enter t _ empty
  | queueing task =>
    have light : Light task := by
      refine ⟨?_, (posts.proper t _ inCall).1⟩
      have nothing := alone.calls t
      simp only [calling, inCall] at nothing
      exact Option.toList_eq_nil_iff.mp nothing
    have queued : Alone { c with pendingTasks := c.pendingTasks ++ [task] } :=
      ⟨alone.unmarked, alone.shaped.same rfl rfl, forall_mem_queued alone.queued task light,
        alone.calls⟩
    exact queued.enter t none rfl

theorem Alone.step (posts : Posts c) (e : Event) (own : ∀ t data, e ≠ .call t (.send data))
    (stepped : c.step e = some c') : Alone c' := by
  have shaped := alone.shaped.step e (passive_waits e alone.unmarked) stepped
  cases moves_step stepped with
  | establish | begins | returns | send => exact alone.elsewhere shaped rfl rfl fun _ => id
  | refuses => exact alone
  | task read wrote t rest head ran =>
    obtain ⟨inCall, batch, pending, mark⟩ := posting_exec read wrote t ran
    exact alone.elsewhere shaped mark inCall (by rw [batch, pending]; exact fun _ => id)
  | doPendingTasks =>
    exact alone.elsewhere shaped rfl rfl fun u inside =>
      mem_append_right _ (by simpa using inside)
  | nextPendingTask t batch _ _ first =>
    refine alone.elsewhere shaped rfl rfl fun u inside => ?_
    rw [first]
    exact mem_cons_of_mem t inside
  | call t call _ _ _ called =>
    exact called ▸ alone.startCall t call (fun data same => own t data (by rw [same]))
  | proceed t phase inside _ _ _ same => exact same ▸ alone.continueCall posts t phase inside

end Alone

/-- If only the loop thread sends and no callback is set for the high-water mark, every
half-close is settled, whoever calls `shutdown`. -/
theorem halfClosesSettled_of_loopSends (settings : Settings) (events : List Event)
    (own : ∀ e ∈ events, ∀ t data, e ≠ .call t (.send data)) :
    Meets step HalfClosesSettled (initial { settings with highWaterMark := none }) events := by
  have meets : Meets step (fun _ e => ∀ t data, e ≠ .call t (.send data))
      (initial { settings with highWaterMark := none }) events :=
    meets_of_forall _ events own
  have first : Alone (initial { settings with highWaterMark := none }) :=
    ⟨rfl, ⟨fun _ h => (by cases h), fun _ h => (by cases h)⟩, fun _ h => (by cases h), fun _ => rfl⟩
  have always : Always step (fun c => (∃ due, Handed (c, due)) ∧ Alone c)
      (initial { settings with highWaterMark := none }) events := by
    refine always_of_meets (fun c e c' inv own stepped => ?_) _ events
      ⟨⟨[], handed_initial ..⟩, first⟩ meets
    obtain ⟨⟨due, handed⟩, alone⟩ := inv
    exact ⟨⟨_, handed.step e (alone.settled handed.sound e) stepped⟩,
      alone.step handed.posts e own stepped⟩
  refine Meets.imp (fun c e c' inv _ _ => ?_) _ events always meets
  obtain ⟨⟨due, handed⟩, alone⟩ := inv
  exact alone.settled handed.sound e

/-- A message of the loop thread is written in part before the callback calls `shutdown`. -/
theorem halfClosesSettled_ownSend :
    let events : List Event :=
      [.establish, .returns, .task none none, .task none none, .send [1, 2], .task none (some 1),
        .task none none, .shutdown, .task none none, .task none none, .task none none,
        .dispatch false false true, .task none (some 1), .returns, .task none none, .task none none]
    (run step (initial {}) events).map (·.log) =
        some [.connection true, .write, .write, .writeComplete, .shutdownWrite] ∧
      Meets step HalfClosesSettled (initial {}) events :=
  ⟨by decide +kernel, halfClosesSettled_of_loopSends {} _ (by simp)⟩

/-- Another thread's message is written in part, and that thread calls `shutdown`: the
half-close waits for the rest. -/
def partlyWritten : List Event :=
  [.establish, .returns, .task none none, .task none none,
    .call 7 (.send [1, 2]), .proceed 7, .call 7 .shutdown,
    .doPendingTasks, .nextPendingTask, .task none (some 1), .task none none,
    .proceed 7, .proceed 7, .doPendingTasks, .nextPendingTask, .task none none,
    .dispatch false false true, .task none (some 1), .returns, .task none none, .task none none]

theorem orderly_partlyWritten :
    Meets step HalfClosesSettled (initial {}) partlyWritten ∧
      Meets (remembering step noteDue) Orderly (initial {}, []) partlyWritten ∧
      (run step (initial {}) partlyWritten).map (·.log) =
        some [.connection true, .write, .write, .writeComplete, .shutdownWrite] :=
  have settled : Meets step HalfClosesSettled (initial {}) partlyWritten := by
    decide +kernel
  ⟨settled, orderly_of_settled {} partlyWritten settled, by decide +kernel⟩

/-- The message callback calls `shutdown` while the message of another thread is in the
queue. -/
def overtaken : List Event :=
  [.establish, .returns, .task none none, .task none none,
    .call 7 (.send [1, 2]), .proceed 7,
    .dispatch false true false, .task (some [9]) none,
    .shutdown, .task none none, .task none none, .task none none]

/-- `SHUT_WR` is issued ahead of the message, which is written after it. -/
theorem overtaken_notOrderly :
    ¬Meets (remembering step noteDue) Orderly (initial {}, []) overtaken ∧
      (run step (initial {}) (overtaken ++ [.returns, .task none none, .doPendingTasks,
        .nextPendingTask, .task none (some 2)])).map (·.log) =
        some [.connection true, .message, .shutdownWrite, .write, .writeComplete] := by
  decide +kernel

-- One thread sends twice and then shuts down. `handleWrite` drains the first message, finds
-- `kDisconnecting` and half-closes; the second message is still in the queue.
example : ¬Meets (remembering step noteDue) Orderly (initial {}, [])
    [.establish, .returns, .task none none, .task none none,
      .call 7 (.send [1, 2]), .proceed 7,
      .doPendingTasks, .nextPendingTask, .task none (some 1), .task none none,
      .call 7 (.send [3]), .proceed 7, .call 7 .shutdown, .proceed 7,
      .dispatch false false true, .task none (some 1), .returns, .task none none,
      .task none none] := by
  decide +kernel

end Cox.Net.TcpConnection
