import Cox.Net.TcpMail
import Cox.Net.TcpOutbox

/-!
# The output of a connection

What the kernel has accepted, followed by the output buffer, is the concatenation of the
messages that were sent, in the order in which the loop thread came to them; for each
thread that is the order of its calls. This holds along every run in which other threads
only send, whatever the application does on the loop thread and whatever `write` returns.
-/
namespace Cox.Net.TcpConnection

open Cox.Lib List

/-- The tasks that may wait behind others: none of them sends or stores `kDisconnecting`. -/
def Passive : ConnTask → Prop
  | .sendInLoop _ | .queueOutput _ | .setDisconnecting => False
  | _ => True

structure Streams (c : TcpConnection) : Prop where
  unmarked : c.highWaterMark = none
  shaped : Shaped Passive c
  direct : ∀ data rest, c.todo ≠ .queueOutput data :: rest
  stillOpen : ∀ rest, c.todo = .setDisconnecting :: rest → c.state ≠ .disconnected
  lossless : c.outbox.Lossless
  outside : Outside c.mail
  ordered : Ordered c.todo c.mail
  settled : c.state ≠ .disconnected → c.executed = c.sent
  ran : c.sent <+: c.executed

section Run

variable {c c' : TcpConnection}

theorem carries_passive (tasks : List ConnTask) (passive : ∀ t ∈ tasks, Passive t) :
    tasks.filterMap carries = [] := by
  refine filterMap_eq_nil_iff.mpr (fun t member => ?_)
  have quiet := passive t member
  cases t <;> first | rfl | exact quiet.elim

theorem passive_waits (e : Event) (unmarked : c.highWaterMark = none) (t : ConnTask)
    (waits : Waits c e t) : Passive t := by
  rcases waits_cases waits with ⟨_, rfl⟩ | ⟨_, rfl | rfl⟩ | (rfl | rfl) | ⟨_, _, _, _, follows⟩
  case inr.inr.inr => cases t <;> trivial
  all_goals trivial

theorem passive_starts (e : Event) (t : ConnTask) (starts : Starts c e t) : Passive t := by
  rcases starts_cases starts with ⟨_, rfl | rfl⟩ | ⟨opening, _⟩
  · trivial
  · trivial
  · simp only [openings, mem_cons, not_mem_nil, or_false] at opening
    rcases opening with rfl | rfl | rfl | rfl | rfl | rfl | rfl | rfl | rfl
    all_goals trivial

variable (streams : Streams c)
include streams

theorem head_flows (t : ConnTask) (rest : List ConnTask) (head : c.todo = t :: rest)
    (flow : Flows c c' t rest) :
    c'.todo.filterMap carries = [] ∧ (∀ data rest, c'.todo ≠ .queueOutput data :: rest) ∧
      ∀ rest, c'.todo = .setDisconnecting :: rest → c'.state ≠ .disconnected := by
  have waiting : ∀ t ∈ rest, Passive t := by
    have tail := streams.shaped.todo
    rwa [head] at tail
  have follows (u : ConnTask) (follows : Follows c t u) : Passive u :=
    passive_waits (.task none none) streams.unmarked u ⟨t, follows⟩
  cases flow with
  | goesOn new todo stack behind heads =>
    rw [todo]
    cases new with
    | nil =>
      -- no new task: what waited behind comes first, and that is passive
      refine ⟨carries_passive rest waiting, fun data later eq => ?_, fun later eq => ?_⟩
      · exact (waiting (.queueOutput data) (by simp [show rest = _ from eq])).elim
      · exact (waiting .setDisconnecting (by simp [show rest = _ from eq])).elim
    | cons first new =>
      have placed := heads first rfl
      have tail : (new ++ rest).filterMap carries = [] := by
        refine carries_passive _ (fun t inside => ?_)
        rcases mem_append.mp inside with h | h
        · exact follows t (behind t h)
        · exact waiting t h
      have none : carries first = none := by cases first <;> first | rfl | exact placed.elim
      refine ⟨by simpa [none] using tail, fun data later eq => ?_, fun later eq => ?_⟩
      · cases (List.cons.inj eq).1
        exact placed
      · cases (List.cons.inj eq).1
        exact placed.1 ▸ placed.2
  | calls new todo stack behind => simp [todo]

theorem Streams.task (read : Option Bytes) (wrote : Option Nat) (t : ConnTask)
    (rest : List ConnTask) (head : c.todo = t :: rest) (ran : c.exec read wrote rest t = some c') :
    Streams c' := by
  have flow := flows_exec c c' read wrote rest t ran
  obtain ⟨quiet, direct, stillOpen⟩ := head_flows streams t rest head flow
  have shaped := streams.shaped.flows t rest head
    (fun u follows => passive_waits (.task read wrote) streams.unmarked u ⟨t, follows⟩) flow
  have outside := streams.outside.task read wrote t rest ran
  -- the output is a step of the abstract outbox; the rest is about who sent what
  have step := outbox_exec c c' read wrote rest t streams.unmarked
    (fun data eq => streams.direct data rest (eq ▸ head))
    (fun eq => streams.stillOpen rest (eq ▸ head)) ran
  have stayed (up : c'.state ≠ .disconnected) : c.state ≠ .disconnected :=
    bne_iff_ne.mp (step.live (bne_iff_ne.mpr up))
  have waiting : rest.filterMap carries = [] := by
    have tail := streams.shaped.todo
    rw [head] at tail
    exact carries_passive rest tail
  have todo : c.todo.filterMap carries = (carries t).toList := by
    rw [head, filterMap_cons, waiting]
    cases carries t <;> rfl
  -- a task that carries no message leaves the history of sends alone
  cases carried : carries t with
  | none =>
    have other : ∀ message, t ≠ .sendInLoop message := by
      rintro message rfl
      cases carried
    have mail := mail_exec c c' read wrote rest t other ran
    have executed : c'.executed = c.executed := congrArg Mail.executed mail
    have sent : c'.sent = c.sent := congrArg Mail.sent mail
    refine ⟨(congrArg Mail.highWaterMark mail).trans streams.unmarked, shaped, direct, stillOpen,
      streams.lossless.step step, outside, ?_, fun up => ?_, ?_⟩
    · rw [mail]
      exact streams.ordered.retask _ (by rw [quiet, todo, carried]; rfl)
    · rw [executed, sent]
      exact streams.settled (stayed up)
    · rw [executed, sent]
      exact streams.ran
  | some message =>
    have task : t = .sendInLoop message := by
      cases t <;> cases carried
      rfl
    subst task
    have mail := mail_sendInLoop c c' message wrote rest ran
    have ordered (sent : List Message) := streams.ordered.reaches message c'.todo sent
      (by rw [todo, carried]; rfl) quiet
    split at mail
    -- a message that comes too late is dropped, and so is every later one
    next closed =>
      have executed : c'.executed = c.executed ++ [message] := congrArg Mail.executed mail
      have sent : c'.sent = c.sent := congrArg Mail.sent mail
      refine ⟨(congrArg Mail.highWaterMark mail).trans streams.unmarked, shaped, direct, stillOpen,
        streams.lossless.step step, outside, ?_, fun up => absurd closed (stayed up), ?_⟩
      · rw [mail]
        exact ordered c.sent
      · rw [executed, sent]
        exact streams.ran.trans (prefix_append _ _)
    -- up to now every message was sent, and so is this one
    next up =>
      have executed : c'.executed = c.executed ++ [message] := congrArg Mail.executed mail
      have sent : c'.sent = c.sent ++ [message] := congrArg Mail.sent mail
      have settled : c'.executed = c'.sent := by rw [executed, sent, streams.settled up]
      refine ⟨(congrArg Mail.highWaterMark mail).trans streams.unmarked, shaped, direct, stillOpen,
        streams.lossless.step step, outside, ?_, fun _ => settled, settled ▸ prefix_rfl⟩
      rw [mail]
      exact ordered (c.sent ++ [message])

theorem Streams.frame (outbox : c'.outbox = c.outbox)
    (unmarked : c'.highWaterMark = c.highWaterMark) (executed : c'.executed = c.executed)
    (sent : c'.sent = c.sent) (shaped : Shaped Passive c')
    (direct : ∀ data rest, c'.todo ≠ .queueOutput data :: rest)
    (stillOpen : ∀ rest, c'.todo = .setDisconnecting :: rest → c'.state ≠ .disconnected)
    (outside : Outside c'.mail) (ordered : Ordered c'.todo c'.mail) : Streams c' := by
  have live : c.outbox.live = c'.outbox.live := congrArg Outbox.live outbox.symm
  have stayed (up : c'.state ≠ .disconnected) : c.state ≠ .disconnected :=
    bne_iff_ne.mp (live.trans (bne_iff_ne.mpr up))
  refine ⟨unmarked.trans streams.unmarked, shaped, direct, stillOpen, outbox ▸ streams.lossless,
    outside, ordered, fun up => ?_, ?_⟩
  · rw [executed, sent]
    exact streams.settled (stayed up)
  · rw [executed, sent]
    exact streams.ran

theorem Streams.begins (outbox : c'.outbox = c.outbox) (mail : c'.mail = c.mail)
    (shaped : Shaped Passive c') (idle : c.todo = []) (passive : ∀ t ∈ c'.todo.head?, Passive t) :
    Streams c' := by
  have all : ∀ t ∈ c'.todo, Passive t := by
    intro t inside
    have tail := shaped.todo
    cases tasks : c'.todo with
    | nil => simp [tasks] at inside
    | cons first later =>
      rw [tasks] at inside tail passive
      rcases mem_cons.mp inside with rfl | h
      · exact passive t rfl
      · exact tail t h
  refine streams.frame outbox (congrArg Mail.highWaterMark mail) (congrArg Mail.executed mail)
    (congrArg Mail.sent mail) shaped (fun data rest eq => ?_) (fun rest eq => ?_)
    (mail ▸ streams.outside) ?_
  · exact (all (.queueOutput data) (by simp [eq])).elim
  · exact (all .setDisconnecting (by simp [eq])).elim
  · rw [mail]
    refine streams.ordered.retask _ ?_
    rw [carries_passive _ all, idle]
    rfl

theorem Streams.elsewhere (outbox : c'.outbox = c.outbox) (todo : c'.todo = c.todo)
    (state : c'.state = c.state) (unmarked : c'.highWaterMark = c.highWaterMark)
    (executed : c'.executed = c.executed) (sent : c'.sent = c.sent) (shaped : Shaped Passive c')
    (outside : Outside c'.mail) (ordered : Ordered c.todo c'.mail) : Streams c' := by
  refine streams.frame outbox unmarked executed sent shaped ?_ ?_ outside (todo ▸ ordered)
  · rw [todo]
    exact streams.direct
  · rw [todo, state]
    exact streams.stillOpen

theorem Streams.startCall (t : ThreadId) (call : Call) (sends : OthersSend (.call t call))
    (idle : c.inCall t = none) (shaped : Shaped Passive (c.startCall t call))
    (outside : Outside (c.startCall t call).mail) : Streams (c.startCall t call) := by
  cases call with
  | shutdown | forceClose => exact sends.elim
  | send data =>
    unfold TcpConnection.startCall at shaped outside ⊢
    dsimp only at shaped outside ⊢
    split
    next up =>
      rw [if_pos up] at shaped outside
      exact streams.elsewhere rfl rfl rfl rfl rfl rfl shaped outside
        (streams.ordered.call t (.sendInLoop ⟨some t, data⟩) idle
          ⟨by simp [Posted], fun message carried => by cases carried; rfl⟩)
    · exact streams
  | stopRead =>
    have ordered := streams.ordered.call t .stopReadInLoop idle ⟨trivial, fun _ h => by cases h⟩
    simp only [carries, Option.toList_none, append_nil] at ordered
    exact streams.elsewhere rfl rfl rfl rfl rfl rfl shaped outside ordered
  | startRead =>
    have ordered := streams.ordered.call t .startReadInLoop idle ⟨trivial, fun _ h => by cases h⟩
    simp only [carries, Option.toList_none, append_nil] at ordered
    exact streams.elsewhere rfl rfl rfl rfl rfl rfl shaped outside ordered

theorem Streams.step (e : Event) (sends : OthersSend e) (stepped : c.step e = some c') :
    Streams c' := by
  have shaped := streams.shaped.step e (passive_waits e streams.unmarked) stepped
  have outside := streams.outside.step e sends stepped
  cases moves_step stepped with
  | task read wrote t rest head ran => exact streams.task read wrote t rest head ran
  | establish between fresh =>
    refine streams.begins ?_ (by simp) shaped between.1 (by simp [notify, invoke])
    rw [outbox_notify, outbox_enableRead, outbox_setState c _ (by simp [fresh]) (by simp)]
  | begins _ idle _ _ _ _ _ starts =>
    exact streams.begins rfl rfl shaped idle (fun t first => passive_starts _ t (starts t first))
  | returns rest stack idle framed =>
    refine streams.begins rfl rfl shaped idle (fun t first => ?_)
    have member : rest ∈ c.stack := framed ▸ mem_cons_self ..
    exact streams.shaped.stack rest member t (mem_of_mem_head? first)
  | send data idle =>
    refine streams.frame rfl rfl rfl rfl shaped (by simp [next]) (by simp [next]) outside ?_
    have ordered := streams.ordered
    rw [idle] at ordered
    exact ordered.send streams.outside data
  | refuses => exact streams
  | doPendingTasks between =>
    exact streams.elsewhere rfl rfl rfl rfl rfl rfl shaped outside
      (streams.ordered.takes between.2.2)
  | nextPendingTask t batch idle _ first =>
    have ordered := streams.ordered
    rw [idle] at ordered
    have posted := streams.outside.posted t (by simp [mail, first])
    refine streams.frame rfl rfl rfl rfl shaped (fun data rest eq => ?_) (fun rest eq => ?_)
      outside (ordered.nextTask t batch first)
    · cases (List.cons.inj eq).1
      exact posted
    · cases (List.cons.inj eq).1
      exact posted.elim
  | call t call idle _ _ same =>
    rw [← same] at shaped outside ⊢
    exact streams.startCall t call sends idle shaped outside
  | proceed t phase inside _ _ _ same =>
    -- the only calls of other threads are about to queue a task of their own
    obtain ⟨task, rfl, posted⟩ := streams.outside.calls t phase inside
    rw [← same] at shaped outside ⊢
    exact streams.elsewhere rfl rfl rfl rfl rfl rfl shaped outside
      (streams.ordered.queue t task inside posted)

end Run

/-- What was accepted and what is buffered are the messages that were sent, in the order of
the runs of `sendInLoop` and for each thread in the order of its calls; the byte counter is
right modulo 2^64; and an open connection watches for writability exactly while it has
something to write. -/
def OutputInOrder (c : TcpConnection) : Prop :=
  c.accepted ++ c.outputBuffer = (c.sent.map (·.data)).flatten ∧
  (∀ origin, messagesOf origin c.sent <+: messagesOf origin c.called) ∧
  c.bytesWritten.toNat = c.accepted.length % 2 ^ 64 ∧
  (c.state ≠ .disconnected → (c.isWriting = true ↔ c.outputBuffer ≠ []))

theorem Streams.inOrder {c : TcpConnection} (streams : Streams c) : OutputInOrder c := by
  refine ⟨streams.lossless.stream, fun origin => ?_, ?_, fun up => ?_⟩
  · have executed : messagesOf origin c.sent <+: messagesOf origin c.executed :=
      streams.ran.filter _
    refine executed.trans ?_
    have whole := streams.ordered origin
    -- the messages of a thread: those reached, those queued, and the one it is sending
    rw [messagesOf_append, append_assoc] at whole
    exact ⟨_, whole⟩
  · have counted : c.bytesWritten = UInt64.ofNat c.accepted.length := streams.lossless.counted
    rw [counted, UInt64.toNat_ofNat']
  · exact streams.lossless.waits (bne_iff_ne.mpr up)

theorem streams_initial (settings : Settings) :
    Streams (initial { settings with highWaterMark := none }) where
  unmarked := rfl
  shaped := ⟨fun _ h => (by cases h), fun _ h => (by cases h)⟩
  direct _ _ h := by cases h
  stillOpen _ h := by cases h
  lossless := ⟨rfl, rfl, fun _ => by simp [outbox, initial]⟩
  outside := ⟨fun _ h => (by cases h), fun _ _ h => (by cases h)⟩
  ordered origin := by cases origin <;> rfl
  settled _ := rfl
  ran := prefix_rfl

/-- The output is an ordered, lossless stream at every point of every run in which no
callback is set for the high-water mark and other threads only send. -/
theorem outputInOrder_always (settings : Settings) (events : List Event)
    (sends : ∀ e ∈ events, OthersSend e) :
    Machine.Always step OutputInOrder (initial { settings with highWaterMark := none }) events := by
  refine Machine.Always.mono (fun _ (streams : Streams _) => streams.inOrder) _ events ?_
  exact Machine.always_of_meets (C := fun _ e => OthersSend e)
    (fun _ e _ streams sends stepped => streams.step e sends stepped) _ events
    (streams_initial settings) (Machine.meets_of_forall _ events sends)

/-- The loop thread sends a message of which the kernel takes a part; another thread sends
one, which waits behind the rest; the buffer is flushed, and the write-complete callback
sends a third. -/
def threeMessages : List Event :=
  [.establish, .returns, .task none none, .task none none,
    .send [1, 2, 3], .task none (some 1), .task none none,
    .call 7 (.send [4, 5]), .proceed 7, .doPendingTasks, .nextPendingTask, .task none none,
    .task none none, .dispatch false false true, .task none (some 4),
    .send [6], .task none none, .task none none, .returns, .task none none]

theorem outputInOrder_threeMessages :
    (Machine.run step (initial {}) threeMessages).map
        (fun c => (c.accepted, c.outputBuffer, c.isWriting)) = some ([1, 2, 3, 4, 5], [6], true) ∧
    Machine.Always step OutputInOrder (initial {}) threeMessages :=
  ⟨by decide +kernel, outputInOrder_always {} threeMessages (by simp [threeMessages, OthersSend])⟩

end Cox.Net.TcpConnection
