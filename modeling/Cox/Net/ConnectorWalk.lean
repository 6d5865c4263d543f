import Mathlib.Data.List.Chain
import Cox.Lib.Schedule
import Cox.Net.ConnectorSockets

/-!
# The walk over the candidates

After one `start`, the connector should try its candidates one after the other, begin with
the next one as soon as one fails, and after the last one wait for the back-off and begin
again. Every failure comes down to `retry`, but for one: an `errno` of `connect` that the
switch does not list closes the socket and does nothing else. The connector then stays
where it is, wanting a connection.
-/
namespace Cox.Net.Connector

open Cox.Lib List

/-! ### The log of a walk -/

/-- What may follow what in the log, when there are `n` candidates. -/
def Follows (n : Nat) : Note → Note → Prop
  | .attempt i, .failed j => j = i
  | .attempt _, .connected => True
  | .failed i, .attempt j => i + 1 < n ∧ j = i + 1
  | .failed i, .backoff _ => i + 1 = n
  | .backoff _, .attempt j => j = 0
  | _, _ => False

structure Walk (n : Nat) (log : List Note) : Prop where
  chain : log.IsChain (Follows n)
  first : ∀ note ∈ log.head?, note = .attempt 0

def Note.candidate? : Note → Option Nat
  | .attempt i => some i
  | .failed _ | .backoff _ | .connected => none

def attempts (log : List Note) : List Nat := log.filterMap Note.candidate?

section Walk

variable {n : Nat} {log : List Note}

theorem Walk.append (walk : Walk n log) (note : Note)
    (follows : ∀ last ∈ log.getLast?, Follows n last note) (start : log = [] → note = .attempt 0) :
    Walk n (log ++ [note]) := by
  constructor
  · refine isChain_append.mpr ⟨walk.chain, isChain_singleton _, ?_⟩
    -- only the last note and the new one are left to compare
    rintro last member _ ⟨⟩
    exact follows last member
  · cases log with
    | nil =>
      rintro _ ⟨⟩
      exact start rfl
    | cons first rest => exact walk.first

theorem Walk.init {note : Note} (walk : Walk n (log ++ [note])) : Walk n log := by
  refine ⟨(isChain_append.mp walk.chain).1, fun first member => walk.first first ?_⟩
  rw [List.head?_append, member]
  rfl

theorem Walk.last {note : Note} (walk : Walk n (log ++ [note])) :
    (∀ last ∈ log.getLast?, Follows n last note) ∧ (log = [] → note = .attempt 0) := by
  constructor
  · intro last member
    exact (isChain_append.mp walk.chain).2.2 last member note rfl
  · rintro rfl
    exact walk.first note rfl

/-- Where the last note stands in the cycle, when `k` attempts have been made. -/
def Turn (n k : Nat) : Note → Prop
  | .attempt i | .failed i => 0 < k ∧ i = (k - 1) % n
  | .backoff _ => k % n = 0
  | .connected => True

theorem mod_succ (k n : Nat) (positive : 0 < k) (more : (k - 1) % n + 1 < n) :
    k % n = (k - 1) % n + 1 := by
  have parts := Nat.div_add_mod (k - 1) n
  calc k % n = (n * ((k - 1) / n) + ((k - 1) % n + 1)) % n := congrArg (· % n) (by omega)
    _ = (k - 1) % n + 1 := by rw [Nat.mul_add_mod, Nat.mod_eq_of_lt more]

theorem mod_wrap (k n : Nat) (positive : 0 < k) (last : (k - 1) % n + 1 = n) : k % n = 0 := by
  have parts := Nat.div_add_mod (k - 1) n
  calc k % n = (n * ((k - 1) / n) + n) % n := congrArg (· % n) (by omega)
    _ = 0 := by rw [Nat.mul_add_mod, Nat.mod_self]

theorem Turn.next {k : Nat} {before note : Note} (stood : Turn n k before)
    (after : Follows n before note) : Turn n (k + note.candidate?.toList.length) note := by
  cases before with
  | attempt i =>
    cases note with
    | failed j =>
      cases after
      exact stood
    | connected => trivial
    | attempt | backoff => exact absurd after id
  | failed i =>
    -- the next candidate follows, or the back-off if there is none
    obtain ⟨positive, rfl⟩ := stood
    cases note with
    | attempt j =>
      obtain ⟨more, rfl⟩ := after
      exact ⟨Nat.succ_pos k, (mod_succ k n positive more).symm⟩
    | backoff => exact mod_wrap k n positive after
    | failed | connected => exact absurd after id
  | backoff =>
    cases note with
    | attempt j => exact ⟨Nat.succ_pos k, Eq.trans after (Eq.symm stood)⟩
    | failed | backoff | connected => exact absurd after id
  | connected => cases note <;> exact absurd after id

theorem attempts_concat (log : List Note) (note : Note) :
    attempts (log ++ [note]) = attempts log ++ note.candidate?.toList := by
  cases note <;> simp [attempts, Note.candidate?]

theorem Walk.cyclic (walk : Walk n log) :
    attempts log = (List.range (attempts log).length).map (· % n) ∧
      ∀ last ∈ log.getLast?, Turn n (attempts log).length last := by
  -- the log grows at its end
  induction log using List.reverseRecOn with
  | nil => exact ⟨rfl, nofun⟩
  | append_singleton log note ih =>
    obtain ⟨order, stood⟩ := ih walk.init
    obtain ⟨follows, start⟩ := walk.last
    have turn : Turn n ((attempts log).length + note.candidate?.toList.length) note := by
      cases last : log.getLast? with
      | none =>
        have empty := List.getLast?_eq_none_iff.mp last
        rw [start empty, empty]
        exact ⟨Nat.one_pos, (Nat.zero_mod n).symm⟩
      | some before => exact (stood before last).next (follows before last)
    rw [List.getLast?_concat, attempts_concat, length_append]
    refine ⟨?_, by rintro _ ⟨⟩; exact turn⟩
    -- only an attempt adds a candidate
    cases note with
    | attempt j =>
      have here : j = (attempts log).length % n := turn.2
      show attempts log ++ [j] = (List.range ((attempts log).length + 1)).map (· % n)
      rw [range_succ, map_append, ← order, map_singleton, ← here]
    | failed | backoff | connected =>
      show attempts log ++ [] = (List.range (attempts log).length).map (· % n)
      rw [append_nil, ← order]

end Walk

/-! ### Where the connector stands -/

variable {InetAddress : Type}

def connects (c : Connector InetAddress) : Nat := c.pendingTasks.count .connect

/-- The retry timers that have not had their turn. -/
def retries (c : Connector InetAddress) : Nat :=
  (c.timers ++ c.expired).countP fun timer => timer.2 = .retry

def RetryArmed (c : Connector InetAddress) : Prop :=
  c.retryTimerArmed = true ∧ (c.retryTimer, .retry) ∈ c.timers ++ c.expired

/-- The log is that of a walk, after a failure the next candidate is queued or the retry
timer is armed, and as long as a connection is wanted and there is none, something will
happen. -/
structure OnCourse (c : Connector InetAddress) : Prop where
  follows : Walk c.candidates.length c.log
  cyclic : attempts c.log = (List.range (attempts c.log).length).map (· % c.candidates.length)
  failsOver : ∀ i, c.log.getLast? = some (.failed i) →
    c.current = i + 1 ∧ .connect ∈ c.pendingTasks
  backsOff : ∀ delay, c.log.getLast? = some (.backoff delay) → c.current = 0 ∧ c.RetryArmed
  busy : c.wanted = true → c.state ≠ .connected →
    c.state = .connecting ∨ .connect ∈ c.pendingTasks ∨ c.RetryArmed

structure Trying (c : Connector InetAddress) : Prop where
  walk : Walk c.candidates.length c.log
  wanted : c.wanted = true
  last : c.log.getLast? = some (.attempt c.current)
  noTask : c.connects = 0
  noTimer : c.retries = 0

structure Waiting (c : Connector InetAddress) : Prop where
  walk : Walk c.candidates.length c.log
  wanted : c.wanted = true
  state : c.state = .disconnected
  next : ∀ last ∈ c.log.getLast?, Follows c.candidates.length last (.attempt c.current)
  start : c.log = [] → c.current = 0

/-- What will begin the next attempt is under way, and only once. -/
inductive Stands (c : Connector InetAddress) : Prop where
  | trying (state : c.state = .connecting) (trying : Trying c)
  | queued (waiting : Waiting c) (i : Nat) (last : c.log.getLast? = some (.failed i))
      (task : c.connects = 1) (noTimer : c.retries = 0)
  | armed (waiting : Waiting c) (delay : Flowcontrol.Duration)
      (last : c.log.getLast? = some (.backoff delay)) (armed : c.RetryArmed)
      (noTask : c.connects = 0) (timer : c.retries = 1)
  | connected (state : c.state = .connected) (walk : Walk c.candidates.length c.log)
      (last : c.log.getLast? = some .connected) (noTask : c.connects = 0) (noTimer : c.retries = 0)

section Stands

variable {c c' : Connector InetAddress}

theorem Stands.onCourse (stands : Stands c) : OnCourse c := by
  cases stands with
  | trying state trying =>
    -- the last note is the attempt: no failure waits for an answer
    refine ⟨trying.walk, trying.walk.cyclic.1, fun i last => ?_, fun delay last => ?_, ?_⟩
    · rw [trying.last] at last
      cases last
    · rw [trying.last] at last
      cases last
    · exact fun _ _ => .inl state
  | queued waiting i last task noTimer =>
    have queued : .connect ∈ c.pendingTasks := by
      rw [connects] at task
      exact count_pos_iff.mp (by omega)
    refine ⟨waiting.walk, waiting.walk.cyclic.1, fun j same => ?_, fun delay other => ?_, ?_⟩
    · rw [last] at same
      cases same
      exact ⟨(waiting.next _ last).2, queued⟩
    · rw [last] at other
      cases other
    · exact fun _ _ => .inr (.inl queued)
  | armed waiting delay last armed noTask timer =>
    refine ⟨waiting.walk, waiting.walk.cyclic.1, fun i other => ?_, fun _ _ => ?_, ?_⟩
    · rw [last] at other
      cases other
    · exact ⟨waiting.next _ last, armed⟩
    · exact fun _ _ => .inr (.inr armed)
  | connected state walk last =>
    refine ⟨walk, walk.cyclic.1, fun i other => ?_, fun delay other => ?_, ?_⟩
    · rw [last] at other
      cases other
    · rw [last] at other
      cases other
    · exact fun _ open' => absurd state open'

/-! ### Nothing changes -/

/-- The two states differ in nothing that the walk is about. -/
structure SameWalk (c c' : Connector InetAddress) : Prop where
  candidates : c'.candidates = c.candidates
  current : c'.current = c.current
  wanted : c'.wanted = c.wanted
  state : c'.state = c.state
  log : c'.log = c.log
  connects : c'.connects = c.connects
  retries : c'.retries = c.retries
  armed : c.RetryArmed → c'.RetryArmed

theorem Trying.same (trying : Trying c) (candidates : c'.candidates = c.candidates)
    (current : c'.current = c.current) (wanted : c'.wanted = c.wanted) (log : c'.log = c.log)
    (connects : c'.connects = c.connects) (retries : c'.retries = c.retries) : Trying c' := by
  obtain ⟨walk, want, last, noTask, noTimer⟩ := trying
  rw [← candidates, ← log] at walk
  rw [← log, ← current] at last
  exact ⟨walk, wanted.trans want, last, connects.trans noTask, retries.trans noTimer⟩

theorem Waiting.same (waiting : Waiting c) (candidates : c'.candidates = c.candidates)
    (current : c'.current = c.current) (wanted : c'.wanted = c.wanted)
    (state : c'.state = c.state) (log : c'.log = c.log) : Waiting c' := by
  obtain ⟨walk, want, idle, next, start⟩ := waiting
  rw [← candidates, ← log] at walk
  rw [← candidates, ← log, ← current] at next
  rw [← log, ← current] at start
  exact ⟨walk, wanted.trans want, state.trans idle, next, start⟩

theorem Stands.same (stands : Stands c) (same : SameWalk c c') : Stands c' := by
  obtain ⟨candidates, current, wanted, state, log, connects, retries, armed⟩ := same
  cases stands with
  | trying here trying =>
    exact .trying (state.trans here) (trying.same candidates current wanted log connects retries)
  | queued waiting i last task noTimer =>
    exact .queued (waiting.same candidates current wanted state log) i (log ▸ last)
      (connects.trans task) (retries.trans noTimer)
  | armed waiting delay last was noTask timer =>
    exact .armed (waiting.same candidates current wanted state log) delay (log ▸ last) (armed was)
      (connects.trans noTask) (retries.trans timer)
  | connected here walk last noTask noTimer =>
    refine .connected (state.trans here) ?_ (log ▸ last) (connects.trans noTask)
      (retries.trans noTimer)
    rw [candidates, log]
    exact walk

/-! ### An attempt begins -/

/-- Nothing is under way, and the current candidate is the next one. -/
structure Ready (c : Connector InetAddress) : Prop where
  waiting : Waiting c
  noTask : c.connects = 0
  noTimer : c.retries = 0

theorem retries_runAfter (c : Connector InetAddress) (task : TimerTask) :
    (c.runAfter task).retries = c.retries + if task = .retry then 1 else 0 := by
  have one : [(c.timersCreated, task)].countP (·.2 = .retry) = if task = .retry then 1 else 0 := by
    cases task <;> rfl
  simp only [retries, runAfter, countP_append, one]
  omega

theorem Trying.retry (trying : Trying c) (sockfd : Nat) : Stands (c.retry sockfd) := by
  have failed : Walk c.candidates.length (c.log ++ [.failed c.current]) := by
    refine trying.walk.append _ (fun last member => ?_) (fun empty => ?_)
    · rw [trying.last] at member
      cases member
      rfl
    · have last := trying.last
      rw [empty] at last
      cases last
  have want : c.wanted = true := trying.wanted
  have noTask := trying.noTask
  unfold Connector.retry
  dsimp only [closeSocket, note, runAfter, queueInLoop]
  split
  next =>
    split
    next more =>
      -- there is a next candidate, and it is queued
      refine .queued ⟨failed, want, rfl, fun last member => ?_, ?_⟩ c.current ?_ ?_ trying.noTimer
      · obtain rfl : .failed c.current = last := by simpa using member
        exact ⟨more, rfl⟩
      · exact fun empty => absurd empty (concat_ne_nil _ _)
      · exact List.getLast?_concat
      · simpa [connects] using noTask
    next exhausted =>
      -- it was the last candidate
      have wraps : c.current + 1 = c.candidates.length := by
        have inRange := c.inRange
        have exhausted : ¬c.current + 1 < c.candidates.length := exhausted
        omega
      refine .armed
        ⟨failed.append _ (fun last member => ?_) ?_, want, rfl, fun last member => ?_, ?_⟩
        (c.backoff.nextDelay c.backoffKey c.now).1 List.getLast?_concat ⟨rfl, ?_⟩ noTask ?_
      · obtain rfl : .failed c.current = last := by simpa using member
        exact wraps
      · exact fun empty => absurd empty (concat_ne_nil _ _)
      · obtain rfl : .backoff (c.backoff.nextDelay c.backoffKey c.now).1 = last := by
          simpa using member
        rfl
      · exact fun _ => rfl
      · simp
      · have none := trying.noTimer
        have one := retries_runAfter c .retry
        rw [none] at one
        exact one
  next unwanted => exact absurd want unwanted

theorem Trying.established (trying : Trying c) (sockfd : Nat) : Stands (c.established sockfd) := by
  have walk : Walk c.candidates.length (c.log ++ [.connected]) := by
    refine trying.walk.append _ (fun last member => ?_) (fun empty => ?_)
    · rw [trying.last] at member
      cases member
      trivial
    · have last := trying.last
      rw [empty] at last
      cases last
  unfold Connector.established
  dsimp only
  split
  · exact .connected rfl walk List.getLast?_concat trying.noTask trying.noTimer
  · exact .connected rfl walk List.getLast?_concat trying.noTask trying.noTimer

theorem Ready.trying (ready : Ready c) :
    Trying { c.note (.attempt c.current) with sockets := c.sockets.make } where
  walk := ready.waiting.walk.append _ ready.waiting.next fun empty => by
    rw [ready.waiting.start empty]
  wanted := ready.waiting.wanted
  last := List.getLast?_concat
  noTask := ready.noTask
  noTimer := ready.noTimer

theorem Ready.connect (ready : Ready c) (errno : Errno) (listed : errno.verdict ≠ .unexpected) :
    Stands (c.connect errno) := by
  have trying := ready.trying
  unfold Connector.connect
  dsimp only
  split
  next =>
    -- in progress, and its timeout is no retry timer
    refine .trying rfl (trying.same rfl rfl rfl rfl rfl ?_)
    exact retries_runAfter c .connectTimeout
  next => exact trying.retry _
  next unexpected => exact absurd unexpected listed

theorem not_onCourse_connect (errno : Errno) (unexpected : errno.verdict = .unexpected) :
    ¬OnCourse (c.connect errno) := by
  intro course
  have failed : (c.connect errno).log.getLast? = some (.failed c.current) := by
    simp [connect, unexpected, closeSocket, note]
  have here : (c.connect errno).current = c.current := by
    simp [connect, unexpected, closeSocket, note]
  have moved := (course.failsOver _ failed).1
  omega

/-! ### The end of an attempt -/

theorem Trying.cancelConnectTimeout (trying : Trying c) : Trying c.cancelConnectTimeout := by
  unfold Connector.cancelConnectTimeout
  split
  · refine trying.same rfl rfl rfl rfl rfl ?_
    have none := trying.noTimer
    rw [none]
    simp only [retries, countP_eq_zero, mem_append] at none ⊢
    rintro timer (kept | kept)
    · exact none timer (.inl (mem_of_mem_filter kept))
    · exact none timer (.inr (mem_of_mem_filter kept))
  · exact trying

theorem Trying.removeAndResetChannel (trying : Trying c) {x : Nat × Connector InetAddress}
    (removed : c.removeAndResetChannel = some x) : Trying x.2 := by
  obtain ⟨sockfd, _, rfl⟩ := Option.map_eq_some_iff.mp removed
  refine trying.same rfl rfl rfl rfl ?_ rfl
  simp [connects, queueInLoop]

theorem Stands.finish (stands : Stands c) (d : Connector InetAddress)
    (trying : Trying c → Trying d) (finish : Nat × Connector InetAddress → Connector InetAddress)
    (finished : ∀ x, Trying x.2 → Stands (finish x)) (idle : Connector InetAddress)
    (same : Stands idle)
    (done : (if c.state = .connecting then d.removeAndResetChannel.map finish else some idle) =
      some c') : Stands c' := by
  split at done
  next here =>
    obtain ⟨x, removed, rfl⟩ := Option.map_eq_some_iff.mp done
    -- nothing but an attempt in progress has this state
    cases stands with
    | trying _ was => exact finished x ((trying was).removeAndResetChannel removed)
    | queued waiting | armed waiting =>
      have idle := waiting.state
      rw [here] at idle
      cases idle
    | connected state =>
      rw [here] at state
      cases state
  next =>
    cases done
    exact same

/-! ### The steps -/

/-- The next attempt begins, or nothing goes wrong. -/
inductive Moves (c : Connector InetAddress) (event : LoopEvent) (c' : Connector InetAddress) :
    Prop where
  | calm (other : c.deed (.loop event) ≠ .attempt .unexpected) (stands : Stands c')
  | attempt (d : Connector InetAddress) (errno : Errno) (ready : Ready d)
      (deed : c.deed (.loop event) = .attempt errno.verdict) (made : c' = d.connect errno)

theorem dropDeed_ne (c : Connector InetAddress) (state : ConnectorState) (verdict : Verdict) :
    c.dropDeed state ≠ .attempt verdict := by
  unfold dropDeed
  split <;> nofun

variable (stands : Stands c)
include stands

theorem Stands.handleWrite (soError : Nat) (selfConnect : Bool)
    (handled : c.handleWrite soError selfConnect = some c') : Stands c' := by
  unfold Connector.handleWrite at handled
  rw [ite_not] at handled
  refine stands.finish _ Trying.cancelConnectTimeout _ (fun x trying => ?_) c stands handled
  dsimp only
  split
  · exact trying.retry x.1
  · split
    · exact trying.retry x.1
    · exact trying.established x.1

theorem Stands.readyTask {rest : List Task} (pending : c.pendingTasks = .connect :: rest) :
    Ready { c with pendingTasks := rest } := by
  have count : c.connects = rest.count .connect + 1 := by simp [connects, pending]
  -- only where an attempt is queued there is one to begin
  cases stands with
  | trying _ trying =>
    have none := trying.noTask
    omega
  | queued waiting i last task noTimer =>
    refine ⟨waiting.same rfl rfl rfl rfl rfl, ?_, noTimer⟩
    show rest.count .connect = 0
    omega
  | armed _ _ _ _ noTask => omega
  | connected _ _ _ noTask => omega

theorem Stands.turn {timer : Nat} {rest : List (Nat × TimerTask)}
    (expired : c.expired = (timer, .connectTimeout) :: rest) :
    Stands { c with expired := rest, connectTimerArmed := false } := by
  refine stands.same ⟨rfl, rfl, rfl, rfl, rfl, rfl, ?_, fun armed => ⟨armed.1, ?_⟩⟩
  · simp [retries, expired]
  · have member := armed.2
    rw [expired] at member
    simpa using member

theorem Stands.readyTurn {timer : Nat} {rest : List (Nat × TimerTask)}
    (expired : c.expired = (timer, .retry) :: rest) :
    Ready { c with expired := rest, retryTimerArmed := false } := by
  have count : c.retries = { c with expired := rest, retryTimerArmed := false }.retries + 1 := by
    simp [retries, expired]
    omega
  -- and only where the retry timer is armed it can have its turn
  cases stands with
  | trying _ trying =>
    have none := trying.noTimer
    omega
  | queued _ _ _ _ noTimer => omega
  | armed waiting delay last armed noTask timer =>
    exact ⟨waiting.same rfl rfl rfl rfl rfl, noTask, by omega⟩
  | connected _ _ _ _ noTimer => omega

theorem Stands.expire (due : List Nat) (none : c.expired = []) :
    Stands { c with
      timers := c.timers.filter fun t => t.1 ∉ due
      expired := c.timers.filter fun t => t.1 ∈ due } := by
  have same : (c.timers.filter (fun t => t.1 ∉ due) ++ c.timers.filter (fun t => t.1 ∈ due)).Perm
      (c.timers ++ c.expired) := by
    rw [none, append_nil]
    exact Schedule.filter_due_perm (fun t : Nat × TimerTask => t.1 ∈ due) c.timers
  refine stands.same ⟨rfl, rfl, rfl, rfl, rfl, rfl, ?_, fun armed => ⟨armed.1, ?_⟩⟩
  · exact same.countP_eq _
  · exact same.mem_iff.mpr armed.2

theorem Stands.moves_task (errno : Errno) (stepped : c.loopStep (.task errno) = some c') :
    Moves c (.task errno) c' := by
  simp only [loopStep] at stepped
  split at stepped
  next => cases stepped
  next task rest pending =>
    have deed : c.deed (.loop (.task errno)) = c.taskDeed errno task := by
      simp [deed, pending]
    cases stepped
    cases task with
    | resetChannel =>
      refine .calm (by simp [deed, taskDeed]) (stands.same ⟨rfl, rfl, rfl, rfl, rfl, ?_, rfl, id⟩)
      simp [connects, pending, runTask, resetChannel]
    | connect =>
      have ready := stands.readyTask pending
      have wanted : c.wanted = true := ready.waiting.wanted
      refine .attempt _ errno ready ?_ (if_pos wanted)
      rw [deed]
      exact if_pos wanted

theorem Stands.moves_turn (errno : Errno) (stepped : c.loopStep (.turn errno) = some c') :
    Moves c (.turn errno) c' := by
  simp only [loopStep] at stepped
  split at stepped
  next => cases stepped
  next timer rest expired =>
    have deed : c.deed (.loop (.turn errno)) = c.timerDeed errno timer.2 := by
      simp [deed, expired]
    obtain ⟨number, task⟩ := timer
    cases task with
    | connectTimeout =>
      refine .calm (by rw [deed]; exact dropDeed_ne c _ _) ?_
      simp only [runTimer, onConnectTimeout, ite_not] at stepped
      have turn := stands.turn expired
      exact turn.finish _ id _ (fun x trying => trying.retry x.1) _ turn stepped
    | retry =>
      have ready := stands.readyTurn expired
      have wanted : c.wanted = true := ready.waiting.wanted
      refine .attempt _ errno ready ?_ ?_
      · rw [deed]
        exact if_pos wanted
      · exact (Option.some.inj stepped).symm.trans (if_pos wanted)

theorem moves_loopStep (event : LoopEvent) (stepped : c.loopStep event = some c') :
    Moves c event c' := by
  cases event with
  | handleWrite soError selfConnect =>
    exact .calm (dropDeed_ne c _ _) (stands.handleWrite soError selfConnect stepped)
  | handleError =>
    exact .calm (dropDeed_ne c _ _) (stands.finish _ Trying.cancelConnectTimeout _
      (fun x trying => trying.retry x.1) c stands stepped)
  | task errno => exact stands.moves_task errno stepped
  | expire due =>
    simp only [loopStep] at stepped
    split at stepped
    next none =>
      cases stepped
      exact .calm (by simp [deed]) (stands.expire due none)
    next => cases stepped
  | turn errno => exact stands.moves_turn errno stepped
  | tick elapsed =>
    cases stepped
    exact .calm (by simp [deed]) (stands.same ⟨rfl, rfl, rfl, rfl, rfl, rfl, rfl, id⟩)

end Stands

/-! ### Every failure moves on -/

/-- No attempt is begun whose `errno` is not listed. -/
def Expected (c : Connector InetAddress) (event : LoopEvent) : Prop :=
  c.deed (.loop event) ≠ .attempt .unexpected

theorem ready_new (first : InetAddress) (others : List InetAddress) (backoffKey : Bytes)
    (callback : Bool) : Ready { new first others backoffKey callback with wanted := true } where
  waiting :=
    { walk := ⟨isChain_nil, nofun⟩
      wanted := rfl
      state := rfl
      next := nofun
      start := fun _ => rfl }
  noTask := rfl
  noTimer := rfl

end Cox.Net.Connector
