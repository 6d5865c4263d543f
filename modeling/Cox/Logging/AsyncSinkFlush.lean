import Cox.Logging.AsyncSinkLedger

/-!
# Flush as a barrier

A call of `flush` waits until both buffers are empty. The lines that the writer has taken
are in neither of them: if the writer is still passing them on when the condition is looked
at, the call goes on to the downstream flush and may return before the lines are written.
-/
namespace Cox.Logging.AsyncSink

open Cox.Lib List

variable {Line : Type}

/-- Whatever was accepted before a call of `flush` had been passed on when the call returned,
and there had been a downstream flush after it. -/
def Barrier (s : AsyncSink Line) : Prop :=
  ∀ call ∈ s.returned, s.accepted.take call.mark <+: flushed call.output

instance [DecidableEq Line] (s : AsyncSink Line) : Decidable s.Barrier :=
  inferInstanceAs (Decidable (∀ call ∈ s.returned, _))

/-- When a call goes on to its downstream flush, the writer has no line in hand that was
accepted before the call: those in hand and in the buffer are the last ones accepted. -/
def InTime (s : AsyncSink Line) : Event Line → Prop
  | .flusher thread => ∀ mark, s.flushes thread = some ⟨mark, .flushing⟩ → s.running = true →
      s.writer.rest = [] ∨ mark + (s.writer.rest.length + s.current.length) ≤ s.accepted.length
  | .append _ | .flush _ | .wake _ | .writer _ | .stop | .stopper => True

/-- The lines accepted before a call that is past its wait have left the buffer. -/
structure Calls (s : AsyncSink Line) : Prop where
  sound : Sound s
  marks : ∀ thread call, s.flushes thread = some call → call.mark ≤ s.accepted.length
  taken : ∀ thread mark, s.flushes thread = some ⟨mark, .flushing⟩ → s.running = true →
    mark + s.current.length ≤ s.accepted.length
  returned : ∀ call ∈ s.returned, call.mark ≤ s.accepted.length

section Steps

variable {s s' : AsyncSink Line}

theorem Moves.current_le (moves : Moves s s') : s'.current.length ≤ s.current.length := by
  cases moves.shift with
  | rest _ buffer | pass _ _ buffer => rw [buffer]
  | take _ _ buffer =>
    rw [buffer]
    exact Nat.zero_le _

theorem Calls.aside (calls : Calls s) (sound : Sound s') (aside : Aside s s') : Calls s' := by
  have fewer := aside.toMoves.current_le
  refine ⟨sound, fun thread call here => ?_, fun thread mark here running => ?_, fun call here => ?_⟩
  · rw [aside.flushes] at here
    rw [aside.accepted]
    exact calls.marks thread call here
  · rw [aside.flushes] at here
    rw [aside.accepted]
    have taken := calls.taken thread mark here (aside.running running)
    omega
  · rw [aside.returned] at here
    rw [aside.accepted]
    exact calls.returned call here

theorem Calls.set (calls : Calls s) (sound : Sound s') (thread : Nat) (call : Option FlushCall)
    (flushes : s'.flushes = Function.update s.flushes thread call)
    (accepted : s'.accepted = s.accepted) (current : s'.current = s.current)
    (running : s'.running = s.running) (mark : ∀ c ∈ call, c.mark ≤ s.accepted.length)
    (taken : ∀ mark, call = some ⟨mark, .flushing⟩ → s.running = true →
      mark + s.current.length ≤ s.accepted.length)
    (returned : ∀ c ∈ s'.returned, c.mark ≤ s.accepted.length) : Calls s' := by
  refine ⟨sound, fun t c here => ?_, fun t m here alive => ?_, fun c here => ?_⟩
  · rw [accepted]
    rw [flushes, Function.update_apply] at here
    split at here
    · exact mark c here
    · exact calls.marks t c here
  · rw [accepted, current]
    rw [running] at alive
    rw [flushes, Function.update_apply] at here
    split at here
    · exact taken m here alive
    · exact calls.taken t m here alive
  · rw [accepted]
    exact returned c here

theorem Calls.checkDrained (calls : Calls s) (thread mark : Nat)
    (within : mark ≤ s.accepted.length) : Calls (s.checkDrained thread mark) := by
  have sound := calls.sound.checkDrained thread mark
  unfold AsyncSink.checkDrained at sound ⊢
  split at sound
  next drained =>
    rw [if_pos drained]
    refine calls.set sound thread _ rfl rfl rfl rfl ?_ ?_ calls.returned
    · rintro _ ⟨⟩
      exact within
    · rintro _ ⟨⟩ running
      -- the buffer is empty, or the sink has been stopped
      rcases drained with ⟨empty, _⟩ | stopped
      · rw [isEmpty_iff.mp empty]
        exact within
      · rw [running] at stopped
        cases stopped
  next waits =>
    rw [if_neg waits]
    refine calls.set sound thread _ rfl rfl rfl rfl ?_ nofun calls.returned
    rintro _ ⟨⟩
    exact within

theorem mem_returned_leaveFlush {thread mark : Nat} {call : Returned Line}
    (member : call ∈ (s.leaveFlush thread mark).returned) :
    call ∈ s.returned ∨ s.running = true ∧ call = ⟨mark, s.output ++ [.flush]⟩ := by
  unfold leaveFlush at member
  dsimp only at member
  split at member
  next running =>
    rcases mem_append.mp member with old | new
    · exact .inl old
    · exact .inr ⟨running, mem_singleton.mp new⟩
  next => exact .inl member

theorem returned_checkDrained (s : AsyncSink Line) (thread mark : Nat) :
    (s.checkDrained thread mark).returned = s.returned := by
  unfold checkDrained
  split <;> rfl

theorem Calls.enterFlush (calls : Calls s) (thread mark : Nat)
    (within : mark ≤ s.accepted.length) (sound : Sound (s.enterFlush thread mark)) :
    Calls (s.enterFlush thread mark) := by
  unfold AsyncSink.enterFlush at sound ⊢
  split at sound
  next stopped =>
    rw [if_pos stopped]
    -- a sink that has been stopped makes no promise
    refine calls.set sound thread _ rfl rfl rfl rfl ?_ (fun _ _ running => ?_) calls.returned
    · rintro _ ⟨⟩
      exact within
    · rw [running] at stopped
      cases stopped
  next running =>
    rw [if_neg running]
    exact calls.checkDrained thread mark within

theorem returned_enterFlush (s : AsyncSink Line) (thread mark : Nat) :
    (s.enterFlush thread mark).returned = s.returned := by
  unfold enterFlush
  split
  · rfl
  · exact returned_checkDrained s thread mark

theorem Calls.leaveFlush (calls : Calls s) (thread mark : Nat)
    (within : mark ≤ s.accepted.length) (sound : Sound (s.leaveFlush thread mark)) :
    Calls (s.leaveFlush thread mark) := by
  have returned (c : Returned Line) (member : c ∈ (s.leaveFlush thread mark).returned) :
      c.mark ≤ s.accepted.length := by
    rcases mem_returned_leaveFlush member with old | ⟨_, rfl⟩
    · exact calls.returned c old
    · exact within
  unfold AsyncSink.leaveFlush at sound returned ⊢
  dsimp only at sound returned ⊢
  split at sound
  next running =>
    rw [if_pos running] at returned ⊢
    exact calls.set sound thread none rfl rfl rfl rfl (by simp) (by simp) returned
  next stopped =>
    rw [if_neg stopped] at returned ⊢
    exact calls.set sound thread none rfl rfl rfl rfl (by simp) (by simp) returned

theorem Calls.flusher (calls : Calls s) (thread : Nat)
    (stepped : s.step (.flusher thread) = some s') :
    Calls s' ∧ ((s'.returned = s.returned ∧ ∀ mark, s.flushes thread ≠ some ⟨mark, .flushing⟩) ∨
      ∃ mark, s.flushes thread = some ⟨mark, .flushing⟩ ∧ s' = s.leaveFlush thread mark) := by
  have sound := calls.sound.flusher thread stepped
  simp only [step] at stepped
  split at stepped
  next => cases stepped
  next mark call =>
    cases stepped
    exact ⟨calls.enterFlush thread mark (calls.marks thread _ call) sound,
      .inl ⟨returned_enterFlush s thread mark, fun mark => by simp [call]⟩⟩
  next mark call =>
    split at stepped
    · cases stepped
    · cases stepped
      exact ⟨calls.checkDrained thread mark (calls.marks thread _ call),
        .inl ⟨returned_checkDrained s thread mark, fun mark => by simp [call]⟩⟩
  next mark call =>
    cases stepped
    exact ⟨calls.leaveFlush thread mark (calls.marks thread _ call) sound, .inr ⟨mark, call, rfl⟩⟩

theorem Calls.append (calls : Calls s) (line : Line) : Calls (s.append line) := by
  have sound := calls.sound.append line
  have same : SameCalls s (s.append line) := by
    unfold AsyncSink.append
    split
    · exact ⟨rfl, rfl, id⟩
    · dsimp only
      split <;> exact ⟨rfl, rfl, id⟩
  -- the buffer and the accepted lines grow together
  have grows : s.accepted.length ≤ (s.append line).accepted.length ∧
      s.accepted.length + (s.append line).current.length =
        (s.append line).accepted.length + s.current.length := by
    obtain ⟨_, ⟨current, accepted⟩ | ⟨_, _, current, accepted⟩⟩ := append_cases s line
    · rw [current, accepted]
      exact ⟨Nat.le_refl _, rfl⟩
    · rw [current, accepted, length_append, length_append, length_singleton]
      omega
  refine ⟨sound, fun thread call here => ?_, fun thread mark here running => ?_, fun call here => ?_⟩
  · rw [same.flushes] at here
    exact Nat.le_trans (calls.marks thread call here) grows.1
  · rw [same.flushes] at here
    have taken := calls.taken thread mark here (same.running running)
    omega
  · rw [same.returned] at here
    exact Nat.le_trans (calls.returned call here) grows.1

/-- A call returns, or those that have returned stay as they are. -/
inductive Turns (s : AsyncSink Line) (event : Event Line) (s' : AsyncSink Line) : Prop where
  | others (returned : s'.returned = s.returned) (accepted : s.accepted <+: s'.accepted)
      (inTime : s.InTime event)
  | leaves (thread mark : Nat) (call : s.flushes thread = some ⟨mark, .flushing⟩)
      (flusher : event = .flusher thread) (left : s' = s.leaveFlush thread mark)

theorem Calls.step (calls : Calls s) (event : Event Line) (stepped : s.step event = some s') :
    Calls s' ∧ Turns s event s' := by
  have sound := calls.sound.step event stepped
  -- the events that do not concern the calls
  have quiet (aside : Aside s s') (inTime : s.InTime event) : Calls s' ∧ Turns s event s' :=
    ⟨calls.aside sound aside,
      .others aside.returned (aside.accepted ▸ prefix_rfl) inTime⟩
  cases event with
  | append line =>
    cases stepped
    refine ⟨calls.append line, .others ?_ ?_ trivial⟩
    · unfold AsyncSink.append
      split
      · rfl
      · dsimp only
        split <;> rfl
    · obtain ⟨_, refused | ⟨_, _, _, accepted⟩⟩ := append_cases s line
      · exact refused.2 ▸ prefix_rfl
      · rw [accepted]
        exact prefix_append ..
  | flush thread =>
    simp only [AsyncSink.step] at stepped
    split at stepped
    next =>
      cases stepped
      refine ⟨calls.set sound thread _ rfl rfl rfl rfl ?_ (by rintro _ ⟨⟩) calls.returned,
        .others rfl (prefix_refl _) trivial⟩
      rintro _ ⟨⟩
      exact Nat.le_refl _
    next => cases stepped
  | flusher thread =>
    obtain ⟨calls', ⟨returned, early⟩ | ⟨mark, call, left⟩⟩ := calls.flusher thread stepped
    · refine ⟨calls', .others returned ?_ fun mark call => absurd call (early mark)⟩
      exact (moves_flusher thread stepped).accepted ▸ prefix_rfl
    · exact ⟨calls', .leaves thread mark call rfl left⟩
  | wake thread =>
    cases stepped
    exact quiet ⟨⟨rfl, rfl, .rest rfl rfl⟩, rfl, rfl, id⟩ trivial
  | writer timedOut => exact quiet (aside_writerStep calls.sound timedOut stepped) trivial
  | stop =>
    cases stepped
    exact quiet (aside_stop s) trivial
  | stopper => exact quiet (aside_stopperStep calls.sound stepped) trivial

/-! ### The barrier -/

theorem Barrier.others (barrier : Barrier s) (calls : Calls s) (returned : s'.returned = s.returned)
    (accepted : s.accepted <+: s'.accepted) : Barrier s' := by
  intro call member
  rw [returned] at member
  obtain ⟨later, grown⟩ := accepted
  rw [← grown, take_append_of_le_length (calls.returned call member)]
  exact barrier call member

theorem flushed_concat (output : List (Output Line)) :
    flushed (output ++ [.flush]) = lines output := by
  rw [flushed, rdropWhile_concat_neg _ _ _ (by simp [Output.isFlush])]
  simp [Output.line?]

/-- A mark is in the past of the output when the lines before it have been passed on. -/
theorem Sound.take_prefix (sound : Sound s) (mark : Nat) (within : mark ≤ s.accepted.length) :
    s.accepted.take mark <+: lines s.output ↔ mark ≤ (lines s.output).length := by
  constructor
  · intro done
    have length := done.length_le
    rwa [length_take_of_le within] at length
  · intro le
    rw [sound.lossless, take_append_of_le_length le]
    exact List.take_prefix ..

/-- A call that returns finds its lines passed on, exactly if the writer has none of them. -/
theorem Calls.inTime_iff (calls : Calls s) (thread mark : Nat)
    (call : s.flushes thread = some ⟨mark, .flushing⟩) :
    s.InTime (.flusher thread) ↔ (s.running = true → s.accepted.take mark <+: lines s.output) := by
  have length := calls.sound.length_accepted
  rw [calls.sound.take_prefix mark (calls.marks thread _ call)]
  -- the lines that have left the buffer are passed on or in hand
  constructor
  · intro inTime running
    have taken := calls.taken thread mark call running
    rcases inTime mark call running with free | later
    · rw [free, length_nil] at length
      omega
    · omega
  · rintro done other same running
    rw [call] at same
    cases same
    have passed := done running
    exact .inr (by omega)

theorem Calls.barrier_iff (calls : Calls s) (barrier : Barrier s) (event : Event Line)
    (stepped : s.step event = some s') : Barrier s' ↔ s.InTime event := by
  cases (calls.step event stepped).2 with
  | others returned accepted inTime =>
    exact iff_of_true (barrier.others calls returned accepted) inTime
  | leaves thread mark call flusher left =>
    subst left flusher
    have accepted : (s.leaveFlush thread mark).accepted = s.accepted :=
      (moves_flusher thread stepped).accepted
    rw [calls.inTime_iff thread mark call]
    constructor
    · intro barrier' running
      have member : ⟨mark, s.output ++ [.flush]⟩ ∈ (s.leaveFlush thread mark).returned := by
        simp [AsyncSink.leaveFlush, put, setFlush, running]
      have passed := barrier' _ member
      rwa [flushed_concat, accepted] at passed
    · intro done call member
      rw [accepted]
      rcases mem_returned_leaveFlush member with old | ⟨running, rfl⟩
      · exact barrier call old
      · rw [flushed_concat]
        exact done running

end Steps

theorem Calls.new (maxBufferedLines : Nat) : Calls (new maxBufferedLines : AsyncSink Line) :=
  ⟨Sound.new maxBufferedLines, nofun, nofun, nofun⟩

/-- `flush` is a barrier in every run, exactly if no call goes on to its downstream flush while
the writer is passing on lines that were accepted before the call. -/
theorem barrier_iff_inTime (maxBufferedLines : Nat) (events : List (Event Line)) :
    Machine.Always step Barrier (new maxBufferedLines) events ↔
      Machine.Meets step InTime (new maxBufferedLines) events := by
  refine Machine.always_iff_meets (fun s (inv : Calls s ∧ Barrier s) => inv.2) ?_ ?_
    _ events ⟨Calls.new maxBufferedLines, nofun⟩
  · intro s event s' inv inTime stepped
    exact ⟨(inv.1.step event stepped).1, (inv.1.barrier_iff inv.2 event stepped).mpr inTime⟩
  · intro s event s' inv late stepped barrier
    exact late ((inv.1.barrier_iff inv.2 event stepped).mp barrier)

/-- The writer has taken the line and not written it, and both buffers are empty. -/
theorem flush_overtakesBatch :
    let events : List (Event Nat) :=
      [.append 1, .writer false, .flush 7, .flusher 7, .flusher 7]
    ¬Machine.Always step Barrier (new 8192) events ∧
      (Machine.run step (new 8192) events).map (fun s => (s.accepted, s.output, s.returned.length)) =
        some ([1], [.flush], 1) := by
  decide

/-! ### No call sleeps for nothing -/

/-- The writer will look at those who wait in `flush` when it has done what it is doing. -/
def Writer.WillAnnounce : Writer Line → Prop
  | .write .. | .flush _ | .announce => True
  | .enter | .wait | .returned => False

/-- As long as the sink is running, a call waits in `flush` only if there are lines for the
writer, or it is about to tell those who wait. -/
def Attended (s : AsyncSink Line) : Prop :=
  s.running = true → s.drained.waiting ≠ [] → s.current ≠ [] ∨ s.writer.WillAnnounce

section Attended

variable {s s' : AsyncSink Line}

theorem Attended.checkDrained (attended : Attended s) (writing : s.writing = [])
    (thread mark : Nat) : Attended (s.checkDrained thread mark) := by
  unfold AsyncSink.checkDrained
  split
  next => exact attended
  next waits =>
    refine fun _ _ => .inl fun empty => waits (.inl ⟨?_, ?_⟩)
    · exact isEmpty_iff.mpr empty
    · exact isEmpty_iff.mpr writing

theorem Attended.flusher (attended : Attended s) (writing : s.writing = []) (thread : Nat)
    (stepped : s.step (.flusher thread) = some s') : Attended s' := by
  simp only [step] at stepped
  split at stepped
  next => cases stepped
  next =>
    cases stepped
    unfold enterFlush
    split
    · exact attended
    · exact attended.checkDrained writing thread _
  next =>
    split at stepped
    · cases stepped
    · cases stepped
      exact attended.checkDrained writing thread _
  next =>
    cases stepped
    unfold leaveFlush
    dsimp only
    split <;> exact attended

theorem attended_takeBatch (s : AsyncSink Line) : Attended s.takeBatch := by
  unfold takeBatch
  split
  · exact fun _ waiting => absurd rfl waiting
  · exact fun _ _ => .inr trivial

theorem Attended.writerStep (attended : Attended s) (writing : s.writing = []) (timedOut : Bool)
    (stepped : s.writerStep timedOut = some s') : Attended s' := by
  unfold AsyncSink.writerStep at stepped
  split at stepped
  next phase =>
    cases stepped
    split
    · -- the buffer is empty: whoever waited would wait for nothing
      intro running waiting
      have somebody := attended running waiting
      rw [phase] at somebody
      exact somebody
    · exact attended_takeBatch s
  next =>
    cases stepped
    split
    · exact attended_takeBatch s
    · exact attended
  next =>
    cases stepped
    exact fun _ _ => .inr trivial
  next =>
    cases stepped
    exact fun _ _ => .inr trivial
  next =>
    cases stepped
    exact fun _ _ => .inr trivial
  next =>
    cases stepped
    refine fun _ waiting => .inl fun empty => waiting ?_
    -- if there is nothing for the writer, they have been notified
    have none : s.current.isEmpty ∧ s.writing.isEmpty :=
      ⟨isEmpty_iff.mpr empty, isEmpty_iff.mpr writing⟩
    rw [if_pos none]
    rfl
  next => cases stepped

theorem Attended.step (attended : Attended s) (sound : Sound s) (event : Event Line)
    (stepped : s.step event = some s') : Attended s' := by
  cases event with
  | append line =>
    cases stepped
    unfold append
    split
    · exact attended
    · dsimp only
      split
      · exact attended
      · exact fun _ _ => .inl (concat_ne_nil _ _)
  | flush thread =>
    simp only [AsyncSink.step] at stepped
    split at stepped
    · cases stepped
      exact attended
    · cases stepped
  | flusher thread => exact attended.flusher sound.writing thread stepped
  | wake thread =>
    cases stepped
    refine fun running waiting => attended running fun none => waiting ?_
    show s.drained.waiting.filter _ = []
    rw [none, filter_nil]
  | writer timedOut => exact attended.writerStep sound.writing timedOut stepped
  | stop =>
    cases stepped
    unfold stop
    split
    · exact attended
    · exact fun running => absurd running Bool.false_ne_true
  | stopper =>
    -- `stop` has been called
    have stopped : s.running = false := sound.stopped (stopper_of_stopperStep stepped)
    intro running
    rw [(aside_stopperStep sound stepped).running running] at stopped
    cases stopped

end Attended

theorem attended_always (maxBufferedLines : Nat) (events : List (Event Line)) :
    Machine.Always step Attended (new maxBufferedLines) events := by
  refine Machine.Always.mono (P := fun s => Sound s ∧ Attended s) (fun s inv => inv.2) _ events ?_
  refine Machine.always_of_keeps (fun s event s' inv stepped => ?_) _ events
    ⟨Sound.new maxBufferedLines, fun _ waiting => absurd rfl waiting⟩
  exact ⟨inv.1.step event stepped, inv.2.step inv.1 event stepped⟩

end Cox.Logging.AsyncSink
