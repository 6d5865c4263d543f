import Mathlib.Algebra.GroupWithZero.Nat
import Cox.Logging.AsyncSink

/-!
# What becomes of the lines

A line that is accepted goes through the buffer of the producers and the batch of the writer
to the downstream sink, in the order of acceptance. A line is dropped only while the buffer
is full, so that the writer still has to come for it, and then it reports the drop.

The limit on the lines counts the buffers, but not the batch.
-/
namespace Cox.Logging.AsyncSink

open Cox.Lib List

variable {Line : Type}

/-! ### The ledger -/

def Writer.rest : Writer Line → List Line
  | .write _ rest _ => rest
  | .enter | .wait | .flush _ | .announce | .returned => []

def Writer.drops : Writer Line → Nat
  | .write _ _ drops => drops
  | .enter | .wait | .flush _ | .announce | .returned => 0

def Stopper.Joined : Stopper Line → Prop
  | .none | .notify | .join => False
  | .leftover | .drain _ | .returned => True

structure Sound (s : AsyncSink Line) : Prop where
  lossless : s.accepted = lines s.output ++ (s.writer.rest ++ s.current)
  writing : s.writing = []
  counted : s.entered = s.accepted.length + s.dropped
  reported : (summaries s.output).sum + s.writer.drops = s.reportedDrops
  /-- Drops that have not been reported were made with lines in the buffer. -/
  unreported : s.reportedDrops ≤ s.dropped ∧ (s.reportedDrops < s.dropped → s.current ≠ [])
  limit : 0 < s.maxLines
  stopped : s.stopper ≠ .none → s.running = false
  returned : s.writer = .returned → s.running = false ∧ s.current = []
  joined : s.stopper.Joined → s.writer = .returned
  drained : ∀ rest, s.stopper = .drain rest → rest = []

@[simp] theorem lines_concat (output : List (Output Line)) (last : Output Line) :
    lines (output ++ [last]) = lines output ++ last.line?.toList := by
  cases last <;> simp [lines, Output.line?]

@[simp] theorem summaries_concat (output : List (Output Line)) (last : Output Line) :
    summaries (output ++ [last]) = summaries output ++ last.dropped?.toList := by
  cases last <;> simp [summaries, Output.dropped?]

theorem Sound.new (maxBufferedLines : Nat) : Sound (new maxBufferedLines : AsyncSink Line) where
  lossless := rfl
  writing := rfl
  counted := rfl
  reported := rfl
  unreported := ⟨Nat.le_refl _, fun less => absurd less (Nat.lt_irrefl _)⟩
  limit := by
    show 0 < if maxBufferedLines = 0 then 1 else maxBufferedLines
    split <;> omega
  stopped := fun other => absurd rfl other
  returned := nofun
  joined := nofun
  drained := nofun

section Steps

variable {s s' : AsyncSink Line}

section Sound

variable (sound : Sound s)
include sound

theorem Sound.append (line : Line) : Sound (s.append line) := by
  unfold AsyncSink.append
  split
  next => exact sound
  next running =>
    have alive : s.writer ≠ .returned := fun gone => running (sound.returned gone).1
    dsimp only
    split
    next full =>
      refine { sound with counted := ?_, unreported := ⟨?_, fun _ => ?_⟩ }
      · have counted := sound.counted
        show s.entered + 1 = s.accepted.length + (s.dropped + 1)
        omega
      · exact Nat.le_succ_of_le sound.unreported.1
      · -- the other buffer is empty, so this one is full
        intro empty
        have limit := sound.limit
        simp only [show s.current = [] from empty, sound.writing, length_nil] at full
        omega
    next room =>
      refine { sound with
        lossless := ?_
        counted := ?_
        unreported := ⟨sound.unreported.1, fun _ => concat_ne_nil _ _⟩
        returned := fun gone => absurd gone alive }
      · show s.accepted ++ [line] = lines s.output ++ (s.writer.rest ++ (s.current ++ [line]))
        rw [sound.lossless]
        simp only [append_assoc]
      · have counted := sound.counted
        show s.entered + 1 = (s.accepted ++ [line]).length + s.dropped
        rw [length_append, length_singleton]
        omega

theorem Sound.flush : Sound (s.put .flush) := by
  have sameLines : lines (s.output ++ [.flush]) = lines s.output := by simp [Output.line?]
  have sameDrops : summaries (s.output ++ [.flush]) = summaries s.output := by
    simp [Output.dropped?]
  refine { sound with lossless := ?_, reported := ?_ }
  · show s.accepted = lines (s.output ++ [.flush]) ++ _
    rw [sameLines]
    exact sound.lossless
  · show (summaries (s.output ++ [.flush])).sum + _ = _
    rw [sameDrops]
    exact sound.reported

theorem Sound.checkDrained (thread mark : Nat) : Sound (s.checkDrained thread mark) := by
  unfold AsyncSink.checkDrained
  split <;> exact { sound with }

theorem Sound.flusher (thread : Nat) (stepped : s.step (.flusher thread) = some s') : Sound s' := by
  simp only [step] at stepped
  split at stepped
  next => cases stepped
  next =>
    cases stepped
    unfold enterFlush
    split
    · exact { sound with }
    · exact sound.checkDrained ..
  next =>
    split at stepped
    · cases stepped
    · cases stepped
      exact sound.checkDrained ..
  next =>
    cases stepped
    unfold leaveFlush
    dsimp only
    split <;> exact { sound.flush with }

theorem Sound.writes (output : List (Output Line)) (writer : Writer Line)
    (alive : s.writer ≠ .returned) (goesOn : writer ≠ .returned)
    (sameLines : lines output ++ writer.rest = lines s.output ++ s.writer.rest)
    (sameDrops : (summaries output).sum + writer.drops = (summaries s.output).sum + s.writer.drops) :
    Sound { s with output := output, writer := writer } where
  lossless := by
    show s.accepted = lines output ++ (writer.rest ++ s.current)
    rw [← append_assoc, sameLines, append_assoc]
    exact sound.lossless
  writing := sound.writing
  counted := sound.counted
  reported := sameDrops.trans sound.reported
  unreported := sound.unreported
  limit := sound.limit
  stopped := sound.stopped
  returned := fun gone => absurd gone goesOn
  joined := fun joined => absurd (sound.joined joined) alive
  drained := sound.drained

theorem Sound.takeBatch (alive : s.writer ≠ .returned) (free : s.writer.rest = [])
    (told : s.writer.drops = 0) : Sound s.takeBatch := by
  have lossless := sound.lossless
  have reported := sound.reported
  rw [free] at lossless
  rw [told] at reported
  unfold AsyncSink.takeBatch
  split
  next ended =>
    have empty : s.current = [] := isEmpty_iff.mp ended.2
    exact { sound with
      lossless := lossless
      reported := reported
      returned := fun _ => ⟨ended.1, empty⟩
      joined := fun _ => rfl }
  next =>
    refine { sound with
      lossless := ?_
      writing := rfl
      reported := ?_
      unreported := ?_
      returned := nofun
      joined := fun joined => absurd (sound.joined joined) alive }
    · show s.accepted = lines s.output ++ (s.current ++ s.writing)
      rw [lossless, sound.writing, append_nil, nil_append]
    · simp only [Writer.drops]
      split <;> omega
    · -- all of them are reported now
      have unreported := sound.unreported.1
      dsimp only
      split <;> exact ⟨by omega, fun less => by omega⟩

theorem Sound.writerStep (timedOut : Bool) (stepped : s.writerStep timedOut = some s') :
    Sound s' := by
  unfold AsyncSink.writerStep at stepped
  split at stepped
  -- it waits for lines, or comes for the buffer
  next phase =>
    have alive : s.writer ≠ .returned := by rw [phase]; nofun
    cases stepped
    split
    · exact sound.writes s.output .wait alive nofun (by rw [phase]; rfl) (by rw [phase]; rfl)
    · exact sound.takeBatch alive (by rw [phase]; rfl) (by rw [phase]; rfl)
  next phase =>
    have alive : s.writer ≠ .returned := by rw [phase]; nofun
    cases stepped
    split
    · exact sound.takeBatch alive (by rw [phase]; rfl) (by rw [phase]; rfl)
    · exact sound
  -- a line of the batch
  next batch line rest drops phase =>
    cases stepped
    refine sound.writes _ _ (by rw [phase]; nofun) nofun ?_ ?_
    · simp [put, phase, Writer.rest, Output.line?]
    · simp [put, phase, Writer.drops, Output.dropped?]
  -- the summary, if lines were dropped
  next batch drops phase =>
    have alive : s.writer ≠ .returned := by rw [phase]; nofun
    cases stepped
    split
    · refine sound.writes _ _ alive nofun ?_ ?_
      · simp [put, phase, Writer.rest, Output.line?]
      · simp [put, phase, Writer.drops, Output.dropped?]
    next none =>
      have none : drops = 0 := by omega
      exact sound.writes _ _ alive nofun (by simp [phase, Writer.rest])
        (by simp [phase, Writer.drops, none])
  -- the downstream flush, unless the batch was empty
  next batch phase =>
    have alive : s.writer ≠ .returned := by rw [phase]; nofun
    cases stepped
    split
    · exact sound.writes _ _ alive nofun (by rw [phase]; rfl) (by rw [phase]; rfl)
    · exact sound.flush.writes _ _ alive nofun (by rw [put, phase]; rfl) (by rw [put, phase]; rfl)
  next phase =>
    cases stepped
    exact { sound.writes s.output .enter (by rw [phase]; nofun) nofun (by rw [phase]; rfl)
      (by rw [phase]; rfl) with }
  next => cases stepped

theorem Sound.stop : Sound s.stop := by
  unfold AsyncSink.stop
  split
  next => exact sound
  next running =>
    exact { sound with
      stopped := fun _ => rfl
      returned := fun gone => absurd (sound.returned gone).1 running
      joined := nofun
      drained := nofun }

end Sound

theorem stopper_of_stopperStep (stepped : s.stopperStep = some s') : s.stopper ≠ .none := by
  intro none
  simp [stopperStep, none] at stepped

theorem Sound.stopperStep (sound : Sound s) (stepped : s.stopperStep = some s') : Sound s' := by
  have stopped : s.running = false := sound.stopped (stopper_of_stopperStep stepped)
  unfold AsyncSink.stopperStep at stepped
  split at stepped
  next => cases stepped
  next phase =>
    cases stepped
    exact { sound with
      stopped := fun _ => stopped
      joined := nofun
      drained := nofun }
  next phase =>
    split at stepped
    -- the writer thread has been joined
    next gone =>
      cases stepped
      exact { sound with
        stopped := fun _ => stopped
        joined := fun _ => gone
        drained := nofun }
    all_goals cases stepped
  next phase =>
    -- the writer has left nothing
    have gone : s.writer = .returned := sound.joined (by rw [phase]; trivial)
    have empty : s.current = [] := (sound.returned gone).2
    cases stepped
    refine { sound with
      lossless := ?_
      writing := rfl
      unreported := ⟨sound.unreported.1, fun less => absurd empty (sound.unreported.2 less)⟩
      stopped := fun _ => stopped
      returned := fun _ => ⟨(sound.returned gone).1, rfl⟩
      joined := fun _ => gone
      drained := ?_ }
    · have lossless := sound.lossless
      rwa [empty] at lossless
    · rintro rest ⟨⟩
      rw [sound.writing, empty, append_nil]
  -- there is never a line to drain
  next line rest phase => cases sound.drained _ phase
  next phase =>
    cases stepped
    exact { sound.flush with
      stopped := fun _ => stopped
      joined := fun _ => sound.joined (by rw [phase]; trivial)
      drained := nofun }
  next => cases stepped

theorem Sound.step (sound : Sound s) (event : Event Line) (stepped : s.step event = some s') :
    Sound s' := by
  cases event with
  | append line =>
    cases stepped
    exact sound.append line
  | flush thread =>
    simp only [AsyncSink.step] at stepped
    split at stepped
    · cases stepped
      exact { sound with }
    · cases stepped
  | flusher thread => exact sound.flusher thread stepped
  | wake thread =>
    cases stepped
    exact { sound with }
  | writer timedOut => exact sound.writerStep timedOut stepped
  | stop =>
    cases stepped
    exact sound.stop
  | stopper => exact sound.stopperStep stepped

end Steps

/-! ### Nothing is lost -/

/-- Once `stop` has returned, the lines passed on are those accepted, in this order, every
call of `append` is accounted for, and every drop has been reported. -/
def Accounted (s : AsyncSink Line) : Prop :=
  s.stopper = .returned →
    lines s.output = s.accepted ∧ s.entered = s.accepted.length + s.dropped ∧
      (summaries s.output).sum = s.dropped

theorem Sound.accounted {s : AsyncSink Line} (sound : Sound s) : Accounted s := by
  intro ended
  have gone : s.writer = .returned := sound.joined (by rw [ended]; trivial)
  have empty : s.current = [] := (sound.returned gone).2
  -- the last drops were made with lines in the buffer, and it is empty
  have told : ¬s.reportedDrops < s.dropped := fun less => sound.unreported.2 less empty
  have reported := sound.reported
  rw [gone] at reported
  refine ⟨?_, sound.counted, ?_⟩
  · have lossless := sound.lossless
    rw [gone, empty] at lossless
    simpa [Writer.rest] using lossless.symm
  · have behind := sound.unreported.1
    simp only [Writer.drops] at reported
    omega

theorem linesAccounted_always (maxBufferedLines : Nat) (events : List (Event Line)) :
    Machine.Always step Accounted (new maxBufferedLines) events := by
  refine Machine.Always.mono (fun s sound => Sound.accounted sound) _ events ?_
  exact Machine.always_of_keeps (fun s event s' sound stepped => Sound.step sound event stepped) _
    events (Sound.new maxBufferedLines)

/-- A line is dropped, and reported before `stop` returns. -/
example :
    (Machine.run step (new 1 : AsyncSink Nat) ([.append 1, .append 2] ++
      List.replicate 5 (.writer false) ++ [.stop, .writer false] ++
      List.replicate 4 .stopper)).map (fun s => (s.stopper, s.output)) =
      some (.returned, [.line 1, .dropped 1, .flush, .flush]) := by
  rfl

/-! ### The limit -/

/-- What a step other than `append` does with the lines that have been accepted. -/
inductive Shift (s s' : AsyncSink Line) : Prop where
  | rest (hand : s'.writer.rest = s.writer.rest) (buffer : s'.current = s.current)
  | take (free : s.writer.rest = []) (hand : s'.writer.rest = s.current)
      (buffer : s'.current = [])
  | pass (line : Line) (hand : s.writer.rest = line :: s'.writer.rest)
      (buffer : s'.current = s.current)

structure Moves (s s' : AsyncSink Line) : Prop where
  accepted : s'.accepted = s.accepted
  maxLines : s'.maxLines = s.maxLines
  shift : Shift s s'

structure SameCalls (s s' : AsyncSink Line) : Prop where
  flushes : s'.flushes = s.flushes
  returned : s'.returned = s.returned
  running : s'.running = true → s.running = true

/-- Neither the writer nor `stop` changes the calls of `flush`. -/
structure Aside (s s' : AsyncSink Line) : Prop extends Moves s s', SameCalls s s'

section Moves

variable {s s' : AsyncSink Line}

theorem moves_checkDrained (s : AsyncSink Line) (thread mark : Nat) :
    Moves s (s.checkDrained thread mark) := by
  unfold checkDrained
  split <;> exact ⟨rfl, rfl, .rest rfl rfl⟩

theorem moves_flusher (thread : Nat) (stepped : s.step (.flusher thread) = some s') :
    Moves s s' := by
  simp only [step] at stepped
  split at stepped
  next => cases stepped
  next =>
    cases stepped
    unfold enterFlush
    split
    · exact ⟨rfl, rfl, .rest rfl rfl⟩
    · exact moves_checkDrained ..
  next =>
    split at stepped
    · cases stepped
    · cases stepped
      exact moves_checkDrained ..
  next =>
    cases stepped
    unfold leaveFlush
    dsimp only
    split <;> exact ⟨rfl, rfl, .rest rfl rfl⟩

theorem aside_takeBatch (sound : Sound s) (free : s.writer.rest = []) : Aside s s.takeBatch := by
  unfold takeBatch
  split
  · exact ⟨⟨rfl, rfl, .rest free.symm rfl⟩, rfl, rfl, id⟩
  · exact ⟨⟨rfl, rfl, .take free rfl sound.writing⟩, rfl, rfl, id⟩

theorem aside_writerStep (sound : Sound s) (timedOut : Bool)
    (stepped : s.writerStep timedOut = some s') : Aside s s' := by
  unfold writerStep at stepped
  split at stepped
  next phase =>
    cases stepped
    split
    · exact ⟨⟨rfl, rfl, .rest (by rw [phase]; rfl) rfl⟩, rfl, rfl, id⟩
    · exact aside_takeBatch sound (by rw [phase]; rfl)
  next phase =>
    cases stepped
    split
    · exact aside_takeBatch sound (by rw [phase]; rfl)
    · exact ⟨⟨rfl, rfl, .rest rfl rfl⟩, rfl, rfl, id⟩
  next batch line rest drops phase =>
    cases stepped
    exact ⟨⟨rfl, rfl, .pass line (by rw [phase]; rfl) rfl⟩, rfl, rfl, id⟩
  next batch drops phase =>
    cases stepped
    split <;> exact ⟨⟨rfl, rfl, .rest (by rw [phase]; rfl) rfl⟩, rfl, rfl, id⟩
  next batch phase =>
    cases stepped
    split <;> exact ⟨⟨rfl, rfl, .rest (by rw [phase]; rfl) rfl⟩, rfl, rfl, id⟩
  next phase =>
    cases stepped
    exact ⟨⟨rfl, rfl, .rest (by rw [phase]; rfl) rfl⟩, rfl, rfl, id⟩
  next => cases stepped

theorem aside_stop (s : AsyncSink Line) : Aside s s.stop := by
  unfold stop
  split
  · exact ⟨⟨rfl, rfl, .rest rfl rfl⟩, rfl, rfl, id⟩
  · exact ⟨⟨rfl, rfl, .rest rfl rfl⟩, rfl, rfl, fun alive => absurd alive Bool.false_ne_true⟩

theorem aside_stopperStep (sound : Sound s) (stepped : s.stopperStep = some s') : Aside s s' := by
  unfold stopperStep at stepped
  split at stepped
  next => cases stepped
  next =>
    cases stepped
    exact ⟨⟨rfl, rfl, .rest rfl rfl⟩, rfl, rfl, id⟩
  next =>
    split at stepped
    · cases stepped
      exact ⟨⟨rfl, rfl, .rest rfl rfl⟩, rfl, rfl, id⟩
    all_goals cases stepped
  next phase =>
    -- the buffer was empty already
    have gone : s.writer = .returned := sound.joined (by rw [phase]; trivial)
    cases stepped
    exact ⟨⟨rfl, rfl, .rest rfl (sound.returned gone).2.symm⟩, rfl, rfl, id⟩
  next =>
    cases stepped
    exact ⟨⟨rfl, rfl, .rest rfl rfl⟩, rfl, rfl, id⟩
  next =>
    cases stepped
    exact ⟨⟨rfl, rfl, .rest rfl rfl⟩, rfl, rfl, id⟩
  next => cases stepped

theorem moves_step (sound : Sound s) (event : Event Line) (other : ∀ line, event ≠ .append line)
    (stepped : s.step event = some s') : Moves s s' := by
  cases event with
  | append line => exact absurd rfl (other line)
  | flush thread =>
    simp only [step] at stepped
    split at stepped
    · cases stepped
      exact ⟨rfl, rfl, .rest rfl rfl⟩
    · cases stepped
  | flusher thread => exact moves_flusher thread stepped
  | wake thread =>
    cases stepped
    exact ⟨rfl, rfl, .rest rfl rfl⟩
  | writer timedOut => exact (aside_writerStep sound timedOut stepped).toMoves
  | stop =>
    cases stepped
    exact (aside_stop s).toMoves
  | stopper => exact (aside_stopperStep sound stepped).toMoves

end Moves

/-- The limit that the constructor was given, on the lines that are accepted and not yet passed
on. -/
def Bounded (s : AsyncSink Line) : Prop :=
  s.accepted.length ≤ (lines s.output).length + s.maxLines

instance (s : AsyncSink Line) : Decidable s.Bounded := inferInstanceAs (Decidable (_ ≤ _))

/-- A call of `append` finds the sink running and room in the buffers. -/
def Accepts (s : AsyncSink Line) : Prop :=
  s.running = true ∧ s.current.length + s.writing.length < s.maxLines

instance (s : AsyncSink Line) : Decidable s.Accepts := inferInstanceAs (Decidable (_ ∧ _))

/-- The lines that the writer took with its last swap, and the lines accepted after it. -/
structure SinceSwap where
  taken : Nat := 0
  accepted : Nat := 0

def sinceSwap (s : AsyncSink Line) (event : Event Line) (since : SinceSwap) : SinceSwap :=
  match s.step event with
  | none => since
  | some s' =>
    if s.writer.rest = [] ∧ s'.writer.rest ≠ [] then { taken := s'.writer.rest.length }
    else { since with accepted := since.accepted + (s'.accepted.length - s.accepted.length) }

/-- Until the writer has passed on the last line of its batch, no more lines are accepted than
fit the limit together with the batch. -/
def FitsBatch (x : AsyncSink Line × SinceSwap) : Event Line → Prop
  | .append _ => x.1.writer.rest ≠ [] → x.1.Accepts → x.2.taken + x.2.accepted < x.1.maxLines
  | .flush _ | .flusher _ | .wake _ | .writer _ | .stop | .stopper => True

instance [DecidableEq Line] (x : AsyncSink Line × SinceSwap) (event : Event Line) :
    Decidable (FitsBatch x event) := by
  cases event <;> unfold FitsBatch <;> infer_instance

section Limit

variable {s s' : AsyncSink Line}

theorem Sound.length_accepted (sound : Sound s) : s.accepted.length =
    (lines s.output).length + (s.writer.rest.length + s.current.length) := by
  rw [sound.lossless, length_append, length_append]

theorem Sound.bounded_length (sound : Sound s) :
    Bounded s ↔ s.writer.rest.length + s.current.length ≤ s.maxLines := by
  have length := sound.length_accepted
  unfold Bounded
  omega

theorem append_cases (s : AsyncSink Line) (line : Line) :
    ((s.append line).writer = s.writer ∧ (s.append line).maxLines = s.maxLines) ∧
      (((s.append line).current = s.current ∧ (s.append line).accepted = s.accepted) ∨
        s.running = true ∧ s.current.length + s.writing.length < s.maxLines ∧
          (s.append line).current = s.current ++ [line] ∧
          (s.append line).accepted = s.accepted ++ [line]) := by
  unfold append
  split
  next => exact ⟨⟨rfl, rfl⟩, .inl ⟨rfl, rfl⟩⟩
  next running =>
    dsimp only
    split
    next => exact ⟨⟨rfl, rfl⟩, .inl ⟨rfl, rfl⟩⟩
    next room =>
      exact ⟨⟨rfl, rfl⟩, .inr ⟨eq_true_of_ne_false running, Nat.not_le.mp room, rfl, rfl⟩⟩

/-- The buffer and the batch are within the limit, each for itself. -/
structure Within (s : AsyncSink Line) : Prop where
  sound : Sound s
  buffer : s.current.length ≤ s.maxLines
  batch : s.writer.rest.length ≤ s.maxLines

theorem Within.step (within : Within s) (event : Event Line) (stepped : s.step event = some s') :
    Within s' := by
  obtain ⟨sound, buffer, batch⟩ := within
  have sound' := sound.step event stepped
  by_cases appends : ∃ line, event = .append line
  · obtain ⟨line, rfl⟩ := appends
    cases stepped
    obtain ⟨⟨writer, maxLines⟩, refused | ⟨_, room, current, _⟩⟩ := append_cases s line
    · refine ⟨sound', ?_, by rw [writer, maxLines]; exact batch⟩
      rw [refused.1, maxLines]
      exact buffer
    · refine ⟨sound', ?_, by rw [writer, maxLines]; exact batch⟩
      rw [current, maxLines, length_append, length_singleton]
      omega
  · obtain ⟨_, maxLines, shift⟩ :=
      moves_step sound event (fun line same => appends ⟨line, same⟩) stepped
    cases shift with
    | rest hand current =>
      exact ⟨sound', by rw [current, maxLines]; exact buffer, by rw [hand, maxLines]; exact batch⟩
    | take free hand current =>
      -- the buffer becomes the batch
      refine ⟨sound', ?_, by rw [hand, maxLines]; exact buffer⟩
      rw [current]
      exact Nat.zero_le _
    | pass line hand current =>
      refine ⟨sound', by rw [current, maxLines]; exact buffer, ?_⟩
      rw [hand, length_cons] at batch
      omega

/-- The lines in hand of the writer are of its last batch, those in the buffer were accepted
since. -/
structure Tallied (x : AsyncSink Line × SinceSwap) : Prop where
  sound : Sound x.1
  held : x.1.writer.rest.length + x.1.current.length ≤ x.1.maxLines
  batch : x.1.writer.rest ≠ [] →
    x.1.writer.rest.length ≤ x.2.taken ∧ x.1.current.length ≤ x.2.accepted

variable {since : SinceSwap}

theorem Tallied.append (tallied : Tallied (s, since)) (line : Line)
    (fits : FitsBatch (s, since) (.append line)) :
    Tallied (s.append line, sinceSwap s (.append line) since) := by
  obtain ⟨sound, held, batch⟩ := tallied
  obtain ⟨⟨writer, maxLines⟩, changed⟩ := append_cases s line
  have kept : sinceSwap s (.append line) since = { since with
      accepted := since.accepted + ((s.append line).accepted.length - s.accepted.length) } := by
    have same : ¬(s.writer.rest = [] ∧ (s.append line).writer.rest ≠ []) := by
      rw [writer]
      exact fun both => both.2 both.1
    rw [sinceSwap]
    exact if_neg same
  rw [kept]
  rcases changed with ⟨current, accepted⟩ | ⟨running, room, current, accepted⟩
  · refine ⟨sound.append line, ?_, ?_⟩ <;> simpa [writer, maxLines, current, accepted]
  · refine ⟨sound.append line, ?_, fun busy => ?_⟩
    · simp only [writer, maxLines, current, length_append, length_singleton]
      -- with nothing in hand, the code's own test is enough
      by_cases busy : s.writer.rest = []
      · rw [busy, length_nil]
        omega
      · have budget := fits busy ⟨running, room⟩
        have counts := batch busy
        dsimp only at budget counts
        omega
    · simp only [writer, current, accepted, length_append, length_singleton] at busy ⊢
      have counts := batch busy
      dsimp only at counts
      omega

theorem Tallied.moves (tallied : Tallied (s, since)) (event : Event Line)
    (stepped : s.step event = some s') (sound' : Sound s') (moves : Moves s s') :
    Tallied (s', sinceSwap s event since) := by
  obtain ⟨-, held, batch⟩ := tallied
  obtain ⟨accepted, maxLines, shift⟩ := moves
  rw [sinceSwap, stepped]
  dsimp only at held batch ⊢
  cases shift with
  | rest hand buffer =>
    rw [if_neg (by rw [hand]; exact fun both => both.2 both.1)]
    refine ⟨sound', by simpa only [hand, buffer, maxLines], fun busy => ?_⟩
    simpa only [hand, buffer, accepted, Nat.sub_self, Nat.add_zero] using batch (hand ▸ busy)
  | take free hand buffer =>
    refine ⟨sound', ?_, fun busy => ?_⟩
    · simp only [free, hand, buffer, maxLines, length_nil] at held ⊢
      omega
    · rw [if_pos ⟨free, busy⟩, buffer]
      exact ⟨Nat.le_refl _, Nat.zero_le _⟩
  | pass line hand buffer =>
    rw [if_neg (by rw [hand]; exact fun both => absurd both.1 (cons_ne_nil _ _))]
    have before := batch (by rw [hand]; exact cons_ne_nil _ _)
    rw [hand, length_cons] at held before
    refine ⟨sound', ?_, fun _ => ?_⟩
    · simp only [buffer, maxLines]
      omega
    · simp only [buffer, accepted, Nat.sub_self, Nat.add_zero]
      omega

theorem Tallied.step (tallied : Tallied (s, since)) (event : Event Line)
    (fits : FitsBatch (s, since) event) (stepped : s.step event = some s') :
    Tallied (s', sinceSwap s event since) := by
  by_cases appends : ∃ line, event = .append line
  · obtain ⟨line, rfl⟩ := appends
    cases stepped
    exact tallied.append line fits
  · exact tallied.moves event stepped (tallied.sound.step event stepped)
      (moves_step tallied.sound event (fun line same => appends ⟨line, same⟩) stepped)

end Limit

/-- In every run the lines held never exceed the limit, if after each swap of the writer, and until
it has passed on its batch, no more lines are accepted than the batch leaves room for. -/
theorem withinLimit_of_fitsBatch (maxBufferedLines : Nat) (events : List (Event Line))
    (fits : Machine.Meets (Machine.remembering step sinceSwap) FitsBatch
      (new maxBufferedLines, {}) events) :
    Machine.Always step Bounded (new maxBufferedLines) events := by
  have tallied : Machine.Always (Machine.remembering step sinceSwap) Tallied
      (new maxBufferedLines, {}) events := by
    refine Machine.always_of_meets_remembering (fun s since event s' tallied fits stepped => ?_)
      _ _ events ⟨Sound.new maxBufferedLines, Nat.zero_le _, fun busy => absurd rfl busy⟩ fits
    exact tallied.step event fits stepped
  refine Machine.Always.forget _ _ events (Machine.Always.mono (fun x tallied => ?_) _ events tallied)
  exact tallied.sound.bounded_length.mpr tallied.held

/-- A line that is accepted while another is in hand of the writer, under a limit of two. -/
theorem withinLimit_besideBatch :
    let events : List (Event Nat) := [.append 1, .writer false, .append 2, .writer false]
    Machine.Always step Bounded (new 2) events ∧
      (Machine.run step (new 2) events).map (fun s => (s.current, lines s.output)) =
        some ([2], [1]) :=
  ⟨withinLimit_of_fitsBatch 2 _ (by decide), by decide⟩

/-- A slow downstream sink, and a limit of one line: the line in the batch is not counted. -/
theorem slowWriter_holdsTwo :
    let events : List (Event Nat) := [.append 1, .writer false, .append 2]
    ¬Machine.Always step Bounded (new 1) events ∧
      (Machine.run step (new 1) events).map (fun s => (s.maxLines, s.accepted, s.output)) =
        some (1, [1, 2], []) := by
  decide

/-- Without the condition, the lines held are at most twice the limit. -/
theorem heldTwice_always (maxBufferedLines : Nat) (events : List (Event Line)) :
    Machine.Always step (fun s => s.accepted.length ≤ (lines s.output).length + 2 * s.maxLines)
      (new maxBufferedLines) events := by
  refine Machine.Always.mono (P := Within) (fun s within => ?_) _ events ?_
  · have length := within.sound.length_accepted
    have buffer := within.buffer
    have batch := within.batch
    omega
  · refine Machine.always_of_keeps (fun s event s' within stepped => within.step event stepped) _
      events ⟨Sound.new maxBufferedLines, Nat.zero_le _, Nat.zero_le _⟩

end Cox.Logging.AsyncSink
