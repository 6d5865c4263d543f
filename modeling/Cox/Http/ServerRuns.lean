import Cox.Lib.Session
import Cox.Http.ContextRounds
import Cox.Http.Server

/-!
# Runs of a server connection

Up to its first close a connection is a session over the request parser, so what it
does is a function of the byte stream alone: where the reads were cut does not matter.
-/
namespace Cox.Http.ServerConn

open Cox.Lib Cox.Lib.Resumable HttpContext List

variable {σ : Type} (handler : Option (HttpHandler σ)) (c : ServerConn σ)

/-! ### A connection is a session -/

/-- What the server does with a complete and with a rejected request; the output is the
handler's state and the actions so far. -/
def service : Service HttpContext (σ × List Action) ParseError where
  complete c := c.gotAll
  rejected c := c.hasError
  verdict c := c.error
  serve out c :=
    let response := respond handler out.1 c.request
    let finished := if c.request.keepAlive then [] else [Action.close]
    ⟨c.reset, (response.1, out.2 ++ response.2 ++ finished), !c.request.keepAlive⟩
  reject out e := (out.1, out.2 ++ rejection e)

theorem service_lawful : (service handler).LawfulService round Sound where
  parser := by simpa [service, hasError] using round_lawful
  completeStops := by
    intro c b complete
    have here : c.state = .gotAll := by simpa [service, gotAll] using complete
    simp only [HttpContext.round, here]
  notBoth := by
    intro c complete
    have here : c.state = .gotAll := by simpa [service, gotAll] using complete
    simp [service, hasError, here]
  takeAccepts := by
    intro c b c' n sound played
    simpa [service, hasError] using round_take_accepts c b c' n sound played
  served := by
    intro out c _
    exact ⟨sound_fresh _, rfl, rfl⟩

abbrev sessionRound :
    Session HttpContext (σ × List Action) → Bytes → Round (Session HttpContext (σ × List Action)) :=
  (service handler).sessionRound round

def inSession (c : ServerConn σ) (o : Session HttpContext (σ × List Action) × Bytes) :
    ServerConn σ :=
  { c with ctx := o.1.parser, input := o.2, world := o.1.out.1, actions := o.1.out.2 }

theorem answerLoop_unfinished (fuel : Nat) (c : ServerConn σ) (unfinished : c.ctx.gotAll = false) :
    c.answerLoop handler fuel = c := by
  cases fuel with
  | zero => rfl
  | succ fuel => rw [answerLoop, if_neg (by simp [unfinished])]

section Turn

variable (out : σ × List Action) (c : HttpContext)

theorem turn_rejected (rejected : c.hasError = true) :
    (service handler).turn out c = ⟨c, (out.1, out.2 ++ rejection c.error), true⟩ := by
  rw [Service.turn, if_pos (by exact rejected)]
  rfl

theorem turn_complete (accepted : c.hasError = false) (complete : c.gotAll = true) :
    (service handler).turn out c = (service handler).serve out c := by
  rw [Service.turn, if_neg (by simp [service, accepted]), if_pos (by exact complete)]

theorem turn_unfinished (accepted : c.hasError = false) (unfinished : c.gotAll = false) :
    (service handler).turn out c = ⟨c, out, false⟩ := by
  rw [Service.turn, if_neg (by simp [service, accepted]), if_neg (by simp [service, unfinished])]

end Turn

theorem parse_closed (s : Session HttpContext (σ × List Action)) (b : Bytes)
    (finished : s.closed = true) : parse (sessionRound handler) s b = (s, b) :=
  parse_stop _ _ _ (Service.sessionRound_closed s b finished)

theorem parseInput_shrinks (again : (c.answer handler).parseInput.ctx.gotAll = true) :
    (c.answer handler).parseInput.input.length < c.input.length := by
  have state : (c.answer handler).parseInput.ctx.state = .gotAll := by
    simpa [gotAll] using again
  rcases round_lawful.parse_shrinks c.ctx.reset c.input (sound_fresh _) with same | failed | short
  -- a fresh context is not complete, and neither is a rejecting one
  · have unchanged : (c.answer handler).parseInput.ctx = c.ctx.reset := same
    rw [unchanged] at state
    cases state
  · have failed' : (c.answer handler).parseInput.ctx.state = .error := failed
    rw [state] at failed'
    cases failed'
  · exact short

/-- Parse the input, then reject it or go on with the loop: this is what the session
does, if it is what the loop does. -/
theorem parseInput_session (fuel : Nat) (sound : Sound c.ctx) (accepted : c.ctx.hasError = false)
    (unfinished : c.ctx.gotAll = false)
    (loop : c.parseInput.ctx.hasError = false → c.parseInput.answerLoop handler fuel =
      c.parseInput.inSession (parse (sessionRound handler)
        ((service handler).turn (c.world, c.actions) c.parseInput.ctx) c.parseInput.input)) :
    (if c.parseInput.ctx.hasError then c.parseInput.perform (rejection c.parseInput.ctx.error)
      else c.parseInput.answerLoop handler fuel) =
    c.inSession
      (parse (sessionRound handler) ⟨c.ctx, (c.world, c.actions), false⟩ c.input) := by
  have turned : parse (sessionRound handler) ⟨c.ctx, (c.world, c.actions), false⟩ c.input =
      parse (sessionRound handler)
        ((service handler).turn (c.world, c.actions) c.parseInput.ctx) c.parseInput.input :=
    (service_lawful handler).parse_turn c.ctx _ c.input sound unfinished accepted
  rw [turned]
  by_cases rejected : c.parseInput.ctx.hasError = true
  · rw [if_pos rejected, turn_rejected handler _ _ rejected, parse_closed handler _ _ rfl]
    rfl
  · rw [if_neg rejected, loop (by simpa using rejected)]
    rfl

theorem answerLoop_session (fuel : Nat) (c : ServerConn σ)
    (accepted : c.ctx.hasError = false) (waits : round c.ctx c.input = .stop c.ctx)
    (enough : c.ctx.gotAll = true → c.input.length < fuel) :
    c.answerLoop handler fuel = c.inSession (parse (sessionRound handler)
      ((service handler).turn (c.world, c.actions) c.ctx) c.input) := by
  -- each answered request has taken some of the input, so the fuel lasts for all of them
  induction fuel generalizing c with
  | zero =>
    have unfinished : c.ctx.gotAll = false := by
      by_contra complete
      have := enough (by simpa using complete)
      omega
    rw [turn_unfinished handler _ _ accepted unfinished,
      parse_stop _ _ _ (Service.sessionRound_stop ⟨c.ctx, _, false⟩ c.ctx c.input rfl waits)]
    rfl
  | succ fuel ih =>
    by_cases complete : c.ctx.gotAll = true
    case neg =>
      have unfinished : c.ctx.gotAll = false := by simpa using complete
      rw [answerLoop_unfinished handler _ c unfinished,
        turn_unfinished handler _ _ accepted unfinished,
        parse_stop _ _ _ (Service.sessionRound_stop ⟨c.ctx, _, false⟩ c.ctx c.input rfl waits)]
      rfl
    rw [answerLoop, if_pos complete, turn_complete handler _ _ accepted complete]
    by_cases keeps : c.ctx.request.keepAlive = true
    case neg =>
      have finished : ((service handler).serve (c.world, c.actions) c.ctx).closed = true := by
        simp [service, keeps]
      rw [if_neg keeps, parse_closed handler _ _ finished]
      simp [perform, answer, inSession, service, keeps]
    -- keep-alive: the session restarts the parser, and so does the loop
    have restarted : (service handler).serve (c.world, c.actions) c.ctx =
        ⟨c.ctx.reset, ((c.answer handler).world, (c.answer handler).actions), false⟩ := by
      simp [service, answer, keeps]
    have sound : Sound c.ctx.reset := sound_fresh _
    rw [if_pos keeps, restarted]
    refine parseInput_session handler (c.answer handler) fuel sound rfl rfl fun accepted' => ?_
    refine ih (c.answer handler).parseInput accepted'
      (round_lawful.parse_waits c.ctx.reset c.input sound) fun again => ?_
    have short := parseInput_shrinks handler c again
    have bound := enough complete
    omega

/-- **One call is one turn of the session**: it does what the session does with the
bytes in the buffer, until it waits for more or is closed. -/
theorem processInput_session (live : c.live = true) (sound : Sound c.ctx)
    (accepted : c.ctx.hasError = false) (unfinished : c.ctx.gotAll = false) :
    c.processInput handler = c.inSession
      (parse (sessionRound handler) ⟨c.ctx, (c.world, c.actions), false⟩ c.input) := by
  rw [processInput, if_pos live]
  refine parseInput_session handler c _ sound accepted unfinished fun accepted' => ?_
  exact answerLoop_session handler _ c.parseInput accepted'
    (round_lawful.parse_waits c.ctx c.input sound) (fun _ => Nat.lt_succ_self _)

/-! ### What the server does up to the first close -/

/-- The actions up to and including the first close. -/
def upToClose : List Action → List Action
  | [] => []
  | a :: rest => if a = .close then [a] else a :: upToClose rest

theorem upToClose_going (actions : List Action) (going : .close ∉ actions) :
    upToClose actions = actions := by
  induction actions with
  | nil => rfl
  | cons a rest ih =>
    simp only [mem_cons, not_or] at going
    rw [upToClose, if_neg (Ne.symm going.1), ih going.2]

theorem upToClose_ended (actions rest : List Action) (going : .close ∉ actions) :
    upToClose (actions ++ [.close] ++ rest) = actions ++ [.close] := by
  induction actions with
  | nil => rfl
  | cons a actions ih =>
    simp only [mem_cons, not_or] at going
    rw [cons_append, cons_append, upToClose, if_neg (Ne.symm going.1), ih going.2]

theorem respond_going (world : σ) (req : HttpRequest) :
    .close ∉ (respond handler world req).2 := by
  cases handler <;> simp [respond, runHandler]

/-- A session has closed the connection exactly when it is closed, as its last action. -/
def Ended (s : Session HttpContext (σ × List Action)) : Prop :=
  if s.closed then ∃ before, s.out.2 = before ++ [.close] ∧ .close ∉ before
  else .close ∉ s.out.2

theorem parse_ended (s : Session HttpContext (σ × List Action)) (b : Bytes)
    (good : Sound s.parser) (ended : Ended s) : Ended (parse (sessionRound handler) s b).1 := by
  have lawful := (service_lawful handler).session_lawful
  refine (parse_preserves (P := fun s => Sound s.parser ∧ Ended s) lawful.consumes ?_ ?_ ?_ s b
    ⟨good, ended⟩).2
  · rintro s b s' ⟨good, ended⟩ played
    rw [lawful.stopSame s b s' good played]
    exact ⟨good, ended⟩
  · rintro s b s' n ⟨good, ended⟩ played
    refine ⟨(lawful.goodFail s b s' n good played).1, ?_⟩
    have plays := Service.sessionRound_plays (service handler) round s b
    rw [played] at plays
    cases plays with
    -- a rejection ends with the close
    | fail c n going =>
      simp only [Ended, going, Bool.false_eq_true, if_false] at ended
      refine ⟨s.out.2 ++ [.send (errorResponse c.error), .notify (errorStatus c.error)], ?_, ?_⟩
      · simp [Service.turnDown, service, rejection]
      · simp [ended]
    -- the last answer is followed by the close
    | close c n going _ _ closed =>
      have leaves : c.request.keepAlive = false := by simpa [service] using closed
      simp only [Ended, going, Bool.false_eq_true, if_false] at ended
      rw [Ended, if_pos closed]
      refine ⟨s.out.2 ++ (respond handler s.out.1 c.request).2, ?_, ?_⟩
      · simp [service, leaves]
      · simp [ended, respond_going]
  · rintro s b s' n ⟨good, ended⟩ played
    refine ⟨lawful.goodTake s b s' n good played, ?_⟩
    have plays := Service.sessionRound_plays (service handler) round s b
    rw [played] at plays
    cases plays with
    | take c n going =>
      simp only [Ended, going, Bool.false_eq_true, if_false] at ended
      exact ended
    | serve c n going _ _ again =>
      have stays : c.request.keepAlive = true := by simpa [service] using again
      simp only [Ended, going, Bool.false_eq_true, if_false] at ended
      rw [Ended, if_neg (by simp [again])]
      simp [service, stays, ended, respond_going]

/-- What a call returns: it has only added to the actions, and unless it has closed the
connection the parser waits for the rest of a request. -/
def Returns (c c' : ServerConn σ) : Prop :=
  ∃ new, c'.actions = c.actions ++ new ∧
    (.close ∈ new ∨ (c'.ctx.gotAll = false ∧ c'.ctx.hasError = false))

theorem perform_returns (actions : List Action) (closes : .close ∈ actions) :
    Returns c (c.perform actions) :=
  ⟨actions, rfl, .inl closes⟩

theorem Returns.of_more (c c' c'' : ServerConn σ) (more : List Action)
    (first : c'.actions = c.actions ++ more) (returns : Returns c' c'') : Returns c c'' := by
  obtain ⟨new, same, result⟩ := returns
  refine ⟨more ++ new, by rw [same, first, append_assoc], ?_⟩
  rcases result with closed | waits
  · exact .inl (mem_append_right _ closed)
  · exact .inr waits

theorem answerLoop_returns (fuel : Nat) (c : ServerConn σ) (accepted : c.ctx.hasError = false)
    (enough : c.ctx.gotAll = true → c.input.length < fuel) :
    Returns c (c.answerLoop handler fuel) := by
  induction fuel generalizing c with
  | zero =>
    refine ⟨[], (append_nil _).symm, .inr ⟨?_, accepted⟩⟩
    by_contra complete
    have := enough (by simpa [answerLoop] using complete)
    omega
  | succ fuel ih =>
    rw [answerLoop]
    by_cases complete : c.ctx.gotAll = true
    case neg =>
      rw [if_neg complete]
      exact ⟨[], (append_nil _).symm, .inr ⟨by simpa using complete, accepted⟩⟩
    rw [if_pos complete]
    by_cases keeps : c.ctx.request.keepAlive = true
    case neg =>
      rw [if_neg keeps]
      exact Returns.of_more c (c.answer handler) _ _ rfl (perform_returns _ _ (by simp))
    rw [if_pos keeps]
    apply Returns.of_more c (c.answer handler).parseInput _ _ rfl
    dsimp only
    split_ifs with rejected
    · exact perform_returns _ _ (by simp [rejection])
    · refine ih _ (by simpa using rejected) fun again => ?_
      have short := parseInput_shrinks handler c again
      have bound := enough complete
      omega

theorem processInput_returns (live : c.live = true) : Returns c (c.processInput handler) := by
  rw [processInput, if_pos live]
  apply Returns.of_more c c.parseInput _ [] (append_nil _).symm
  dsimp only
  split_ifs with rejected
  · exact perform_returns _ _ (by simp [rejection])
  · exact answerLoop_returns handler _ _ (by simpa using rejected) fun _ => Nat.lt_succ_self _

theorem step_adds (e : Event) : (c.step handler e).actions = c.actions ++ c.did handler e := by
  have adds : ∃ new, (c.step handler e).actions = c.actions ++ new := by
    cases e with
    | disconnected => exact ⟨[], (append_nil _).symm⟩
    | read data =>
      by_cases live : c.live = true
      · obtain ⟨new, same, _⟩ := processInput_returns handler { c with input := c.input ++ data } live
        exact ⟨new, same⟩
      · refine ⟨[], ?_⟩
        rw [step, processInput, if_neg live, append_nil]
  obtain ⟨new, same⟩ := adds
  rw [did, same, drop_left]

theorem run_adds (events : List Event) :
    ∃ new, (c.run handler events).actions = c.actions ++ new := by
  induction events generalizing c with
  | nil => exact ⟨[], (append_nil _).symm⟩
  | cons e events ih =>
    obtain ⟨new, same⟩ := ih (c.step handler e)
    rw [step_adds, append_assoc] at same
    exact ⟨_, same⟩

/-- Up to its first close, the run over any reads does what the session does. -/
theorem run_upToClose (reads : List Bytes) (live : c.live = true) (sound : Sound c.ctx)
    (accepted : c.ctx.hasError = false) (unfinished : c.ctx.gotAll = false)
    (going : .close ∉ c.actions) :
    upToClose (c.run handler (reads.map .read)).actions =
      (feed (sessionRound handler) (⟨c.ctx, (c.world, c.actions), false⟩, c.input) reads).1.out.2 := by
  have laws := service_lawful handler
  induction reads generalizing c with
  | nil => exact upToClose_going c.actions going
  | cons data reads ih =>
    let start : Session HttpContext (σ × List Action) := ⟨c.ctx, (c.world, c.actions), false⟩
    -- `o` is what the session has reached after this read
    generalize reached : parse (sessionRound handler) start (c.input ++ data) = o
    have stepped : c.step handler (.read data) = c.inSession o := by
      rw [← reached]
      exact processInput_session handler { c with input := c.input ++ data } live sound accepted
        unfinished
    have ended : Ended o.1 := reached ▸ parse_ended handler start _ sound (by simpa [Ended] using going)
    have opened := laws.parse_open start (c.input ++ data) ⟨sound, fun _ => ⟨unfinished, accepted⟩⟩
    rw [reached] at opened
    rw [map_cons, run, foldl_cons, stepped, feed, reached, ← run]
    cases finished : o.1.closed with
    | false =>
      rw [Ended, if_neg (by simp [finished])] at ended
      have next := ih (c.inSession o) live opened.1 (opened.2 finished).2 (opened.2 finished).1 ended
      have same : o = (⟨o.1.parser, o.1.out, false⟩, o.2) := by rw [← finished]
      rw [next, same]
      rfl
    | true =>
      -- nothing that is done later changes what was done up to the close
      rw [Ended, if_pos finished] at ended
      obtain ⟨before, last, none⟩ := ended
      obtain ⟨new, more⟩ := run_adds handler (c.inSession o) (reads.map .read)
      rw [more, laws.session_lawful.feed_rejected o reads finished]
      show upToClose (o.1.out.2 ++ new) = o.1.out.2
      rw [last]
      exact upToClose_ended before new none

/-- For any two ways of cutting a byte stream into reads, the server does the same up to
and including the first close: the same requests reach the handler, the same responses
are sent. And a call that returns without a close leaves the parser in the middle of a
request, from any state of the connection. -/
theorem answers_independentOfReads (maxBodyBytes : Nat) (world : σ) (left right : List Bytes)
    (same : left.flatten = right.flatten) :
    let start := established maxBodyBytes world
    upToClose (start.run handler (left.map .read)).actions =
        upToClose (start.run handler (right.map .read)).actions ∧
      ∀ (c : ServerConn σ) (data : Bytes), c.live = true → .close ∉ c.did handler (.read data) →
        (c.step handler (.read data)).ctx.gotAll = false ∧
        (c.step handler (.read data)).ctx.hasError = false := by
  intro start
  let session : Session HttpContext (σ × List Action) := ⟨fresh maxBodyBytes, (world, []), false⟩
  -- both runs do what the session does with the whole stream
  have whole (reads : List Bytes) : upToClose (start.run handler (reads.map .read)).actions =
      (parse (sessionRound handler) session reads.flatten).1.out.2 := by
    have agrees := (service_lawful handler).session_lawful.feed_agrees session [] reads
      (sound_fresh maxBodyBytes) (parse_stop _ _ _ rfl)
    rw [run_upToClose handler start reads rfl (sound_fresh _) rfl rfl (by simp [start, established])]
    rcases agrees with equal | ⟨_, _, equal⟩
    · exact congrArg (·.1.out.2) equal
    · exact congrArg (·.2) equal
  refine ⟨by rw [whole left, whole right, same], fun c data live silent => ?_⟩
  obtain ⟨new, adds, result⟩ := processInput_returns handler { c with input := c.input ++ data } live
  have did : c.did handler (.read data) = new := by
    rw [did, step, adds, List.drop_left]
  rw [did] at silent
  exact result.resolve_left silent

theorem answers_independentOfReads_get :
    let handler : Option (HttpHandler Nat) :=
      some fun n _ resp => (n + 1, resp.setBody (numeral 10 n))
    let start := established 0 0
    upToClose (start.run handler
        ([text "GET / HTTP/1.1\r\n\r\nGE", text "T / HTTP/1.0\r\n\r\nxyz"].map .read)).actions =
      upToClose (start.run handler
        ([text "GET / HTTP/1.1\r\n\r", text "\nGET / HTTP/1.0\r\n\r\nxyz"].map .read)).actions :=
  (answers_independentOfReads _ 0 0 _ _ (by decide)).1

end Cox.Http.ServerConn
