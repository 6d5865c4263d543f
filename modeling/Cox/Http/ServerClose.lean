import Cox.Http.ServerRuns

/-!
# After a close

Closing is a half-close: the reading side stays open, and the context and the input
buffer of the connection survive. Later reads are parsed and answered as before. This
module says exactly which continuations of the stream are harmless.
-/
namespace Cox.Http.ServerConn

open Cox.Lib Cox.Lib.Resumable HttpContext List

variable {σ : Type} (handler : Option (HttpHandler σ)) (c : ServerConn σ)

/-- Neither the handler nor the observer is called, and nothing is sent. -/
def Quiet (actions : List Action) : Prop := ∀ a ∈ actions, a = .close

instance (actions : List Action) : Decidable (Quiet actions) :=
  inferInstanceAs (Decidable (∀ a ∈ actions, a = .close))

/-- Once the connection has been closed, every step is quiet. -/
def QuietAfterClose (c : ServerConn σ) : List Event → Prop
  | [] => True
  | e :: events =>
    (.close ∈ c.actions → Quiet (c.did handler e)) ∧ QuietAfterClose (c.step handler e) events

def Unfinished (c : HttpContext) : Prop := c.gotAll = false ∧ c.hasError = false

/-- The reads that arrive before the connection goes down. -/
def readsOf : List Event → List Bytes
  | .read data :: events => data :: readsOf events
  | _ => []

/-- No more reads arrive, or together with the bytes that are left over they are
neither a complete nor a malformed request for the parser as it was left. -/
def Harmless (c : ServerConn σ) (events : List Event) : Prop :=
  readsOf events = [] ∨
    Unfinished (c.ctx.parseRequest (c.input ++ (readsOf events).flatten)).1

/-- What follows the call that closes the connection is harmless. -/
def HarmlessAfterClose (c : ServerConn σ) : List Event → Prop
  | [] => True
  | e :: events =>
    (.close ∉ c.actions → .close ∈ (c.step handler e).actions →
      Harmless (c.step handler e) events) ∧
    HarmlessAfterClose (c.step handler e) events

instance decidableQuietAfterClose (c : ServerConn σ) :
    (events : List Event) → Decidable (QuietAfterClose handler c events)
  | [] => inferInstanceAs (Decidable True)
  | e :: events =>
    have := decidableQuietAfterClose (c.step handler e) events
    inferInstanceAs (Decidable (_ ∧ _))

theorem parse_unfinished_append (c : HttpContext) (a b : Bytes) (sound : Sound c) :
    Unfinished (parseRequest (parseRequest c a).1 ((parseRequest c a).2 ++ b)).1 ↔
      Unfinished (parseRequest c (a ++ b)).1 := by
  rcases round_lawful.parse_append c a b sound with same | ⟨left, right, _⟩
  · unfold parseRequest
    rw [same]
  · have left' : (parseRequest (parseRequest c a).1 ((parseRequest c a).2 ++ b)).1.state = .error := left
    have right' : (parseRequest c (a ++ b)).1.state = .error := right
    simp [Unfinished, hasError, left', right']

theorem unfinished_of_append (c : HttpContext) (a b : Bytes) (sound : Sound c)
    (unfinished : Unfinished (parseRequest c (a ++ b)).1) : Unfinished (parseRequest c a).1 := by
  rw [← parse_unfinished_append c a b sound] at unfinished
  by_contra finished
  apply finished
  -- a finished parser stops at once, whatever follows
  have stops : (parseRequest c a).1.round ((parseRequest c a).2 ++ b) =
      .stop (parseRequest c a).1 := by
    cases here : (parseRequest c a).1.state
    case gotAll | error => simp only [HttpContext.round, here]
    all_goals exact absurd (by simp [Unfinished, gotAll, hasError, here]) finished
  have final : parseRequest (parseRequest c a).1 ((parseRequest c a).2 ++ b) =
      ((parseRequest c a).1, (parseRequest c a).2 ++ b) := parse_stop _ _ _ stops
  rw [final] at unfinished
  exact unfinished

theorem respond_loud (world : σ) (req : HttpRequest) (more : List Action) :
    ¬Quiet ((respond handler world req).2 ++ more) := by
  intro quiet
  have sent := quiet (.send ((runHandler handler world req).2.1.setKeepAlive req.keepAlive).appendTo)
    (by simp [respond])
  cases sent

theorem answerLoop_answers (complete : c.ctx.gotAll = true) :
    ∃ more, (c.answerLoop handler (c.input.length + 1)).actions =
      c.actions ++ ((respond handler c.world c.ctx.request).2 ++ more) := by
  rw [answerLoop, if_pos complete]
  -- the first request of the loop is answered in every case; what follows only adds actions
  by_cases keeps : c.ctx.request.keepAlive = true
  case neg =>
    rw [if_neg keeps]
    exact ⟨[.close], by simp [perform, answer]⟩
  rw [if_pos keeps]
  dsimp only
  split_ifs with rejected
  · exact ⟨rejection (c.answer handler).parseInput.ctx.error, by simp [perform, parseInput, answer]⟩
  · obtain ⟨more, same, _⟩ := answerLoop_returns handler c.input.length
      (c.answer handler).parseInput (by simpa using rejected) (parseInput_shrinks handler c)
    exact ⟨more, by rw [same, ← append_assoc]; rfl⟩

theorem step_unfinished (data : Bytes) (live : c.live = true)
    (unfinished : Unfinished (c.ctx.parseRequest (c.input ++ data)).1) :
    c.step handler (.read data) = parseInput { c with input := c.input ++ data } := by
  rw [step, processInput, if_pos live]
  dsimp only [parseInput]
  rw [if_neg (by simp [unfinished.2]), answerLoop_unfinished handler _ _ unfinished.1]

theorem quiet_read (data : Bytes) (live : c.live = true) :
    Quiet (c.did handler (.read data)) ↔
      Unfinished (c.ctx.parseRequest (c.input ++ data)).1 := by
  constructor
  · intro quiet
    let parsed := parseInput { c with input := c.input ++ data }
    -- a rejection sends a response
    by_cases rejected : parsed.ctx.hasError = true
    · have did : c.did handler (.read data) = rejection parsed.ctx.error := by
        rw [did, step, processInput, if_pos live]
        dsimp only
        rw [if_pos rejected]
        exact drop_left
      rw [did] at quiet
      cases quiet _ (mem_cons_self ..)
    -- a complete request is answered
    by_cases complete : parsed.ctx.gotAll = true
    · obtain ⟨more, same⟩ := answerLoop_answers handler parsed complete
      have did : c.did handler (.read data) =
          (respond handler parsed.world parsed.ctx.request).2 ++ more := by
        rw [did, step, processInput, if_pos live]
        dsimp only
        rw [if_neg rejected, same]
        exact drop_left
      rw [did] at quiet
      exact absurd quiet (respond_loud handler _ _ more)
    exact ⟨eq_false_of_ne_true complete, eq_false_of_ne_true rejected⟩
  · intro unfinished
    rw [did, step_unfinished handler c data live unfinished]
    simp [Quiet, parseInput]

def QuietRun (c : ServerConn σ) : List Event → Prop
  | [] => True
  | e :: events => Quiet (c.did handler e) ∧ QuietRun (c.step handler e) events

theorem quietAfterClose_closed (events : List Event) (closed : .close ∈ c.actions) :
    QuietAfterClose handler c events ↔ QuietRun handler c events := by
  induction events generalizing c with
  | nil => exact Iff.rfl
  | cons e events ih =>
    have still : .close ∈ (c.step handler e).actions := by
      rw [step_adds]
      exact mem_append_left _ closed
    rw [QuietAfterClose, QuietRun, ih _ still]
    exact and_congr_left' (imp_iff_right closed)

theorem step_dead (e : Event) (dead : c.live = false) :
    (c.step handler e).live = false ∧ c.did handler e = [] := by
  cases e <;> simp [did, step, processInput, dead]

theorem quietRun_dead (events : List Event) (dead : c.live = false) :
    QuietRun handler c events := by
  induction events generalizing c with
  | nil => trivial
  | cons e events ih =>
    obtain ⟨dead', nothing⟩ := step_dead handler c e dead
    refine ⟨?_, ih _ dead'⟩
    rw [nothing]
    simp [Quiet]

/-- The reads that follow are all quiet exactly when together they leave the parser in
the middle of a request. -/
theorem quietRun_iff_harmless (events : List Event) (live : c.live = true) (sound : Sound c.ctx) :
    QuietRun handler c events ↔ Harmless c events := by
  induction events generalizing c with
  | nil => exact iff_of_true trivial (.inl rfl)
  | cons e events ih =>
    cases e with
    | disconnected =>
      refine iff_of_true ⟨?_, quietRun_dead handler _ events rfl⟩ (.inl rfl)
      simp [Quiet, did, step]
    | read data =>
      rw [QuietRun, quiet_read handler c data live, Harmless, readsOf, flatten_cons,
        ← append_assoc]
      simp only [cons_ne_nil, false_or]
      -- after a quiet read the connection is as before, with more input parsed
      have later := ih (parseInput { c with input := c.input ++ data }) live
        (round_lawful.parse_good c.ctx _ sound)
      constructor
      -- quiet now and later: the whole input is unfinished
      · rintro ⟨unfinished, rest⟩
        rw [step_unfinished handler c data live unfinished] at rest
        rcases later.mp rest with none | more
        · rw [none, flatten_nil, append_nil]
          exact unfinished
        · exact (parse_unfinished_append c.ctx _ _ sound).mp more
      -- the whole is unfinished, so every initial part of it is
      · intro whole
        have unfinished := unfinished_of_append c.ctx _ _ sound whole
        refine ⟨unfinished, ?_⟩
        rw [step_unfinished handler c data live unfinished]
        exact later.mpr (.inr ((parse_unfinished_append c.ctx _ _ sound).mpr whole))

theorem answerLoop_keeps (fuel : Nat) (c : ServerConn σ) (sound : Sound c.ctx) :
    (c.answerLoop handler fuel).live = c.live ∧ Sound (c.answerLoop handler fuel).ctx := by
  induction fuel generalizing c with
  | zero => exact ⟨rfl, sound⟩
  | succ fuel ih =>
    have reset : Sound (c.answer handler).parseInput.ctx :=
      round_lawful.parse_good c.ctx.reset c.input (sound_fresh _)
    rw [answerLoop]
    dsimp only
    split_ifs
    · exact ⟨rfl, reset⟩
    · exact ih (c.answer handler).parseInput reset
    · exact ⟨rfl, sound_fresh _⟩
    · exact ⟨rfl, sound⟩

theorem step_sound (e : Event) (sound : Sound c.ctx) : Sound (c.step handler e).ctx := by
  cases e with
  | disconnected => exact sound
  | read data =>
    have parsed : Sound (parseInput { c with input := c.input ++ data }).ctx :=
      round_lawful.parse_good c.ctx (c.input ++ data) sound
    rw [step, processInput]
    dsimp only
    split_ifs
    · exact parsed
    · exact (answerLoop_keeps handler _ _ parsed).2
    · exact sound

theorem closing_live (e : Event) (sound : Sound c.ctx) (going : .close ∉ c.actions)
    (closed : .close ∈ (c.step handler e).actions) : (c.step handler e).live = true := by
  cases live : c.live with
  | false =>
    rw [step_adds, (step_dead handler c e live).2, append_nil] at closed
    exact absurd closed going
  | true =>
    cases e with
    | disconnected => exact absurd closed going
    | read data =>
      have parsed : Sound (parseInput { c with input := c.input ++ data }).ctx :=
        round_lawful.parse_good c.ctx (c.input ++ data) sound
      rw [step, processInput]
      dsimp only
      split_ifs
      · exact live
      · exact (answerLoop_keeps handler _ _ parsed).1.trans live

theorem harmlessAfterClose_closed (events : List Event) (closed : .close ∈ c.actions) :
    HarmlessAfterClose handler c events := by
  induction events generalizing c with
  | nil => trivial
  | cons e events ih =>
    have still : .close ∈ (c.step handler e).actions := by
      rw [step_adds]
      exact mem_append_left _ closed
    exact ⟨fun going => absurd closed going, ih _ still⟩

theorem quietAfterClose_going (events : List Event) (sound : Sound c.ctx)
    (going : .close ∉ c.actions) :
    QuietAfterClose handler c events ↔ HarmlessAfterClose handler c events := by
  induction events generalizing c with
  | nil => exact Iff.rfl
  | cons e events ih =>
    have sound' := step_sound handler c e sound
    rw [QuietAfterClose, HarmlessAfterClose]
    simp only [going, false_imp_iff, true_and, not_false_eq_true, true_imp_iff]
    -- this step closes the connection, or the run goes on as before
    by_cases closed : .close ∈ (c.step handler e).actions
    · have live := closing_live handler c e sound going closed
      rw [quietAfterClose_closed handler _ events closed,
        quietRun_iff_harmless handler _ events live sound']
      exact ⟨fun harmless => ⟨fun _ => harmless, harmlessAfterClose_closed handler _ events closed⟩,
        fun h => h.1 closed⟩
    · rw [ih _ sound' closed]
      exact ⟨fun h => ⟨fun now => absurd now closed, h⟩, fun h => h.2⟩

/-- Nothing happens after a close exactly when the bytes left over by the closing call
and the reads that follow it form neither a complete nor a malformed request for the
context that the call has left behind. A context that has rejected its input does not
get out of that, so after a rejection only the absence of reads is harmless. -/
theorem quietAfterClose_iff (maxBodyBytes : Nat) (world : σ) (events : List Event) :
    QuietAfterClose handler (established maxBodyBytes world) events ↔
      HarmlessAfterClose handler (established maxBodyBytes world) events :=
  quietAfterClose_going handler _ events (sound_fresh _) (by simp [established])

def emptyHandler : Option (HttpHandler Unit) := some fun world _ resp => (world, resp)

/-- A request that arrives after the close of a `HTTP/1.0` connection is handled and
answered, and so is every read after a rejection. -/
theorem closed_answersAgain :
    ¬QuietAfterClose emptyHandler (established 0 ())
      [.read (text "GET /a HTTP/1.0\r\n\r\n"), .read (text "GET /b HTTP/1.0\r\n\r\n")] ∧
    ¬QuietAfterClose emptyHandler (established 0 ())
      [.read (text "BAD\r\n"), .read (text "x")] := by
  decide +kernel

end Cox.Http.ServerConn
