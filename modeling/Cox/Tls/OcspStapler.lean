import Cox.Lib.Bytes
import Cox.Lib.Machine

/-!
# OCSP stapling

The cache of `OcspStapler` (tls/ocsp_stapler.h): responses come in through `setResponseDer`,
directly, from a file or from a responder, and `statusCallback` attaches the one that is
cached to a handshake. What OpenSSL makes of the bytes is given by `decode`, and
`OCSP_check_validity` is as documented.

A response is checked when it is cached. `statusCallback` only asks whether there is one.
-/
namespace Cox.Tls

open Cox.Lib List Machine

inductive CertStatus where
  | good
  | revoked
  | unknown
  deriving DecidableEq

structure SingleResponse where
  status : CertStatus
  thisUpdate : Int
  nextUpdate : Option Int
  deriving DecidableEq

/-- A response that could be parsed; `basic` are its single responses, if it has any part of
that kind. -/
structure OcspResponse where
  successful : Bool
  basic : Option (List SingleResponse)
  deriving DecidableEq

/-- `OCSP_check_validity` with 300 seconds of tolerance and no maximal age. -/
def checkValidity (now thisUpdate : Int) (nextUpdate : Option Int) : Bool :=
  thisUpdate ≤ now + 300 ∧ ∀ next ∈ nextUpdate, now - 300 < next ∧ thisUpdate ≤ next

structure Staple where
  der : Bytes
  time : Int
  deriving DecidableEq

structure OcspStapler where
  responseDer : Bytes := []
  nextUpdateEpoch : Int := 0
  /-- The clock. -/
  now : Int
  staples : List Staple := []
  deriving DecidableEq

namespace OcspStapler

variable (decode : Bytes → Option OcspResponse)

/-- The first of the single responses counts. -/
def nextUpdate (der : Bytes) : Option Int :=
  (decode der).bind fun resp => resp.basic.bind fun singles => singles.head?.bind (·.nextUpdate)

def cache (s : OcspStapler) (der : Bytes) (nextEpoch : Int) : OcspStapler :=
  { s with responseDer := der, nextUpdateEpoch := nextEpoch }

def setResponseDer (s : OcspStapler) (der : Bytes) : Bool × OcspStapler :=
  if der = [] then (false, s)
  else
    match decode der with
    | none => (false, s)
    | some resp =>
      if resp.successful = false then (false, s)
      else
        match resp.basic with
        | none => (false, s)
        -- without a single response there is nothing to check
        | some [] => (true, s.cache der 0)
        | some (single :: _) =>
          if single.status ≠ .good then (false, s)
          else if checkValidity s.now single.thisUpdate single.nextUpdate = false then (false, s)
          else (true, s.cache der (single.nextUpdate.getD 0))

/-- `refresh` and `loadFromFile`, with what they get from the responder or the file. -/
def receive (s : OcspStapler) (received : Option Bytes) : Bool × OcspStapler :=
  match received with
  | none => (false, s)
  | some der => s.setResponseDer decode der

def secondsUntilExpiry (s : OcspStapler) : Int :=
  if s.responseDer = [] then 0
  else if s.nextUpdateEpoch = 0 then -1
  else if s.nextUpdateEpoch - s.now > 0 then s.nextUpdateEpoch - s.now
  else 0

/-- For a handshake in which OpenSSL takes a copy of the response, or fails to. -/
def statusCallback (s : OcspStapler) (taken : Bool) : OcspStapler :=
  if s.responseDer = [] then s
  else if taken then { s with staples := s.staples ++ [⟨s.responseDer, s.now⟩] }
  else s

/-! ### The machine -/

inductive Event where
  | setResponseDer (der : Bytes)
  | refresh (fetched : Option Bytes)
  | loadFromFile (content : Option Bytes)
  | tick (elapsed : Nat)
  | handshake (taken : Bool)
  deriving DecidableEq

def step (s : OcspStapler) : Event → Option OcspStapler
  | .setResponseDer der => some (s.setResponseDer decode der).2
  | .refresh fetched => some (s.receive decode fetched).2
  | .loadFromFile content => some (s.receive decode content).2
  | .tick elapsed => some { s with now := s.now + elapsed }
  | .handshake taken => some (s.statusCallback taken)

/-! ### What is cached -/

/-- The tests of `setResponseDer`, which look at the first of the single responses. -/
def acceptable (now : Int) (der : Bytes) : Bool :=
  der ≠ [] ∧ (decode der).any fun resp => resp.successful && resp.basic.any fun singles =>
    singles.head?.all fun single =>
      single.status == .good && checkValidity now single.thisUpdate single.nextUpdate

section Cache

variable {decode}

theorem setResponseDer_eq (s : OcspStapler) (der : Bytes) :
    s.setResponseDer decode der = if acceptable decode s.now der then
      (true, s.cache der ((nextUpdate decode der).getD 0)) else (false, s) := by
  unfold setResponseDer acceptable nextUpdate
  by_cases empty : der = []
  · simp [empty]
  · cases decoded : decode der with
    | none => simp [empty]
    | some resp =>
      obtain ⟨successful, basic⟩ := resp
      cases successful with
      | false => simp
      | true =>
        rcases basic with _ | _ | ⟨single, _⟩
        · simp
        · simp [empty]
        · by_cases good : single.status = .good
          · cases valid : checkValidity s.now single.thisUpdate single.nextUpdate <;>
              simp [empty, good, valid]
          · simp [good]

theorem receive_eq (s : OcspStapler) (received : Option Bytes) :
    s.receive decode received = match received.filter (acceptable decode s.now) with
      | none => (false, s)
      | some der => (true, s.cache der ((nextUpdate decode der).getD 0)) := by
  cases received with
  | none => rfl
  | some der =>
    rw [receive, setResponseDer_eq, Option.filter_some]
    split <;> rfl

end Cache

/-! ### Expired responses -/

/-- No response was attached to a handshake after the time of its next update. -/
def NoneExpired (s : OcspStapler) : Prop :=
  ∀ staple ∈ s.staples, ∀ next ∈ nextUpdate decode staple.der, staple.time ≤ next

/-- The history from `now` on, with the response that was accepted last: the handshakes come no
later than the next update of the response accepted last before them. -/
def Timely : Int → Option Bytes → List Event → Prop
  | _, _, [] => True
  | now, last, .tick elapsed :: events => Timely (now + elapsed) last events
  | now, last, .handshake taken :: events =>
    (taken = true → ∀ der ∈ last, ∀ next ∈ nextUpdate decode der, now ≤ next) ∧
      Timely now last events
  | now, last, .setResponseDer der :: events =>
    Timely now (((some der).filter (acceptable decode now)).or last) events
  | now, last, .refresh received :: events | now, last, .loadFromFile received :: events =>
    Timely now ((received.filter (acceptable decode now)).or last) events

section Expiry

variable {decode}

def cached (s : OcspStapler) : Option Bytes := if s.responseDer = [] then none else some s.responseDer

theorem cached_receive (s : OcspStapler) (received : Option Bytes) :
    (s.receive decode received).2.cached =
      (received.filter (acceptable decode s.now)).or s.cached := by
  rw [receive_eq]
  cases accepted : received.filter (acceptable decode s.now) with
  | none => rfl
  | some der =>
    have nonempty : der ≠ [] := by
      have passes := (Option.filter_eq_some_iff.mp accepted).2
      simp only [acceptable, decide_eq_true_eq] at passes
      exact passes.1
    exact if_neg nonempty

theorem frame_receive (decode : Bytes → Option OcspResponse) (s : OcspStapler)
    (received : Option Bytes) :
    (s.receive decode received).2.now = s.now ∧
      (s.receive decode received).2.staples = s.staples := by
  rw [receive_eq]
  split <;> exact ⟨rfl, rfl⟩

theorem noneExpired_handshake {s : OcspStapler} (none : s.NoneExpired decode) (taken : Bool) :
    (s.statusCallback taken).NoneExpired decode ↔
      (taken = true → ∀ der ∈ s.cached, ∀ next ∈ nextUpdate decode der, s.now ≤ next) := by
  unfold statusCallback cached
  split
  next => exact iff_of_true none fun _ => nofun
  next =>
    split
    next here =>
      constructor
      · rintro noneExpired - der ⟨⟩
        exact noneExpired ⟨s.responseDer, s.now⟩ (mem_append_right _ (mem_singleton_self _))
      · intro fresh staple member
        rcases mem_append.mp member with old | new
        · exact none staple old
        · rw [mem_singleton.mp new]
          exact fresh here _ rfl
    next notTaken => exact iff_of_true none fun taken => absurd taken notTaken

theorem frame_statusCallback (s : OcspStapler) (taken : Bool) :
    (s.statusCallback taken).now = s.now ∧ (s.statusCallback taken).cached = s.cached := by
  unfold statusCallback
  split
  · exact ⟨rfl, rfl⟩
  · split <;> exact ⟨rfl, rfl⟩

/-- By induction on the history: what is cached is the response that was accepted last. -/
theorem noneExpired_iff_timely (s : OcspStapler) (events : List Event)
    (none : s.NoneExpired decode) :
    Always (step decode) (NoneExpired decode) s events ↔
      Timely decode s.now s.cached events := by
  induction events generalizing s with
  | nil => exact iff_of_true none trivial
  | cons event events ih =>
    have received (content : Option Bytes) :
        Always (step decode) (NoneExpired decode) (s.receive decode content).2 events ↔
          Timely decode s.now ((content.filter (acceptable decode s.now)).or s.cached) events := by
      obtain ⟨now, staples⟩ := frame_receive decode s content
      have kept : (s.receive decode content).2.NoneExpired decode := by
        rw [NoneExpired, staples]
        exact none
      rw [ih _ kept, now, cached_receive]
    rw [Always, and_iff_right none]
    cases event with
    | setResponseDer der => exact received (some der)
    | refresh content | loadFromFile content => exact received content
    | tick elapsed => exact ih { s with now := s.now + elapsed } none
    | handshake taken =>
      obtain ⟨now, same⟩ := frame_statusCallback s taken
      rw [Timely, ← noneExpired_handshake none taken]
      constructor
      · intro always
        have first := Always.head _ events always
        refine ⟨first, ?_⟩
        have rest := (ih _ first).mp always
        rwa [now, same] at rest
      · rintro ⟨first, rest⟩
        refine (ih _ first).mpr ?_
        rwa [now, same]

end Expiry

/-- In every history, no expired response is attached exactly if every handshake comes before the
next update of the response that was accepted last: nothing else stops the code from attaching
it. -/
theorem noneExpired_iff (now : Int) (events : List Event) :
    Machine.Always (step decode) (NoneExpired decode) { now } events ↔
      Timely decode now none events :=
  noneExpired_iff_timely { now } events nofun

/-- A response for an hour; then the responder is out of reach, and a handshake two hours later
still gets it. -/
theorem staleResponse_attached :
    let decode := fun der : Bytes =>
      if der = [1] then some (OcspResponse.mk true (some [⟨.good, 1000, some 4600⟩])) else none
    let events : List Event :=
      [.refresh (some [1]), .tick 3000, .refresh none, .tick 4200, .handshake true]
    ¬Machine.Always (step decode) (NoneExpired decode) { now := 1000 } events ∧
      (Machine.run (step decode) { now := 1000 } events).map staples = some [⟨[1], 8200⟩] := by
  refine ⟨fun always => ?_, by decide⟩
  have last := Machine.Always.last _ _ _ always rfl
  exact absurd (last ⟨[1], 8200⟩ (by decide) 4600 (by decide)) (by decide)

theorem recorded_always (now : Int) (events : List Event) :
    Always (step decode) (fun s => s.responseDer ≠ [] →
      s.nextUpdateEpoch = (nextUpdate decode s.responseDer).getD 0) { now } events := by
  refine always_of_keeps (fun s event s' recorded stepped => ?_) _ events fun empty =>
    absurd rfl empty
  have received (content : Option Bytes) (same : s' = (s.receive decode content).2) :
      s'.responseDer ≠ [] → s'.nextUpdateEpoch = (nextUpdate decode s'.responseDer).getD 0 := by
    rw [same, receive_eq]
    split
    · exact recorded
    · exact fun _ => rfl
  cases event with
  | setResponseDer der => exact received (some der) (Option.some.inj stepped).symm
  | refresh content | loadFromFile content =>
    exact received content (Option.some.inj stepped).symm
  | tick elapsed =>
    cases stepped
    exact recorded
  | handshake taken =>
    cases stepped
    unfold statusCallback
    split
    · exact recorded
    · split <;> exact recorded

/-- The stapler knows: the time on record is that of the cached response, and for one that has
expired (and whose next update is not at the epoch, which counts as none) no seconds are left. -/
theorem expiredKnown_always (now : Int) (events : List Event) :
    Always (step decode) (fun s =>
      (s.responseDer ≠ [] → s.nextUpdateEpoch = (nextUpdate decode s.responseDer).getD 0) ∧
      ∀ next ∈ nextUpdate decode s.responseDer, next ≠ 0 → next < s.now →
        s.secondsUntilExpiry = 0) { now } events := by
  refine Always.mono (fun s recorded => ⟨recorded, fun next given nonzero past => ?_⟩) _ events
    (recorded_always decode now events)
  unfold secondsUntilExpiry
  split
  next => rfl
  next nonempty =>
    have epoch : s.nextUpdateEpoch = next := by
      rw [recorded nonempty, Option.mem_def.mp given]
      rfl
    rw [epoch, if_neg nonzero, if_neg (by omega)]

end OcspStapler

end Cox.Tls
