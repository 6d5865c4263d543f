import Cox.Http.PoolWire

/-!
# Pools for several origins

`MultiOriginPool` of http/multi_origin_pool.cc: a connection pool for each host, port and kind
of connection, created by the first request for it. That first request also decides on the
Host header of all the later ones.

The pools run on one loop; a step of one of them, response callbacks included, leaves the
others alone. Whether a string is a numeric address is a parameter.
-/
namespace Cox.Http

open Cox.Lib List Option

structure Origin where
  host : Bytes
  port : UInt16
  tls : Bool
  deriving DecidableEq

structure MultiOriginPool where
  resolver : Bool := false
  maxPerOrigin : Nat := 8
  idleTimeoutS : UInt32 := 60
  /-- The registered contexts, of which each may be null. -/
  tlsCtx : Bytes × UInt16 → Option Bool := fun _ => none
  pools : Origin → Option ConnectionPool := fun _ => none
  -- what has happened
  /-- The requests for an origin and the Host headers they asked for, in order. -/
  calls : Origin → List (HttpRequest × Bytes) := fun _ => []

namespace MultiOriginPool

def askedHost (host hostHeader : Bytes) : Bytes := if hostHeader = [] then host else hostHeader

/-- The key of `pools_` and the context of a request. -/
def origin (m : MultiOriginPool) (host : Bytes) (port : UInt16) : Origin :=
  ⟨host, port, (m.tlsCtx (host, port)).isSome⟩

/-- The pool for an origin that has none yet; without a resolver its host must be a numeric
address. -/
def newPool (inetPton : Bytes → Bool) (m : MultiOriginPool) (host : Bytes) (port : UInt16)
    (hostHeader : Bytes) : Option ConnectionPool :=
  let secure := (m.tlsCtx (host, port)).getD false
  if m.resolver || inetPton host then
    some (.initial secure (askedHost host hostHeader) m.maxPerOrigin m.idleTimeoutS (!m.resolver))
  else none

def setPool (m : MultiOriginPool) (key : Origin) (pool : ConnectionPool)
    (calls : List (HttpRequest × Bytes)) : MultiOriginPool :=
  { m with
    pools := Function.update m.pools key (some pool)
    calls := Function.update m.calls key calls }

/-- Nothing is left of a call that throws. -/
def request (inetPton : Bytes → Bool) (m : MultiOriginPool) (host : Bytes) (port : UInt16)
    (req : HttpRequest) (hostHeader : Bytes) : Option MultiOriginPool :=
  let key := m.origin host port
  ((m.pools key).or (m.newPool inetPton host port hostHeader)).map fun pool =>
    m.setPool key (pool.request req) (m.calls key ++ [(req, askedHost host hostHeader)])

inductive Event where
  | setResolver
  | setMaxConnectionsPerOrigin (n : Nat)
  | setIdleTimeout (seconds : UInt32)
  | setTlsContext (host : Bytes) (port : UInt16) (present : Bool)
  | request (host : Bytes) (port : UInt16) (req : HttpRequest) (hostHeader : Bytes)
  /-- A step of one of the pools, whose requests all come from here. -/
  | pool (origin : Origin) (e : ConnectionPool.Event)

def poolStep (m : MultiOriginPool) (origin : Origin) (e : ConnectionPool.Event) :
    Option MultiOriginPool :=
  match m.pools origin with
  | none => none
  | some pool => (pool.step e).map fun pool => m.setPool origin pool (m.calls origin)

def step (inetPton : Bytes → Bool) (m : MultiOriginPool) : Event → Option MultiOriginPool
  | .setResolver => some { m with resolver := true }
  | .setMaxConnectionsPerOrigin n => some { m with maxPerOrigin := n }
  | .setIdleTimeout seconds => some { m with idleTimeoutS := seconds }
  | .setTlsContext host port present =>
    some { m with tlsCtx := Function.update m.tlsCtx (host, port) (some present) }
  | .request host port req hostHeader =>
    some ((m.request inetPton host port req hostHeader).getD m)
  | .pool _ (.request _) => none
  | .pool origin e => m.poolStep origin e

/-! ### The Host header on the wire -/

def NoOwnHost (req : HttpRequest) : Prop := req.headers.find? (text "host") = none

instance (req : HttpRequest) : Decidable (NoOwnHost req) := inferInstanceAs (Decidable (_ = _))

/-- The request line, the Host header behind it, and anything after that. -/
def CarriesHost (wire : Bytes) (req : HttpRequest) (host : Bytes) : Prop :=
  (methodToString req.method ++ text " " ++ (if req.path.isEmpty then text "/" else req.path) ++
    (if req.query.isEmpty then [] else text "?" ++ req.query) ++ text " HTTP/1.1" ++ crlf ++
    (text "Host: " ++ host ++ crlf)).isPrefixOf wire = true

instance (wire : Bytes) (req : HttpRequest) (host : Bytes) : Decidable (CarriesHost wire req host) :=
  inferInstanceAs (Decidable (_ = _))

theorem carriesHost_appendTo (host : Bytes) (req : HttpRequest) (unset : NoOwnHost req)
    (given : host ≠ []) : CarriesHost (req.appendTo host) req host := by
  have filled : host.isEmpty = false := by simpa using given
  unfold CarriesHost HttpRequest.appendTo
  simp only [NoOwnHost.eq_1 req ▸ unset, filled, isSome_none, Bool.or_self,
    Bool.false_eq_true, if_false]
  apply isPrefixOf_iff_prefix.mpr
  simp only [append_assoc, prefix_append_right_inj]
  exact prefix_append _ _

theorem carriesHost_addHeader (wire : Bytes) (req : HttpRequest) (host field value : Bytes) :
    CarriesHost wire (req.addHeader field value) host ↔ CarriesHost wire req host := by
  unfold CarriesHost HttpRequest.addHeader
  exact Iff.rfl

theorem carriesHost_requestBytes (host : Bytes) (req : HttpRequest) (unset : NoOwnHost req)
    (given : host ≠ []) : CarriesHost (ConnectionPool.requestBytes host req) req host := by
  have still : NoOwnHost (req.addHeader (text "Connection") (text "keep-alive")) := by
    have other : text "host" ≠ toLower (text "Connection") := by decide
    rw [NoOwnHost, HttpRequest.addHeader, SortedMap.find?_insert, if_neg other]
    exact unset
  unfold ConnectionPool.requestBytes
  exact (carriesHost_addHeader _ req host _ _).mp (carriesHost_appendTo host _ still given)

/-! ### Whole runs -/

/-- Whatever was sent was sent for the request of a call, and carries the Host header that the call
asked for. -/
def RightHost (m : MultiOriginPool) : Prop :=
  ∀ origin pool c carried wire, m.pools origin = some pool → .sent c carried wire ∈ pool.log →
    ∃ id req host, carried = some id ∧ (m.calls origin)[id]? = some (req, host) ∧
      (NoOwnHost req → CarriesHost wire req host)

/-- A call asks for a Host header at all, and for the one of the pool that serves it. -/
def AsksAlike (m : MultiOriginPool) : Event → Prop
  | .request host port req hostHeader => NoOwnHost req →
    askedHost host hostHeader ≠ [] ∧
      ∀ pool ∈ m.pools (m.origin host port), pool.host = askedHost host hostHeader
  | _ => True

instance (m : MultiOriginPool) (e : Event) : Decidable (AsksAlike m e) := by
  cases e <;> unfold AsksAlike <;> infer_instance

/-- The pool writes the requests of these calls, and those without a Host header of their own
asked for the one of the pool. -/
structure Serves (calls : List (HttpRequest × Bytes)) (pool : ConnectionPool) : Prop where
  writes : pool.Writes (calls.map Prod.fst) pool.host
  alike : ∀ call ∈ calls, NoOwnHost call.1 → call.2 = pool.host ∧ call.2 ≠ []

structure Sound (m : MultiOriginPool) : Prop where
  serves : ∀ origin pool, m.pools origin = some pool → Serves (m.calls origin) pool
  unasked : ∀ origin, m.pools origin = none → m.calls origin = []

section Runs

variable {inetPton : Bytes → Bool} {m m' : MultiOriginPool}

theorem Sound.rightHost (sound : Sound m) : RightHost m := by
  intro origin pool c carried wire found sent
  obtain ⟨writes, alike⟩ := sound.serves origin pool found
  obtain ⟨id, req, carries, known, bytes⟩ := writes.sent c carried wire sent
  rw [List.getElem?_map] at known
  obtain ⟨⟨req, host⟩, asked, rfl⟩ := map_eq_some_iff.mp known
  refine ⟨id, req, host, carries, asked, fun unset => ?_⟩
  obtain ⟨same, given⟩ := alike (req, host) (mem_of_getElem? asked) unset
  rw [bytes, ← same]
  exact carriesHost_requestBytes host req unset given

theorem Sound.setPool (sound : Sound m) (key : Origin) (pool : ConnectionPool)
    (calls : List (HttpRequest × Bytes)) (serves : Serves calls pool) :
    Sound (m.setPool key pool calls) := by
  unfold MultiOriginPool.setPool
  constructor
  · intro origin other found
    dsimp only at found ⊢
    rw [Function.update_apply] at found ⊢
    split at found
    next here =>
      cases found
      rw [if_pos here]
      exact serves
    next elsewhere =>
      rw [if_neg elsewhere]
      exact sound.serves origin other found
  · intro origin missing
    dsimp only at missing ⊢
    rw [Function.update_apply] at missing ⊢
    split at missing
    next => cases missing
    next elsewhere =>
      rw [if_neg elsewhere]
      exact sound.unasked origin missing

theorem Serves.request {calls : List (HttpRequest × Bytes)} {pool : ConnectionPool}
    (serves : Serves calls pool) (req : HttpRequest) (host : Bytes)
    (alike : NoOwnHost req → host ≠ [] ∧ pool.host = host) :
    Serves (calls ++ [(req, host)]) (pool.request req) := by
  have taken := serves.writes.request req
  have same : (pool.request req).host = pool.host := taken.fixed
  constructor
  · rw [map_append, same]
    exact taken
  · intro call member unset
    rw [same]
    rcases mem_append.mp member with old | new
    · exact serves.alike call old unset
    · cases mem_singleton.mp new
      obtain ⟨given, fits⟩ := alike unset
      exact ⟨fits.symm, given⟩

theorem Sound.request (sound : Sound m) (host : Bytes) (port : UInt16) (req : HttpRequest)
    (hostHeader : Bytes) (alike : AsksAlike m (.request host port req hostHeader))
    (served : m.request inetPton host port req hostHeader = some m') : Sound m' := by
  obtain ⟨pool, found, rfl⟩ := map_eq_some_iff.mp served
  apply sound.setPool
  cases known : m.pools (m.origin host port) with
  | some own =>
    rw [known, some_or] at found
    cases found
    apply (sound.serves _ pool known).request
    exact fun unset => ⟨(alike unset).1, (alike unset).2 pool known⟩
  | none =>
    -- a new pool is made for the header of the call
    rw [known, none_or, newPool] at found
    split at found <;> cases found
    rw [sound.unasked _ known]
    apply Serves.request
    · exact ⟨ConnectionPool.writes_initial .., fun _ none => by cases none⟩
    · exact fun unset => ⟨(alike unset).1, rfl⟩

theorem Sound.poolStep (sound : Sound m) (origin : Origin) (e : ConnectionPool.Event)
    (other : ∀ req, e ≠ .request req) (stepped : m.poolStep origin e = some m') : Sound m' := by
  unfold MultiOriginPool.poolStep at stepped
  split at stepped
  next => cases stepped
  next pool found =>
    obtain ⟨next, moved, rfl⟩ := map_eq_some_iff.mp stepped
    obtain ⟨writes, alike⟩ := sound.serves origin pool found
    have kept := writes.step e other moved
    apply sound.setPool
    constructor
    · rw [kept.fixed]
      exact kept
    · rw [kept.fixed]
      exact alike

theorem Sound.step (sound : Sound m) (e : Event) (alike : AsksAlike m e)
    (stepped : m.step inetPton e = some m') : Sound m' := by
  cases e with
  | setResolver | setMaxConnectionsPerOrigin | setIdleTimeout | setTlsContext =>
    cases stepped
    exact ⟨sound.serves, sound.unasked⟩
  | request host port req hostHeader =>
    cases stepped
    cases served : m.request inetPton host port req hostHeader with
    | none => exact sound
    | some next => exact sound.request host port req hostHeader alike served
  | pool origin e =>
    cases e with
    | request req => cases stepped
    | resolved | returns | engine | loop =>
      exact sound.poolStep origin _ (fun _ => ConnectionPool.Event.noConfusion) stepped

end Runs

/-- If every call asks for a Host header and for the one that its pool was created with, all the
requests that are ever sent carry the one that they asked for. -/
theorem rightHost_always (inetPton : Bytes → Bool) (events : List Event)
    (alike : Machine.Meets (step inetPton) AsksAlike {} events) :
    Machine.Always (step inetPton) RightHost {} events := by
  apply Machine.Always.mono (fun _ => Sound.rightHost)
  apply Machine.always_of_meets _ _ events _ alike
  · exact fun m e m' sound alike stepped => sound.step e alike stepped
  · constructor
    · intro origin pool none
      cases none
    · exact fun _ _ => rfl

def getRoot : HttpRequest := { method := .get, path := text "/" }

def numericOrigin : Origin := ⟨text "10.0.0.1", 80, false⟩

/-- Two requests for virtual hosts of one origin, and the connections they are sent on. -/
def twoHosts (first second : Bytes) : List Event :=
  [.request numericOrigin.host numericOrigin.port getRoot first,
    .request numericOrigin.host numericOrigin.port getRoot second,
    .pool numericOrigin (.loop (.established 0 .pending 5)),
    .pool numericOrigin (.loop (.established 1 .pending 6))]

/-- What was noted last in the pool, and what the second call was. -/
def secondRequest (m : MultiOriginPool) :
    Option Note × Option (HttpRequest × Bytes) :=
  ((m.pools numericOrigin).bind fun pool => pool.log.getLast?, (m.calls numericOrigin)[1]?)

def sentToFirst : Bytes :=
  text "GET / HTTP/1.1\r\nHost: a.example\r\nconnection: keep-alive\r\nContent-Length: 0\r\n\r\n"

theorem rightHost_oneHost :
    let events := twoHosts (text "a.example") (text "a.example")
    (Machine.run (step fun _ => true) {} events).map secondRequest =
        some (some (.sent 1 (some 1) sentToFirst), some (getRoot, text "a.example")) ∧
      Machine.Always (step fun _ => true) RightHost {} events :=
  ⟨by decide +kernel, rightHost_always _ _ (by decide +kernel)⟩

/-- The second request is sent with the Host header of the first. -/
theorem twoHosts_wrongHost :
    let events := twoHosts (text "a.example") (text "b.example")
    (Machine.run (step fun _ => true) {} events).map secondRequest =
        some (some (.sent 1 (some 1) sentToFirst), some (getRoot, text "b.example")) ∧
      ¬Machine.Always (step fun _ => true) RightHost {} events := by
  intro events
  have ran : (Machine.run (step fun _ => true) {} events).map secondRequest =
      some (some (.sent 1 (some 1) sentToFirst), some (getRoot, text "b.example")) := by decide +kernel
  refine ⟨ran, fun always => ?_⟩
  obtain ⟨last, reached, seen⟩ := Option.map_eq_some_iff.mp ran
  obtain ⟨carries, asked⟩ := Prod.mk.inj seen
  obtain ⟨pool, found, sent⟩ := Option.bind_eq_some_iff.mp carries
  obtain ⟨id, req, host, same, call, right⟩ := always.last _ _ _ reached numericOrigin pool 1 (some 1)
    sentToFirst found (mem_of_getLast? sent)
  cases same
  rw [asked] at call
  cases call
  exact absurd (right (by decide +kernel)) (by decide +kernel)

end MultiOriginPool

end Cox.Http
