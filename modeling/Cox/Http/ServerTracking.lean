import Cox.Http.ServerConnections

/-!
# What the HTTP server knows of its connections

Without TLS, a connection that goes down loses its entry and the observer hears of it. With a
TLS context nothing of that happens: the callback through which the server would learn of it
belongs to the `TlsConnection`, so the entry stays for ever, and the observer hears nothing.
-/
namespace Cox.Http.HttpServer

open Cox.Lib Cox.Net List

variable {σ : Type} {handler : Option (HttpHandler σ)} {s s' : HttpServer σ}

theorem connName_injective (name ipPort : Bytes) (c d : ConnId)
    (same : TcpServer.connName name ipPort c = TcpServer.connName name ipPort d) : c = d :=
  numeral_injective 10 c d (by decide) (by decide) (append_cancel_left same)

/-! ### What an operation leaves alone -/

/-- No entry goes away and no callback changes hands. -/
structure Retains (s s' : HttpServer σ) : Prop where
  connName : s'.connName = s.connName
  usesTls : s'.usesTls = s.usesTls
  nextConnId : s'.nextConnId = s.nextConnId
  owner : ∀ c, (s'.tcp c).owner = (s.tcp c).owner
  connecting : ∀ c, (s'.tcp c).state = .connecting ↔ (s.tcp c).state = .connecting
  entries : ∀ key, s'.conns.find? key = none → s.conns.find? key = none

/-- No connection goes down either, and the server learns of nothing. -/
structure Calm (s s' : HttpServer σ) : Prop extends Retains s s' where
  observed : s'.observed = s.observed
  state : ∀ c, (s'.tcp c).state = (s.tcp c).state ∨
    (s.tcp c).state = .connected ∧ (s'.tcp c).state = .disconnecting
  gone : ∀ key, s.conns.find? key = none → s'.conns.find? key = none

section Frame

theorem retains_refl (s : HttpServer σ) : Retains s s where
  connName := rfl
  usesTls := rfl
  nextConnId := rfl
  owner _ := rfl
  connecting _ := Iff.rfl
  entries _ := id

theorem Retains.trans {t : HttpServer σ} (first : Retains s s') (second : Retains s' t) :
    Retains s t where
  connName := second.connName.trans first.connName
  usesTls := second.usesTls.trans first.usesTls
  nextConnId := second.nextConnId.trans first.nextConnId
  owner c := (second.owner c).trans (first.owner c)
  connecting c := (second.connecting c).trans (first.connecting c)
  entries key missing := first.entries key (second.entries key missing)

theorem calm_refl (s : HttpServer σ) : Calm s s where
  toRetains := retains_refl s
  observed := rfl
  state _ := .inl rfl
  gone _ := id

theorem Calm.trans {t : HttpServer σ} (first : Calm s s') (second : Calm s' t) : Calm s t where
  toRetains := first.toRetains.trans second.toRetains
  observed := second.observed.trans first.observed
  state c := by
    rcases second.state c with same | moved
    · rw [same]
      exact first.state c
    · rcases first.state c with same | moved'
      · rw [← same]
        exact .inr moved
      · rw [moved'.2] at moved
        cases moved.1
  gone key missing := second.gone key (first.gone key missing)

section Modify

variable (c : ConnId) (f : ServedConn → ServedConn) (owner : (f (s.tcp c)).owner = (s.tcp c).owner)
include owner

theorem retains_modify
    (connecting : (f (s.tcp c)).state = .connecting ↔ (s.tcp c).state = .connecting) :
    Retains s (s.modify c f) := by
  refine ⟨rfl, rfl, rfl, fun d => ?_, fun d => ?_, fun _ => id⟩
  · by_cases same : d = c
    · subst same
      rw [modify_tcp_self]
      exact owner
    · rw [modify_tcp_other _ _ _ _ same]
  · by_cases same : d = c
    · subst same
      rw [modify_tcp_self]
      exact connecting
    · rw [modify_tcp_other _ _ _ _ same]

theorem calm_modify
    (state : (f (s.tcp c)).state = (s.tcp c).state ∨
      (s.tcp c).state = .connected ∧ (f (s.tcp c)).state = .disconnecting) :
    Calm s (s.modify c f) where
  toRetains := by
    apply retains_modify c f owner
    rcases state with same | ⟨up, closing⟩
    · rw [same]
    · rw [up, closing]
      decide
  observed := rfl
  state d := by
    by_cases same : d = c
    · subst same
      rw [modify_tcp_self]
      exact state
    · rw [modify_tcp_other _ _ _ _ same]
      exact .inl rfl
  gone _ := id

end Modify

theorem calm_shutdown (s : HttpServer σ) (c : ConnId) : Calm s (s.shutdown c) := by
  unfold shutdown
  split
  next up => exact calm_modify c _ rfl (.inr ⟨up, rfl⟩)
  next => exact calm_refl s

theorem retains_setPerConn (s : HttpServer σ) (c : ConnId) (pc : PerConn) :
    Retains s (s.setPerConn c pc) := by
  refine { retains_refl s with entries := fun key missing => ?_ }
  rw [setPerConn, SortedMap.find?_insert] at missing
  split at missing
  · cases missing
  · exact missing

theorem calm_setPerConn (c : ConnId) (pc pc' : PerConn) (found : s.perConn c = some pc) :
    Calm s (s.setPerConn c pc') where
  toRetains := retains_setPerConn s c pc'
  observed := rfl
  state _ := .inl rfl
  gone key missing := by
    rw [setPerConn, SortedMap.find?_insert, if_neg]
    · exact missing
    · rintro rfl
      rw [perConn, missing] at found
      cases found

variable {α : Type} (f : HttpServer σ → α → HttpServer σ) (items : List α) (s : HttpServer σ)

theorem retains_foldl (each : ∀ t item, Retains s t → Retains t (f t item)) :
    Retains s (items.foldl f s) := by
  -- along the list, everything seen so far has been retained
  suffices along : ∀ t, Retains s t → Retains s (items.foldl f t) from along s (retains_refl s)
  induction items with
  | nil => exact fun t kept => kept
  | cons item items ih => exact fun t kept => ih (f t item) (kept.trans (each t item kept))

theorem calm_foldl (each : ∀ t item, Calm s t → Calm t (f t item)) : Calm s (items.foldl f s) := by
  suffices along : ∀ t, Calm s t → Calm s (items.foldl f t) from along s (calm_refl s)
  induction items with
  | nil => exact fun t kept => kept
  | cons item items ih => exact fun t kept => ih (f t item) (kept.trans (each t item kept))

end Frame

/-! ### Without TLS -/

theorem calm_perform (plain : s.usesTls = false) (c : ConnId) (action : Action) :
    Calm s (s.perform c false action) := by
  cases action with
  | handle | notify => exact calm_refl s
  | send data =>
    simp only [perform, send, plain, Bool.false_and, Bool.false_eq_true, if_false]
    exact calm_refl s
  | close =>
    simp only [perform, close, plain, Bool.false_and, Bool.false_eq_true, if_false]
    exact calm_shutdown s c

theorem calm_setInputBuffer (s : HttpServer σ) (c : ConnId) (input : Bytes) :
    Calm s (s.setInputBuffer c input) :=
  calm_modify c _ rfl (.inl rfl)

theorem calm_withWorld (s : HttpServer σ) (world : σ) : Calm s (s.withWorld world) :=
  { calm_refl s with connName := rfl, owner := fun _ => rfl, state := fun _ => .inl rfl }

theorem calm_answers (plain : s.usesTls = false) (c : ConnId) (pc pc' : PerConn)
    (found : s.perConn c = some pc) (actions : List Action) :
    Calm s (actions.foldl (perform c false) (s.setPerConn c pc')) := by
  apply (calm_setPerConn c pc pc' found).trans
  apply calm_foldl
  intro t action kept
  exact calm_perform (kept.usesTls.trans plain) c action

theorem calm_onPlainMessage (plain : s.usesTls = false) (c : ConnId) (data : Bytes) :
    Calm s (s.onPlainMessage handler c data) := by
  have received := calm_setInputBuffer s c ((s.tcp c).inputBuffer ++ data)
  unfold onPlainMessage
  dsimp only
  split
  next tls => exact received
  next =>
    split
    next => exact received
    next pc found =>
      refine Calm.trans ?_ (calm_answers ?_ c pc _ ?_ _)
      · exact (received.trans (calm_setInputBuffer _ c _)).trans (calm_withWorld _ _)
      · exact plain
      · exact found

/-- The server knows of every connection that is down. -/
structure Tracked (s : HttpServer σ) : Prop where
  plain : s.usesTls = false
  owner : ∀ c, (s.tcp c).owner = .httpServer
  unused : ∀ c, s.nextConnId ≤ c → (s.tcp c).state = .connecting
  unheard : ∀ c, (s.tcp c).state = .connecting → ∀ up, (c, up) ∉ s.observed
  heard : ∀ c, (s.tcp c).state ≠ .connecting → s.observed.count (c, true) = 1
  down : ∀ c, (s.tcp c).state = .disconnected → s.perConn c = none ∧ (c, false) ∈ s.observed

theorem Tracked.calm (tracked : Tracked s) (calm : Calm s s') : Tracked s' where
  plain := calm.usesTls.trans tracked.plain
  owner c := (calm.owner c).trans (tracked.owner c)
  unused c above := (calm.connecting c).mpr (tracked.unused c (calm.nextConnId ▸ above))
  unheard c fresh up := by
    rw [calm.observed]
    exact tracked.unheard c ((calm.connecting c).mp fresh) up
  heard c known := by
    rw [calm.observed]
    exact tracked.heard c fun fresh => known ((calm.connecting c).mpr fresh)
  down c closed := by
    have before : (s.tcp c).state = .disconnected := by
      rcases calm.state c with same | moved
      · exact same ▸ closed
      · rw [moved.2] at closed
        cases closed
    rw [calm.observed, perConn, calm.connName]
    exact ⟨calm.gone _ (tracked.down c before).1, (tracked.down c before).2⟩

theorem setState_state (s : HttpServer σ) (c d : ConnId) (state : TcpState) :
    ((s.setState c state).tcp d).state = if d = c then state else (s.tcp d).state := by
  by_cases same : d = c
  · subst same
    rw [if_pos rfl, setState, modify_tcp_self]
  · rw [if_neg same, setState, modify_tcp_other _ _ _ _ same]

theorem setState_owner (s : HttpServer σ) (c d : ConnId) (state : TcpState) :
    ((s.setState c state).tcp d).owner = (s.tcp d).owner := by
  by_cases same : d = c
  · subst same
    rw [setState, modify_tcp_self]
  · rw [setState, modify_tcp_other _ _ _ _ same]

theorem observe_of_state (s : HttpServer σ) (c : ConnId) (state : TcpState)
    (now : (s.tcp c).state = state) :
    s.observe c = { s with observed := s.observed ++ [(c, state == .connected)] } := by
  rw [observe, now]

theorem count_observed (observed : List (ConnId × Bool)) (c d : ConnId) (up : Bool) :
    (observed ++ [(c, up)]).count (d, true) =
      observed.count (d, true) + if d = c ∧ up = true then 1 else 0 := by
  rw [count_append, count_singleton]
  congr 1
  by_cases same : d = c
  · subst same
    cases up <;> simp
  · have differs : c ≠ d := Ne.symm same
    simp [same, differs]

theorem Tracked.notified (tracked : Tracked s) (c : ConnId) (state : TcpState)
    (conns : SortedMap Bytes PerConn) (up : Bool) (nextConnId : ConnId)
    (below : c < nextConnId ∧ s.nextConnId ≤ nextConnId) (known : state ≠ .connecting)
    (once : (s.tcp c).state = .connecting ↔ up = true)
    (others : ∀ d, d ≠ c → s.perConn d = none → conns.find? (s.connName d) = none)
    (down : state = .disconnected → conns.find? (s.connName c) = none ∧ up = false) :
    Tracked { s.setState c state with
      conns, nextConnId, observed := s.observed ++ [(c, up)] } where
  plain := tracked.plain
  owner d := (setState_owner s c d state).trans (tracked.owner d)
  unused d above := by
    have other : d ≠ c := by
      rintro rfl
      exact absurd below.1 (Nat.not_lt.mpr above)
    refine (setState_state s c d state).trans ?_
    rw [if_neg other]
    exact tracked.unused d (Nat.le_trans below.2 above)
  unheard d fresh up' member := by
    have before := (setState_state s c d state).symm.trans fresh
    split at before
    next => exact known before
    next other =>
      rcases mem_append.mp member with old | new
      · exact tracked.unheard d before up' old
      · cases mem_singleton.mp new
        exact other rfl
  heard d met := by
    have after := (setState_state s c d state).symm.trans_ne met
    rw [count_observed]
    split at after
    next same =>
      subst same
      cases up with
      | true =>
        -- the first that the observer hears of it
        have silent := count_eq_zero.mpr (tracked.unheard d (once.mpr rfl) true)
        simp [silent]
      | false =>
        have before := tracked.heard d fun fresh => Bool.false_ne_true (once.mp fresh)
        simp [before]
    next other =>
      have before := tracked.heard d after
      simp [before, other]
  down d closed := by
    have after := (setState_state s c d state).symm.trans closed
    split at after
    next same =>
      subst same
      obtain ⟨gone, rfl⟩ := down after
      exact ⟨gone, mem_append_right _ (mem_singleton_self _)⟩
    next other =>
      obtain ⟨gone, told⟩ := tracked.down d after
      exact ⟨others d other gone, mem_append_left _ told⟩

theorem Tracked.handleClose (tracked : Tracked s) (c : ConnId)
    (known : (s.tcp c).state ≠ .connecting) : Tracked (s.handleClose c) := by
  have closed : s.handleClose c = { s.setState c .disconnected with
      conns := s.conns.erase (s.connName c), nextConnId := s.nextConnId,
      observed := s.observed ++ [(c, false)] } := by
    have owner := (setState_owner s c c .disconnected).trans (tracked.owner c)
    have state := (setState_state s c c .disconnected).trans (if_pos rfl)
    rw [HttpServer.handleClose, connectionDown, owner]
    exact observe_of_state _ c .disconnected state
  rw [closed]
  apply tracked.notified
  · refine ⟨?_, Nat.le_refl _⟩
    by_contra above
    exact known (tracked.unused c (Nat.le_of_not_lt above))
  · exact TcpState.noConfusion
  · simp [known]
  · intro d _ gone
    rw [SortedMap.find?_erase]
    split
    · rfl
    · exact gone
  · intro _
    rw [SortedMap.find?_erase, if_pos rfl]
    exact ⟨rfl, rfl⟩

theorem Tracked.newConnection (tracked : Tracked s) (outcome : ConnectionPool.Handshake) :
    Tracked (s.newConnection outcome) := by
  have opened : s.newConnection outcome = { s.setState s.nextConnId .connected with
      conns := s.conns.insert (s.connName s.nextConnId) { ctx := .fresh s.maxBodyBytes },
      nextConnId := s.nextConnId + 1, observed := s.observed ++ [(s.nextConnId, true)] } := by
    have state := (setState_state { s with nextConnId := s.nextConnId + 1 } s.nextConnId
      s.nextConnId .connected).trans (if_pos rfl)
    rw [HttpServer.newConnection, onConnectionUp, if_neg]
    · exact observe_of_state _ s.nextConnId .connected state
    · exact ne_true_of_eq_false tracked.plain
  rw [opened]
  apply tracked.notified
  · exact ⟨Nat.lt_succ_self _, Nat.le_succ _⟩
  · exact TcpState.noConfusion
  · simp [tracked.unused s.nextConnId (Nat.le_refl _)]
  · intro d other gone
    rw [SortedMap.find?_insert, if_neg]
    · exact gone
    · exact fun same => other (connName_injective s.name s.ipPort d s.nextConnId same)
  · exact TcpState.noConfusion

theorem Tracked.step (tracked : Tracked s) (event : Event)
    (stepped : s.step handler event = some s') : Tracked s' := by
  cases event with
  | newConnection outcome =>
    cases stepped
    exact tracked.newConnection outcome
  | received c data =>
    simp only [HttpServer.step] at stepped
    split at stepped <;> cases stepped
    exact tracked.calm (calm_onPlainMessage tracked.plain c data)
  | decrypted c =>
    -- no connection is wrapped
    simp [HttpServer.step, tracked.owner c] at stepped
  | shutdown c =>
    cases stepped
    exact tracked.calm (calm_shutdown s c)
  | forceClose c =>
    cases stepped
    unfold forceClose
    split
    next notClosed =>
      apply tracked.handleClose
      rcases notClosed with up | closing
      · simp [up]
      · simp [closing]
    next => exact tracked
  | handleClose c =>
    simp only [HttpServer.step] at stepped
    split at stepped <;> cases stepped
    next known => exact tracked.handleClose c known
  | connectDestroyed c =>
    cases stepped
    unfold connectDestroyed
    split
    next up =>
      apply tracked.handleClose
      simp [up]
    next => exact tracked

/-! ### With TLS -/

theorem retains_onTcpClose (s : HttpServer σ) (c : ConnId) : Retains s (s.onTcpClose c) := by
  unfold onTcpClose
  split
  · exact retains_setPerConn s c _
  · exact retains_refl s

/-- Every connection is wrapped, and has an entry for ever. -/
structure Wrapped (s : HttpServer σ) : Prop where
  secure : s.usesTls = true
  unused : ∀ c, s.nextConnId ≤ c → (s.tcp c).state = .connecting
  owner : ∀ c, (s.tcp c).state ≠ .connecting → (s.tcp c).owner = .tlsConnection
  entry : ∀ c, (s.tcp c).state ≠ .connecting → s.perConn c ≠ none

theorem Wrapped.retains (wrapped : Wrapped s) (retains : Retains s s') : Wrapped s' where
  secure := retains.usesTls.trans wrapped.secure
  unused c above := (retains.connecting c).mpr (wrapped.unused c (retains.nextConnId ▸ above))
  owner c known := by
    rw [retains.owner c]
    exact wrapped.owner c fun fresh => known ((retains.connecting c).mpr fresh)
  entry c known missing := by
    rw [perConn, retains.connName] at missing
    exact wrapped.entry c (fun fresh => known ((retains.connecting c).mpr fresh))
      (retains.entries _ missing)

theorem retains_handleClose (c : ConnId) (known : (s.tcp c).state ≠ .connecting)
    (owner : (s.tcp c).owner = .tlsConnection) : Retains s (s.handleClose c) := by
  have stored : Retains s (s.setState c .disconnected) :=
    retains_modify c _ rfl (by simp [known])
  unfold handleClose connectionDown
  rw [setState_owner, owner]
  exact stored.trans (retains_onTcpClose _ c)

theorem retains_forceClose (c : ConnId)
    (owner : (s.tcp c).state ≠ .connecting → (s.tcp c).owner = .tlsConnection) :
    Retains s (s.forceClose c) := by
  unfold forceClose
  split
  next notClosed =>
    have known : (s.tcp c).state ≠ .connecting := by
      rcases notClosed with up | closing
      · simp [up]
      · simp [closing]
    exact retains_handleClose c known (owner known)
  next => exact retains_refl s

theorem retains_handshakeDone (s : HttpServer σ) (c : ConnId) : Retains s (s.handshakeDone c) := by
  unfold handshakeDone
  split
  · exact retains_setPerConn s c _
  · exact retains_refl s

theorem retains_driveHandshake (c : ConnId) (outcome : ConnectionPool.Handshake)
    (owner : (s.tcp c).state ≠ .connecting → (s.tcp c).owner = .tlsConnection) :
    Retains s (s.driveHandshake c outcome) := by
  unfold driveHandshake
  split
  next => exact retains_refl s
  next =>
    cases outcome with
    | error => exact retains_forceClose c owner
    | done => exact retains_handshakeDone s c
    | pending => exact retains_refl s

section Wrapped

variable (wrapped : Wrapped s) (c : ConnId)
include wrapped

theorem retains_perform (writeFails : Bool) (action : Action) :
    Retains s (s.perform c writeFails action) := by
  cases action with
  | handle | notify => exact retains_refl s
  | send data =>
    simp only [perform, send]
    split
    · exact retains_forceClose c (wrapped.owner c)
    · exact retains_refl s
  | close =>
    simp only [perform, close]
    split
    · exact retains_refl s
    · exact (calm_shutdown s c).toRetains

theorem retains_onPlaintext (plaintext : Bytes) (writeFails : Bool) :
    Retains s (s.onPlaintext handler c plaintext writeFails) := by
  unfold onPlaintext
  split
  next => exact retains_refl s
  next pc found =>
    dsimp only
    have stored (world : σ) (pc' : PerConn) : Retains s ((s.withWorld world).setPerConn c pc') :=
      (calm_withWorld s world).toRetains.trans (retains_setPerConn _ c pc')
    apply (stored _ _).trans
    apply retains_foldl
    intro t action kept
    exact retains_perform (wrapped.retains ((stored _ _).trans kept)) c writeFails action

theorem retains_afterRead (status : TlsStatus) : Retains s (s.afterRead c status) := by
  cases status with
  | ok | wantIo => exact retains_refl s
  | closed => exact (calm_shutdown s c).toRetains
  | error => exact retains_forceClose c (wrapped.owner c)

theorem retains_onTcpMessage (outcome : ConnectionPool.Handshake) (plaintext : Bytes)
    (status : TlsStatus) (writeFails : Bool) :
    Retains s (s.onTcpMessage handler c outcome plaintext status writeFails) := by
  have driven : Retains s (if s.handshaking c then s.driveHandshake c outcome else s) := by
    split
    · exact retains_driveHandshake c outcome (wrapped.owner c)
    · exact retains_refl s
  unfold onTcpMessage
  dsimp only
  generalize (if s.handshaking c then s.driveHandshake c outcome else s) = t at driven ⊢
  have secure := wrapped.retains driven
  split
  next => exact driven
  next =>
    split
    next => exact driven.trans (retains_afterRead secure c status)
    next =>
      have consumed : Retains t (t.onPlaintext handler c plaintext writeFails) :=
        retains_onPlaintext secure c plaintext writeFails
      exact (driven.trans consumed).trans (retains_afterRead (secure.retains consumed) c status)

end Wrapped

theorem retains_observe (s : HttpServer σ) (c : ConnId) : Retains s (s.observe c) :=
  { retains_refl s with connName := rfl, owner := fun _ => rfl, connecting := fun _ => Iff.rfl }

theorem Wrapped.opened (wrapped : Wrapped s) (pc : PerConn) (usesTls : s'.usesTls = s.usesTls)
    (connName : s'.connName = s.connName) (nextConnId : s'.nextConnId = s.nextConnId + 1)
    (others : ∀ d, d ≠ s.nextConnId → s'.tcp d = s.tcp d)
    (owner : (s'.tcp s.nextConnId).owner = .tlsConnection)
    (conns : s'.conns = s.conns.insert (s.connName s.nextConnId) pc) : Wrapped s' where
  secure := usesTls.trans wrapped.secure
  unused d above := by
    rw [nextConnId] at above
    rw [others d (Nat.ne_of_gt above)]
    exact wrapped.unused d (Nat.le_of_succ_le above)
  owner d known := by
    by_cases same : d = s.nextConnId
    · subst same
      exact owner
    · rw [others d same] at known ⊢
      exact wrapped.owner d known
  entry d known := by
    rw [perConn, conns, connName, SortedMap.find?_insert]
    split
    next => exact Option.some_ne_none pc
    next other =>
      have differs : d ≠ s.nextConnId := fun same => other (same ▸ rfl)
      rw [others d differs] at known
      exact wrapped.entry d known

theorem Wrapped.newConnection (wrapped : Wrapped s) (outcome : ConnectionPool.Handshake) :
    Wrapped (s.newConnection outcome) := by
  have secure : (setState { s with nextConnId := s.nextConnId + 1 } s.nextConnId
      .connected).usesTls = true := wrapped.secure
  rw [HttpServer.newConnection, onConnectionUp, if_pos secure, startTls]
  refine Wrapped.retains ?_ (Retains.trans (retains_driveHandshake _ outcome ?_)
    (retains_observe _ _))
  · refine wrapped.opened _ rfl rfl rfl (fun d other => ?_) ?_ rfl
    · rw [modify_tcp_other _ _ _ _ other]
      exact Function.update_of_ne other _ _
    · rw [modify_tcp_self]
  · intro _
    rw [modify_tcp_self]

theorem Wrapped.step (wrapped : Wrapped s) (event : Event)
    (stepped : s.step handler event = some s') : Wrapped s' := by
  cases event with
  | newConnection outcome =>
    cases stepped
    exact wrapped.newConnection outcome
  | received c data =>
    simp only [HttpServer.step] at stepped
    split at stepped <;> cases stepped
    next plain => exact absurd (wrapped.owner c fun fresh => plain (.inl fresh)) (plain ∘ .inr)
  | decrypted c outcome plaintext status writeFails =>
    simp only [HttpServer.step] at stepped
    split at stepped <;> cases stepped
    exact wrapped.retains (retains_onTcpMessage wrapped c outcome plaintext status writeFails)
  | shutdown c =>
    cases stepped
    exact wrapped.retains (calm_shutdown s c).toRetains
  | forceClose c =>
    cases stepped
    exact wrapped.retains (retains_forceClose c (wrapped.owner c))
  | handleClose c =>
    simp only [HttpServer.step] at stepped
    split at stepped <;> cases stepped
    next known => exact wrapped.retains (retains_handleClose c known (wrapped.owner c known))
  | connectDestroyed c =>
    cases stepped
    unfold connectDestroyed
    split
    next up =>
      have known : (s.tcp c).state ≠ .connecting := by simp [up]
      exact wrapped.retains (retains_handleClose c known (wrapped.owner c known))
    next => exact wrapped

/-! ### Whole runs -/

/-- A connection that is down has no entry, and the observer has heard of it once as connected and
at least once as disconnected. -/
def TracksLive (s : HttpServer σ) : Prop :=
  ∀ c, (s.tcp c).state = .disconnected →
    s.perConn c = none ∧ s.observed.count (c, true) = 1 ∧ (c, false) ∈ s.observed

def NoneDown (s : HttpServer σ) : Prop := ∀ c, (s.tcp c).state ≠ .disconnected

theorem Tracked.tracksLive (tracked : Tracked s) : TracksLive s := by
  intro c closed
  obtain ⟨gone, told⟩ := tracked.down c closed
  exact ⟨gone, tracked.heard c (by simp [closed]), told⟩

theorem Wrapped.noneDown (wrapped : Wrapped s) (tracks : TracksLive s) : NoneDown s := by
  intro c closed
  exact wrapped.entry c (by simp [closed]) (tracks c closed).1

/-- The server keeps track of its connections exactly if it has no TLS context, or no connection
goes down. -/
theorem tracksLive_iff (handler : Option (HttpHandler σ)) (name ipPort : Bytes) (usesTls : Bool)
    (maxBodyBytes : Nat) (world : σ) (events : List Event) :
    Machine.Always (step handler) TracksLive
        (initial name ipPort usesTls maxBodyBytes world) events ↔
      (usesTls = true → Machine.Always (step handler) NoneDown
        (initial name ipPort usesTls maxBodyBytes world) events) := by
  cases usesTls with
  | false =>
    have tracked : Machine.Always (step handler) Tracked
        (initial name ipPort false maxBodyBytes world) events := by
      apply Machine.always_of_keeps
      · exact fun s event s' tracked stepped => tracked.step event stepped
      · exact ⟨rfl, fun _ => rfl, fun _ _ => rfl, fun _ _ _ => List.not_mem_nil,
          fun c known => absurd rfl known, fun c closed => by cases closed⟩
    constructor
    · intro _ secure
      cases secure
    · intro _
      exact Machine.Always.mono (fun _ => Tracked.tracksLive) _ events tracked
  | true =>
    have wrapped : Wrapped (initial name ipPort true maxBodyBytes world) :=
      ⟨rfl, fun _ _ => rfl, fun c known => absurd rfl known, fun c known => absurd rfl known⟩
    constructor
    · -- the first connection that goes down still has its entry
      intro tracks _
      apply Machine.Always.carries _ _ _ events wrapped _ tracks
      · exact fun s event s' wrapped stepped => wrapped.step event stepped
      · exact fun s event s' wrapped _ stepped tracks => (wrapped.step event stepped).noneDown tracks
      · exact fun c closed => by cases closed
    · intro quiet
      apply Machine.Always.mono _ _ events (quiet rfl)
      exact fun s none c closed => absurd closed (none c)

/-- A TLS connection is established, and the peer closes it. -/
def closedByPeer : List Event := [.newConnection .done, .handleClose 1]

/-- The entry is still there, and the observer has heard of nothing but the connection. -/
theorem closedByPeer_untracked :
    let start := initial (text "https") (text "0.0.0.0:443") true 0 ()
    (Machine.run (step none) start closedByPeer).map
        (fun s => ((s.tcp 1).state, (s.perConn 1).isSome, s.observed)) =
      some (.disconnected, true, [(1, true)]) ∧
    ¬Machine.Always (step none) TracksLive start closedByPeer := by
  intro start
  have ran : (Machine.run (step none) start closedByPeer).map
      (fun s => ((s.tcp 1).state, (s.perConn 1).isSome, s.observed)) =
    some (.disconnected, true, [(1, true)]) := by decide +kernel
  refine ⟨ran, fun always => ?_⟩
  obtain ⟨last, reached, seen⟩ := Option.map_eq_some_iff.mp ran
  obtain ⟨state, rest⟩ := Prod.mk.inj seen
  have gone := (always.last _ _ _ reached 1 state).1
  rw [gone] at rest
  exact Bool.false_ne_true (Prod.mk.inj rest).1

end Cox.Http.HttpServer
