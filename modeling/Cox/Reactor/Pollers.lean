import Cox.Reactor.EventLoop

/-!
# The pollers

`EPollPoller` and `KQueuePoller`, each over the calls of its kernel. A channel says which events
it asks for, and the poller has to make the kernel watch for them. epoll keeps one entry for a
descriptor, kqueue a filter for each direction, and the pollers keep books of their own to know
which call is due. A kernel forgets a descriptor that is closed; a poller does not hear of it.
-/
namespace Cox.Reactor

open Cox.Lib Function

inductive Direction where
  | read
  | write
  deriving DecidableEq

/-- `IOEvent`; `IO_ERROR` is not passed on to either kernel. -/
abbrev IOEvents := Direction → Bool

/-- What is asked for each descriptor, and by which channel. -/
abbrev Asked := Nat → Option (Channel × IOEvents)

/-! ### epoll -/

inductive EpollOperation where
  | add
  | mod
  | del

structure EPollPoller where
  channels : Nat → Option Channel := fun _ => none
  /-- The entries of the kernel, with their pointers. -/
  kernel : Asked := fun _ => none
  /-- A call of `epoll_ctl` has failed; that is printed. -/
  failed : Bool := false

namespace EPollPoller

variable (p : EPollPoller) (channel : Channel) (events : IOEvents)

def update (operation : EpollOperation) : EPollPoller :=
  match operation, p.kernel channel.fd with
  | .add, none | .mod, some _ =>
    { p with kernel := Function.update p.kernel channel.fd (some (channel, events)) }
  | .del, some _ => { p with kernel := Function.update p.kernel channel.fd none }
  -- `EEXIST` or `ENOENT`
  | .add, some _ | .mod, none | .del, none => { p with failed := true }

def updateChannel : EPollPoller :=
  if !(p.channels channel.fd).isSome then
    { p with channels := Function.update p.channels channel.fd (some channel) }.update channel
      events .add
  else p.update channel events .mod

def removeChannel : EPollPoller :=
  if (p.channels channel.fd).isSome then
    { p with channels := Function.update p.channels channel.fd none }.update channel events .del
  else p

def close (fd : Nat) : EPollPoller :=
  { p with kernel := Function.update p.kernel fd none }

/-- The kernel has what is asked, and the table says for which descriptors there is something. -/
structure Watches (asked : Asked) : Prop where
  kernel : p.kernel = asked
  failed : p.failed = false
  known : ∀ fd, (p.channels fd).isSome = (asked fd).isSome

variable {p} {asked : Asked} (watches : Watches p asked)
include watches

theorem Watches.updateChannel :
    Watches (p.updateChannel channel events)
      (Function.update asked channel.fd (some (channel, events))) := by
  obtain ⟨rfl, failed, known⟩ := watches
  have here := known channel.fd
  unfold updateChannel
  cases old : p.kernel channel.fd
  all_goals
    rw [here, old]
    simp only [update, old]
    refine ⟨rfl, failed, fun fd => ?_⟩
    by_cases same : fd = channel.fd <;> simp [same, known, old]

theorem Watches.removeChannel :
    Watches (p.removeChannel channel events) (Function.update asked channel.fd none) := by
  obtain ⟨rfl, failed, known⟩ := watches
  have here := known channel.fd
  unfold removeChannel
  cases old : p.kernel channel.fd with
  | none =>
    rw [here, old, show Function.update p.kernel _ _ = _ from update_eq_self_iff.mpr old.symm]
    exact ⟨rfl, failed, known⟩
  | some _ =>
    rw [here, old]
    simp only [update, old]
    refine ⟨rfl, failed, fun fd => ?_⟩
    by_cases same : fd = channel.fd <;> simp [same, known]

end EPollPoller

/-! ### kqueue -/

/-- Without `channels_`, which only decides about a log line. -/
structure KQueuePoller where
  registeredEvents : Nat → IOEvents := fun _ _ => false
  /-- The filters of the kernel. -/
  filters : Nat → Direction → Option Channel := fun _ _ => none
  /-- A call in `removeChannel` has failed; nobody looks at its result. -/
  ignored : Bool := false

namespace KQueuePoller

variable (p : KQueuePoller) (ch : Channel) (events : IOEvents) (fd : Nat) (d : Direction)

def set (filter : Option Channel) : KQueuePoller :=
  { p with filters := update p.filters fd (update (p.filters fd) d filter) }

/-- The block of `updateChannel` for one direction. `EV_DELETE` fails if there is no filter, and
a call that fails ends the process. -/
def updateFilter : Option KQueuePoller :=
  if events d then some (p.set ch.fd d (some ch))
  else if p.registeredEvents ch.fd d then
    (p.filters ch.fd d).map fun _ => p.set ch.fd d none
  else some p

def updateChannel : Option KQueuePoller := do
  let q ← p.updateFilter ch events .read
  let q ← q.updateFilter ch events .write
  return { q with registeredEvents := update q.registeredEvents ch.fd events }

def close : KQueuePoller :=
  { p with filters := update p.filters fd fun _ => none }

/-- Both filters are deleted by one call, which fails at the first that is not there. -/
def removeChannel : KQueuePoller where
  registeredEvents := update p.registeredEvents ch.fd fun _ => false
  filters :=
    if (p.filters ch.fd .read).isSome then (p.close ch.fd).filters else p.filters
  ignored :=
    p.ignored || !((p.filters ch.fd .read).isSome && (p.filters ch.fd .write).isSome)

def wanted : Option (Channel × IOEvents) → Direction → Option Channel
  | some (ch, events), d => if events d then some ch else none
  | none, _ => none

structure Watches (asked : Asked) : Prop where
  filters : p.filters = wanted ∘ asked
  registered : ∀ fd d, p.registeredEvents fd d = (p.filters fd d).isSome

theorem updateFilter_eq (right : p.registeredEvents ch.fd d = (p.filters ch.fd d).isSome) :
    p.updateFilter ch events d = some (p.set ch.fd d (wanted (some (ch, events)) d)) := by
  rw [updateFilter, wanted, right]
  split
  · rfl
  · cases held : p.filters ch.fd d with
    | some _ => rfl
    | none =>
      rw [set, ← held, update_eq_self, update_eq_self, held]
      rfl

theorem set_set (filters : Direction → Option Channel) :
    ((p.set fd .read (filters .read)).set fd .write (filters .write)).filters =
      update p.filters fd filters := by
  funext other d
  by_cases same : other = fd <;> cases d <;> simp [set, same]

variable {p} {asked : Asked} (watches : Watches p asked)
include watches

theorem Watches.updateChannel :
    ∃ q, p.updateChannel ch events = some q ∧
      Watches q (update asked ch.fd (some (ch, events))) := by
  obtain ⟨filters, registered⟩ := watches
  unfold KQueuePoller.updateChannel
  rw [updateFilter_eq p ch events .read (registered _ _)]
  refine ⟨_, congrArg (· >>= _) (updateFilter_eq _ ch events .write ?_), ?_, fun fd d => ?_⟩
  · simp [set, registered]
  · rw [comp_update, ← filters]
    exact set_set p ch.fd (wanted (some (ch, events)))
  · dsimp only
    rw [set_set p ch.fd (wanted (some (ch, events)))]
    by_cases same : fd = ch.fd
    · cases asks : events d <;> simp [same, wanted, asks]
    · simp [same, set, registered]

/-- The call succeeds only for a channel that asks for both directions. -/
theorem Watches.ignored_removeChannel : (p.removeChannel ch).ignored = false ↔ p.ignored = false ∧
    ∃ owner asks, asked ch.fd = some (owner, asks) ∧ asks .read = true ∧ asks .write = true := by
  simp only [KQueuePoller.removeChannel, watches.filters, comp_apply, Bool.or_eq_false_iff,
    Bool.not_eq_false', Bool.and_eq_true]
  cases asked ch.fd with
  | none => simp [wanted]
  | some a =>
    obtain ⟨owner, asks⟩ := a
    have only (f : IOEvents → Prop) : (∃ owner' asks', some (owner, asks) = some (owner', asks') ∧
        f asks') ↔ f asks :=
      ⟨fun ⟨_, _, same, holds⟩ => by cases same; exact holds, fun holds => ⟨owner, asks, rfl, holds⟩⟩
    rw [only fun asks => asks .read = true ∧ asks .write = true]
    cases read : asks .read <;> cases write : asks .write <;> simp [wanted, read, write]

theorem Watches.removeChannel (tidy : ∀ owner asks, asked ch.fd = some (owner, asks) →
    asks .write = true → asks .read = true) :
    Watches (p.removeChannel ch) (update asked ch.fd none) := by
  obtain ⟨filters, registered⟩ := watches
  have gone : (p.removeChannel ch).filters = update p.filters ch.fd fun _ => none := by
    unfold KQueuePoller.removeChannel
    split
    · rfl
    next unread =>
      refine (update_eq_self_iff.mpr (funext fun d => ?_)).symm
      rw [filters] at unread ⊢
      cases here : asked ch.fd with
      | none => simp [wanted, here]
      | some a =>
        have both := tidy a.1 a.2 here
        cases d <;> simp_all [wanted]
  refine ⟨?_, fun fd d => ?_⟩
  · rw [gone, comp_update, ← filters]
    rfl
  · rw [gone]
    by_cases same : fd = ch.fd <;> simp [same, KQueuePoller.removeChannel, registered]

end KQueuePoller

/-! ### Both -/

/-- The same calls are made on both pollers. -/
structure Pollers where
  asked : Asked := fun _ => none
  epoll : EPollPoller := {}
  /-- Nothing, if a call has ended the process. -/
  kqueue : Option KQueuePoller := some {}

namespace Pollers

/-- The calls, with the value of `events_`. -/
inductive Event where
  | updateChannel (channel : Channel) (events : IOEvents)
  | removeChannel (channel : Channel) (events : IOEvents)
  /-- The owner of the descriptor closes it. -/
  | close (fd : Nat)

def step (s : Pollers) : Event → Option Pollers
  | .updateChannel channel events => some
    { asked := update s.asked channel.fd (some (channel, events))
      epoll := s.epoll.updateChannel channel events
      kqueue := s.kqueue.bind (·.updateChannel channel events) }
  | .removeChannel channel events => some
    { asked := update s.asked channel.fd none
      epoll := s.epoll.removeChannel channel events
      kqueue := s.kqueue.map (·.removeChannel channel) }
  | .close fd => some { s with epoll := s.epoll.close fd, kqueue := s.kqueue.map (·.close fd) }

/-- A descriptor is closed after its channel has been removed, and a channel that asks for
writing is not removed unless it asks for reading as well. -/
def Tidy (s : Pollers) : Event → Prop
  | .updateChannel _ _ => True
  | .removeChannel channel _ => ∀ owner asks, s.asked channel.fd = some (owner, asks) →
    asks .write = true → asks .read = true
  | .close fd => s.asked fd = none

/-- Both kernels watch for what the channels ask, and no call whose result is looked at has
failed. -/
def Matches (s : Pollers) : Prop :=
  (s.epoll.failed = false ∧ s.epoll.kernel = s.asked) ∧
    s.kqueue.map (·.filters) = some (KQueuePoller.wanted ∘ s.asked)

/-- Both pollers are running, and what they have is what the channels ask for. -/
def Watched (s : Pollers) : Prop :=
  s.epoll.Watches s.asked ∧ ∃ q, s.kqueue = some q ∧ q.Watches s.asked

section Watched

variable {s s' : Pollers} {e : Event} (watched : Watched s)
include watched

theorem Watched.matches : Matches s := by
  obtain ⟨epoll, q, running, kqueue⟩ := watched
  exact ⟨⟨epoll.failed, epoll.kernel⟩, by rw [running, Option.map_some, kqueue.filters]⟩

theorem Watched.step (tidy : Tidy s e) (stepped : s.step e = some s') : Watched s' := by
  obtain ⟨epoll, q, running, kqueue⟩ := watched
  cases e <;> cases stepped <;> rw [running]
  next channel events =>
    exact ⟨epoll.updateChannel channel events, kqueue.updateChannel channel events⟩
  next channel events =>
    exact ⟨epoll.removeChannel channel events, _, rfl, kqueue.removeChannel channel tidy⟩
  next fd =>
    -- neither kernel had anything for the descriptor
    have absent : s.asked fd = none := tidy
    have same : q.close fd = q := by
      rw [KQueuePoller.close, update_eq_self_iff.mpr]
      rw [kqueue.filters, comp_apply, absent]
      rfl
    refine ⟨⟨?_, epoll.failed, epoll.known⟩, q, congrArg some same, kqueue⟩
    exact (update_eq_self_iff.mpr (by rw [epoll.kernel, absent])).trans epoll.kernel

theorem Watched.breaks (untidy : ¬Tidy s e) (stepped : s.step e = some s') : ¬Matches s' := by
  obtain ⟨epoll, q, running, kqueue⟩ := watched
  cases e <;> cases stepped <;> intro fine
  next => exact untidy trivial
  next channel _ =>
    -- the filter for writing is still there
    simp only [Tidy, not_forall, exists_prop] at untidy
    obtain ⟨owner, asks, here, write, unread⟩ := untidy
    have gone := fine.2
    rw [running] at gone
    have gone := congrFun (congrFun (Option.some.inj gone) channel.fd) .write
    simp [KQueuePoller.removeChannel, kqueue.filters, KQueuePoller.wanted, here, write, unread]
      at gone
  next fd =>
    have gone := congrFun fine.1.2 fd
    exact untidy (gone.symm.trans (by simp [EPollPoller.close]))

end Watched

end Pollers

end Cox.Reactor
