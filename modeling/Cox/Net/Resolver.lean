import Cox.Lib.Machine
import Cox.Net.InetAddress

/-!
# The resolver

`ThreadPoolResolver` of net/resolver.h: calls on the loop thread, lookups on the workers of a
running pool, and callbacks on the loop thread. A lookup that succeeds is stored in a cache
under the host name. An answer from the cache is given with `runInLoop`, which on the loop
thread runs the callback in place, and `mutex_` is still held then.

The critical section of a worker is one step, and so is a call up to the point where it runs its
callback or leaves. The calls that a callback makes come while it is on the stack.
-/
namespace Cox.Net

open Cox.Lib List

/-! ### The lookup -/

/-- An entry of the list that `getaddrinfo` returns. -/
inductive AddrInfo where
  | inet (addr : SockaddrIn)
  | inet6 (addr : SockaddrIn6)
  | other

/-- What `getaddrinfo` returns: a code, by its text, or a list. -/
inductive Lookup where
  | failed (message : Bytes) (nonempty : message ≠ [])
  | found (infos : List AddrInfo)

/-- The port is written into the entry, and the entry is copied. -/
def AddrInfo.address (port : UInt16) : AddrInfo → Option InetAddress
  | .inet addr => some (.inet { addr with port := port })
  | .inet6 addr => some (.inet6 { addr with port := port })
  | .other => none

/-- What a lookup that succeeds has found. -/
structure Usable (addrs : List InetAddress) : Prop where
  some : addrs ≠ []
  ip : ∀ a ∈ addrs, a.isUnix = false

theorem isUnix_address (port : UInt16) (info : AddrInfo) (a : InetAddress)
    (found : info.address port = some a) : a.isUnix = false := by
  cases info with
  | inet addr =>
    cases found
    rfl
  | inet6 addr =>
    cases found
    rfl
  | other => cases found

theorem usable_filterMap (port : UInt16) (infos : List AddrInfo)
    (some : infos.filterMap (AddrInfo.address port) ≠ []) :
    Usable (infos.filterMap (AddrInfo.address port)) := by
  refine ⟨some, fun a member => ?_⟩
  obtain ⟨info, _, found⟩ := mem_filterMap.mp member
  exact isUnix_address port info a found

def resolveBlocking (lookup : Lookup) (port : UInt16) :
    Except Bytes {addrs : List InetAddress // Usable addrs} :=
  match lookup with
  | .failed message _ => .error message
  | .found infos =>
    if empty : infos.filterMap (AddrInfo.address port) = [] then
      .error (text "no usable address")
    else .ok ⟨infos.filterMap (AddrInfo.address port), usable_filterMap port infos empty⟩

/-- Made again from its text, with another port. -/
def withPort (form : IpText) (a : InetAddress) (port : UInt16) : Option InetAddress :=
  if a.isIpv6 then InetAddress.ofIp form (a.toIp form) port true
  else InetAddress.ofIp form (a.toIp form) port false

/-- What is left of an address that is made again. -/
def InetAddress.restamp (port : UInt16) : InetAddress → InetAddress
  | .inet a => .inet ⟨port, a.addr⟩
  | .inet6 a => .inet6 ⟨port, 0, a.addr, 0⟩
  | .unix path => .unix path

theorem withPort_eq (form : IpText) (a : InetAddress) (port : UInt16) (ip : a.isUnix = false) :
    withPort form a port = some (a.restamp port) := by
  cases a with
  | inet addr => exact congrArg (Option.map _) (form.pton4_ntop4 addr.addr)
  | inet6 addr => exact congrArg (Option.map _) (form.pton6_ntop6 addr.addr)
  | unix path => cases ip

theorem mapM_withPort (form : IpText) (addrs : List InetAddress) (port : UInt16)
    (ip : ∀ a ∈ addrs, a.isUnix = false) :
    addrs.mapM (withPort form · port) = some (addrs.map (·.restamp port)) := by
  induction addrs with
  | nil => rfl
  | cons a addrs ih =>
    have here := withPort_eq form a port (ip a mem_cons_self)
    have others := ih fun a member => ip a (mem_cons_of_mem _ member)
    rw [mapM_cons, here, others]
    rfl

/-! ### The resolver -/

structure CacheEntry where
  addrs : List InetAddress
  usable : Usable addrs
  when : UInt64

namespace Resolver

/-- `resolve` wants one address, `resolveAll` all of them. -/
inductive Want where
  | one
  | all
  deriving DecidableEq

/-- The arguments of a callback. There is no first address in an empty list. -/
inductive Answer where
  | list (addrs : List InetAddress) (error : Bytes)
  | single (addr : Option InetAddress) (error : Bytes)
  deriving DecidableEq

/-- The callback that `resolve` hands on looks at the error first. -/
def Want.answer : Want → List InetAddress → Bytes → Answer
  | .all, addrs, error => .list addrs error
  | .one, addrs, error =>
    if error.isEmpty then .single addrs.head? []
    else .single (some (.ofPort 0 false false)) error

/-- A task of the pool, by what it does next. -/
inductive Stage where
  | lookup
  /-- The addresses are stored under the lock. -/
  | store (addrs : List InetAddress) (usable : Usable addrs)
  /-- The answer is posted to the loop. -/
  | post (addrs : List InetAddress) (error : Bytes)

structure Job where
  call : Nat
  host : Bytes
  port : UInt16
  want : Want
  stage : Stage := .lookup

/-- A task of the loop: a callback with its arguments. -/
structure Posted where
  call : Nat
  answer : Answer

/-- A callback that is running: one that was answered from the cache, or a task of the loop. -/
inductive Frame where
  | cached
  | posted
  deriving DecidableEq

end Resolver

structure Resolver where
  cacheTtl : UInt32 := 60
  cache : Bytes → Option CacheEntry
  /-- The loop thread holds `mutex_`. -/
  held : Bool := false
  /-- The loop thread waits for the lock that it holds itself. -/
  hung : Bool := false
  /-- The callbacks that are running, the innermost first. -/
  stack : List Resolver.Frame := []
  jobs : List Resolver.Job := []
  pending : List Resolver.Posted := []
  calls : Nat := 0
  /-- The callbacks that have been invoked, by the number of the call. -/
  invoked : List (Nat × Resolver.Answer) := []

namespace Resolver

def age (entry : CacheEntry) (now : UInt64) : UInt64 := (now - entry.when) / 1000000

/-- What the look at the cache gives. -/
inductive Cached where
  | miss
  /-- An address could not be made again. -/
  | throws
  | hit (addrs : List InetAddress)

def lookCache (form : IpText) (r : Resolver) (host : Bytes) (port : UInt16) (now : UInt64) :
    Cached :=
  match r.cache host with
  | none => .miss
  | some entry =>
    if age entry now ≤ r.cacheTtl.toUInt64 then
      match entry.addrs.mapM (withPort form · port) with
      | some result => .hit result
      | none => .throws
    else .miss

theorem lookCache_eq (form : IpText) (r : Resolver) (host : Bytes) (port : UInt16)
    (now : UInt64) :
    r.lookCache form host port now =
      match r.cache host with
      | none => .miss
      | some entry =>
        if age entry now ≤ r.cacheTtl.toUInt64 then .hit (entry.addrs.map (·.restamp port))
        else .miss := by
  unfold lookCache
  cases r.cache host with
  | none => rfl
  | some entry => simp only [mapM_withPort form entry.addrs port entry.usable.ip]

/-- A call of `resolve` or `resolveAll` on the loop thread. -/
def resolve (form : IpText) (r : Resolver) (want : Want) (host : Bytes) (port : UInt16)
    (now : UInt64) : Resolver :=
  let call := r.calls
  let r := { r with calls := r.calls + 1 }
  if r.held then { r with hung := true }
  else
    match r.lookCache form host port now with
    | .hit result =>
      -- the callback runs here, and the lock is given back after it
      { r with
        held := true
        stack := .cached :: r.stack
        invoked := r.invoked ++ [(call, want.answer result [])] }
    | .throws => r
    | .miss => { r with jobs := r.jobs ++ [⟨call, host, port, want, .lookup⟩] }

def returns (r : Resolver) : Option Resolver :=
  match r.stack with
  | [] => none
  | .cached :: rest => some { r with stack := rest, held := false }
  | .posted :: rest => some { r with stack := rest }

/-! ### The workers -/

def Stage.found (lookup : Lookup) (port : UInt16) : Stage :=
  match resolveBlocking lookup port with
  | .ok ⟨addrs, usable⟩ => .store addrs usable
  | .error error => .post [] error

def setStage (r : Resolver) (i : Nat) (job : Job) (stage : Stage) : Resolver :=
  { r with jobs := r.jobs.set i { job with stage := stage } }

def getaddrinfo (r : Resolver) (i : Nat) (lookup : Lookup) : Option Resolver :=
  match r.jobs[i]? with
  | none => none
  | some job =>
    match job.stage with
    | .lookup => some (r.setStage i job (.found lookup job.port))
    | .store _ _ | .post _ _ => none

def store (r : Resolver) (i : Nat) (now : UInt64) : Option Resolver :=
  match r.jobs[i]? with
  | none => none
  | some job =>
    match job.stage with
    | .store addrs usable =>
      -- the worker waits while the loop thread has the lock
      if r.held then none
      else
        some { r.setStage i job (.post addrs []) with
          cache := fun host => if host = job.host then some ⟨addrs, usable, now⟩ else r.cache host }
    | .lookup | .post _ _ => none

/-- `runInLoop`, which from a worker queues the task. -/
def post (r : Resolver) (i : Nat) : Option Resolver :=
  match r.jobs[i]? with
  | none => none
  | some job =>
    match job.stage with
    | .post addrs error =>
      some { r with
        jobs := r.jobs.eraseIdx i
        pending := r.pending ++ [⟨job.call, job.want.answer addrs error⟩] }
    | .lookup | .store _ _ => none

section Workers

variable {r r' : Resolver}

theorem of_getaddrinfo (i : Nat) (lookup : Lookup) (looked : r.getaddrinfo i lookup = some r') :
    ∃ job, r.jobs[i]? = some job ∧ job.stage = .lookup ∧
      r' = r.setStage i job (.found lookup job.port) := by
  unfold getaddrinfo at looked
  split at looked
  next => cases looked
  next job here =>
    split at looked
    next stage => exact ⟨job, here, stage, (Option.some.inj looked).symm⟩
    next => cases looked
    next => cases looked

theorem of_store (i : Nat) (now : UInt64) (stored : r.store i now = some r') :
    ∃ job addrs usable, r.jobs[i]? = some job ∧ job.stage = .store addrs usable ∧
      r' = { r.setStage i job (.post addrs []) with
        cache := fun host => if host = job.host then some ⟨addrs, usable, now⟩ else r.cache host } := by
  unfold store at stored
  split at stored
  next => cases stored
  next job here =>
    split at stored
    next addrs usable stage =>
      split at stored
      · cases stored
      · exact ⟨job, addrs, usable, here, stage, (Option.some.inj stored).symm⟩
    next => cases stored
    next => cases stored

theorem of_post (i : Nat) (posted : r.post i = some r') :
    ∃ job addrs error, r.jobs[i]? = some job ∧ job.stage = .post addrs error ∧
      r' = { r with
        jobs := r.jobs.eraseIdx i
        pending := r.pending ++ [⟨job.call, job.want.answer addrs error⟩] } := by
  unfold post at posted
  split at posted
  next => cases posted
  next job here =>
    split at posted
    next addrs error stage =>
      exact ⟨job, addrs, error, here, stage, (Option.some.inj posted).symm⟩
    next => cases posted
    next => cases posted

end Workers

def runPending (r : Resolver) : Option Resolver :=
  match r.stack, r.pending with
  | [], task :: rest =>
    some { r with
      pending := rest
      stack := [.posted]
      invoked := r.invoked ++ [(task.call, task.answer)] }
  | _ :: _, _ | [], [] => none

/-! ### The machine -/

inductive Event where
  | resolve (want : Want) (host : Bytes) (port : UInt16) (now : UInt64)
  | setCacheTtl (seconds : UInt32)
  | returns
  | runPending
  | getaddrinfo (i : Nat) (lookup : Lookup)
  | store (i : Nat) (now : UInt64)
  | post (i : Nat)

/-- The loop thread does nothing any more once it hangs. -/
def step (form : IpText) (r : Resolver) : Event → Option Resolver
  | .resolve want host port now =>
    if r.hung then none else some (r.resolve form want host port now)
  | .setCacheTtl seconds => if r.hung then none else some { r with cacheTtl := seconds }
  | .returns => if r.hung then none else r.returns
  | .runPending => if r.hung then none else r.runPending
  | .getaddrinfo i lookup => r.getaddrinfo i lookup
  | .store i now => r.store i now
  | .post i => r.post i

def start (cacheTtl : UInt32) (cache : Bytes → Option CacheEntry) : Resolver where
  cacheTtl := cacheTtl
  cache := cache

end Resolver

end Cox.Net
