import Cox.Net.Resolver

/-!
# Answers from the cache

A lookup copies the addresses that `getaddrinfo` returns. An answer from the cache makes each of
them again from its text, and the text says nothing of the scope of an IPv6 address. The two
agree if no address has a scope, and only then.
-/
namespace Cox.Net

open Cox.Lib List

def AddrInfo.scoped : AddrInfo → Bool
  | .inet6 addr => addr.scopeId != 0
  | .inet _ | .other => false

theorem target_restamp_inet6 (addr : SockaddrIn6) (port port' : UInt16) :
    (InetAddress.restamp port' (.inet6 { addr with port := port })).target =
        (InetAddress.inet6 { addr with port := port' }).target ↔
      (AddrInfo.inet6 addr).scoped = false := by
  simp only [InetAddress.restamp, InetAddress.target, AddrInfo.scoped,
    InetAddress.Target.mk.injEq, true_and, bne_eq_false_iff_eq]
  exact eq_comm

theorem targets_restamp_iff (infos : List AddrInfo) (port port' : UInt16) :
    ((infos.filterMap (AddrInfo.address port)).map (·.restamp port')).map (·.target) =
        (infos.filterMap (AddrInfo.address port')).map (·.target) ↔
      ∀ info ∈ infos, info.scoped = false := by
  induction infos with
  | nil => simp
  | cons info infos ih =>
    rw [forall_mem_cons]
    cases info with
    | inet addr =>
      simp only [filterMap_cons, AddrInfo.address, map_cons, List.cons.injEq, ih]
      exact and_congr_left fun _ => iff_of_true rfl rfl
    | inet6 addr =>
      simp only [filterMap_cons, AddrInfo.address, map_cons, List.cons.injEq, ih]
      exact and_congr_left fun _ => target_restamp_inet6 addr port port'
    | other =>
      simp only [filterMap_cons, AddrInfo.address, ih]
      exact (and_iff_right rfl).symm

theorem address_eq_none_iff (info : AddrInfo) (port port' : UInt16) :
    info.address port = none ↔ info.address port' = none := by
  cases info with
  | inet addr => simp [AddrInfo.address]
  | inet6 addr => simp [AddrInfo.address]
  | other => simp [AddrInfo.address]

theorem filterMap_address_eq_nil_iff (infos : List AddrInfo) (port port' : UInt16) :
    infos.filterMap (AddrInfo.address port) = [] ↔
      infos.filterMap (AddrInfo.address port') = [] := by
  simp only [filterMap_eq_nil_iff]
  exact forall₂_congr fun info _ => address_eq_none_iff info port port'

theorem resolveBlocking_found (infos : List AddrInfo) (port : UInt16)
    (some : infos.filterMap (AddrInfo.address port) ≠ []) :
    resolveBlocking (.found infos) port = .ok ⟨_, usable_filterMap port infos some⟩ :=
  dif_neg some

namespace Resolver

variable {r r' : Resolver}

theorem store_entry (i : Nat) (job : Job) (infos : List AddrInfo) (when : UInt64)
    (here : r.jobs[i]? = some job) (looked : job.stage = .found (.found infos) job.port)
    (stored : r.store i when = some r') :
    ∃ usable : Usable (infos.filterMap (AddrInfo.address job.port)),
      r'.cache job.host = some ⟨_, usable, when⟩ := by
  obtain ⟨job', addrs, usable, here', stage, rfl⟩ := of_store i when stored
  obtain rfl : job = job' := Option.some.inj (here.symm.trans here')
  rw [looked, Stage.found] at stage
  by_cases empty : infos.filterMap (AddrInfo.address job.port) = []
  · simp [resolveBlocking, empty] at stage
  · rw [resolveBlocking_found infos job.port empty] at stage
    cases stage
    exact ⟨usable, if_pos rfl⟩

theorem resolve_hit (form : IpText) (host : Bytes) (port : UInt16) (now : UInt64)
    (entry : CacheEntry) (free : r.held = false) (cached : r.cache host = some entry)
    (young : age entry now ≤ r.cacheTtl.toUInt64) :
    (r.resolve form .all host port now).invoked =
      r.invoked ++ [(r.calls, .list (entry.addrs.map (·.restamp port)) [])] := by
  unfold resolve
  dsimp only
  rw [if_neg (by rw [free]; exact Bool.false_ne_true), lookCache_eq]
  simp only [cached, if_pos young]
  rfl

/-- **Answers from the cache.** A task of the pool has looked up a host and stores what it found.
As long as the entry is there and is not too old, a call for another port is answered with the
addresses that a new lookup would give, as far as `connect` reads them, exactly if
`getaddrinfo` returned no IPv6 address with a scope. -/
theorem cached_iff_unscoped (form : IpText) (i : Nat) (job : Job) (infos : List AddrInfo)
    (when now : UInt64) (port : UInt16) (later : Resolver)
    (here : r.jobs[i]? = some job) (looked : job.stage = .found (.found infos) job.port)
    (stored : r.store i when = some r') (kept : later.cache job.host = r'.cache job.host)
    (free : later.held = false) (young : (now - when) / 1000000 ≤ later.cacheTtl.toUInt64) :
    ∃ answer fresh, (resolveBlocking (.found infos) port).map (·.val) = .ok fresh ∧
      (later.resolve form .all job.host port now).invoked =
        later.invoked ++ [(later.calls, .list answer [])] ∧
      (answer.map (·.target) = fresh.map (·.target) ↔ ∀ info ∈ infos, info.scoped = false) := by
  obtain ⟨usable, entry⟩ := store_entry i job infos when here looked stored
  have some : infos.filterMap (AddrInfo.address port) ≠ [] := fun empty =>
    usable.some ((filterMap_address_eq_nil_iff infos job.port port).mpr empty)
  refine ⟨_, infos.filterMap (AddrInfo.address port), ?_,
    resolve_hit form job.host port now _ free (kept.trans entry) young, ?_⟩
  · rw [resolveBlocking_found infos port some]
    rfl
  · exact targets_restamp_iff infos job.port port

/-- A task that has looked up a host and found one entry. -/
def lookedUp (info : AddrInfo) : Resolver :=
  { start 60 fun _ => none with
    jobs := [⟨0, text "a", 80, .all, .found (.found [info]) 80⟩]
    calls := 1 }

/-- An IPv4 address, first for port 80 and then for port 443. -/
theorem cached_loopback :
    ∃ r', (lookedUp (.inet ⟨0, #v[127, 0, 0, 1]⟩)).store 0 0 = some r' ∧
      ∃ answer fresh,
        (resolveBlocking (.found [.inet ⟨0, #v[127, 0, 0, 1]⟩]) 443).map (·.val) = .ok fresh ∧
        (r'.resolve .plain .all (text "a") 443 0).invoked =
          r'.invoked ++ [(r'.calls, .list answer [])] ∧
        (answer.map (·.target) = fresh.map (·.target) ↔
          ∀ info ∈ [AddrInfo.inet ⟨0, #v[127, 0, 0, 1]⟩], info.scoped = false) := by
  refine ⟨_, rfl, ?_⟩
  exact cached_iff_unscoped (r := lookedUp (.inet ⟨0, #v[127, 0, 0, 1]⟩)) .plain 0
    ⟨0, text "a", 80, .all, .found (.found [.inet _]) 80⟩ _ 0 0 443 _ rfl rfl rfl rfl rfl
    (by decide)

def linkLocal : SockaddrIn6 where
  port := 0
  flowinfo := 0
  addr := #v[0xfe, 0x80, 0, 0, 0, 0, 0, 0, 0, 0, 0, 0, 0, 0, 0, 1]
  scopeId := 2

/-- The lookup gives the link, and the cache does not. -/
theorem cached_losesScope :
    let answer := ((lookedUp (.inet6 linkLocal)).store 0 0).map fun r =>
      (r.resolve .plain .all (text "a") 443 0).invoked
    let fresh := (resolveBlocking (.found [.inet6 linkLocal]) 443).map (·.val)
    answer = some [(1, .list [.inet6 { linkLocal with port := 443, scopeId := 0 }] [])] ∧
      fresh = .ok [.inet6 { linkLocal with port := 443 }] ∧
      (InetAddress.inet6 { linkLocal with port := 443, scopeId := 0 }).target ≠
        (InetAddress.inet6 { linkLocal with port := 443 }).target := by
  exact ⟨rfl, rfl, by decide⟩

end Resolver

end Cox.Net
