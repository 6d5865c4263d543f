import Mathlib.Data.List.Induction
import Cox.Lib.Bytes
import Cox.Lib.SortedMap
import Cox.Tls.Context

/-!
# Server names

`addSniContext` and `findSniContext` of tls/tls_context.h. Contexts are registered under names
and under wildcards of one label; a name is looked up as it is, and then with its first label
replaced by `*`. The label is what stands before the first dot, and a name that begins with the
dot has one as well: the empty one.
-/
namespace Cox.Tls

open Cox.Lib List

/-! ### The table -/

/-- The part of `TlsContext` that holds other contexts by their names. -/
structure SniTable (Ctx : Type) where
  role : Role
  contexts : SortedMap Bytes Ctx := .empty

/-- The arguments of a call of `addSniContext`; the context may be null. -/
structure Registration (Ctx : Type) where
  hostname : Bytes
  ctx : Option Ctx

def dot : UInt8 := 46

def star : UInt8 := 42

section Table

variable {Ctx : Type} (roleOf : Ctx → Role)

def addSniContext (t : SniTable Ctx) (r : Registration Ctx) : Except String (SniTable Ctx) :=
  if t.role ≠ .server then .error "addSniContext is server-role only"
  else
    match r.ctx with
    | none => .error "addSniContext: null context"
    | some ctx =>
      if roleOf ctx ≠ .server then .error "addSniContext: context must be server role"
      else .ok { t with contexts := t.contexts.insert (toLower r.hostname) ctx }

def findSniContext (t : SniTable Ctx) (hostname : Bytes) : Option Ctx :=
  let host := toLower hostname
  match t.contexts.find? host with
  | some ctx => some ctx
  | none =>
    let first := host.idxOf dot
    if first < host.length ∧ first + 1 < host.length then
      t.contexts.find? (star :: host.drop first)
    else none

/-- A call that throws leaves the table as it is. -/
def register (t : SniTable Ctx) (r : Registration Ctx) : SniTable Ctx :=
  match addSniContext roleOf t r with
  | .ok t => t
  | .error _ => t

def registerAll (role : Role) (rs : List (Registration Ctx)) : SniTable Ctx :=
  rs.foldl (register roleOf) { role }

/-! ### What is asked of it -/

/-- The context of a registration that succeeds. -/
def Registration.accepted (role : Role) (r : Registration Ctx) : Option Ctx :=
  if role = .server then r.ctx.filter (roleOf · = .server) else none

/-- The context that was last registered under a name, ignoring case. -/
def lastRegistered (role : Role) (rs : List (Registration Ctx)) (name : Bytes) : Option Ctx :=
  (rs.filterMap fun r =>
    if toLower r.hostname = toLower name then r.accepted roleOf role else none).getLast?

structure Labelled (name label suffix : Bytes) : Prop where
  cut : name = label ++ dot :: suffix
  single : dot ∉ label
  some : label ≠ []
  rest : suffix ≠ []

/-- What a lookup is to give: the context of the name, or that of the wildcard for its first
label, or none. -/
inductive Looked (last : Bytes → Option Ctx) (name : Bytes) : Option Ctx → Prop where
  | exact (ctx : Ctx) (registered : last name = some ctx) : Looked last name (some ctx)
  | wildcard (label suffix : Bytes) (unknown : last name = none)
      (labelled : Labelled name label suffix) : Looked last name (last (star :: dot :: suffix))
  | nothing (unknown : last name = none)
      (unlabelled : ¬∃ label suffix, Labelled name label suffix) : Looked last name none

/-- The name is not known, its first label is empty, and there is a wildcard for the rest. -/
def EmptyLabel (last : Bytes → Option Ctx) (name : Bytes) : Prop :=
  last name = none ∧
    ∃ suffix, name = dot :: suffix ∧ suffix ≠ [] ∧ last (star :: dot :: suffix) ≠ none

/-! ### The registrations -/

theorem contexts_register (t : SniTable Ctx) (r : Registration Ctx) (name : Bytes) :
    (register roleOf t r).contexts.find? (toLower name) =
      if toLower r.hostname = toLower name then
        (r.accepted roleOf t.role).or (t.contexts.find? (toLower name))
      else t.contexts.find? (toLower name) := by
  unfold register addSniContext Registration.accepted
  by_cases server : t.role = .server
  · rw [if_neg (not_not_intro server), if_pos server]
    cases r.ctx with
    | none => simp
    | some ctx =>
      by_cases role : roleOf ctx = .server
      · simp [role, Option.filter_some, SortedMap.find?_insert, eq_comm (a := toLower name)]
      · simp [role, Option.filter_some]
  · simp [server]

theorem role_register (t : SniTable Ctx) (r : Registration Ctx) :
    (register roleOf t r).role = t.role := by
  unfold register addSniContext
  split
  next added =>
    split at added
    · cases added
    · split at added
      · cases added
      · split at added
        · cases added
        · cases added
          rfl
  next => rfl

variable (role : Role) (rs : List (Registration Ctx)) (name : Bytes)

theorem role_registerAll : (registerAll roleOf role rs).role = role := by
  induction rs using List.reverseRecOn with
  | nil => rfl
  | append_singleton rs r ih =>
    rw [registerAll, foldl_concat]
    exact (role_register roleOf _ r).trans ih

theorem contexts_registerAll :
    (registerAll roleOf role rs).contexts.find? (toLower name) =
      lastRegistered roleOf role rs name := by
  induction rs using List.reverseRecOn with
  | nil => rfl
  | append_singleton rs r ih =>
    have role' := role_registerAll roleOf role rs
    unfold registerAll at ih role' ⊢
    rw [foldl_concat, contexts_register, role', ih, lastRegistered, lastRegistered,
      filterMap_append, List.getLast?_append]
    split
    next same =>
      cases accepted : r.accepted roleOf role with
      | none => simp [same, accepted]
      | some ctx => simp [same, accepted]
    next other => simp [other]

/-! ### The lookup -/

theorem idxOf_toLower : (toLower name).idxOf dot = name.idxOf dot := by
  induction name with
  | nil => rfl
  | cons c name ih =>
    by_cases same : c = dot
    · subst same
      rfl
    · have other : tolower c ≠ dot := mt (tolower_eq_low c dot (by decide)).mp same
      show (tolower c :: toLower name).idxOf dot = _
      rw [idxOf_cons_ne _ other, idxOf_cons_ne _ same, ih]

theorem findSniContext_eq :
    findSniContext (registerAll roleOf role rs) name =
      match lastRegistered roleOf role rs name with
      | some ctx => some ctx
      | none =>
        if name.idxOf dot + 1 < name.length then
          lastRegistered roleOf role rs (star :: name.drop (name.idxOf dot))
        else none := by
  unfold findSniContext
  have wildcard : star :: (toLower name).drop (name.idxOf dot) =
      toLower (star :: name.drop (name.idxOf dot)) := by
    simp [toLower, map_drop]
    decide
  have length : (toLower name).length = name.length := length_map ..
  simp only [contexts_registerAll, idxOf_toLower, length, wildcard]
  have both : name.idxOf dot < name.length ∧ name.idxOf dot + 1 < name.length ↔
      name.idxOf dot + 1 < name.length := by omega
  simp only [both]

theorem cut_first_dot (more : name.idxOf dot + 1 < name.length) :
    ∃ label suffix, name = label ++ dot :: suffix ∧ dot ∉ label ∧ suffix ≠ [] := by
  have within : name.idxOf dot < name.length := by omega
  refine ⟨name.take (name.idxOf dot), name.drop (name.idxOf dot + 1), ?_,
    notMem_take_idxOf name dot, ?_⟩
  · have here : name[name.idxOf dot] = dot := getElem_idxOf within
    have tail := drop_eq_getElem_cons within
    rw [here] at tail
    rw [← tail, take_append_drop]
  · rw [Ne, drop_eq_nil_iff]
    omega

theorem findSniContext_cut (label suffix : Bytes) (single : dot ∉ label) (rest : suffix ≠ [])
    (unknown : lastRegistered roleOf role rs (label ++ dot :: suffix) = none) :
    findSniContext (registerAll roleOf role rs) (label ++ dot :: suffix) =
      lastRegistered roleOf role rs (star :: dot :: suffix) := by
  have more : label.length + 1 < (label ++ dot :: suffix).length := by
    have positive := length_pos_of_ne_nil rest
    simp only [length_append, length_cons]
    omega
  rw [findSniContext_eq, unknown, idxOf_cut label suffix dot single]
  simp only [if_pos more, drop_left]

theorem unlabelled_dot (suffix : Bytes) :
    ¬∃ label rest, Labelled (dot :: suffix) label rest := by
  rintro ⟨label, rest, labelled⟩
  have cut := labelled.cut
  cases label with
  | nil => exact labelled.some rfl
  | cons c label =>
    cases cut
    exact labelled.single mem_cons_self

theorem Labelled.more {name label suffix : Bytes} (labelled : Labelled name label suffix) :
    name.idxOf dot + 1 < name.length := by
  have positive := length_pos_of_ne_nil labelled.rest
  rw [labelled.cut, idxOf_cut label suffix dot labelled.single, length_append,
    length_cons]
  omega

theorem looked_of_unknown (unknown : lastRegistered roleOf role rs name = none)
    (labelled : ¬EmptyLabel (lastRegistered roleOf role rs) name) :
    Looked (lastRegistered roleOf role rs) name
      (findSniContext (registerAll roleOf role rs) name) := by
  by_cases more : name.idxOf dot + 1 < name.length
  · obtain ⟨label, suffix, rfl, single, rest⟩ := cut_first_dot name more
    rw [findSniContext_cut roleOf role rs label suffix single rest unknown]
    by_cases empty : label = []
    · subst empty
      -- there is no wildcard for the rest
      have none : lastRegistered roleOf role rs (star :: dot :: suffix) = none := by
        by_contra some
        exact labelled ⟨unknown, suffix, rfl, rest, some⟩
      rw [none]
      exact .nothing unknown (unlabelled_dot suffix)
    · exact .wildcard label suffix unknown ⟨rfl, single, empty, rest⟩
  · rw [findSniContext_eq, unknown]
    simp only [if_neg more]
    refine .nothing unknown ?_
    rintro ⟨label, suffix, labelled⟩
    exact more labelled.more

theorem not_looked_of_emptyLabel (emptyLabel : EmptyLabel (lastRegistered roleOf role rs) name) :
    ¬Looked (lastRegistered roleOf role rs) name
      (findSniContext (registerAll roleOf role rs) name) := by
  intro looked
  obtain ⟨unknown, suffix, rfl, rest, some⟩ := emptyLabel
  have found := findSniContext_cut roleOf role rs [] suffix not_mem_nil rest unknown
  rw [nil_append] at found
  rw [found] at looked
  generalize lastRegistered roleOf role rs (star :: dot :: suffix) = result at looked some
  cases looked with
  | exact ctx registered =>
    rw [unknown] at registered
    cases registered
  | wildcard label suffix' _ labelled => exact unlabelled_dot suffix ⟨label, suffix', labelled⟩
  | nothing _ _ => exact some rfl

/-- **Server names.** Whatever was registered, a lookup gives what it is to give, except for an
unknown name that begins with a dot and whose rest has a wildcard. -/
theorem looked_iff (role : Role) (rs : List (Registration Ctx)) (name : Bytes) :
    Looked (lastRegistered roleOf role rs) name
        (findSniContext (registerAll roleOf role rs) name) ↔
      ¬EmptyLabel (lastRegistered roleOf role rs) name := by
  constructor
  · intro looked emptyLabel
    exact not_looked_of_emptyLabel roleOf role rs name emptyLabel looked
  · intro labelled
    cases known : lastRegistered roleOf role rs name with
    | some ctx =>
      rw [findSniContext_eq, known]
      exact .exact ctx known
    | none => exact looked_of_unknown roleOf role rs name known labelled

end Table

/-- One wildcard is registered, and it is found for a name whose first label is empty. -/
theorem findSniContext_emptyLabel :
    let rs : List (Registration Nat) := [⟨text "*.example.com", some 1⟩]
    let last := lastRegistered (fun _ => .server) .server rs
    findSniContext (registerAll (fun _ => .server) .server rs) (text ".example.com") = some 1 ∧
      ¬Looked last (text ".example.com")
        (findSniContext (registerAll (fun _ => .server) .server rs) (text ".example.com")) := by
  refine ⟨by decide, not_looked_of_emptyLabel _ _ _ _ ?_⟩
  exact ⟨by decide, text "example.com", by decide, by decide, by decide⟩

end Cox.Tls
