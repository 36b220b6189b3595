import VirtualSfc.Base.Run
import VirtualSfc.Efvi.Layout

/-! The allocation service: protection domains and virtual interfaces behind
`ApplyVirtualDevice`. The log of a run is compared with what an idempotent
service would answer. -/
namespace VirtualSfc.Efvi.Allocator
open Base

/-- A C string made from a C++ one ends at the first NUL. -/
def cString (text : String) : String :=
  String.ofList (text.toList.takeWhile (· ≠ Char.ofNat 0))

/-- `sscanf(s, "%d%c", ..) == 1`: white space, a sign, digits to the end, stored
through `long` into 32 bits. -/
def scanInt (s : String) : Option Int :=
  let text := s.toList.dropWhile Layout.isSpace
  let (negative, digits) := match text with
    | '-' :: rest => (true, rest)
    | '+' :: rest => (false, rest)
    | _ => (false, text)
  if digits ≠ [] ∧ digits.all Char.isDigit then
    let magnitude : Int := digits.foldl (fun value digit => value * 10 + (digit.toNat - 48)) 0
    let value := if negative then max (-magnitude) (-2 ^ 63) else min magnitude (2 ^ 63 - 1)
    some (value.bmod (2 ^ 32))
  else none

example : scanInt "\x0b -12" = some (-12) ∧ scanInt "7x" = none ∧ scanInt "ens1" = none := by
  decide

/-- `if_nametoindex` gives 0 for an unknown name. -/
def parseInterface (nametoindex : String → Nat) (s : String) : Option Int :=
  if nametoindex s = 0 then scanInt s else some (nametoindex s)

structure Env where
  pdAlloc : Int
  ctpio : Bool
  shmVi : Option String
  viAlloc : Int
  viAllocMerged : Int
  nrHugepages : Int
  shmQueue : Option String
  memreg : Option String

structure VirtualInterface where
  viName : String
  txCtpio : Bool
  rxEventMerge : Bool
  useHugepages : Bool
deriving DecidableEq, Repr

/-- `ef_vi_alloc_from_pd`, tried again with merged events after `-EPERM`. The
result says whether events are merged. -/
def viAllocFromPd (env : Env) : Except String Bool :=
  if env.viAlloc < 0 then
    if env.viAlloc = -1 then
      if env.viAllocMerged < 0 then .error "alloc ef_vi failed" else .ok true
    else .error "alloc ef_vi failed"
  else .ok false

def virtualInterface (env : Env) (viName : String) : Except String VirtualInterface :=
  match env.shmVi with
  | some message => .error message
  | none =>
      match viAllocFromPd env with
      | .error message => .error message
      | .ok rxEventMerge =>
          match env.shmQueue with
          | some message => .error message
          | none =>
              match env.memreg with
              | some message => .error ("alloc memreg failed rs:" ++ message)
              | none =>
                  .ok ⟨viName, env.ctpio, rxEventMerge, decide (0 < env.nrHugepages)⟩

/-- `efvi_nic_handle`, with a number for its protection domain. -/
structure NicHandle where
  protectionDomain : Nat
  vis : String → Option VirtualInterface

abbrev Key := Int × String

inductive Status where
  | ok
  | notFound (message : String)
  | internal (message : String)
deriving DecidableEq, Repr

structure ViResource where
  code : Int
  vipath : String
  queuepath : String
deriving DecidableEq, Repr

structure Outcome where
  key : Option Key
  status : Status
  response : ViResource
deriving DecidableEq, Repr

/-- The service with what it has done: protection domains allocated, interfaces
constructed, requests answered. -/
structure State where
  openedHandles : Int → Option NicHandle
  domains : List Int
  constructed : List Key
  log : List Outcome

def initial : State := ⟨fun _ => none, [], [], []⟩

def putIfAbsent (env : Env) (ifindex : Int) (state : State) : Except String Unit × State :=
  match state.openedHandles ifindex with
  | some _ => (.ok (), state)
  | none =>
      if env.pdAlloc ≠ 0 then (.error "unable to apply protection domain", state)
      else
        let handle : NicHandle := ⟨state.domains.length, fun _ => none⟩
        (.ok (), { state with
          openedHandles := Function.update state.openedHandles ifindex (some handle)
          domains := state.domains ++ [ifindex] })

/-- `handle` is a copy of the map entry, so the new interface is stored in the
copy and forgotten with it. A name that is already there ends in a `return`
without a value. -/
def allocVirtualInterface (env : Env) (ifindex : Int) (viName : String) (state : State) :
    Except String VirtualInterface × State :=
  match state.openedHandles ifindex with
  | none => (.error "unfounded local driver_handle", state)
  | some handle =>
      match handle.vis viName with
      | some _ => (.error "undefined", state)
      | none =>
          match virtualInterface env viName with
          | .error message => (.error message, state)
          | .ok vi =>
              let _handle := { handle with vis := Function.update handle.vis viName (some vi) }
              (.ok vi, { state with constructed := state.constructed ++ [(ifindex, viName)] })

structure Request where
  interface : String
  name : String
deriving DecidableEq, Repr

def viResource (vi : VirtualInterface) : ViResource where
  code := 0
  vipath := "/dev/shm/" ++ vi.viName
  queuepath := if vi.useHugepages then "/mnt/hugepages/" ++ vi.viName else ""

def Request.key (nametoindex : String → Nat) (request : Request) : Option Key :=
  (parseInterface nametoindex (cString request.interface)).map
    fun ifindex => (ifindex, cString request.name)

def applyVirtualDevice (nametoindex : String → Nat) (env : Env) (request : Request)
    (state : State) : Status × ViResource × State :=
  let response : ViResource := ⟨0, "", ""⟩
  match parseInterface nametoindex (cString request.interface) with
  | none => (.notFound "Invalid interface", response, state)
  | some ifindex =>
      match putIfAbsent env ifindex state with
      | (.error message, state) => (.internal message, response, state)
      | (.ok (), state) =>
          match allocVirtualInterface env ifindex (cString request.name) state with
          | (.error message, state) => (.internal message, response, state)
          | (.ok vi, state) => (.ok, viResource vi, state)

def step (nametoindex : String → Nat) (state : State) (input : Env × Request) : State :=
  let (status, response, next) := applyVirtualDevice nametoindex input.1 input.2 state
  { next with log := state.log ++ [⟨input.2.key nametoindex, status, response⟩] }

/-- One domain for each opened handle, no interface in any of them, and one
construction for each success. -/
structure Invariant (state : State) : Prop where
  domains_nodup : state.domains.Nodup
  opened : ∀ ifindex ∈ state.domains, state.openedHandles ifindex ≠ none
  forgotten : ∀ ifindex handle, state.openedHandles ifindex = some handle →
    ∀ viName, handle.vis viName = none
  constructed : state.constructed.map some =
    (state.log.filter fun outcome => outcome.status = .ok).map (·.key)

theorem putIfAbsent_spec {env : Env} {ifindex : Int} {state next : State}
    {result : Except String Unit} (h : Invariant state)
    (hput : putIfAbsent env ifindex state = (result, next)) :
    Invariant next ∧ next.constructed = state.constructed := by
  unfold putIfAbsent at hput
  split at hput
  · rw [← (Prod.mk.inj hput).2]
    exact ⟨h, rfl⟩
  · rename_i hclosed
    split at hput
    · rw [← (Prod.mk.inj hput).2]
      exact ⟨h, rfl⟩
    · have hnew : ifindex ∉ state.domains := fun hmem => h.opened ifindex hmem hclosed
      rw [← (Prod.mk.inj hput).2]
      refine ⟨⟨?_, ?_, ?_, h.constructed⟩, rfl⟩
      · rw [← List.concat_eq_append]
        exact h.domains_nodup.concat hnew
      · intro other hother
        simp only [List.mem_append, List.mem_singleton] at hother
        by_cases hsame : other = ifindex
        · simp [hsame]
        · simp only [Function.update_of_ne hsame]
          exact h.opened other (hother.resolve_right hsame)
      · intro other handle hhandle viName
        by_cases hsame : other = ifindex
        · simp only [hsame, Function.update_self, Option.some.injEq] at hhandle
          rw [← hhandle]
        · simp only [Function.update_of_ne hsame] at hhandle
          exact h.forgotten other handle hhandle viName

theorem allocVirtualInterface_spec (env : Env) (ifindex : Int) (viName : String)
    (state : State) :
    (∃ message, allocVirtualInterface env ifindex viName state = (.error message, state)) ∨
      ∃ vi, allocVirtualInterface env ifindex viName state =
        (.ok vi, { state with constructed := state.constructed ++ [(ifindex, viName)] }) := by
  unfold allocVirtualInterface
  split
  · exact Or.inl ⟨_, rfl⟩
  · split
    · exact Or.inl ⟨_, rfl⟩
    · split
      · exact Or.inl ⟨_, rfl⟩
      · exact Or.inr ⟨_, rfl⟩

theorem applyVirtualDevice_spec (nametoindex : String → Nat) (env : Env) (request : Request)
    {state : State} (h : Invariant state) {status : Status} {response : ViResource}
    {next : State}
    (happly : applyVirtualDevice nametoindex env request state = (status, response, next)) :
    ∃ opened, Invariant opened ∧ next.domains = opened.domains ∧
      next.openedHandles = opened.openedHandles ∧
      next.constructed.map some = state.constructed.map some ++
        (if status = .ok then [request.key nametoindex] else []) := by
  unfold applyVirtualDevice at happly
  split at happly
  · simp only [Prod.mk.injEq] at happly
    rw [← happly.1, ← happly.2.2]
    exact ⟨state, h, rfl, rfl, by simp⟩
  rename_i ifindex hparse
  have hkey : request.key nametoindex = some (ifindex, cString request.name) := by
    rw [Request.key, hparse]
    rfl
  split at happly
  · rename_i message opened hresult
    have hput := putIfAbsent_spec h hresult
    simp only [Prod.mk.injEq] at happly
    rw [← happly.1, ← happly.2.2]
    exact ⟨opened, hput.1, rfl, rfl, by simp [hput.2]⟩
  rename_i opened hresult
  have hput := putIfAbsent_spec h hresult
  cases allocVirtualInterface_spec env ifindex (cString request.name) opened with
  | inl hfail =>
      rcases hfail with ⟨message, halloc⟩
      simp only [halloc, Prod.mk.injEq] at happly
      rw [← happly.1, ← happly.2.2]
      exact ⟨opened, hput.1, rfl, rfl, by simp [hput.2]⟩
  | inr hdone =>
      rcases hdone with ⟨vi, halloc⟩
      simp only [halloc, Prod.mk.injEq] at happly
      rw [← happly.1, ← happly.2.2]
      refine ⟨opened, hput.1, rfl, rfl, ?_⟩
      simp [hput.2, hkey]

theorem applyVirtualDevice_code (nametoindex : String → Nat) (env : Env) (request : Request)
    (state : State) : (applyVirtualDevice nametoindex env request state).2.1.code = 0 := by
  unfold applyVirtualDevice
  split
  · rfl
  · split
    · rfl
    · split
      · rfl
      · rfl

theorem step_invariant (nametoindex : String → Nat) (state : State) (input : Env × Request)
    (h : Invariant state) : Invariant (step nametoindex state input) := by
  cases happly : applyVirtualDevice nametoindex input.1 input.2 state with
  | mk status rest =>
      rcases applyVirtualDevice_spec nametoindex input.1 input.2 h happly with
        ⟨opened, hopened, hdomains, hhandles, hconstructed⟩
      simp only [step, happly]
      refine ⟨?_, ?_, ?_, ?_⟩
      · exact hdomains ▸ hopened.domains_nodup
      · simp only [hdomains, hhandles]
        exact hopened.opened
      · simp only [hhandles]
        exact hopened.forgotten
      simp only [hconstructed, h.constructed, List.filter_append, List.map_append]
      by_cases hok : status = .ok
      · simp [hok]
      · simp [hok]

theorem initial_invariant : Invariant initial :=
  ⟨List.nodup_nil, fun _ h => by simp [initial] at h, fun _ _ h => by simp [initial] at h, rfl⟩

/-- When the driver grants everything, every request constructs an interface,
also one for a name that has been granted before: the branch for a known name is
never taken. -/
theorem request_constructs {nametoindex : String → Nat} {env : Env} {request : Request}
    {state : State} {key : Key} {vi : VirtualInterface} (h : Invariant state)
    (hkey : request.key nametoindex = some key) (hpd : env.pdAlloc = 0)
    (hvi : virtualInterface env key.2 = .ok vi) :
    (step nametoindex state (env, request)).constructed = state.constructed ++ [key] := by
  rcases Option.map_eq_some_iff.mp hkey with ⟨ifindex, hparse, hpair⟩
  subst hpair
  cases hopened : state.openedHandles ifindex with
  | none =>
      simp [step, applyVirtualDevice, hparse, putIfAbsent, hopened, hpd,
        allocVirtualInterface, hvi]
  | some handle =>
      simp [step, applyVirtualDevice, hparse, putIfAbsent, hopened, allocVirtualInterface,
        h.forgotten ifindex handle hopened, hvi]

/-- What an idempotent service guarantees. -/
structure Idempotent (state : State) : Prop where
  constructed : state.constructed.Nodup
  domains : state.domains.Nodup
  repeated : state.log.Pairwise fun first later =>
    first.status = .ok → later.key = first.key →
      later.status = .ok ∧ later.response.vipath = first.response.vipath ∧
        later.response.queuepath = first.response.queuepath

def Ungranted (nametoindex : String → Nat) (state : State) (input : Env × Request) : Prop :=
  input.2.key nametoindex ∉ state.constructed.map some

theorem Invariant.granted_iff {state : State} (h : Invariant state) (key : Option Key) :
    key ∈ state.constructed.map some ↔
      ∃ outcome ∈ state.log, outcome.status = .ok ∧ outcome.key = key := by
  rw [h.constructed]
  simp only [List.mem_map, List.mem_filter, decide_eq_true_eq, and_assoc]

theorem step_idempotent_iff (nametoindex : String → Nat) (state : State)
    (input : Env × Request) (h : Invariant state) (hidem : Idempotent state) :
    Idempotent (step nametoindex state input) ↔ Ungranted nametoindex state input := by
  have hnext := step_invariant nametoindex state input h
  have hsome : ∀ keys : List Key, (keys.map some).Nodup ↔ keys.Nodup := fun _ =>
    List.nodup_map_iff (Option.some_injective Key)
  cases happly : applyVirtualDevice nametoindex input.1 input.2 state with
  | mk status rest =>
      obtain ⟨_, _, _, _, hconstructed⟩ :=
        applyVirtualDevice_spec nametoindex input.1 input.2 h happly
      have hstep : step nametoindex state input = { rest.2 with
          log := state.log ++ [⟨input.2.key nametoindex, status, rest.1⟩] } := by
        simp only [step, happly]
      rw [hstep] at hnext ⊢
      refine ⟨fun hafter hgranted => ?_, fun hnew => ⟨?_, hnext.domains_nodup, ?_⟩⟩
      · obtain ⟨first, hfirst, hok, hkey⟩ := (h.granted_iff _).mp hgranted
        have hpairs := (List.pairwise_append.mp hafter.repeated).2.2
        have hagain := hpairs first hfirst _ List.mem_cons_self hok hkey.symm
        rw [if_pos hagain.1] at hconstructed
        have hnodup := (hsome _).mpr hafter.constructed
        rw [hconstructed, ← List.concat_eq_append, List.nodup_concat] at hnodup
        exact hnodup.1 hgranted
      · rw [← hsome, hconstructed]
        have hold := (hsome _).mpr hidem.constructed
        by_cases hok : status = .ok
        · rw [if_pos hok, ← List.concat_eq_append]
          exact hold.concat hnew
        · rw [if_neg hok, List.append_nil]
          exact hold
      · apply List.pairwise_append.mpr
        refine ⟨hidem.repeated, List.pairwise_singleton _ _, ?_⟩
        intro first hfirst later hlater hok hsame
        rw [List.mem_singleton.mp hlater] at hsame
        exact absurd ((h.granted_iff _).mpr ⟨first, hfirst, hok, hsame.symm⟩) hnew

/-- A run of requests is served idempotently exactly when no request is repeated
after a success for the same interface and name. -/
theorem allocation_idempotent_iff (nametoindex : String → Nat)
    (requests : List (Env × Request)) :
    (∀ state ∈ Run.states (step nametoindex) initial requests, Idempotent state) ↔
      ∀ move ∈ Run.moves (step nametoindex) initial requests,
        Ungranted nametoindex move.1 move.2 :=
  Run.states_good_iff (step nametoindex) Invariant Idempotent (Ungranted nametoindex)
    (step_invariant nametoindex) (step_idempotent_iff nametoindex) requests initial
    initial_invariant ⟨List.nodup_nil, List.nodup_nil, List.Pairwise.nil⟩

def healthy : Env := ⟨0, true, none, 0, 0, 0, none, none⟩

def vi01 : Request := ⟨"ens1", "vi01"⟩

def ens1Index (name : String) : Nat := if name = "ens1" then 2 else 0

theorem allocation_not_idempotent :
    ¬ ∀ state ∈ Run.states (step ens1Index) initial [(healthy, vi01), (healthy, vi01)],
      Idempotent state := by
  intro hall
  have hconstructed := (hall _ (Run.final_mem_states _ _ _)).constructed
  revert hconstructed
  decide +kernel

end VirtualSfc.Efvi.Allocator
