import VirtualSfc.Base.Changes
import VirtualSfc.Plugin.Server

/-! One `ListAndWatch` call that has the server to itself, with what it sends and
what it returns, compared with a stream that passes on every change of the set of
IDs. The last section finds it again among the calls of a shared server. -/
namespace VirtualSfc.Plugin.ListAndWatch
open Base Base.Changes VsfcServer Server

/-- What one iteration meets: the outcome of `RefreshDevices`, and the error of
`stream.Send`, if it is called and fails. -/
structure Tick where
  outcome : Except String (List MountDevice)
  sendError : Option String

structure Iteration where
  devices : DeviceMap
  sent : Option (Multiset Device)

structure Watch where
  iterations : List Iteration
  devices : DeviceMap
  returned : Option String

def Watch.after (iteration : Iteration) (later : Watch) : Watch :=
  { later with iterations := iteration :: later.iterations }

/-- The loop with the refresh before it, which sets `ok` to false whatever it
reports. -/
def watch (first : Bool) (devices : DeviceMap) : List Tick → Watch
  | [] => ⟨[], devices, none⟩
  | tick :: rest =>
      match refreshDevices devices tick.outcome with
      | (.error message, devices) => ⟨[], devices, some message⟩
      | (.ok ok, devices) =>
          let ok := if first then false else ok
          if !ok then
            let res := response devices
            match tick.sendError with
            | some message => ⟨[⟨devices, some res⟩], devices, some message⟩
            | none => (watch false devices rest).after ⟨devices, some res⟩
          else (watch false devices rest).after ⟨devices, none⟩

def listAndWatch (devices : DeviceMap) (ticks : List Tick) : Watch := watch true devices ticks

def listed (ids : Finset String) : Multiset Device := ids.val.map fun id => ⟨id, .healthy⟩

theorem response_eq_listed {map : DeviceMap}
    (h : ∀ id device, map.devices.lookup id = some device → device.health = .healthy) :
    response map = listed map.ids := by
  have hkeys : map.ids.val = map.devices.entries.map Sigma.fst := rfl
  rw [response, listed, hkeys, Multiset.map_map]
  refine Multiset.map_congr rfl fun entry hentry => ?_
  have hlookup : map.devices.lookup entry.1 = some entry.2 :=
    Finmap.lookup_eq_some_iff.mpr hentry
  rw [Function.comp_apply, map.keyed _ _ hlookup, h _ _ hlookup]

def Tick.Fine (tick : Tick) : Prop := tick.outcome.isOk = true ∧ tick.sendError = none

def Healthy (tick : Tick) : Prop :=
  ∀ devices, tick.outcome = .ok devices → ∀ device ∈ devices, device.health = .healthy

def before (first : Bool) (devices : DeviceMap) : Option (Finset String) :=
  if first then none else some devices.ids

def sentAt (first : Bool) (devices : DeviceMap) (found : List MountDevice) :
    Option (Multiset Device) :=
  if before first devices = some (ids found) then none else some (response (.ofList found))

theorem ok_eq (first : Bool) (devices : DeviceMap) (found : List MountDevice) :
    (if first then false else decide (ids found = devices.ids)) =
      decide (before first devices = some (ids found)) := by
  cases first <;> simp [before, eq_comm]

/-- Everything an iteration can do. -/
theorem watch_cases (first : Bool) (devices : DeviceMap) (tick : Tick) (rest : List Tick) :
    (∃ message, tick.outcome = .error message ∧ watch first devices (tick :: rest) =
      ⟨[], devices, some ("failed to discover devices: " ++ message)⟩) ∨
    ∃ found, tick.outcome = .ok found ∧
      ((∃ message, tick.sendError = some message ∧ watch first devices (tick :: rest) =
        ⟨[⟨.ofList found, sentAt first devices found⟩], .ofList found, some message⟩) ∨
      watch first devices (tick :: rest) =
        (watch false (.ofList found) rest).after
          ⟨.ofList found, sentAt first devices found⟩) := by
  cases houtcome : tick.outcome with
  | error message => exact Or.inl ⟨message, rfl, by simp [watch, houtcome, refreshDevices]⟩
  | ok found =>
      refine Or.inr ⟨found, rfl, ?_⟩
      have hrefresh := refreshDevices_eq devices found
      have hok := ok_eq first devices found
      by_cases hsame : before first devices = some (ids found)
      · refine Or.inr ?_
        simp [watch, houtcome, hrefresh, hok, hsame, sentAt]
      · cases hsend : tick.sendError with
        | some message =>
            refine Or.inl ⟨message, rfl, ?_⟩
            simp [watch, houtcome, hrefresh, hok, hsame, sentAt, hsend]
        | none =>
            refine Or.inr ?_
            simp [watch, houtcome, hrefresh, hok, hsame, sentAt, hsend]

theorem watch_found (first : Bool) (devices : DeviceMap) (ticks : List Tick) (n : Nat)
    (iteration : Iteration)
    (h : (watch first devices ticks).iterations[n]? = some iteration) :
    ∃ tick found, ticks[n]? = some tick ∧ tick.outcome = .ok found ∧
      iteration.devices = .ofList found := by
  induction ticks generalizing first devices n with
  | nil => simp [watch] at h
  | cons tick rest ih =>
      rcases watch_cases first devices tick rest with
        ⟨_, _, hwatch⟩ | ⟨found, houtcome, ⟨_, _, hwatch⟩ | hwatch⟩
      · simp [hwatch] at h
      · rw [hwatch, List.getElem?_singleton] at h
        split at h
        · rename_i hzero
          rw [hzero, ← Option.some.inj h]
          exact ⟨tick, found, rfl, houtcome, rfl⟩
        · contradiction
      · rw [hwatch, Watch.after] at h
        cases n with
        | zero =>
            rw [← Option.some.inj h]
            exact ⟨tick, found, rfl, houtcome, rfl⟩
        | succ n => exact ih false (.ofList found) n h

theorem watch_sent {ticks : List Tick} (h : ∀ tick ∈ ticks, Healthy tick) (first : Bool)
    (devices : DeviceMap) :
    (watch first devices ticks).iterations.map (·.sent) =
      (changes (before first devices)
        ((watch first devices ticks).iterations.map (·.devices.ids))).map
          (Option.map listed) := by
  induction ticks generalizing first devices with
  | nil => rfl
  | cons tick rest ih =>
      rw [List.forall_mem_cons] at h
      have hsent : ∀ found, tick.outcome = .ok found → sentAt first devices found =
          (if before first devices = some (ids found) then none
            else some (ids found)).map listed := by
        intro found houtcome
        have hresponse : response (.ofList found) = listed (DeviceMap.ofList found).ids :=
          response_eq_listed fun id device hlookup =>
            h.1 found houtcome device (DeviceMap.mem_of_lookup_ofList hlookup)
        rw [sentAt, hresponse, DeviceMap.ids_ofList]
        split <;> rfl
      rcases watch_cases first devices tick rest with
        ⟨_, _, hwatch⟩ | ⟨found, houtcome, ⟨_, _, hwatch⟩ | hwatch⟩
      · simp [hwatch, changes]
      · simp [hwatch, changes, hsent found houtcome]
      · have hbefore : before false (.ofList found) = some (ids found) := by simp [before]
        simp [hwatch, Watch.after, changes, hsent found houtcome, ih h.2, hbefore]

theorem watch_devices (first : Bool) (devices : DeviceMap) (ticks : List Tick) :
    (watch first devices ticks).devices =
      ((watch first devices ticks).iterations.map (·.devices)).getLastD devices := by
  induction ticks generalizing first devices with
  | nil => rfl
  | cons tick rest ih =>
      rcases watch_cases first devices tick rest with
        ⟨_, _, hwatch⟩ | ⟨found, _, ⟨_, _, hwatch⟩ | hwatch⟩
      · rw [hwatch]
        rfl
      · rw [hwatch]
        rfl
      · rw [hwatch, Watch.after, ih, List.map_cons, List.getLastD_cons]

theorem watch_fine (first : Bool) (devices : DeviceMap) {ticks : List Tick}
    (h : ∀ tick ∈ ticks, tick.Fine) (rest : List Tick) :
    ∃ last, (watch first devices (ticks ++ rest)).returned =
        (watch (first && ticks.isEmpty) last rest).returned ∧
      (watch first devices (ticks ++ rest)).iterations.length =
        ticks.length + (watch (first && ticks.isEmpty) last rest).iterations.length := by
  induction ticks generalizing first devices with
  | nil => exact ⟨devices, by simp, by simp⟩
  | cons tick others ih =>
      rw [List.forall_mem_cons] at h
      rcases watch_cases first devices tick (others ++ rest) with
        ⟨_, houtcome, _⟩ | ⟨found, _, ⟨_, hsend, _⟩ | hwatch⟩
      · simp [Tick.Fine, houtcome] at h
      · simp [Tick.Fine, hsend] at h
      · rcases ih false (.ofList found) h.2 with ⟨last, hreturned, hlength⟩
        refine ⟨last, ?_, ?_⟩
        · simpa [hwatch, Watch.after] using hreturned
        · rw [List.cons_append, hwatch, Watch.after, List.length_cons, hlength,
            List.length_cons, Bool.false_and, List.isEmpty_cons, Bool.and_false]
          omega

/-- What makes a run exact. Its iterations store what they find; a response is
sent at the first one and then whenever the set of IDs has changed; after any
number of iterations the last response lists the IDs of the map, each once; an
error changes nothing, and the first one is returned. -/
structure Exact (devices : DeviceMap) (ticks : List Tick) (run : Watch) : Prop where
  found : ∀ (n : Nat) (iteration : Iteration), run.iterations[n]? = some iteration →
    ∃ (tick : Tick) (found : List MountDevice), ticks[n]? = some tick ∧
      tick.outcome = .ok found ∧ iteration.devices = .ofList found
  sent : run.iterations.map (·.sent) =
    (changes none (run.iterations.map (·.devices.ids))).map (Option.map listed)
  current : ∀ n, latest none ((run.iterations.take n).map (·.sent)) =
    (run.iterations.take n).getLast?.map fun iteration => listed iteration.devices.ids
  kept : run.devices = (run.iterations.map (·.devices)).getLastD devices
  complete : (∀ tick ∈ ticks, tick.Fine) →
    run.returned = none ∧ run.iterations.length = ticks.length
  failed : ∀ (earlier : List Tick) (message : String) (sendError : Option String) rest,
    ticks = earlier ++ ⟨.error message, sendError⟩ :: rest → (∀ tick ∈ earlier, tick.Fine) →
      run.returned = some ("failed to discover devices: " ++ message) ∧
        run.iterations.length = earlier.length

theorem listAndWatch_exact {ticks : List Tick} (h : ∀ tick ∈ ticks, Healthy tick)
    (devices : DeviceMap) : Exact devices ticks (listAndWatch devices ticks) where
  found := watch_found true devices ticks
  sent := watch_sent h true devices
  current := by
    intro n
    rw [List.map_take, listAndWatch, watch_sent h true devices, ← List.map_take, take_changes,
      before, if_pos rfl, ← Option.map_none listed, latest_map, latest_changes, Option.or_none,
      ← List.map_take, List.getLast?_map, Option.map_map]
    rfl
  kept := watch_devices true devices ticks
  complete := by
    intro hfine
    rcases watch_fine true devices hfine [] with ⟨last, hreturned, hlength⟩
    rw [List.append_nil] at hreturned hlength
    exact ⟨hreturned, hlength⟩
  failed := by
    intro earlier message sendError rest hticks hfine
    subst hticks
    rcases watch_fine true devices hfine (⟨.error message, sendError⟩ :: rest) with
      ⟨last, hreturned, hlength⟩
    rw [listAndWatch, hreturned, hlength]
    exact ⟨rfl, rfl⟩

def fourTicks : List Tick :=
  [⟨.ok [Server.found "a"], none⟩, ⟨.ok [Server.found "a"], none⟩,
    ⟨.ok [Server.found "a", Server.found "b", Server.found "b"], none⟩, ⟨.error "down", none⟩]

theorem listAndWatch_exact_four_ticks :
    (∀ tick ∈ fourTicks, Healthy tick) ∧
      Exact .empty fourTicks (listAndWatch .empty fourTicks) ∧
      (listAndWatch .empty fourTicks).iterations.map (·.sent.isSome) = [true, false, true] := by
  have hhealthy : ∀ tick ∈ fourTicks, Healthy tick := by
    simp [fourTicks, Healthy, Server.found]
  exact ⟨hhealthy, listAndWatch_exact hhealthy .empty, by decide +kernel⟩

/-! The same call as one of those on a shared server, alone. -/

def events (call : Nat) (ticks : List Tick) : List Event :=
  ticks.flatMap fun tick => [.refresh call tick.outcome, .send call tick.sendError.isNone]

def ready (first : Bool) : Phase := if first then .starting else .waiting

theorem step_tick {state : State} {call : Nat} {first : Bool}
    (hphase : (state.streams call).phase = ready first) (found : List MountDevice) :
    step (step state (.refresh call (.ok found))) (.send call true) =
      state.set call (.ofList found) ⟨.waiting, ids found,
        (sentAt first state.devices found).or (state.streams call).sent⟩ := by
  have hstart : ((state.streams call).phase = .starting) = (first = true) := by
    cases first <;> simp [hphase, ready]
  have hrefresh : step state (.refresh call (.ok found)) = state.refresh call (.ok found) := by
    cases first <;> simp only [step, hphase, ready] <;> rfl
  have hok := ok_eq first state.devices found
  rw [hrefresh]
  by_cases hsame : before first state.devices = some (ids found)
  · simp [State.refresh, refreshDevices_eq, hstart, hok, hsame, step, sentAt, foundIDs]
  · simp [State.refresh, refreshDevices_eq, hstart, hok, hsame, step, sentAt, foundIDs,
      State.send]

theorem final_returned {state : State} {call : Nat}
    (h : (state.streams call).phase = .returned) (ticks : List Tick) :
    Run.final step state (events call ticks) = state := by
  induction ticks with
  | nil => rfl
  | cons tick rest ih =>
      have htick : step (step state (.refresh call tick.outcome))
          (.send call tick.sendError.isNone) = state := by simp [step, h]
      simp only [events, List.flatMap_cons, Run.final, List.foldl_append, List.foldl_cons,
        List.foldl_nil, htick]
      exact ih

/-- Alone on a shared server, a call does what `ListAndWatch` does by itself. -/
theorem final_events {ticks : List Tick} (hsend : ∀ tick ∈ ticks, tick.sendError = none)
    {state : State} {call : Nat} {first : Bool}
    (hphase : (state.streams call).phase = ready first) :
    let final := Run.final step state (events call ticks)
    let run := watch first state.devices ticks
    final.devices = run.devices ∧
      (final.streams call).sent =
        latest (state.streams call).sent (run.iterations.map (·.sent)) ∧
      ((final.streams call).phase = .returned ↔ run.returned.isSome = true) := by
  induction ticks generalizing state first with
  | nil =>
      refine ⟨rfl, rfl, ?_⟩
      cases first <;> simp [Run.final, events, hphase, ready, watch]
  | cons tick rest ih =>
      rw [List.forall_mem_cons] at hsend
      have hfinal : Run.final step state (events call (tick :: rest)) =
          Run.final step (step (step state (.refresh call tick.outcome)) (.send call true))
            (events call rest) := by
        simp [events, Run.final, hsend.1]
      rcases watch_cases first state.devices tick rest with
        ⟨message, houtcome, hwatch⟩ | ⟨found, houtcome, ⟨_, hfailed, _⟩ | hwatch⟩
      · have hstop : step (step state (.refresh call (.error message))) (.send call true) =
            state.set call state.devices { state.streams call with phase := .returned } := by
          cases first <;>
            simp [step, hphase, ready, State.refresh, refreshDevices]
        rw [hfinal, houtcome, hstop, final_returned (by simp), hwatch]
        simp [latest]
      · simp [hsend.1] at hfailed
      · have hwaiting : ((state.set call (.ofList found) ⟨.waiting, ids found,
            (sentAt first state.devices found).or
              (state.streams call).sent⟩).streams call).phase = ready false := by
          simp [ready]
        have hnext := ih hsend.2 hwaiting
        rw [hfinal, houtcome, step_tick hphase, hwatch]
        simpa [Watch.after, latest_cons] using hnext

end VirtualSfc.Plugin.ListAndWatch
