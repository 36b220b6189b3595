import VirtualSfc.Plugin.VsfcServer

/-! `PluginServerBase`: one device map, rewritten by every refresh, and any
number of `ListAndWatch` calls that share it. A refresh is atomic; sending a
response reads the map later and without the lock, so it is a step of its own. -/
namespace VirtualSfc.Plugin.Server
open Base VsfcServer

/-- `map[string]MountDevice`, in which every device is stored under its ID. -/
structure DeviceMap where
  devices : Finmap fun _ : String => MountDevice
  keyed : ∀ id device, devices.lookup id = some device → device.id = id

def DeviceMap.empty : DeviceMap where
  devices := ∅
  keyed := by
    intro id device h
    simp at h

def DeviceMap.add (map : DeviceMap) (device : MountDevice) : DeviceMap where
  devices := map.devices.insert device.id device
  keyed := by
    intro id found h
    by_cases hid : id = device.id
    · subst hid
      rw [Finmap.lookup_insert] at h
      rw [← Option.some.inj h]
    · rw [Finmap.lookup_insert_of_ne _ hid] at h
      exact map.keyed id found h

def DeviceMap.ofList (devices : List MountDevice) : DeviceMap :=
  devices.foldl DeviceMap.add .empty

def DeviceMap.ids (map : DeviceMap) : Finset String := map.devices.keys

@[simp] theorem DeviceMap.ids_empty : DeviceMap.empty.ids = ∅ := by
  ext id
  simp [ids, empty]

@[simp] theorem DeviceMap.ids_add (map : DeviceMap) (device : MountDevice) :
    (map.add device).ids = insert device.id map.ids := by
  ext id
  simp [ids, add, Finmap.mem_keys]

def ids (devices : List MountDevice) : Finset String := (devices.map (·.id)).toFinset

structure Device where
  id : String
  health : Health
deriving DecidableEq

/-- The devices of a response, in the unspecified order of a map range. -/
def response (map : DeviceMap) : Multiset Device :=
  map.devices.entries.map fun entry => ⟨entry.2.id, entry.2.health⟩

def sentIDs (devices : Multiset Device) : Finset String := (devices.map (·.id)).toFinset

theorem sentIDs_response (map : DeviceMap) : sentIDs (response map) = map.ids := by
  ext id
  simp only [sentIDs, response, Multiset.map_map, Function.comp_apply, Multiset.mem_toFinset,
    Multiset.mem_map, DeviceMap.ids, Finmap.mem_keys]
  refine ⟨fun h => ?_, fun h => ?_⟩
  · cases h with
    | intro entry hentry =>
        have hlookup : map.devices.lookup entry.1 = some entry.2 :=
          Finmap.lookup_eq_some_iff.mpr hentry.1
        rw [← hentry.2, map.keyed _ _ hlookup]
        exact Finmap.mem_of_lookup_eq_some hlookup
  · cases hlookup : map.devices.lookup id with
    | none => exact absurd h (Finmap.lookup_eq_none.mp hlookup)
    | some device =>
        exact ⟨⟨id, device⟩, Finmap.lookup_eq_some_iff.mp hlookup, map.keyed _ _ hlookup⟩

def replaceDevices (old : DeviceMap) (devices : List MountDevice) : DeviceMap × Bool :=
  devices.foldl
    (fun (new, equal) device =>
      (new.add device, if device.id ∈ old.ids then equal else false))
    (DeviceMap.empty, true)

/-- The result and the map after it. A failed refresh keeps the old map. -/
def refreshDevices (old : DeviceMap) (result : Except String (List MountDevice)) :
    Except String Bool × DeviceMap :=
  match result with
  | .error message => (.error ("failed to discover devices: " ++ message), old)
  | .ok devices =>
      match replaceDevices old devices with
      | (new, false) => (.ok false, new)
      | (new, true) => (.ok (decide (∀ id ∈ old.ids, id ∈ new.ids)), new)

theorem foldl_devices (old : DeviceMap) (devices : List MountDevice) (new : DeviceMap)
    (equal : Bool) :
    let after := devices.foldl
      (fun (new, equal) device =>
        (new.add device, if device.id ∈ old.ids then equal else false)) (new, equal)
    after.1.ids = new.ids ∪ ids devices ∧
      (after.2 = true ↔ equal = true ∧ ids devices ⊆ old.ids) := by
  induction devices generalizing new equal with
  | nil => simp [ids]
  | cons device rest ih =>
      have htail := ih (new.add device) (if device.id ∈ old.ids then equal else false)
      simp only [List.foldl_cons]
      refine ⟨?_, ?_⟩
      · rw [htail.1]
        ext id
        simp [ids]
      · rw [htail.2]
        by_cases hold : device.id ∈ old.ids
        · simp [ids, hold, Finset.insert_subset_iff]
        · simp [ids, hold, Finset.insert_subset_iff]

theorem replaceDevices_spec (old : DeviceMap) (devices : List MountDevice) :
    (replaceDevices old devices).1.ids = ids devices ∧
      ((replaceDevices old devices).2 = true ↔ ids devices ⊆ old.ids) := by
  have hfold := foldl_devices old devices DeviceMap.empty true
  simpa [replaceDevices] using hfold

/-- A refresh stores what was found and reports whether the set of IDs is the one
that was stored before. -/
theorem refreshDevices_ok (old : DeviceMap) (devices : List MountDevice) :
    ∃ new, refreshDevices old (.ok devices) = (.ok (decide (ids devices = old.ids)), new) ∧
      new.ids = ids devices := by
  have hspec := replaceDevices_spec old devices
  cases hreplace : replaceDevices old devices with
  | mk new equal =>
      rw [hreplace] at hspec
      refine ⟨new, ?_, hspec.1⟩
      cases equal with
      | false =>
          have hchanged : ids devices ≠ old.ids := by
            intro hsame
            simp [hsame] at hspec
          simp only [refreshDevices, hreplace, hchanged, decide_false]
      | true =>
          have hsubset : ids devices ⊆ old.ids := hspec.2.mp rfl
          simp only [refreshDevices, hreplace, hspec.1, Prod.mk.injEq, and_true,
            Except.ok.injEq, decide_eq_decide]
          refine ⟨fun hback => ?_, fun hsame => ?_⟩
          · exact Finset.Subset.antisymm hsubset hback
          · rw [hsame]
            exact fun id hid => hid

theorem replaceDevices_fst (old : DeviceMap) (devices : List MountDevice) :
    (replaceDevices old devices).1 = DeviceMap.ofList devices := by
  have hfold : ∀ (rest : List MountDevice) (new : DeviceMap) (equal : Bool),
      (rest.foldl (fun (new, equal) device =>
        (new.add device, if device.id ∈ old.ids then equal else false)) (new, equal)).1 =
      rest.foldl DeviceMap.add new := by
    intro rest
    induction rest with
    | nil => intro new equal; rfl
    | cons device rest ih => intro new equal; exact ih _ _
  exact hfold devices .empty true

theorem refreshDevices_snd (old : DeviceMap) (devices : List MountDevice) :
    (refreshDevices old (.ok devices)).2 = DeviceMap.ofList devices := by
  rw [← replaceDevices_fst old]
  simp only [refreshDevices]
  split
  · rename_i hreplace
    rw [hreplace]
  · rename_i hreplace
    rw [hreplace]

theorem refreshDevices_eq (old : DeviceMap) (devices : List MountDevice) :
    refreshDevices old (.ok devices) =
      (.ok (decide (ids devices = old.ids)), .ofList devices) := by
  rcases refreshDevices_ok old devices with ⟨new, hresult, _⟩
  rw [hresult, ← refreshDevices_snd old devices, hresult]

@[simp] theorem DeviceMap.ids_ofList (devices : List MountDevice) :
    (ofList devices).ids = Server.ids devices := by
  rw [← replaceDevices_fst .empty, (replaceDevices_spec .empty devices).1]

theorem mem_of_lookup_foldl {devices : List MountDevice} {new : DeviceMap} {id : String}
    {device : MountDevice}
    (h : (devices.foldl DeviceMap.add new).devices.lookup id = some device) :
    device ∈ devices ∨ new.devices.lookup id = some device := by
  induction devices generalizing new with
  | nil => exact Or.inr h
  | cons first rest ih =>
      rcases ih h with hrest | hnew
      · exact Or.inl (List.mem_cons_of_mem _ hrest)
      · by_cases hid : id = first.id
        · subst hid
          rw [DeviceMap.add, Finmap.lookup_insert] at hnew
          exact Or.inl (Option.some.inj hnew ▸ List.mem_cons_self)
        · rw [DeviceMap.add, Finmap.lookup_insert_of_ne _ hid] at hnew
          exact Or.inr hnew

theorem DeviceMap.mem_of_lookup_ofList {devices : List MountDevice} {id : String}
    {device : MountDevice} (h : (ofList devices).devices.lookup id = some device) :
    device ∈ devices := by
  rcases mem_of_lookup_foldl h with hmem | hempty
  · exact hmem
  · simp [empty] at hempty

theorem entries_foldl {devices : List MountDevice} {new : DeviceMap}
    (hdistinct : (devices.map (·.id)).Nodup)
    (hfresh : ∀ device ∈ devices, device.id ∉ new.devices) :
    (devices.foldl DeviceMap.add new).devices.entries =
      (devices.map fun device => (⟨device.id, device⟩ : Sigma fun _ : String => MountDevice)) +
        new.devices.entries := by
  induction devices generalizing new with
  | nil => simp
  | cons first rest ih =>
      rw [List.map_cons, List.nodup_cons] at hdistinct
      rw [List.forall_mem_cons] at hfresh
      have hrest : ∀ device ∈ rest, device.id ∉ (new.add first).devices := by
        intro device hdevice hmem
        rw [DeviceMap.add, Finmap.mem_insert] at hmem
        rcases hmem with hsame | hold
        · exact hdistinct.1 (hsame ▸ List.mem_map_of_mem hdevice)
        · exact hfresh.2 device hdevice hold
      rw [List.foldl_cons, ih hdistinct.2 hrest, DeviceMap.add,
        Finmap.entries_insert_of_notMem hfresh.1, List.map_cons, ← Multiset.cons_coe,
        Multiset.add_cons, Multiset.cons_add]

theorem DeviceMap.entries_ofList {devices : List MountDevice}
    (hdistinct : (devices.map (·.id)).Nodup) :
    (ofList devices).devices.entries =
      devices.map fun device => (⟨device.id, device⟩ : Sigma fun _ : String => MountDevice) := by
  have hentries : (ofList devices).devices.entries = _ :=
    entries_foldl hdistinct fun device _ => Finmap.notMem_empty
  rw [hentries]
  exact Multiset.add_zero _

theorem DeviceMap.lookup_ofList {devices : List MountDevice}
    (hdistinct : (devices.map (·.id)).Nodup) (id : String) (device : MountDevice) :
    (ofList devices).devices.lookup id = some device ↔ device ∈ devices ∧ device.id = id := by
  rw [Finmap.lookup_eq_some_iff, entries_ofList hdistinct]
  simp

/-! The `ListAndWatch` calls on one server. -/

/-- Where a call stands: before its first refresh, about to send, waiting for
the next iteration, or returned. -/
inductive Phase where
  | starting
  | sending
  | waiting
  | returned
deriving DecidableEq, Repr

structure Stream where
  phase : Phase
  latest : Finset String
  sent : Option (Multiset Device)

structure State where
  devices : DeviceMap
  streams : Nat → Stream

inductive Event where
  | refresh (call : Nat) (result : Except String (List MountDevice))
  | send (call : Nat) (delivered : Bool)

def initial : State := ⟨DeviceMap.empty, fun _ => ⟨.starting, ∅, none⟩⟩

def foundIDs : Except String (List MountDevice) → Finset String
  | .ok devices => ids devices
  | .error _ => ∅

def State.set (state : State) (call : Nat) (devices : DeviceMap) (stream : Stream) : State :=
  ⟨devices, Function.update state.streams call stream⟩

@[simp] theorem State.set_self (state : State) (call : Nat) (devices : DeviceMap)
    (stream : Stream) : (state.set call devices stream).streams call = stream := by
  simp [set]

@[simp] theorem State.set_devices (state : State) (call : Nat) (devices : DeviceMap)
    (stream : Stream) : (state.set call devices stream).devices = devices := rfl

theorem State.set_other (state : State) {call other : Nat} (h : other ≠ call)
    (devices : DeviceMap) (stream : Stream) :
    (state.set call devices stream).streams other = state.streams other := by
  simp [set, h]

@[simp] theorem State.set_set (state : State) (call : Nat) (first second : DeviceMap)
    (left right : Stream) :
    (state.set call first left).set call second right = state.set call second right := by
  simp [set]

/-- The first refresh sets `ok` to false whatever it reports. -/
def State.refresh (state : State) (call : Nat) (result : Except String (List MountDevice)) :
    State :=
  let stream := state.streams call
  match refreshDevices state.devices result with
  | (.error _, devices) => state.set call devices { stream with phase := .returned }
  | (.ok ok, devices) =>
      let ok := if stream.phase = .starting then false else ok
      state.set call devices
        { stream with phase := if !ok then .sending else .waiting, latest := foundIDs result }

def State.send (state : State) (call : Nat) (delivered : Bool) : State :=
  let stream := state.streams call
  if delivered then
    state.set call state.devices
      { stream with phase := .waiting, sent := some (response state.devices) }
  else state.set call state.devices { stream with phase := .returned }

def step (state : State) : Event → State
  | .refresh call result =>
      match (state.streams call).phase with
      | .starting | .waiting => state.refresh call result
      | .sending | .returned => state
  | .send call delivered =>
      match (state.streams call).phase with
      | .sending => state.send call delivered
      | .starting | .waiting | .returned => state

/-- The kubelet has been told what this call found last. -/
def Stream.Current (stream : Stream) : Prop :=
  stream.phase = .waiting → stream.sent.map sentIDs = some stream.latest

def Current (state : State) : Prop := ∀ call, (state.streams call).Current

/-- What an event may not do: end a waiting call's refresh on the IDs that are in
the map if they are not the ones it found before, or answer with a map that has
been rewritten since the call's own refresh. -/
def InStep (state : State) : Event → Prop
  | .refresh call result =>
      (state.streams call).phase = .waiting → foundIDs result = state.devices.ids →
        result.isOk → foundIDs result = (state.streams call).latest
  | .send call delivered =>
      (state.streams call).phase = .sending → delivered →
        state.devices.ids = (state.streams call).latest

theorem current_set {state : State} (h : Current state) (call : Nat) (devices : DeviceMap)
    (stream : Stream) : Current (state.set call devices stream) ↔ stream.Current := by
  refine ⟨fun hall => ?_, fun hstream other => ?_⟩
  · have hcall := hall call
    rwa [State.set_self] at hcall
  · by_cases hother : other = call
    · rwa [hother, State.set_self]
    · rw [State.set_other state hother]
      exact h other

theorem refresh_current_iff {state : State} (h : Current state) (call : Nat)
    (result : Except String (List MountDevice)) :
    Current (state.refresh call result) ↔
      ((state.streams call).phase ≠ .starting → foundIDs result = state.devices.ids →
        result.isOk → (state.streams call).sent.map sentIDs = some (foundIDs result)) := by
  cases result with
  | error message =>
      simp [State.refresh, refreshDevices, current_set h, Stream.Current]
  | ok devices =>
      rcases refreshDevices_ok state.devices devices with ⟨after, hrefresh, _⟩
      by_cases hfirst : (state.streams call).phase = .starting
      · simp [State.refresh, hrefresh, hfirst, current_set h, Stream.Current]
      · by_cases hsame : ids devices = state.devices.ids
        · simp [State.refresh, hrefresh, hfirst, current_set h, Stream.Current, foundIDs,
            hsame]
        · simp [State.refresh, hrefresh, hfirst, current_set h, Stream.Current, foundIDs,
            hsame]

theorem send_current_iff {state : State} (h : Current state) (call : Nat)
    (delivered : Bool) :
    Current (state.send call delivered) ↔
      (delivered → state.devices.ids = (state.streams call).latest) := by
  cases delivered with
  | false => simp [State.send, current_set h, Stream.Current]
  | true => simp [State.send, current_set h, Stream.Current, sentIDs_response]

theorem step_current_iff (state : State) (event : Event) (h : Current state) :
    Current (step state event) ↔ InStep state event := by
  cases event with
  | refresh call result =>
      cases hphase : (state.streams call).phase with
      | starting => simp [step, InStep, hphase, refresh_current_iff h]
      | waiting =>
          have hsent := h call hphase
          simp [step, InStep, hphase, refresh_current_iff h, hsent,
            eq_comm (a := (state.streams call).latest)]
      | sending => simp [step, InStep, hphase, h]
      | returned => simp [step, InStep, hphase, h]
  | send call delivered =>
      cases hphase : (state.streams call).phase with
      | sending => simp [step, InStep, hphase, send_current_iff h]
      | starting => simp [step, InStep, hphase, h]
      | waiting => simp [step, InStep, hphase, h]
      | returned => simp [step, InStep, hphase, h]

theorem initial_current : Current initial := by
  intro call hphase
  simp [initial] at hphase

/-- In a run, every waiting call has sent what it found last, in every state,
exactly when every event of the run is in step. -/
theorem streams_current_iff (events : List Event) :
    (∀ state ∈ Run.states step initial events, Current state) ↔
      ∀ move ∈ Run.moves step initial events, InStep move.1 move.2 :=
  Run.states_good_iff step (fun _ => True) Current InStep (fun _ _ _ => trivial)
    (fun state event _ h => step_current_iff state event h) events initial trivial
    initial_current

def found (id : String) : MountDevice := ⟨id, .healthy, "", "", [], []⟩

def twoCalls : List Event :=
  [.refresh 0 (.ok [found "a"]), .send 0 true, .refresh 1 (.ok [found "a"]), .send 1 true,
    .refresh 0 (.ok [found "a", found "b"]), .send 0 true,
    .refresh 1 (.ok [found "a", found "b"])]

theorem streams_stale_two_calls :
    ¬ ∀ state ∈ Run.states step initial twoCalls, Current state := by
  intro hall
  have hlast := hall _ (Run.final_mem_states step initial twoCalls) 1 (by decide)
  exact absurd hlast (by decide)

def Event.call : Event → Nat
  | refresh call _ => call
  | send call _ => call

def Own (call : Nat) (state : State) : Prop :=
  (state.streams call).phase = .sending ∨ (state.streams call).phase = .waiting →
    state.devices.ids = (state.streams call).latest

theorem step_own (state : State) (event : Event) (h : Own event.call state) :
    Own event.call (step state event) := by
  cases event with
  | refresh call result =>
      have hrefresh : Own call (state.refresh call result) := by
        cases result with
        | error message => simp [Own, State.refresh, refreshDevices]
        | ok devices =>
            rcases refreshDevices_ok state.devices devices with ⟨after, hresult, hids⟩
            intro _
            simp only [State.refresh, hresult, State.set_self, State.set_devices]
            exact hids
      cases hphase : (state.streams call).phase with
      | starting => simpa only [step, hphase, Event.call] using hrefresh
      | waiting => simpa only [step, hphase, Event.call] using hrefresh
      | sending => simpa only [step, hphase] using h
      | returned => simpa only [step, hphase] using h
  | send call delivered =>
      cases hphase : (state.streams call).phase with
      | sending =>
          have hown : state.devices.ids = (state.streams call).latest := h (Or.inl hphase)
          cases delivered with
          | false => simp [step, hphase, State.send, Own, Event.call]
          | true =>
              intro _
              simpa [step, hphase, State.send, Event.call] using hown
      | starting => simpa only [step, hphase] using h
      | waiting => simpa only [step, hphase] using h
      | returned => simpa only [step, hphase] using h

/-- A single call is always in step: the trouble needs a second one. -/
theorem single_call_in_step (call : Nat) (events : List Event)
    (h : ∀ event ∈ events, event.call = call) :
    ∀ move ∈ Run.moves step initial events, InStep move.1 move.2 := by
  have hown := Run.moves_invariant step (Own call) events
    (fun event hevent state hstate => by
      rw [← h event hevent] at hstate ⊢
      exact step_own state event hstate)
    initial (by simp [Own, initial])
  intro move hmove
  have hstate := (hown move hmove).1
  rw [← h move.2 (hown move hmove).2] at hstate
  cases hevent : move.2 with
  | refresh call result =>
      rw [hevent] at hstate
      intro hphase hsame _
      rw [hsame]
      exact hstate (Or.inr hphase)
  | send call delivered =>
      rw [hevent] at hstate
      intro hphase _
      exact hstate (Or.inl hphase)

end VirtualSfc.Plugin.Server
