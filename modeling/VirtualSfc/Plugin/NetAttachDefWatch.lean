import VirtualSfc.Base.Run
import VirtualSfc.Plugin.Client

/-! The watcher of the net-attach-def in `vSfcPlugin.RunOnce`, beside others that
create and delete objects in the API server. -/
namespace VirtualSfc.Plugin.NetAttachDefWatch
open Base.Run Base.Optimistic Client

/-- The generated client's `Get`: the result is never a nil pointer, and is empty
beside an error. -/
def generatedGet (client : ClientInfo) (space name : String) :
    Option NetAttachDef × Option Fault :=
  match (client.getNetAttachDef space name).1 with
  | .ok nad => (some nad.object, none)
  | .error fault => (some ⟨"", "", none⟩, some fault)

inductive Watcher where
  | off
  | watching
  | ended (err : Option String)
deriving DecidableEq, Repr

def ensure (resource : Resource) (answer : Except String Nat) :
    Option ClientInfo → Watcher × Option ClientInfo
  | none => (.ended (some "no k8sclient"), none)
  | some k8sclient =>
      (.watching, some (k8sclient.addNetAttachDefByResource answer resource resource.name).2)

def onTick (resource : Resource) (k8sclient : ClientInfo) : Watcher :=
  if (generatedGet k8sclient "default" resource.name).1 = none then
    .ended (some "no netattachdefinition")
  else .watching

/-- `others` is the store as it would be without the plugin. -/
structure State where
  store : Store
  others : Store
  watcher : Watcher

def State.start (store : Store) : State := ⟨store, store, .off⟩

/-- Requests carry what the network and the server do with them. `interrupt` is the
end of another actor of the group; the last two are the doings of others. -/
inductive Event where
  | start (network : List Delivery) (answer : Except String Nat)
  | tick (network : List Delivery)
  | interrupt
  | create (answer : Except String Nat) (nad : NetAttachDef)
  | delete (space name : String)

def created (store : Store) (answer : Except String Nat) (nad : NetAttachDef) : Store :=
  match store.create answer nad with
  | .ok (_, after) => after
  | .error _ => store

/-- `RunOnce` of a default resource has no watcher. -/
def State.startWatcher (resource : Resource) (state : State) (network : List Delivery)
    (answer : Except String Nat) : State :=
  if resource ∈ defaultResources ∨ state.watcher = .watching then state
  else
    match ensure resource answer (some ⟨state.store, network⟩) with
    | (watcher, some client) => { state with store := client.store, watcher := watcher }
    | (watcher, none) => { state with watcher := watcher }

def step (resource : Resource) (state : State) : Event → State
  | .start network answer => state.startWatcher resource network answer
  | .tick network =>
      if state.watcher = .watching then
        { state with watcher := onTick resource ⟨state.store, network⟩ }
      else state
  | .interrupt =>
      if state.watcher = .watching then { state with watcher := .ended none } else state
  | .create answer nad =>
      { state with
        store := created state.store answer nad, others := created state.others answer nad }
  | .delete space name =>
      { state with
        store := state.store.delete space name, others := state.others.delete space name }

/-! What the watcher sees. -/

/-- The pointer is never nil, so the watcher goes on. -/
theorem onTick_eq (resource : Resource) (k8sclient : ClientInfo) :
    onTick resource k8sclient = .watching := by
  have hpointer : (generatedGet k8sclient "default" resource.name).1 ≠ none := by
    unfold generatedGet
    split <;> simp
  rw [onTick, if_neg hpointer]

theorem created_get? (store : Store) (answer : Except String Nat) (nad : NetAttachDef)
    (space name : String) :
    (created store answer nad).get? space name =
      if (space, name) = nad.key then
        (store.get? space name).or (answer.toOption.map (⟨·, nad⟩))
      else store.get? space name := by
  unfold created
  split
  · rename_i stored after hcreate
    rw [Store.create_get? hcreate]
    split
    · rename_i hkey
      obtain ⟨rfl, rfl⟩ := Prod.mk.inj hkey
      unfold Store.create at hcreate
      split at hcreate
      · contradiction
      · split at hcreate
        · contradiction
        · rename_i hnone
          rw [hnone, ← (Prod.mk.inj (Except.ok.inj hcreate)).1]
          rfl
    · rfl
  · rename_i hcreate
    split
    · rename_i hkey
      obtain ⟨rfl, rfl⟩ := Prod.mk.inj hkey
      unfold Store.create at hcreate
      split at hcreate
      · simp [Except.toOption]
      · split at hcreate
        · rename_i hsome
          rw [hsome, Option.some_or]
        · contradiction
    · rfl

def State.Aligned (resource : Resource) (state : State) : Prop :=
  state.store.get? "default" resource.name = state.others.get? "default" resource.name

theorem State.Aligned.startWatcher {resource : Resource} {state : State}
    (h : state.Aligned resource) (network : List Delivery) (answer : Except String Nat) :
    (state.startWatcher resource network answer).Aligned resource := by
  unfold State.startWatcher
  split
  · exact h
  · refine Eq.trans ?_ h
    exact ClientInfo.addNetAttachDef_get? _ answer (by simp [NetAttachDef.key])

theorem State.Aligned.step {resource : Resource} {state : State}
    (h : state.Aligned resource) (event : Event) :
    (step resource state event).Aligned resource := by
  cases event with
  | start network answer => exact h.startWatcher network answer
  | tick network =>
      simp only [NetAttachDefWatch.step]
      split <;> exact h
  | interrupt =>
      simp only [NetAttachDefWatch.step]
      split <;> exact h
  | create answer nad =>
      unfold State.Aligned NetAttachDefWatch.step
      rw [created_get?, created_get?, h]
  | delete space name =>
      unfold State.Aligned NetAttachDefWatch.step
      rw [Store.get?_delete, Store.get?_delete, h]

theorem step_watcher_ne {resource : Resource} {state : State}
    (h : ∀ message, state.watcher ≠ .ended (some message)) (event : Event) (message : String) :
    (step resource state event).watcher ≠ .ended (some message) := by
  cases event with
  | start network answer =>
      simp only [step, State.startWatcher]
      split
      · exact h message
      · simp [ensure]
  | tick network =>
      simp only [step]
      split
      · simp [onTick_eq]
      · exact h message
  | interrupt =>
      simp only [step]
      split
      · simp
      · exact h message
  | create answer nad => exact h message
  | delete space name => exact h message

/-- A tick after which the watcher goes on finds the net-attach-def in the store. -/
def ticksOnPresent (resource : Resource) (state : State) : Event → Prop
  | .tick network =>
      let after := step resource state (.tick network)
      after.watcher = .watching → (after.store.get? "default" resource.name).isSome
  | _ => True

/-- Others alone keep the net-attach-def in the store for the watcher's tick. -/
def othersPresent (resource : Resource) (state : State) : Event → Prop
  | .tick _ =>
      state.watcher = .watching → (state.others.get? "default" resource.name).isSome
  | _ => True

theorem ticksOnPresent_iff {resource : Resource} {state : State}
    (h : state.Aligned resource) (event : Event) :
    ticksOnPresent resource state event ↔ othersPresent resource state event := by
  cases event with
  | tick network =>
      simp only [ticksOnPresent, othersPresent, step]
      split
      · rename_i hwatching
        simp only [onTick_eq, hwatching, forall_const]
        rw [h]
      · rename_i hoff
        simp [hoff]
  | start network answer => rfl
  | interrupt => rfl
  | create answer nad => rfl
  | delete space name => rfl

/-- Ensure-and-watch of a net-attach-def. A watcher that goes on has its object exactly
if others put it there, since the plugin creates it in another namespace; no deletion
by others is ever noticed, so the watcher never ends with an error. -/
theorem watch_iff (resource : Resource) (store : Store) (events : List Event) :
    ((∀ move ∈ moves (step resource) (.start store) events,
        ticksOnPresent resource move.1 move.2) ∧
      (store.get? "default" resource.name = none →
        (∀ event ∈ events, ∀ space name, event = .delete space name →
          (space, name) ≠ ("default", resource.name)) →
        ∀ state ∈ states (step resource) (.start store) events, ∀ message,
          state.watcher ≠ .ended (some message))) ↔
      ∀ move ∈ moves (step resource) (.start store) events,
        othersPresent resource move.1 move.2 := by
  have hmoves := moves_iff (step resource) (State.Aligned resource)
    (ticksOnPresent resource) (othersPresent resource) (fun _ event h => h.step event)
    (fun _ event h => ticksOnPresent_iff h event) events (.start store) rfl
  have hwatcher := states_invariant (step resource)
    (fun state => ∀ message, state.watcher ≠ .ended (some message))
    (fun _ event h => step_watcher_ne h event) events (.start store) (by simp [State.start])
  rw [hmoves]
  exact and_iff_left fun _ _ => hwatcher

theorem watch_blind :
    ¬ ∀ move ∈ moves (step "example.com/group") (.start .empty)
        [.start [] (.ok 1), .tick []],
      ticksOnPresent "example.com/group" move.1 move.2 := by
  intro h
  simp only [moves, List.forall_mem_cons] at h
  have hpresent := h.2.1 rfl
  exact absurd hpresent (by decide)

end VirtualSfc.Plugin.NetAttachDefWatch
