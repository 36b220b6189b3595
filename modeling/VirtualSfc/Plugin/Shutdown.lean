import Mathlib.Data.List.Count
import VirtualSfc.Base.Run

/-! The end of `pluginMgr.Run`: it cancels its context and waits for a
`WaitGroup`, which every plugin goroutine enters by itself. `syncLoop` may still
be starting plugins meanwhile. -/
namespace VirtualSfc.Plugin.Shutdown
open Base.Run

/-- Where the goroutine of a `runPlugin` call is: before `wg.Add(1)`, in the loop
of `PluginBase.Run`, before `CleanUp`, after it and before `wg.Done()`, or at its
end. -/
inductive Phase where
  | created
  | select
  | runOnce
  | restart
  | cleanUp
  | cleaned
  | finished
deriving DecidableEq, Repr

def Phase.counted : Phase → Bool
  | .created => false
  | .finished => false
  | _ => true

def Phase.hasCleanedUp : Phase → Bool
  | .cleaned => true
  | .finished => true
  | _ => false

/-- One step, where `choice` says that `RunOnce` returns an error, or that the
restart interval is over. -/
def Phase.next (cancelled choice : Bool) : Phase → Phase
  | .created => .select
  | .select => if cancelled then .cleanUp else .runOnce
  | .runOnce => if choice then .restart else .select
  | .restart => if choice then .select else if cancelled then .cleanUp else .restart
  | .cleanUp => .cleaned
  | .cleaned => .finished
  | .finished => .finished

def Phase.delta : Phase → Int
  | .created => 1
  | .cleaned => -1
  | _ => 0

/-- `Run` is `blocked` in `wg.Wait` until a `wg.Done` takes the counter to 0, and `woken`
then. A panic ends the process. -/
inductive MgrPc where
  | starting
  | receiving
  | cancelling
  | waiting
  | blocked
  | woken
  | returned
  | panicked
deriving DecidableEq, Repr

/-- `syncLoop` in its `select`, with so many plugins of an update left to start,
or after its end. -/
inductive SyncPc where
  | select
  | starting (remaining : Nat)
  | exited
deriving DecidableEq, Repr

structure State where
  mgr : MgrPc
  stopped : Bool
  ctx : Bool
  sync : SyncPc
  goroutines : List Phase
  counter : Int
deriving DecidableEq, Repr

def State.start : State := ⟨.starting, false, false, .select, [], 0⟩

/-- `wg.Wait` panics if the group is in use again before it returns. -/
def State.advanceMgr (state : State) : State :=
  match state.mgr with
  | .starting => { state with mgr := .receiving }
  | .receiving => if state.stopped then { state with mgr := .cancelling } else state
  | .cancelling => { state with mgr := .waiting, ctx := true }
  | .waiting =>
      if state.counter = 0 then { state with mgr := .returned }
      else { state with mgr := .blocked }
  | .woken =>
      if state.counter = 0 then { state with mgr := .returned }
      else { state with mgr := .panicked }
  | .blocked | .returned | .panicked => state

def State.advanceSync (state : State) : State :=
  match state.sync with
  | .starting 0 => { state with sync := .select }
  | .starting (remaining + 1) =>
      { state with
        sync := .starting remaining, goroutines := state.goroutines ++ [.created] }
  | _ => state

def State.advancePlugin (state : State) (index : Nat) (choice : Bool) : State :=
  match state.goroutines[index]? with
  | none => state
  | some phase =>
      let counter := state.counter + phase.delta
      { state with
        mgr := if state.mgr = .blocked ∧ counter = 0 then .woken else state.mgr
        goroutines := state.goroutines.set index (phase.next state.ctx choice)
        counter := counter }

/-- `update` is an update for which `syncLoop` constructs so many plugins, `stop`
closes `stopChan`, `cancel` the context above, and `leave` is a `select` of
`syncLoop` that takes `ctx.Done()`. -/
inductive Event where
  | mgr
  | update (plugins : Nat)
  | sync
  | leave
  | plugin (index : Nat) (choice : Bool)
  | stop
  | cancel
deriving DecidableEq, Repr

def State.advance (state : State) : Event → State
  | .mgr => state.advanceMgr
  | .update plugins =>
      if state.sync = .select then { state with sync := .starting plugins } else state
  | .sync => state.advanceSync
  | .leave =>
      if state.sync = .select ∧ state.ctx then { state with sync := .exited } else state
  | .plugin index choice => state.advancePlugin index choice
  | .stop => { state with stopped := true }
  | .cancel => { state with ctx := true }

def step (state : State) (event : Event) : State :=
  if state.mgr = .panicked then state else state.advance event

/-! The counter. -/

def State.Counts (state : State) : Prop :=
  state.counter = state.goroutines.countP Phase.counted

def Phase.weight (phase : Phase) : Nat := if phase.counted then 1 else 0

theorem Phase.weight_next (cancelled choice : Bool) (phase : Phase) :
    ((phase.next cancelled choice).weight : Int) = phase.weight + phase.delta := by
  cases phase <;> cases cancelled <;> cases choice <;> rfl

theorem weight_le_countP {phase : Phase} {goroutines : List Phase} (h : phase ∈ goroutines) :
    phase.weight ≤ goroutines.countP Phase.counted := by
  unfold Phase.weight
  split
  · rename_i hcounted
    exact List.countP_pos_iff.mpr ⟨phase, h, hcounted⟩
  · exact Nat.zero_le _

theorem advancePlugin_counts {state : State} (h : state.Counts) (index : Nat) (choice : Bool) :
    (state.advancePlugin index choice).Counts := by
  unfold State.advancePlugin
  split
  · exact h
  · rename_i phase hphase
    obtain ⟨hindex, hget⟩ := List.getElem?_eq_some_iff.mp hphase
    have hnext := phase.weight_next state.ctx choice
    have hle := weight_le_countP (List.mem_of_getElem? hphase)
    have hset : (state.goroutines.set index (phase.next state.ctx choice)).countP Phase.counted =
        state.goroutines.countP Phase.counted - phase.weight +
          (phase.next state.ctx choice).weight := by
      rw [List.countP_set hindex, hget]
      rfl
    unfold State.Counts at h ⊢
    simp only [hset]
    omega

theorem advanceMgr_counts {state : State} (h : state.Counts) : state.advanceMgr.Counts := by
  unfold State.advanceMgr
  repeat' split
  all_goals exact h

theorem advance_counts (state : State) (event : Event) (h : state.Counts) :
    (state.advance event).Counts := by
  cases event with
  | mgr => exact advanceMgr_counts h
  | update plugins =>
      simp only [State.advance]
      split <;> exact h
  | sync =>
      simp only [State.advance, State.advanceSync]
      split
      · exact h
      · simpa [State.Counts, Phase.counted] using h
      · exact h
  | leave =>
      simp only [State.advance]
      split <;> exact h
  | plugin index choice => exact advancePlugin_counts h index choice
  | stop => exact h
  | cancel => exact h

theorem step_counts (state : State) (event : Event) (h : state.Counts) :
    (step state event).Counts := by
  unfold step
  split
  · exact h
  · exact advance_counts state event h

theorem State.Counts.cleaned_iff {state : State} (h : state.Counts) (hzero : state.counter = 0) :
    (∀ phase ∈ state.goroutines, phase.hasCleanedUp) ↔
      ∀ phase ∈ state.goroutines, phase ≠ .created := by
  have hnone : state.goroutines.countP Phase.counted = 0 := by
    unfold State.Counts at h
    omega
  rw [List.countP_eq_zero] at hnone
  refine forall₂_congr fun phase hphase => ?_
  have hcounted := hnone phase hphase
  cases phase <;> simp_all [Phase.counted, Phase.hasCleanedUp]

/-! The end of `pluginMgr.Run`. -/

def returnsClean (state : State) (event : Event) : Prop :=
  state.mgr ≠ .returned → (step state event).mgr = .returned →
    ∀ phase ∈ (step state event).goroutines, phase.hasCleanedUp

/-- When `wg.Wait` lets go, every goroutine that `runPlugin` started has passed its
`wg.Add(1)`. -/
def allEntered (state : State) (event : Event) : Prop :=
  event = .mgr → state.mgr = .waiting ∨ state.mgr = .woken → state.counter = 0 →
    ∀ phase ∈ state.goroutines, phase ≠ .created

theorem advance_returned {state : State} {event : Event} (hmgr : state.mgr ≠ .returned)
    (h : (state.advance event).mgr = .returned) :
    event = .mgr ∧ (state.mgr = .waiting ∨ state.mgr = .woken) ∧ state.counter = 0 := by
  cases event with
  | mgr =>
      simp only [State.advance, State.advanceMgr] at h
      split at h
      · contradiction
      · split at h <;> simp_all
      · contradiction
      · split at h <;> simp_all
      · split at h <;> simp_all
      · exact absurd h hmgr
      · exact absurd h hmgr
      · exact absurd h hmgr
  | update plugins =>
      simp only [State.advance] at h
      split at h <;> exact absurd h hmgr
  | sync =>
      simp only [State.advance, State.advanceSync] at h
      split at h <;> exact absurd h hmgr
  | leave =>
      simp only [State.advance] at h
      split at h <;> exact absurd h hmgr
  | plugin index choice =>
      simp only [State.advance, State.advancePlugin] at h
      split at h
      · exact absurd h hmgr
      · dsimp only at h
        split at h
        · contradiction
        · exact absurd h hmgr
  | stop => exact absurd h hmgr
  | cancel => exact absurd h hmgr

theorem step_mgr {state : State} (hmgr : state.mgr = .waiting ∨ state.mgr = .woken)
    (hzero : state.counter = 0) : step state .mgr = { state with mgr := .returned } := by
  rcases hmgr with hmgr | hmgr <;>
    simp [step, State.advance, State.advanceMgr, hmgr, hzero]

theorem returnsClean_iff (state : State) (event : Event) (h : state.Counts) :
    returnsClean state event ↔ allEntered state event := by
  constructor
  · intro hclean hevent hmgr hzero
    have hstep := step_mgr hmgr hzero
    rw [← h.cleaned_iff hzero]
    intro phase hphase
    rw [returnsClean, hevent, hstep] at hclean
    refine hclean ?_ rfl phase hphase
    rcases hmgr with hmgr | hmgr <;> simp [hmgr]
  · intro hentered hmgr hreturned
    have hadvance : (state.advance event).mgr = .returned := by
      rw [step] at hreturned
      split at hreturned
      · exact absurd hreturned hmgr
      · exact hreturned
    obtain ⟨hevent, hwaiting, hzero⟩ := advance_returned hmgr hadvance
    rw [hevent, step_mgr hwaiting hzero]
    exact (h.cleaned_iff hzero).mpr (hentered hevent hwaiting hzero)

/-- In every interleaving `Run` leaves no plugin behind exactly when all plugin
goroutines have entered the group by the time `wg.Wait` lets go. -/
theorem shutdown_iff (events : List Event) :
    (∀ move ∈ moves step State.start events, returnsClean move.1 move.2) ↔
      ∀ move ∈ moves step State.start events, allEntered move.1 move.2 :=
  moves_iff step State.Counts _ _ step_counts returnsClean_iff events State.start rfl

/-- `Run` is woken by the first of two plugins, and the second enters the group then. -/
example : (final step State.start [.mgr, .update 2, .sync, .sync, .plugin 0 false, .stop, .mgr,
    .mgr, .mgr, .plugin 0 false, .plugin 0 false, .plugin 0 false, .plugin 1 false, .mgr]).mgr =
      .panicked := by
  decide

/-- A plugin is started, and `Run` returns before the goroutine has taken a step. -/
theorem shutdown_leaves_plugin :
    ¬ ∀ move ∈ moves step State.start
        [.mgr, .update 1, .sync, .stop, .mgr, .mgr, .mgr], returnsClean move.1 move.2 := by
  intro h
  simp only [moves, List.forall_mem_cons] at h
  have hlast := h.2.2.2.2.2.2.1 (by decide) (by decide) .created (by decide)
  exact absurd hlast (by decide)

end VirtualSfc.Plugin.Shutdown
