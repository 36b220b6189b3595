import VirtualSfc.Base.Run

/-! The start of the plugin with a registry: `registry.Run`, the `syncLoop` it
starts, `pluginMgr.syncLoop` and the config scanner. A `select` evaluates its
channels when it is entered, a nil channel is never ready, and a send on an
unbuffered channel waits for its receiver. -/
namespace VirtualSfc.Plugin.Handshake
open Base.Run

inductive Party where
  | run
  | sync
  | manager
  | scanner
deriving DecidableEq, Repr

/-- `sync.RWMutex`: a writer first excludes other writers and new readers, then
waits for the readers to leave. -/
structure RWMutex where
  writer : Option Party
  pending : Option Party
  readers : Nat
deriving DecidableEq, Repr

def RWMutex.closed (guard : RWMutex) : Bool := guard.writer.isSome || guard.pending.isSome

inductive RunPc where
  | spawn
  | assign
  | lock
  | locking
  | subscribe
  | send
  | unlock
  | finished
deriving DecidableEq, Repr

/-- Where `registry.syncLoop` is. It waits with the channel it found in
`configUpdate`, which is nil before the assignment. -/
inductive SyncPc where
  | unstarted
  | select
  | waiting (channel : Bool)
  | rlock
  | runlock
  | child
  | exited
deriving DecidableEq, Repr

inductive ManagerPc where
  | select
  | waiting
  | rlock
  | runlock
  | exited
deriving DecidableEq, Repr

inductive ScannerPc where
  | idle
  | lock
  | locking
  | unlock
  | notifyAll
  | send
  | exited
deriving DecidableEq, Repr

/-- `ctx` is the context of `pluginMgr.Run`, derived from `root`, under which the
scanner runs. The flags say that a context is cancelled. -/
structure State where
  configUpdate : Bool
  subscribed : Bool
  ctx : Bool
  root : Bool
  guard : RWMutex
  run : RunPc
  sync : SyncPc
  manager : ManagerPc
  scanner : ScannerPc
deriving DecidableEq, Repr

def State.start : State :=
  ⟨false, false, false, false, ⟨none, none, 0⟩, .spawn, .unstarted, .select, .idle⟩

/-- `Subscribe` refuses a second subscription under one name. -/
def State.advanceRun (state : State) : State :=
  match state.run with
  | .spawn => { state with run := .assign, sync := .select }
  | .assign => { state with run := .lock, configUpdate := true }
  | .lock =>
      if state.guard.closed then state
      else { state with run := .locking, guard.pending := some .run }
  | .locking =>
      if state.guard.readers = 0 then
        { state with run := .subscribe, guard.pending := none, guard.writer := some .run }
      else state
  | .subscribe =>
      if state.subscribed then { state with run := .unlock }
      else { state with run := .send, subscribed := true }
  | .send => state
  | .unlock => { state with run := .finished, guard.writer := none }
  | .finished => state

/-- Between `RUnlock` and the event for the manager lies the loop over the
interfaces. -/
def State.advanceSync (state : State) : State :=
  match state.sync with
  | .select => { state with sync := .waiting state.configUpdate }
  | .rlock =>
      if state.guard.closed then state
      else { state with sync := .runlock, guard.readers := state.guard.readers + 1 }
  | .runlock => { state with sync := .child, guard.readers := state.guard.readers - 1 }
  | _ => state

def State.advanceManager (state : State) : State :=
  match state.manager with
  | .select => { state with manager := .waiting }
  | .rlock =>
      if state.guard.closed then state
      else { state with manager := .runlock, guard.readers := state.guard.readers + 1 }
  | .runlock => { state with manager := .select, guard.readers := state.guard.readers - 1 }
  | _ => state

def State.advanceScanner (state : State) : State :=
  match state.scanner with
  | .idle => { state with scanner := .lock }
  | .lock =>
      if state.guard.closed then state
      else { state with scanner := .locking, guard.pending := some .scanner }
  | .locking =>
      if state.guard.readers = 0 then
        { state with
          scanner := .unlock, guard.pending := none, guard.writer := some .scanner }
      else state
  | .unlock => { state with scanner := .notifyAll, guard.writer := none }
  | .notifyAll =>
      if state.subscribed then { state with scanner := .send }
      else { state with scanner := .idle }
  | .send => state
  | .exited => state

/-- A step of one goroutine, a send that meets its receiver, the cancellation of
`root`, a closed `stopChan`, and a `select` that takes its context's `Done()`. -/
inductive Event where
  | advance (party : Party)
  | handover (sender : Party)
  | cancel
  | stop
  | leave (party : Party)
deriving DecidableEq, Repr

def State.handover (state : State) : Party → State
  | .run =>
      if state.run = .send ∧ state.sync = .waiting true then
        { state with run := .unlock, sync := .rlock }
      else state
  | .scanner =>
      if state.scanner = .send ∧ state.sync = .waiting true then
        { state with scanner := .idle, sync := .rlock }
      else state
  | .sync =>
      if state.sync = .child ∧ state.manager = .waiting then
        { state with sync := .select, manager := .rlock }
      else state
  | .manager => state

def State.leave (state : State) : Party → State
  | .sync =>
      if state.ctx ∧ (state.sync = .waiting true ∨ state.sync = .waiting false) then
        { state with sync := .exited }
      else state
  | .manager =>
      if state.ctx ∧ state.manager = .waiting then { state with manager := .exited } else state
  | .scanner =>
      if state.root ∧ state.scanner = .idle then { state with scanner := .exited } else state
  | .run => state

/-- An event that its goroutine is not ready for does nothing. `pluginMgr.Run`
looks at `stopChan` once `registry.Run` has returned. -/
def step (state : State) : Event → State
  | .advance .run => state.advanceRun
  | .advance .sync => state.advanceSync
  | .advance .manager => state.advanceManager
  | .advance .scanner => state.advanceScanner
  | .handover sender => state.handover sender
  | .cancel => { state with ctx := true, root := true }
  | .stop => if state.run = .finished then { state with ctx := true } else state
  | .leave party => state.leave party

/-- `Subscribe` waits in its send with the guard in its hands, and `syncLoop`
waits in a `select` on the nil channel. -/
structure State.Wedged (state : State) : Prop where
  running : state.ctx = false
  blocked : state.run = .send
  held : state.guard.writer = some .run
  deaf : state.sync = .waiting false

/-! The invariant. -/

/-- From the assignment on the channel is there, and the guard is where its
holder is. -/
structure State.Valid (state : State) : Prop where
  assigned : state.run = .spawn ∨ state.run = .assign ∨ state.configUpdate = true
  run_pending : state.guard.pending = some .run ↔ state.run = .locking
  run_writer : state.guard.writer = some .run ↔
    state.run = .subscribe ∨ state.run = .send ∨ state.run = .unlock
  scanner_pending : state.guard.pending = some .scanner ↔ state.scanner = .locking
  scanner_writer : state.guard.writer = some .scanner ↔ state.scanner = .unlock
  alone : state.guard.pending = none ∨ state.guard.writer = none

theorem start_valid : State.start.Valid := by
  constructor <;> simp [State.start]

theorem State.Valid.congr {state after : State} (h : state.Valid)
    (hupdate : after.configUpdate = state.configUpdate) (hrun : after.run = state.run)
    (hscanner : after.scanner = state.scanner)
    (hpending : after.guard.pending = state.guard.pending)
    (hwriter : after.guard.writer = state.guard.writer) : after.Valid := by
  constructor
  · rw [hupdate, hrun]
    exact h.assigned
  · rw [hpending, hrun]
    exact h.run_pending
  · rw [hwriter, hrun]
    exact h.run_writer
  · rw [hpending, hscanner]
    exact h.scanner_pending
  · rw [hwriter, hscanner]
    exact h.scanner_writer
  · rw [hpending, hwriter]
    exact h.alone

theorem advanceRun_valid {state : State} (h : state.Valid) : state.advanceRun.Valid := by
  rcases h with ⟨hassigned, hpending, hwriter, hscan, hscanning, halone⟩
  unfold State.advanceRun
  cases hrun : state.run with
  | spawn => constructor <;> simp_all
  | assign => constructor <;> simp_all
  | lock =>
      dsimp only
      split
      · constructor <;> assumption
      · constructor <;> simp_all [RWMutex.closed]
  | locking =>
      dsimp only
      split
      · constructor <;> simp_all
      · constructor <;> assumption
  | subscribe =>
      dsimp only
      split <;> (constructor <;> simp_all)
  | send => constructor <;> assumption
  | unlock => constructor <;> simp_all
  | finished => constructor <;> assumption

theorem advanceSync_valid {state : State} (h : state.Valid) : state.advanceSync.Valid := by
  unfold State.advanceSync
  split
  · exact h.congr rfl rfl rfl rfl rfl
  · split <;> exact h.congr rfl rfl rfl rfl rfl
  · exact h.congr rfl rfl rfl rfl rfl
  · exact h

theorem advanceManager_valid {state : State} (h : state.Valid) :
    state.advanceManager.Valid := by
  unfold State.advanceManager
  split
  · exact h.congr rfl rfl rfl rfl rfl
  · split <;> exact h.congr rfl rfl rfl rfl rfl
  · exact h.congr rfl rfl rfl rfl rfl
  · exact h

theorem advanceScanner_valid {state : State} (h : state.Valid) :
    state.advanceScanner.Valid := by
  rcases h with ⟨hassigned, hpending, hwriter, hscan, hscanning, halone⟩
  unfold State.advanceScanner
  cases hscanner : state.scanner with
  | idle => constructor <;> simp_all
  | lock =>
      dsimp only
      split
      · constructor <;> assumption
      · constructor <;> simp_all [RWMutex.closed]
  | locking =>
      dsimp only
      split
      · constructor <;> simp_all
      · constructor <;> assumption
  | unlock => constructor <;> simp_all
  | notifyAll =>
      dsimp only
      split <;> (constructor <;> simp_all)
  | send => constructor <;> assumption
  | exited => constructor <;> assumption

theorem handover_valid {state : State} (h : state.Valid) (sender : Party) :
    (state.handover sender).Valid := by
  cases sender with
  | run =>
      rcases h with ⟨hassigned, hpending, hwriter, hscan, hscanning, halone⟩
      simp only [State.handover]
      split <;> (constructor <;> simp_all)
  | scanner =>
      rcases h with ⟨hassigned, hpending, hwriter, hscan, hscanning, halone⟩
      simp only [State.handover]
      split <;> (constructor <;> simp_all)
  | sync =>
      simp only [State.handover]
      split <;> exact h.congr rfl rfl rfl rfl rfl
  | manager => exact h

theorem leave_valid {state : State} (h : state.Valid) (party : Party) :
    (state.leave party).Valid := by
  cases party with
  | sync =>
      simp only [State.leave]
      split <;> exact h.congr rfl rfl rfl rfl rfl
  | manager =>
      simp only [State.leave]
      split <;> exact h.congr rfl rfl rfl rfl rfl
  | scanner =>
      rcases h with ⟨hassigned, hpending, hwriter, hscan, hscanning, halone⟩
      simp only [State.leave]
      split <;> (constructor <;> simp_all)
  | run => exact h

theorem step_valid (state : State) (event : Event) (h : state.Valid) :
    (step state event).Valid := by
  cases event with
  | advance party =>
      cases party with
      | run => exact advanceRun_valid h
      | sync => exact advanceSync_valid h
      | manager => exact advanceManager_valid h
      | scanner => exact advanceScanner_valid h
  | handover sender => exact handover_valid h sender
  | cancel => exact h.congr rfl rfl rfl rfl rfl
  | stop =>
      simp only [step]
      split <;> exact h.congr rfl rfl rfl rfl rfl
  | leave party => exact leave_valid h party

/-! The wedge. -/

theorem advanceSync_frame (state : State) :
    state.advanceSync.run = state.run ∧ state.advanceSync.ctx = state.ctx := by
  unfold State.advanceSync
  split
  · exact ⟨rfl, rfl⟩
  · split <;> exact ⟨rfl, rfl⟩
  · exact ⟨rfl, rfl⟩
  · exact ⟨rfl, rfl⟩

theorem advanceManager_frame (state : State) :
    state.advanceManager.run = state.run ∧ state.advanceManager.sync = state.sync ∧
      state.advanceManager.ctx = state.ctx := by
  unfold State.advanceManager
  split
  · exact ⟨rfl, rfl, rfl⟩
  · split <;> exact ⟨rfl, rfl, rfl⟩
  · exact ⟨rfl, rfl, rfl⟩
  · exact ⟨rfl, rfl, rfl⟩

theorem advanceScanner_frame (state : State) :
    state.advanceScanner.run = state.run ∧ state.advanceScanner.sync = state.sync ∧
      state.advanceScanner.ctx = state.ctx := by
  unfold State.advanceScanner
  split
  · exact ⟨rfl, rfl, rfl⟩
  · split <;> exact ⟨rfl, rfl, rfl⟩
  · split <;> exact ⟨rfl, rfl, rfl⟩
  · exact ⟨rfl, rfl, rfl⟩
  · split <;> exact ⟨rfl, rfl, rfl⟩
  · exact ⟨rfl, rfl, rfl⟩
  · exact ⟨rfl, rfl, rfl⟩

theorem advanceRun_frame (state : State) :
    state.advanceRun.ctx = state.ctx ∧
      (state.advanceRun.sync = state.sync ∨ state.advanceRun.sync = .select) := by
  unfold State.advanceRun
  split
  · exact ⟨rfl, .inr rfl⟩
  · exact ⟨rfl, .inl rfl⟩
  · split <;> exact ⟨rfl, .inl rfl⟩
  · split <;> exact ⟨rfl, .inl rfl⟩
  · split <;> exact ⟨rfl, .inl rfl⟩
  · exact ⟨rfl, .inl rfl⟩
  · exact ⟨rfl, .inl rfl⟩
  · exact ⟨rfl, .inl rfl⟩

theorem handover_frame (state : State) (sender : Party) :
    (state.handover sender).ctx = state.ctx ∧
      ((state.handover sender).run = state.run ∨ (state.handover sender).run = .unlock) ∧
      ((state.handover sender).sync = state.sync ∨ (state.handover sender).sync = .rlock ∨
        (state.handover sender).sync = .select) := by
  unfold State.handover
  split
  · split
    · exact ⟨rfl, .inr rfl, .inr (.inl rfl)⟩
    · exact ⟨rfl, .inl rfl, .inl rfl⟩
  · split
    · exact ⟨rfl, .inl rfl, .inr (.inl rfl)⟩
    · exact ⟨rfl, .inl rfl, .inl rfl⟩
  · split
    · exact ⟨rfl, .inl rfl, .inr (.inr rfl)⟩
    · exact ⟨rfl, .inl rfl, .inl rfl⟩
  · exact ⟨rfl, .inl rfl, .inl rfl⟩

theorem leave_frame (state : State) (party : Party) :
    (state.leave party).run = state.run ∧ (state.leave party).ctx = state.ctx ∧
      ((state.leave party).sync = state.sync ∨ (state.leave party).sync = .exited) := by
  unfold State.leave
  split
  · split
    · exact ⟨rfl, rfl, .inr rfl⟩
    · exact ⟨rfl, rfl, .inl rfl⟩
  · split <;> exact ⟨rfl, rfl, .inl rfl⟩
  · split <;> exact ⟨rfl, rfl, .inl rfl⟩
  · exact ⟨rfl, rfl, .inl rfl⟩

theorem stop_frame (state : State) :
    (step state .stop).run = state.run ∧ (step state .stop).sync = state.sync ∧
      ((step state .stop).ctx = state.ctx ∨ (step state .stop).ctx = true) := by
  simp only [step]
  split
  · exact ⟨rfl, rfl, .inr rfl⟩
  · exact ⟨rfl, rfl, .inl rfl⟩

theorem step_send {state : State} {event : Event} (h : (step state event).run = .send) :
    state.run = .send ∨
      event = .advance .run ∧ state.run = .subscribe ∧ state.subscribed = false := by
  cases event with
  | advance party =>
      cases party with
      | run =>
          simp only [step, State.advanceRun] at h
          split at h
          · simp at h
          · simp at h
          · split at h <;> simp_all
          · split at h <;> simp_all
          · split at h <;> simp_all
          · exact .inl h
          · simp at h
          · exact .inl h
      | sync => exact .inl ((advanceSync_frame state).1.symm.trans h)
      | manager => exact .inl ((advanceManager_frame state).1.symm.trans h)
      | scanner => exact .inl ((advanceScanner_frame state).1.symm.trans h)
  | handover sender =>
      rcases (handover_frame state sender).2.1 with hrun | hrun
      · exact .inl (hrun.symm.trans h)
      · cases hrun.symm.trans h
  | cancel => exact .inl h
  | stop => exact .inl ((stop_frame state).1.symm.trans h)
  | leave party => exact .inl ((leave_frame state party).1.symm.trans h)

theorem step_deaf {state : State} {event : Event}
    (h : (step state event).sync = .waiting false) :
    state.sync = .waiting false ∨ event = .advance .sync ∧ state.configUpdate = false := by
  cases event with
  | advance party =>
      cases party with
      | run =>
          rcases (advanceRun_frame state).2 with hsync | hsync
          · exact .inl (hsync.symm.trans h)
          · cases hsync.symm.trans h
      | sync =>
          simp only [step, State.advanceSync] at h
          split at h
          · exact .inr ⟨rfl, SyncPc.waiting.inj h⟩
          · split at h <;> simp_all
          · simp at h
          · exact .inl h
      | manager => exact .inl ((advanceManager_frame state).2.1.symm.trans h)
      | scanner => exact .inl ((advanceScanner_frame state).2.1.symm.trans h)
  | handover sender =>
      rcases (handover_frame state sender).2.2 with hsync | hsync | hsync
      · exact .inl (hsync.symm.trans h)
      · cases hsync.symm.trans h
      · cases hsync.symm.trans h
  | cancel => exact .inl h
  | stop => exact .inl ((stop_frame state).2.1.symm.trans h)
  | leave party =>
      rcases (leave_frame state party).2.2 with hsync | hsync
      · exact .inl (hsync.symm.trans h)
      · cases hsync.symm.trans h

theorem step_ctx {state : State} {event : Event} (h : (step state event).ctx = false) :
    state.ctx = false := by
  cases event with
  | advance party =>
      cases party with
      | run => exact (advanceRun_frame state).1.symm.trans h
      | sync => exact (advanceSync_frame state).2.symm.trans h
      | manager => exact (advanceManager_frame state).2.2.symm.trans h
      | scanner => exact (advanceScanner_frame state).2.2.symm.trans h
  | handover sender => exact (handover_frame state sender).1.symm.trans h
  | cancel => simp [step] at h
  | stop =>
      rcases (stop_frame state).2.2 with hctx | hctx
      · exact hctx.symm.trans h
      · cases hctx.symm.trans h
  | leave party => exact (leave_frame state party).2.1.symm.trans h

/-- When `Subscribe` begins its send, `syncLoop` is not in a `select` that it
entered before the assignment, or the context is cancelled. -/
def listens (state : State) (event : Event) : Prop :=
  event = .advance .run → state.run = .subscribe → state.subscribed = false →
    state.ctx = false → state.sync ≠ .waiting false

theorem step_wedged_iff (state : State) (event : Event) (h : state.Valid)
    (hfree : ¬ state.Wedged) : ¬ (step state event).Wedged ↔ listens state event := by
  constructor
  · intro hstep hevent hrun hsubscribed hctx hdeaf
    apply hstep
    have hheld := h.run_writer.mpr (.inl hrun)
    rw [hevent]
    simp only [step, State.advanceRun, hrun, hsubscribed]
    exact ⟨hctx, rfl, hheld, hdeaf⟩
  · intro hlistens hwedged
    have hctx := step_ctx hwedged.running
    rcases step_send hwedged.blocked with hrun | ⟨hevent, hrun, hsubscribed⟩
    · rcases step_deaf hwedged.deaf with hdeaf | ⟨_, hnil⟩
      · exact hfree ⟨hctx, hrun, h.run_writer.mpr (.inr (.inl hrun)), hdeaf⟩
      · simpa [hrun, hnil] using h.assigned
    · rcases step_deaf hwedged.deaf with hdeaf | ⟨hother, _⟩
      · exact hlistens hevent hrun hsubscribed hctx hdeaf
      · simp [hevent] at hother

/-- In every interleaving, no wedged state is reached exactly when `syncLoop`
listens each time `Subscribe` begins its send. -/
theorem handshake_iff (events : List Event) :
    (∀ state ∈ states step State.start events, ¬ state.Wedged) ↔
      ∀ move ∈ moves step State.start events, listens move.1 move.2 :=
  states_good_iff step State.Valid (fun state => ¬ state.Wedged) listens step_valid
    step_wedged_iff events State.start start_valid (fun h => nomatch h.blocked)

/-- `syncLoop` enters its `select` before `registry.Run` makes the channel. -/
theorem handshake_wedges :
    ¬ ∀ state ∈ states step State.start
        [.advance .run, .advance .sync, .advance .run, .advance .run, .advance .run,
          .advance .run],
      ¬ state.Wedged := by
  intro h
  apply h _ (final_mem_states _ _ _)
  exact ⟨rfl, rfl, rfl, rfl⟩

theorem wedged_step {state : State} (hvalid : state.Valid) (h : state.Wedged) {event : Event}
    (hevent : event ≠ .cancel) : (step state event).Wedged := by
  have hkept : (step state event).run = .send ∧ (step state event).sync = .waiting false ∧
      (step state event).ctx = false := by
    cases event with
    | advance party =>
        cases party with
        | run => simp [step, State.advanceRun, h.blocked, h.deaf, h.running]
        | sync => simp [step, State.advanceSync, h.blocked, h.deaf, h.running]
        | manager => simp [step, advanceManager_frame, h.blocked, h.deaf, h.running]
        | scanner => simp [step, advanceScanner_frame, h.blocked, h.deaf, h.running]
    | handover sender =>
        cases sender with
        | run => simp [step, State.handover, h.blocked, h.deaf, h.running]
        | sync => simp [step, State.handover, h.blocked, h.deaf, h.running]
        | manager => exact ⟨h.blocked, h.deaf, h.running⟩
        | scanner => simp [step, State.handover, h.blocked, h.deaf, h.running]
    | cancel => contradiction
    | stop => simp [step, h.blocked, h.deaf, h.running]
    | leave party =>
        refine ⟨(leave_frame state party).1.trans h.blocked, ?_,
          (leave_frame state party).2.1.trans h.running⟩
        simp only [step, State.leave, h.running]
        split <;> first | exact h.deaf | (split <;> simp_all [h.deaf])
  have hheld := (step_valid state event hvalid).run_writer.mpr (.inr (.inl hkept.1))
  exact ⟨hkept.2.2, hkept.1, hheld, hkept.2.1⟩

/-- A wedge lasts until the context is cancelled. -/
theorem wedged_forever {state : State} (hvalid : state.Valid) (h : state.Wedged)
    {events : List Event} (hevents : .cancel ∉ events) : (final step state events).Wedged := by
  induction events generalizing state with
  | nil => exact h
  | cons event events ih =>
      rw [List.mem_cons, not_or] at hevents
      exact ih (step_valid state event hvalid)
        (wedged_step hvalid h (fun heq => hevents.1 heq.symm)) hevents.2

end VirtualSfc.Plugin.Handshake
