import VirtualSfc.Base.Run

/-! The life of one plugin: `PluginBase.Run` calls `RunOnce` again and again, and
`RunOnce` runs a group of goroutines. When a call into a library returns and with what,
when `run.Group` interrupts its members and returns, and what a kubelet does are inputs
of the machine; what the plugin relies on there are the hypotheses `Safe` and `Live`. -/
namespace VirtualSfc.Plugin.Lifecycle
open Base.Run

/-- A kubelet that is `starting` does not yet serve. -/
inductive Kubelet where
  | down
  | starting
  | serving
deriving DecidableEq, Repr

inductive ServePc where
  | starting
  | serving
  | exited
deriving DecidableEq, Repr

/-- In `grpc.DialContext` to the own server, in the `grpc.Dial` and the `Register` of
`registerWithKubelet`, which the kubelet may have accepted, or at `<-ctx.Done()`. -/
inductive RegisterPc where
  | dialSelf
  | dialKubelet
  | calling
  | accepted
  | waiting
  | exited
deriving DecidableEq, Repr

inductive WatchPc where
  | ticking
  | exited
deriving DecidableEq, Repr

/-- The goroutine for the net-attach-def, which default resources do not have. -/
inductive AttachPc where
  | absent
  | ensuring
  | ticking
  | exited
deriving DecidableEq, Repr

/-- The members of the `run.Group` and the listener. `interrupted` says that the interrupt
functions have been called. -/
structure Group where
  serve : ServePc
  register : RegisterPc
  watch : WatchPc
  attach : AttachPc
  listening : Bool
  interrupted : Bool
deriving DecidableEq, Repr

inductive Pc where
  | select
  | listen
  | group (group : Group)
  | restart
  | cleanUp
  | returned
deriving DecidableEq, Repr

/-- `socket` says that the file of the plugin's socket exists, and `registered` is the
last kubelet that has accepted a registration, counted by their starts. -/
structure State where
  pc : Pc
  ctx : Bool
  socket : Bool
  kubelet : Kubelet
  incarnation : Nat
  registered : Option Nat
deriving DecidableEq, Repr

/-- `types.DefaultResource[vsfc.resource]`, and whether `k8sclient` is not nil. -/
structure Config where
  isDefault : Bool
  client : Bool
deriving DecidableEq, Repr

def State.start (kubelet : Kubelet) : State := ⟨.select, false, false, kubelet, 0, none⟩

namespace Group

def start (config : Config) : Group :=
  ⟨.starting, .dialSelf, .ticking, if config.isDefault then .absent else .ensuring, true, false⟩

def done (state : State) (group : Group) : Bool := state.ctx || group.interrupted

def someExited (group : Group) : Bool :=
  group.serve == .exited || group.register == .exited || group.watch == .exited ||
    group.attach == .exited

def allExited (group : Group) : Bool :=
  group.serve == .exited && group.register == .exited && group.watch == .exited &&
    (group.attach == .exited || group.attach == .absent)

end Group

/-- What a library does comes with its step: that it closes the listener, or returns an error. -/
inductive Event where
  | cancel
  | kubeletStop
  | kubeletStart (empties : Bool)
  | kubeletServe
  | removeSocket
  | run (ok : Bool)
  | accepting
  | serve (closes : Bool)
  | dialSelf (err : Bool)
  | dialKubelet (err : Bool)
  | accept
  | register (err : Bool)
  | wait
  | watch (tick : Bool)
  | attach (tick found : Bool)
  | interrupt (closes : Bool)
  | finish (err : Bool)
deriving DecidableEq, Repr

namespace State

def inGroup (state : State) (act : Group → State) : State :=
  match state.pc with
  | .group group => act group
  | _ => state

def close (state : State) (closes : Bool) (group : Group) : State :=
  if closes then { state with pc := .group { group with listening := false }, socket := false }
  else { state with pc := .group group }

def register (state : State) (group : Group) (next : RegisterPc) (err : Bool) : State :=
  { state with pc := .group { group with register := if err then .exited else next } }

def watch (state : State) (group : Group) (tick : Bool) : State :=
  match group.watch with
  | .ticking =>
      if tick then
        if state.socket then state
        else { state with pc := .group { group with watch := .exited } }
      else if group.done state then { state with pc := .group { group with watch := .exited } }
      else state
  | .exited => state

def attach (config : Config) (state : State) (group : Group) (tick found : Bool) : State :=
  match group.attach with
  | .absent => state
  | .ensuring =>
      { state with
        pc := .group { group with attach := if config.client then .ticking else .exited } }
  | .ticking =>
      if tick then
        if found then state
        else { state with pc := .group { group with attach := .exited } }
      else if group.done state then { state with pc := .group { group with attach := .exited } }
      else state
  | .exited => state

/-- The loop of `PluginBase.Run` outside the group. `ok` says that `net.Listen` succeeds,
which it cannot if the file exists, that the restart interval is over, or that `os.Remove`
succeeds. -/
def run (config : Config) (state : State) (ok : Bool) : State :=
  match state.pc with
  | .select => if state.ctx then { state with pc := .cleanUp } else { state with pc := .listen }
  | .listen =>
      if state.socket then { state with pc := .restart }
      else if ok then { state with pc := .group (.start config), socket := true }
      else { state with pc := .restart }
  | .group _ => state
  | .restart =>
      if ok then { state with pc := .select }
      else if state.ctx then { state with pc := .cleanUp }
      else state
  | .cleanUp => { state with pc := .returned, socket := if ok then false else state.socket }
  | .returned => state

end State

def step (config : Config) (state : State) : Event → State
  | .cancel => { state with ctx := true }
  | .kubeletStop => { state with kubelet := .down }
  | .kubeletStart empties =>
      if state.kubelet = .down then
        { state with
          kubelet := .starting
          incarnation := state.incarnation + 1
          socket := if empties then false else state.socket }
      else state
  | .kubeletServe =>
      if state.kubelet = .starting then { state with kubelet := .serving } else state
  | .removeSocket => { state with socket := false }
  | .run ok => state.run config ok
  | .accepting => state.inGroup fun group =>
      if group.serve = .starting then { state with pc := .group { group with serve := .serving } }
      else state
  | .serve closes => state.inGroup fun group =>
      if group.serve = .exited then state else state.close closes { group with serve := .exited }
  | .dialSelf err => state.inGroup fun group =>
      if group.register = .dialSelf then state.register group .dialKubelet err else state
  | .dialKubelet err => state.inGroup fun group =>
      if group.register = .dialKubelet then state.register group .calling err else state
  | .accept => state.inGroup fun group =>
      if group.register = .calling then
        { state.register group .accepted false with registered := some state.incarnation }
      else state
  | .register err => state.inGroup fun group =>
      if group.register = .calling ∨ group.register = .accepted then
        state.register group .waiting err
      else state
  | .wait => state.inGroup fun group =>
      if group.register = .waiting ∧ group.done state then state.register group .exited false
      else state
  | .watch tick => state.inGroup fun group => state.watch group tick
  | .attach tick found => state.inGroup fun group => state.attach config group tick found
  | .interrupt closes => state.inGroup fun group =>
      state.close closes { group with interrupted := true }
  | .finish err => state.inGroup fun _ =>
      { state with pc := if err then .restart else .select }

def Event.outside : Event → Bool
  | .cancel | .kubeletStop | .kubeletStart _ | .kubeletServe | .removeSocket => true
  | _ => false

/-- The step is one that a library or a kubelet decides on. -/
def Event.trusted : Event → Bool
  | .kubeletStart _ | .accepting | .serve _ | .dialSelf _ | .dialKubelet _ | .accept
  | .register _ | .attach _ _ | .interrupt _ | .finish _ => true
  | _ => false

section Libraries

-- which steps the libraries and the kubelet take, and in which states
variable (can : State → Event → Prop)

def Allowed (state : State) (event : Event) : Prop := event.trusted = true → can state event

variable {can} in
theorem allowed_of_untrusted {state : State} {event : Event} (h : event.trusted = false) :
    Allowed can state event := by
  intro htrusted
  exact absurd (h.symm.trans htrusted) Bool.false_ne_true

/-- What the plugin relies on, as to what does not happen: `run.Group` interrupts once, after
a member has returned, and returns after all have; `Serve` has closed its listener when it
returns; the dial of the own server does not succeed before it serves, and that of the kubelet,
which has no context, does not end before one serves; `Register` succeeds only if the kubelet
has accepted; a kubelet that starts empties the directory of the sockets. -/
structure Safe : Prop where
  interrupts_after_first : ∀ {state group closes}, state.pc = .group group →
    can state (.interrupt closes) → group.someExited = true ∧ group.interrupted = false
  waits_for_all : ∀ {state group err}, state.pc = .group group → can state (.finish err) →
    group.interrupted = true ∧ group.allExited = true
  serve_closes : ∀ {state group closes}, state.pc = .group group → can state (.serve closes) →
    closes = true ∨ group.listening = false
  dial_served : ∀ {state group}, state.pc = .group group → can state (.dialSelf false) →
    group.serve ≠ .starting
  dial_blocks : ∀ {state group err}, state.pc = .group group → can state (.dialKubelet err) →
    state.kubelet = .serving
  register_accepted : ∀ {state group}, state.pc = .group group → can state (.register false) →
    group.register = .accepted
  kubelet_empties : ∀ {state empties}, can state (.kubeletStart empties) → empties = true

/-- As to what does happen: the first return interrupts all members, and `g.Run` returns after
the last; `Stop` ends `Serve`; the dial of the own server ends with its context, and that of the
kubelet when one serves; `Register` and the calls of `k8sclient` return. -/
structure Live : Prop where
  interrupts_all : ∀ {state group}, state.pc = .group group → group.someExited = true →
    group.interrupted = false → ∃ closes, can state (.interrupt closes)
  run_returns : ∀ {state group}, state.pc = .group group → group.interrupted = true →
    group.allExited = true → ∃ err, can state (.finish err)
  stop_ends_serve : ∀ {state group}, state.pc = .group group → group.interrupted = true →
    group.serve ≠ .exited → ∃ closes, can state (.serve closes)
  dial_ends : ∀ {state group}, state.pc = .group group → group.register = .dialSelf →
    group.done state = true → ∃ err, can state (.dialSelf err)
  dial_connects : ∀ {state group}, state.pc = .group group → group.register = .dialKubelet →
    state.kubelet = .serving → ∃ err, can state (.dialKubelet err)
  register_returns : ∀ {state group}, state.pc = .group group →
    group.register = .calling ∨ group.register = .accepted → ∃ err, can state (.register err)
  client_returns : ∀ {state group}, state.pc = .group group → group.attach = .ensuring ∨
    group.attach = .ticking → group.done state = true → ∃ found, can state (.attach false found)

end Libraries

/-! What the group keeps up. -/

structure Group.Sound (state : State) (group : Group) : Prop where
  closed : group.listening = false → state.socket = false
  exited : group.serve = .exited → group.listening = false
  listens : group.listening = false → group.someExited = true
  interrupted : group.interrupted = true → group.someExited = true
  served : group.register ≠ .dialSelf → group.register ≠ .exited → group.serve ≠ .starting
  current : group.register = .accepted ∨ group.register = .waiting → state.socket = true →
    state.registered = some state.incarnation

def State.Sound (state : State) : Prop :=
  match state.pc with
  | .group group => group.Sound state
  | _ => state.socket = false

theorem start_sound (kubelet : Kubelet) : (State.start kubelet).Sound := rfl

theorem Group.start_sound (config : Config) (state : State) :
    (Group.start config).Sound { state with pc := .group (.start config), socket := true } := by
  constructor <;> simp [Group.start]

section Members

variable {state : State} {group : Group}

theorem State.Sound.inGroup (h : state.Sound) {act : Group → State}
    (hact : ∀ group, state.pc = .group group → group.Sound state → (act group).Sound) :
    (state.inGroup act).Sound := by
  unfold State.inGroup
  split
  · rename_i group hpc
    apply hact group hpc
    rwa [State.Sound, hpc] at h
  · exact h

theorem Group.Sound.stays (h : group.Sound state) (hpc : state.pc = .group group) :
    state.Sound := by
  rwa [State.Sound, hpc]

theorem State.Sound.inGroup_ite (h : state.Sound) {ready : Group → Prop} [DecidablePred ready]
    {act : Group → State}
    (hact : ∀ group, state.pc = .group group → group.Sound state → ready group →
      (act group).Sound) :
    (state.inGroup fun group => if ready group then act group else state).Sound := by
  refine h.inGroup fun group hpc hgroup => ?_
  split
  · rename_i hready
    exact hact group hpc hgroup hready
  · exact hgroup.stays hpc

theorem Group.Sound.close (h : group.Sound state) (closes : Bool)
    (hexited : group.someExited = true) : (state.close closes group).Sound := by
  unfold State.close
  split
  · exact ⟨fun _ => rfl, fun _ => rfl, fun _ => hexited, h.interrupted, h.served, by simp⟩
  · exact ⟨h.closed, h.exited, h.listens, h.interrupted, h.served, h.current⟩

theorem Group.Sound.accepting (h : group.Sound state) (hstarting : group.serve = .starting) :
    State.Sound { state with pc := .group { group with serve := .serving } } := by
  have hexited (h : group.someExited = true) :
      Group.someExited { group with serve := .serving } = true := by
    simpa [Group.someExited, hstarting] using h
  exact ⟨h.closed, by simp, fun hclosed => hexited (h.listens hclosed),
    fun hinterrupted => hexited (h.interrupted hinterrupted), by simp, h.current⟩

theorem Group.Sound.serve (h : group.Sound state) {closes : Bool}
    (hcloses : closes = true ∨ group.listening = false) :
    (state.close closes { group with serve := .exited }).Sound := by
  have hexited : Group.someExited { group with serve := .exited } = true := by
    simp [Group.someExited]
  unfold State.close
  split
  · exact ⟨fun _ => rfl, fun _ => rfl, fun _ => hexited, fun _ => hexited, by simp, by simp⟩
  · rename_i hopen
    exact ⟨h.closed, fun _ => hcloses.resolve_left hopen, fun _ => hexited, fun _ => hexited,
      by simp, h.current⟩

theorem Group.Sound.interrupt (h : group.Sound state) (closes : Bool)
    (hexited : group.someExited = true) :
    (state.close closes { group with interrupted := true }).Sound := by
  have hnext : Group.Sound state { group with interrupted := true } :=
    ⟨h.closed, h.exited, h.listens, fun _ => hexited, h.served, h.current⟩
  exact hnext.close closes hexited

theorem Group.Sound.finish (h : group.Sound state) (hall : group.allExited = true) (err : Bool) :
    State.Sound { state with pc := if err then .restart else .select } := by
  -- the listener is closed by the time all members have returned
  have hexited : group.serve = .exited := by
    simp only [Group.allExited, Bool.and_eq_true, beq_iff_eq] at hall
    exact hall.1.1.1
  have hsocket := h.closed (h.exited hexited)
  cases err with
  | false => exact hsocket
  | true => exact hsocket

theorem Group.Sound.member (h : group.Sound state) {next : Group}
    (hserver : next.serve = group.serve ∧ next.listening = group.listening ∧
      next.interrupted = group.interrupted)
    (hexited : group.someExited = true → next.someExited = true)
    (hserved : next.register ≠ .dialSelf → next.register ≠ .exited → next.serve ≠ .starting)
    (hcurrent : next.register = .accepted ∨ next.register = .waiting → state.socket = true →
      state.registered = some state.incarnation) :
    State.Sound { state with pc := .group next } := by
  obtain ⟨hserve, hlistening, hinterrupted⟩ := hserver
  refine ⟨?_, ?_, ?_, ?_, hserved, hcurrent⟩
  · rw [hlistening]
    exact h.closed
  · rw [hserve, hlistening]
    exact h.exited
  · rw [hlistening]
    exact fun hclosed => hexited (h.listens hclosed)
  · rw [hinterrupted]
    exact fun hinterrupted => hexited (h.interrupted hinterrupted)

theorem Group.Sound.register (h : group.Sound state) (hpresent : group.register ≠ .exited)
    {next : RegisterPc} {err : Bool}
    (hserved : err = false → next ≠ .exited → group.serve ≠ .starting)
    (hcurrent : err = false → next = .accepted ∨ next = .waiting → state.socket = true →
      state.registered = some state.incarnation) :
    (state.register group next err).Sound := by
  refine h.member ⟨rfl, rfl, rfl⟩ ?_ ?_ ?_
  · simp only [Group.someExited, Bool.or_eq_true, beq_iff_eq]
    rintro (((hserve | hregister) | hwatch) | hattach)
    · exact .inl (.inl (.inl hserve))
    · exact absurd hregister hpresent
    · exact .inl (.inr hwatch)
    · exact .inr hattach
  · cases err with
    | false => exact fun _ hnext => hserved rfl hnext
    | true => simp
  · cases err with
    | false => exact hcurrent rfl
    | true => simp

theorem Group.Sound.watch (h : group.Sound state) (hpc : state.pc = .group group) (tick : Bool) :
    (state.watch group tick).Sound := by
  have hleaves : State.Sound { state with pc := .group { group with watch := .exited } } :=
    h.member ⟨rfl, rfl, rfl⟩ (by simp [Group.someExited]) h.served h.current
  unfold State.watch
  split
  · split
    · split
      · exact h.stays hpc
      · exact hleaves
    · split
      · exact hleaves
      · exact h.stays hpc
  · exact h.stays hpc

theorem Group.Sound.attach (h : group.Sound state) (hpc : state.pc = .group group)
    (config : Config) (tick found : Bool) : (state.attach config group tick found).Sound := by
  have hleaves : State.Sound { state with pc := .group { group with attach := .exited } } :=
    h.member ⟨rfl, rfl, rfl⟩ (by simp [Group.someExited]) h.served h.current
  unfold State.attach
  split
  · exact h.stays hpc
  · rename_i hattach
    refine h.member ⟨rfl, rfl, rfl⟩ ?_ h.served h.current
    simp only [Group.someExited, hattach, Bool.or_eq_true, beq_iff_eq, reduceCtorEq, or_false]
    exact .inl
  · split
    · split
      · exact h.stays hpc
      · exact hleaves
    · split
      · exact hleaves
      · exact h.stays hpc
  · exact h.stays hpc

end Members

theorem State.Sound.run {state : State} (h : state.Sound) (config : Config) (ok : Bool) :
    (state.run config ok).Sound := by
  unfold State.run
  split
  · rename_i hpc
    rw [State.Sound, hpc] at h
    split
    · exact h
    · exact h
  · rename_i hpc
    rw [State.Sound, hpc] at h
    split
    · exact h
    · split
      · exact Group.start_sound config state
      · exact h
  · exact h
  · rename_i hpc
    have hsocket := h
    rw [State.Sound, hpc] at hsocket
    split
    · exact hsocket
    · split
      · exact hsocket
      · exact h
  · rename_i hpc
    rw [State.Sound, hpc] at h
    simp only [State.Sound]
    split
    · rfl
    · exact h
  · exact h

theorem State.Sound.frame {state next : State} (h : state.Sound) (hpc : next.pc = state.pc)
    (hsocket : next.socket = false ∨ next.socket = state.socket ∧
      next.registered = state.registered ∧ next.incarnation = state.incarnation) :
    next.Sound := by
  have hremoved : state.socket = false → next.socket = false := by
    intro hnone
    cases hsocket with
    | inl hremoved => exact hremoved
    | inr hsame => exact hsame.1.trans hnone
  rw [State.Sound] at h ⊢
  rw [hpc]
  split
  · rename_i group hgroup
    rw [hgroup] at h
    refine ⟨fun hclosed => hremoved (h.closed hclosed), h.exited, h.listens, h.interrupted,
      h.served, fun hregister hexists => ?_⟩
    cases hsocket with
    | inl hgone => exact absurd (hgone.symm.trans hexists) Bool.false_ne_true
    | inr hsame =>
        rw [hsame.2.1, hsame.2.2]
        exact h.current hregister (hsame.1.symm.trans hexists)
  · rename_i hother
    apply hremoved
    split at h
    · rename_i group hgroup
      exact absurd hgroup (hother group)
    · exact h

theorem Safe.step_sound {can : State → Event → Prop} (hsafe : Safe can) (config : Config)
    (state : State) (event : Event) (hallowed : Allowed can state event) (h : state.Sound) :
    (step config state event).Sound := by
  cases event with
  | cancel => exact h.frame rfl (.inr ⟨rfl, rfl, rfl⟩)
  | kubeletStop => exact h.frame rfl (.inr ⟨rfl, rfl, rfl⟩)
  | kubeletStart empties =>
      simp only [step, hsafe.kubelet_empties (hallowed rfl)]
      split
      · exact h.frame rfl (.inl rfl)
      · exact h
  | kubeletServe =>
      simp only [step]
      split
      · exact h.frame rfl (.inr ⟨rfl, rfl, rfl⟩)
      · exact h
  | removeSocket => exact h.frame rfl (.inl rfl)
  | run ok => exact h.run config ok
  | accepting => exact h.inGroup_ite fun group _ hgroup hstarting => hgroup.accepting hstarting
  | serve closes =>
      refine h.inGroup fun group hpc hgroup => ?_
      split
      · exact hgroup.stays hpc
      · exact hgroup.serve (hsafe.serve_closes hpc (hallowed rfl))
  | dialSelf err =>
      refine h.inGroup_ite fun group hpc hgroup hdial => ?_
      refine hgroup.register (by simp [hdial]) (fun hok _ => ?_) (by simp)
      subst hok
      exact hsafe.dial_served hpc (hallowed rfl)
  | dialKubelet err =>
      refine h.inGroup_ite fun group _ hgroup hdial => ?_
      exact hgroup.register (by simp [hdial])
        (fun _ _ => hgroup.served (by simp [hdial]) (by simp [hdial])) (by simp)
  | accept =>
      refine h.inGroup_ite fun group _ hgroup hcalling => ?_
      have hnext : Group.Sound { state with registered := some state.incarnation } group :=
        ⟨hgroup.closed, hgroup.exited, hgroup.listens, hgroup.interrupted, hgroup.served,
          fun _ _ => rfl⟩
      exact hnext.register (by simp [hcalling])
        (fun _ _ => hgroup.served (by simp [hcalling]) (by simp [hcalling])) fun _ _ _ => rfl
  | register err =>
      refine h.inGroup_ite fun group hpc hgroup hcall => ?_
      have hpresent : group.register ≠ .dialSelf ∧ group.register ≠ .exited := by
        rcases hcall with hcall | hcall <;> simp [hcall]
      refine hgroup.register hpresent.2 (fun _ _ => hgroup.served hpresent.1 hpresent.2)
        fun hok _ => ?_
      subst hok
      exact hgroup.current (.inl (hsafe.register_accepted hpc (hallowed rfl)))
  | wait =>
      refine h.inGroup_ite fun group _ hgroup hwait => ?_
      exact hgroup.register (by simp [hwait.1]) (by simp) (by simp)
  | watch tick => exact h.inGroup fun group hpc hgroup => hgroup.watch hpc tick
  | attach tick found =>
      exact h.inGroup fun group hpc hgroup => hgroup.attach hpc config tick found
  | interrupt closes =>
      refine h.inGroup fun group hpc hgroup => ?_
      exact hgroup.interrupt closes (hsafe.interrupts_after_first hpc (hallowed rfl)).1
  | finish err =>
      refine h.inGroup fun group hpc hgroup => ?_
      exact hgroup.finish (hsafe.waits_for_all hpc (hallowed rfl)).2 err

def Permitted (can : State → Event → Prop) (config : Config) (start : State)
    (events : List Event) : Prop :=
  ∀ move ∈ moves (step config) start events, Allowed can move.1 move.2

theorem Safe.run_sound {can : State → Event → Prop} (hsafe : Safe can) {config : Config}
    {start : State} (hstart : start.Sound) {events : List Event}
    (hevents : Permitted can config start events) :
    (final (step config) start events).Sound :=
  final_invariant_allowed (step config) State.Sound (Allowed can) (hsafe.step_sound config) events
    start hevents hstart

/-- As long as nobody in the group has returned after the registration, the plugin serves, and
if the file of its socket exists, the present kubelet has accepted the registration. Without a
group there is no file, so that a restart never finds one, and `Run` leaves none. -/
theorem registration_current {can : State → Event → Prop} (hsafe : Safe can) (config : Config)
    (kubelet : Kubelet) {events : List Event}
    (hevents : Permitted can config (State.start kubelet) events) :
    let state := final (step config) (State.start kubelet) events
    (∀ group, state.pc = .group group → group.someExited = false → group.register = .waiting →
      group.serve = .serving ∧ group.listening = true ∧
        (state.socket = true → state.registered = some state.incarnation)) ∧
      ((∀ group, state.pc ≠ .group group) → state.socket = false) := by
  intro state
  have h : state.Sound := hsafe.run_sound (start_sound kubelet) hevents
  rw [State.Sound] at h
  constructor
  · intro group hpc hexited hregister
    rw [hpc] at h
    have hstarted := h.served (by simp [hregister]) (by simp [hregister])
    refine ⟨?_, ?_, h.current (.inr hregister)⟩
    · cases hserve : group.serve with
      | starting => exact absurd hserve hstarted
      | serving => rfl
      | exited => simp [Group.someExited, hserve] at hexited
    · cases hlistening : group.listening with
      | true => rfl
      | false => exact absurd (hexited.symm.trans (h.listens hlistening)) Bool.false_ne_true
  · intro hnone
    split at h
    · rename_i group hpc
      exact absurd hpc (hnone group)
    · exact h

def libraries (state : State) (event : Event) : Bool :=
  match state.pc, event with
  | _, .kubeletStart empties => empties
  | .group group, .serve closes => closes || !group.listening
  | .group group, .dialSelf err => err || group.serve != .starting
  | .group _, .dialKubelet _ => state.kubelet == .serving
  | .group group, .register err => err || group.register == .accepted
  | .group group, .interrupt _ => group.someExited && !group.interrupted
  | .group group, .finish _ => group.interrupted && group.allExited
  | _, _ => true

theorem libraries_safe : Safe fun state event => libraries state event = true where
  interrupts_after_first hpc h := by simpa [libraries, hpc] using h
  waits_for_all hpc h := by simpa [libraries, hpc] using h
  serve_closes hpc h := by simpa [libraries, hpc] using h
  dial_served hpc h := by simpa [libraries, hpc] using h
  dial_blocks hpc h := by simpa [libraries, hpc] using h
  register_accepted hpc h := by simpa [libraries, hpc] using h
  kubelet_empties h := by simpa [libraries] using h

theorem registration_current_restarted :
    let events : List Event := [.run true, .run true, .accepting, .dialSelf false,
      .dialKubelet false, .accept, .register false, .kubeletStop, .kubeletStart true]
    let state := final (step ⟨true, false⟩) (State.start .serving) events
    state.pc = .group ⟨.serving, .waiting, .ticking, .absent, true, false⟩ ∧
      (state.socket = true → state.registered = some state.incarnation) := by
  refine ⟨rfl, ?_⟩
  exact ((registration_current libraries_safe ⟨true, false⟩ .serving
    (by unfold Permitted Allowed; decide)).1 _ rfl rfl rfl).2.2

end VirtualSfc.Plugin.Lifecycle
