import VirtualSfc.Plugin.Lifecycle
import VirtualSfc.Plugin.Shutdown

/-! How the life of a plugin ends: a cancelled `Run` returns, unless it is in the dial of
`registerWithKubelet` and no kubelet serves. -/
namespace VirtualSfc.Plugin.Lifecycle
open Base.Run

def ServePc.left : ServePc → Nat
  | .starting => 2
  | .serving => 1
  | .exited => 0

def RegisterPc.left : RegisterPc → Nat
  | .dialSelf => 5
  | .dialKubelet => 4
  | .calling => 3
  | .accepted => 2
  | .waiting => 1
  | .exited => 0

def WatchPc.left : WatchPc → Nat
  | .ticking => 1
  | .exited => 0

def AttachPc.left : AttachPc → Nat
  | .ensuring => 2
  | .ticking => 1
  | .absent | .exited => 0

def Group.left (group : Group) : Nat :=
  group.serve.left + group.register.left + group.watch.left + group.attach.left +
    if group.interrupted then 0 else 1

def State.left (state : State) : Nat :=
  match state.pc with
  | .returned => 0
  | .cleanUp => 1
  | .select => 2
  | .restart => 3
  | .group group => 4 + group.left
  | .listen => 16

section Ending

variable {state : State} {group : Group}

theorem State.left_group (hpc : state.pc = .group group) : state.left = 4 + group.left := by
  rw [State.left, hpc]

theorem inGroup_left {act : Group → State}
    (hact : ∀ group, state.pc = .group group →
      act group = state ∨ (act group).left < 4 + group.left) :
    state.inGroup act = state ∨ (state.inGroup act).left < state.left := by
  unfold State.inGroup
  split
  · rename_i group hpc
    rw [State.left_group hpc]
    exact hact group hpc
  · exact .inl rfl

theorem inGroup_ite_left {ready : Group → Prop} [DecidablePred ready] {act : Group → State}
    (hact : ∀ group, ready group → (act group).left < 4 + group.left) :
    (state.inGroup fun group => if ready group then act group else state) = state ∨
      (state.inGroup fun group => if ready group then act group else state).left < state.left := by
  refine inGroup_left fun group _ => ?_
  split
  · rename_i hready
    exact .inr (hact group hready)
  · exact .inl rfl

theorem close_left (state : State) (closes : Bool) (group : Group) :
    (state.close closes group).left = 4 + group.left := by
  unfold State.close
  split <;> rfl

theorem serve_left (state : State) (closes : Bool) (hserve : group.serve ≠ .exited) :
    (state.close closes { group with serve := .exited }).left < 4 + group.left := by
  have hless : ServePc.exited.left < group.serve.left := by
    cases hpc : group.serve with
    | exited => exact absurd hpc hserve
    | starting | serving => decide
  rw [close_left]
  simp only [Group.left]
  omega

theorem register_left (state : State) {next : RegisterPc} (err : Bool)
    (hnext : next.left < group.register.left) :
    (state.register group next err).left < 4 + group.left := by
  have hless : (if err then RegisterPc.exited else next).left < group.register.left := by
    cases err with
    | false => exact hnext
    | true => exact Nat.zero_lt_of_lt hnext
  simp only [State.left, State.register, Group.left]
  omega

theorem watch_left (state : State) (group : Group) (tick : Bool) :
    state.watch group tick = state ∨ (state.watch group tick).left < 4 + group.left := by
  unfold State.watch
  split
  · rename_i hwatch
    split
    · split
      · exact .inl rfl
      · right
        simp [State.left, Group.left, WatchPc.left, hwatch]
    · split
      · right
        simp [State.left, Group.left, WatchPc.left, hwatch]
      · exact .inl rfl
  · exact .inl rfl

theorem attach_left (config : Config) (state : State) (group : Group) (tick found : Bool) :
    state.attach config group tick found = state ∨
      (state.attach config group tick found).left < 4 + group.left := by
  unfold State.attach
  split
  · exact .inl rfl
  · rename_i hattach
    right
    cases config.client <;> simp [State.left, Group.left, AttachPc.left, hattach]
  · rename_i hattach
    split
    · split
      · exact .inl rfl
      · right
        simp [State.left, Group.left, AttachPc.left, hattach]
    · split
      · right
        simp [State.left, Group.left, AttachPc.left, hattach]
      · exact .inl rfl
  · exact .inl rfl

theorem finish_left (state : State) (group : Group) (err : Bool) :
    State.left { state with pc := if err then .restart else .select } < 4 + group.left := by
  cases err with
  | false =>
      simp only [State.left, Bool.false_eq_true, if_false]
      omega
  | true =>
      simp only [State.left, if_true]
      omega

theorem start_left (config : Config) : 4 + (Group.start config).left < 16 := by
  unfold Group.start
  split <;> decide

theorem run_left (config : Config) (hctx : state.ctx = true) (ok : Bool) :
    state.run config ok = state ∨ (state.run config ok).left < state.left := by
  unfold State.run
  split
  · rename_i hpc
    right
    rw [if_pos hctx]
    simp [State.left, hpc]
  · rename_i hpc
    right
    split
    · simp [State.left, hpc]
    · split
      · simp only [State.left, hpc]
        exact start_left config
      · simp [State.left, hpc]
  · exact .inl rfl
  · rename_i hpc
    right
    rw [if_pos hctx]
    split
    · simp [State.left, hpc]
    · simp [State.left, hpc]
  · rename_i hpc
    right
    simp [State.left, hpc]
  · exact .inl rfl

theorem Safe.step_left {can : State → Event → Prop} (hsafe : Safe can) (config : Config)
    (hctx : state.ctx = true) {event : Event} (hallowed : Allowed can state event)
    (hown : event.outside = false) :
    step config state event = state ∨ (step config state event).left < state.left := by
  cases event with
  | cancel | kubeletStop | kubeletStart | kubeletServe | removeSocket =>
      simp [Event.outside] at hown
  | run ok => exact run_left config hctx ok
  | accepting =>
      refine inGroup_ite_left fun group hserve => ?_
      simp [State.left, Group.left, ServePc.left, hserve]
  | serve closes =>
      refine inGroup_left fun group _ => ?_
      split
      · exact .inl rfl
      · rename_i hserve
        exact .inr (serve_left state closes hserve)
  | dialSelf err =>
      exact inGroup_ite_left fun group hdial =>
        register_left state err (by rw [hdial]; decide)
  | dialKubelet err =>
      exact inGroup_ite_left fun group hdial =>
        register_left state err (by rw [hdial]; decide)
  | accept =>
      exact inGroup_ite_left fun group hcalling =>
        register_left state false (by rw [hcalling]; decide)
  | register err =>
      refine inGroup_ite_left fun group hcall => register_left state err ?_
      rcases hcall with hcall | hcall <;> rw [hcall] <;> decide
  | wait =>
      exact inGroup_ite_left fun group hwait =>
        register_left state false (by rw [hwait.1]; decide)
  | watch tick => exact inGroup_left fun group _ => watch_left state group tick
  | attach tick found => exact inGroup_left fun group _ => attach_left config state group tick found
  | interrupt closes =>
      refine inGroup_left fun group hpc => .inr ?_
      have hfirst := (hsafe.interrupts_after_first hpc (hallowed rfl)).2
      simp [close_left, Group.left, hfirst]
  | finish err => exact inGroup_left fun group _ => .inr (finish_left state group err)

theorem inGroup_ctx {act : Group → State} (hact : ∀ group, (act group).ctx = state.ctx) :
    (state.inGroup act).ctx = state.ctx := by
  unfold State.inGroup
  split
  · exact hact _
  · rfl

theorem step_ctx (config : Config) (state : State) {event : Event} (hcancel : event ≠ .cancel) :
    (step config state event).ctx = state.ctx := by
  cases event with
  | cancel => exact absurd rfl hcancel
  | kubeletStop | removeSocket => rfl
  | kubeletStart | kubeletServe =>
      simp only [step]
      split <;> rfl
  | run ok =>
      simp only [step, State.run]
      repeat' split
      all_goals rfl
  | finish err => exact inGroup_ctx fun _ => rfl
  | accepting | dialSelf | dialKubelet | accept | register | wait =>
      refine inGroup_ctx fun group => ?_
      split <;> rfl
  | serve | interrupt =>
      refine inGroup_ctx fun group => ?_
      simp only [State.close]
      repeat' split
      all_goals rfl
  | watch | attach =>
      refine inGroup_ctx fun group => ?_
      simp only [State.watch, State.attach]
      repeat' split
      all_goals rfl

end Ending

/-- No step that the libraries take leads further, unless something happens outside. -/
def Rests (can : State → Event → Prop) (config : Config) (state : State) : Prop :=
  ∀ event : Event, event.outside = false → Allowed can state event →
    step config state event = state

/-- All members have returned after the interrupt, except for the one that dials the kubelet. -/
structure Group.Hangs (group : Group) : Prop where
  interrupted : group.interrupted = true
  serve : group.serve = .exited
  register : group.register = .dialKubelet
  watch : group.watch = .exited
  attach : group.attach = .exited ∨ group.attach = .absent

def State.Hangs (state : State) : Prop :=
  ∃ group, state.pc = .group group ∧ group.Hangs ∧ state.kubelet ≠ .serving

section Rest

variable {can : State → Event → Prop} {config : Config} {state : State} {group : Group}

theorem Rests.left (h : Rests can config state) (event : Event) (hown : event.outside = false)
    (hallowed : Allowed can state event) : (step config state event).left = state.left :=
  congrArg State.left (h event hown hallowed)

theorem Rests.not_left_lt (h : Rests can config state) (hpc : state.pc = .group group)
    {event : Event} (hown : event.outside = false) (hallowed : Allowed can state event) :
    ¬ (step config state event).left < 4 + group.left := by
  rw [h.left event hown hallowed, State.left_group hpc]
  exact Nat.lt_irrefl _

theorem Rests.watch (h : Rests can config state) (hpc : state.pc = .group group)
    (hdone : group.done state = true) : group.watch = .exited := by
  have hleft := h.left (.watch false) rfl (allowed_of_untrusted rfl)
  cases hwatch : group.watch with
  | exited => rfl
  | ticking =>
      simp [step, State.inGroup, hpc, State.watch, hwatch, hdone, State.left, Group.left,
        WatchPc.left] at hleft

theorem Rests.interrupted (h : Rests can config state) (hlive : Live can)
    (hpc : state.pc = .group group) (hexited : group.someExited = true) :
    group.interrupted = true := by
  cases hinterrupted : group.interrupted with
  | true => rfl
  | false =>
      obtain ⟨closes, hcan⟩ := hlive.interrupts_all hpc hexited hinterrupted
      have hleft := h.left _ rfl fun _ => hcan
      simp [step, State.inGroup, hpc, close_left, State.left_group hpc, Group.left,
        hinterrupted] at hleft

theorem Rests.serve (h : Rests can config state) (hlive : Live can)
    (hpc : state.pc = .group group) (hinterrupted : group.interrupted = true) :
    group.serve = .exited := by
  by_contra hserve
  obtain ⟨closes, hcan⟩ := hlive.stop_ends_serve hpc hinterrupted hserve
  apply h.not_left_lt hpc rfl fun _ => hcan
  simp only [step, State.inGroup, hpc, if_neg hserve]
  exact serve_left state closes hserve

theorem Rests.attach (h : Rests can config state) (hlive : Live can)
    (hpc : state.pc = .group group) (hdone : group.done state = true) :
    group.attach = .exited ∨ group.attach = .absent := by
  cases hattach : group.attach with
  | exited => exact .inl rfl
  | absent => exact .inr rfl
  | ensuring =>
      obtain ⟨found, hcan⟩ := hlive.client_returns hpc (.inl hattach) hdone
      have hleft := h.left _ rfl fun _ => hcan
      cases hclient : config.client <;>
        simp [step, State.inGroup, hpc, State.attach, hattach, hclient, State.left, Group.left,
          AttachPc.left] at hleft
  | ticking =>
      obtain ⟨found, hcan⟩ := hlive.client_returns hpc (.inr hattach) hdone
      have hleft := h.left _ rfl fun _ => hcan
      simp [step, State.inGroup, hpc, State.attach, hattach, hdone, State.left, Group.left,
        AttachPc.left] at hleft

theorem Rests.register (h : Rests can config state) (hlive : Live can)
    (hpc : state.pc = .group group) (hdone : group.done state = true) :
    group.register = .exited ∨ group.register = .dialKubelet ∧ state.kubelet ≠ .serving := by
  have hstays (next : RegisterPc) (err : Bool) {event : Event} (hown : event.outside = false)
      (hallowed : Allowed can state event) (hnext : next.left < group.register.left)
      (hstep : step config state event = state.register group next err) : False := by
    apply h.not_left_lt hpc hown hallowed
    rw [hstep]
    exact register_left state err hnext
  cases hregister : group.register with
  | exited => exact .inl rfl
  | dialSelf =>
      obtain ⟨err, hcan⟩ := hlive.dial_ends hpc hregister hdone
      exact (hstays .dialKubelet err rfl (fun _ => hcan) (by rw [hregister]; decide)
        (by simp [step, State.inGroup, hpc, hregister])).elim
  | dialKubelet =>
      refine .inr ⟨rfl, fun hkubelet => ?_⟩
      obtain ⟨err, hcan⟩ := hlive.dial_connects hpc hregister hkubelet
      exact hstays .calling err rfl (fun _ => hcan) (by rw [hregister]; decide)
        (by simp [step, State.inGroup, hpc, hregister])
  | calling =>
      obtain ⟨err, hcan⟩ := hlive.register_returns hpc (.inl hregister)
      exact (hstays .waiting err rfl (fun _ => hcan) (by rw [hregister]; decide)
        (by simp [step, State.inGroup, hpc, hregister])).elim
  | accepted =>
      obtain ⟨err, hcan⟩ := hlive.register_returns hpc (.inr hregister)
      exact (hstays .waiting err rfl (fun _ => hcan) (by rw [hregister]; decide)
        (by simp [step, State.inGroup, hpc, hregister])).elim
  | waiting =>
      exact (@hstays .exited false .wait rfl (allowed_of_untrusted rfl)
        (by rw [hregister]; decide)
        (by simp [step, State.inGroup, hpc, hregister, hdone])).elim

theorem Rests.hangs (h : Rests can config state) (hlive : Live can) (hctx : state.ctx = true)
    (hpc : state.pc = .group group) : state.Hangs := by
  have hdone : group.done state = true := by rw [Group.done, hctx, Bool.true_or]
  have hwatch := h.watch hpc hdone
  have hinterrupted := h.interrupted hlive hpc (by simp [Group.someExited, hwatch])
  have hserve := h.serve hlive hpc hinterrupted
  have hattach := h.attach hlive hpc hdone
  cases h.register hlive hpc hdone with
  | inl hregister =>
      have hall : group.allExited = true := by
        simp [Group.allExited, hserve, hregister, hwatch, hattach]
      obtain ⟨err, hcan⟩ := hlive.run_returns hpc hinterrupted hall
      refine absurd ?_ (h.not_left_lt hpc rfl fun _ => hcan)
      simp only [step, State.inGroup, hpc]
      exact finish_left state group err
  | inr hdial => exact ⟨group, hpc, ⟨hinterrupted, hserve, hdial.1, hwatch, hattach⟩, hdial.2⟩

theorem Rests.returned_or_hangs (h : Rests can config state) (hlive : Live can)
    (hctx : state.ctx = true) : state.pc = .returned ∨ state.Hangs := by
  have hleft := h.left (.run false) rfl (allowed_of_untrusted rfl)
  cases hpc : state.pc with
  | returned => exact .inl rfl
  | select => simp [step, State.run, State.left, hpc, hctx] at hleft
  | listen => simp [step, State.run, State.left, hpc] at hleft
  | restart => simp [step, State.run, State.left, hpc, hctx] at hleft
  | cleanUp => simp [step, State.run, State.left, hpc] at hleft
  | group group => exact .inr (h.hangs hlive hctx hpc)

theorem rests_of_returned (can : State → Event → Prop) (config : Config)
    (hpc : state.pc = .returned) : Rests can config state := by
  intro event hown _
  cases event with
  | cancel | kubeletStop | kubeletStart | kubeletServe | removeSocket =>
      simp [Event.outside] at hown
  | run => simp only [step, State.run, hpc]
  | accepting | serve | dialSelf | dialKubelet | accept | register | wait | watch | attach
  | interrupt | finish => simp only [step, State.inGroup, hpc]

theorem Safe.rests_of_hangs (hsafe : Safe can) (config : Config) (h : state.Hangs) :
    Rests can config state := by
  obtain ⟨group, hpc, hgroup, hkubelet⟩ := h
  intro event hown hallowed
  cases event with
  | cancel | kubeletStop | kubeletStart | kubeletServe | removeSocket =>
      simp [Event.outside] at hown
  | run => simp only [step, State.run, hpc]
  | accepting | serve => simp [step, State.inGroup, hpc, hgroup.serve]
  | dialSelf | accept | register | wait => simp [step, State.inGroup, hpc, hgroup.register]
  | dialKubelet => exact absurd (hsafe.dial_blocks hpc (hallowed rfl)) hkubelet
  | watch => simp [step, State.inGroup, hpc, State.watch, hgroup.watch]
  | attach =>
      rcases hgroup.attach with hattach | hattach <;>
        simp [step, State.inGroup, hpc, State.attach, hattach]
  | interrupt =>
      have hfirst := (hsafe.interrupts_after_first hpc (hallowed rfl)).2
      exact absurd (hfirst.symm.trans hgroup.interrupted) Bool.false_ne_true
  | finish =>
      have hall := (hsafe.waits_for_all hpc (hallowed rfl)).2
      simp [Group.allExited, hgroup.register] at hall

end Rest

theorem Group.left_le (group : Group) : group.left ≤ 11 := by
  have hserve : group.serve.left ≤ 2 := by cases group.serve <;> decide
  have hregister : group.register.left ≤ 5 := by cases group.register <;> decide
  have hwatch : group.watch.left ≤ 1 := by cases group.watch <;> decide
  have hattach : group.attach.left ≤ 2 := by cases group.attach <;> decide
  unfold Group.left
  split
  · omega
  · omega

theorem State.left_le (state : State) : state.left ≤ 16 := by
  cases hpc : state.pc with
  | group group =>
      have hgroup := group.left_le
      rw [State.left_group hpc]
      omega
  | select | listen | restart | cleanUp | returned => simp [State.left, hpc]

theorem step_own_ctx (config : Config) (state : State) {event : Event}
    (hown : event.outside = false) : (step config state event).ctx = state.ctx := by
  apply step_ctx
  rintro rfl
  exact absurd hown (by decide)

theorem Permitted.own {can : State → Event → Prop} {config : Config} {start : State}
    {own : List Event} (hpermitted : Permitted can config start own)
    (hown : ∀ event ∈ own, event.outside = false) :
    ∀ move ∈ moves (step config) start own,
      Allowed can move.1 move.2 ∧ move.2.outside = false := by
  intro move hmove
  have hinput := moves_invariant (step config) (fun _ => True) own (fun _ _ _ _ => trivial)
    start trivial move hmove
  exact ⟨hpermitted move hmove, hown _ hinput.2⟩

/-- Once the context is cancelled, the plugin takes a bounded number of further steps in every
schedule, as long as nothing happens outside. They end exactly where `Run` has returned, without
its socket, or hangs in the dial of the kubelet, which does not know the context. -/
theorem cancelled_run_ends {can : State → Event → Prop} (hsafe : Safe can) (hlive : Live can)
    (config : Config) (kubelet : Kubelet) (events own : List Event)
    (hevents : Permitted can config (State.start kubelet) events)
    (hctx : (final (step config) (State.start kubelet) events).ctx = true)
    (hpermitted : Permitted can config (final (step config) (State.start kubelet) events) own)
    (hown : ∀ event ∈ own, event.outside = false) :
    let cancelled := final (step config) (State.start kubelet) events
    let state := final (step config) cancelled own
    changes (step config) cancelled own ≤ 16 ∧
      (Rests can config state ↔ state.pc = .returned ∧ state.socket = false ∨ state.Hangs) := by
  intro cancelled state
  have hsound : state.Sound :=
    hsafe.run_sound (hsafe.run_sound (start_sound kubelet) hevents) hpermitted
  have hmoves := hpermitted.own hown
  have hkeeps (state : State) (event : Event)
      (hevent : Allowed can state event ∧ event.outside = false) (hctx : state.ctx = true) :
      (step config state event).ctx = true :=
    (step_own_ctx config state hevent.2).trans hctx
  have hchanges : changes (step config) cancelled own ≤ cancelled.left :=
    changes_le (step config) State.left (fun state => state.ctx = true)
      (fun state event => Allowed can state event ∧ event.outside = false) hkeeps
      (fun _ _ hevent hctx => hsafe.step_left config hctx hevent.1 hevent.2) own cancelled hmoves
      hctx
  have hcancelled : state.ctx = true :=
    final_invariant_allowed (step config) (fun state => state.ctx = true)
      (fun state event => Allowed can state event ∧ event.outside = false) hkeeps own cancelled
      hmoves hctx
  refine ⟨Nat.le_trans hchanges (State.left_le _), ?_, ?_⟩
  · intro hrests
    refine (hrests.returned_or_hangs hlive hcancelled).imp_left fun hreturned => ?_
    rw [State.Sound, hreturned] at hsound
    exact ⟨hreturned, hsound⟩
  · rintro (hreturned | hhangs)
    · exact rests_of_returned can config hreturned.1
    · exact hsafe.rests_of_hangs config hhangs

theorem libraries_live : Live fun state event => libraries state event = true where
  interrupts_all hpc hexited hfirst := ⟨true, by simp [libraries, hpc, hexited, hfirst]⟩
  run_returns hpc hinterrupted hall := ⟨true, by simp [libraries, hpc, hinterrupted, hall]⟩
  stop_ends_serve hpc _ _ := ⟨true, by simp [libraries, hpc]⟩
  dial_ends hpc _ _ := ⟨true, by simp [libraries, hpc]⟩
  dial_connects hpc _ hkubelet := ⟨false, by simp [libraries, hpc, hkubelet]⟩
  register_returns hpc _ := ⟨true, by simp [libraries, hpc]⟩
  client_returns _ _ _ := ⟨true, by simp [libraries]⟩

theorem cancelled_run_ends_dialing :
    let config : Config := ⟨false, true⟩
    let events : List Event := [.run true, .run true, .accepting, .dialSelf false, .cancel]
    let own : List Event := [.watch false, .interrupt true, .serve false, .attach true true,
      .attach false true]
    let rest : List Event := [.dialKubelet false, .accept, .register false, .wait, .finish true,
      .run true, .run true, .run true]
    let state := final (step config) (final (step config) (State.start .down) events) own
    let returned := final (step config) (final (step config) (State.start .serving) events)
      (own ++ rest)
    state.Hangs ∧ Rests (fun state event => libraries state event = true) config state ∧
      returned.pc = .returned ∧ changes (step config)
        (final (step config) (State.start .serving) events) (own ++ rest) ≤ 16 := by
  intro config events own rest state returned
  have hends := cancelled_run_ends libraries_safe libraries_live config .down events own
    (by unfold Permitted Allowed; decide) rfl (by unfold Permitted Allowed; decide) (by decide)
  have hserving := cancelled_run_ends libraries_safe libraries_live config .serving events
    (own ++ rest) (by unfold Permitted Allowed; decide) rfl
    (by unfold Permitted Allowed; decide) (by decide)
  have hhangs : state.Hangs := ⟨_, rfl, ⟨rfl, rfl, rfl, rfl, .inl rfl⟩, by decide⟩
  exact ⟨hhangs, hends.2.mpr (.inr hhangs), rfl, hserving.1⟩

/-! The loop is the one that the shutdown of the manager waits for. -/

def Pc.phase : Pc → Shutdown.Phase
  | .select => .select
  | .listen | .group _ => .runOnce
  | .restart => .restart
  | .cleanUp => .cleanUp
  | .returned => .cleaned

theorem inGroup_phase {state : State} {act : Group → State}
    (hact : ∀ group, state.pc = .group group → (act group).pc.phase = .runOnce) :
    (state.inGroup act).pc.phase = state.pc.phase := by
  unfold State.inGroup
  split
  · rename_i group hpc
    rw [hact group hpc, hpc]
    rfl
  · rfl

theorem run_phase (config : Config) (state : State) (ok : Bool) :
    (state.run config ok).pc.phase = state.pc.phase ∨
      ∃ choice, (state.run config ok).pc.phase = state.pc.phase.next state.ctx choice := by
  unfold State.run
  split
  · rename_i hpc
    refine .inr ⟨ok, ?_⟩
    rw [hpc]
    split
    · rename_i hctx
      simp [Pc.phase, Shutdown.Phase.next, hctx]
    · rename_i hctx
      simp [Pc.phase, Shutdown.Phase.next, hctx]
  · rename_i hpc
    -- `net.Listen` is in `RunOnce`, which goes on with the group or returns the error
    split
    · exact .inr ⟨true, by rw [hpc]; rfl⟩
    · split
      · exact .inl (by rw [hpc]; rfl)
      · exact .inr ⟨true, by rw [hpc]; rfl⟩
  · exact .inl rfl
  · rename_i hpc
    refine .inr ⟨ok, ?_⟩
    rw [hpc]
    split
    · rename_i hok
      simp [Pc.phase, Shutdown.Phase.next, hok]
    · rename_i hok
      split
      · rename_i hctx
        simp [Pc.phase, Shutdown.Phase.next, hok, hctx]
      · rename_i hctx
        simp [Pc.phase, Shutdown.Phase.next, hok, hctx, hpc]
  · rename_i hpc
    exact .inr ⟨ok, by rw [hpc]; rfl⟩
  · exact .inl rfl

theorem step_phase (config : Config) (state : State) (event : Event) :
    (step config state event).pc.phase = state.pc.phase ∨
      ∃ choice, (step config state event).pc.phase = state.pc.phase.next state.ctx choice := by
  cases event with
  | cancel | kubeletStop | removeSocket => exact .inl rfl
  | kubeletStart | kubeletServe =>
      simp only [step]
      split <;> exact .inl rfl
  | run ok => exact run_phase config state ok
  | finish err =>
      simp only [step, State.inGroup]
      split
      · rename_i group hpc
        refine .inr ⟨err, ?_⟩
        rw [hpc]
        cases err with
        | false => simp [Pc.phase, Shutdown.Phase.next]
        | true => simp [Pc.phase, Shutdown.Phase.next]
      · exact .inl rfl
  | accepting | dialSelf | dialKubelet | accept | register | wait =>
      refine .inl (inGroup_phase fun group hpc => ?_)
      split
      · rfl
      · rw [hpc, Pc.phase]
  | serve | interrupt =>
      refine .inl (inGroup_phase fun group hpc => ?_)
      simp only [State.close]
      repeat' split
      all_goals simp only [Pc.phase, hpc]
  | watch | attach =>
      refine .inl (inGroup_phase fun group hpc => ?_)
      simp only [State.watch, State.attach]
      repeat' split
      all_goals simp only [Pc.phase, hpc]

/-- A goroutine of the shutdown is where the plugin is. -/
structure Follows (shutdown : Shutdown.State) (index : Nat) (state : State) : Prop where
  running : shutdown.mgr ≠ .panicked
  ctx : shutdown.ctx = state.ctx
  phase : shutdown.goroutines[index]? = some state.pc.phase

theorem Follows.cancel {shutdown : Shutdown.State} {index : Nat} {state : State}
    (h : Follows shutdown index state) :
    Follows (Shutdown.step shutdown .cancel) index { state with ctx := true } := by
  rw [Shutdown.step, if_neg h.running]
  exact ⟨h.running, rfl, h.phase⟩

theorem Follows.plugin {shutdown : Shutdown.State} {index : Nat} {state next : State}
    (h : Follows shutdown index state) {choice : Bool} (hctx : next.ctx = state.ctx)
    (hnext : next.pc.phase = state.pc.phase.next state.ctx choice) :
    Follows (Shutdown.step shutdown (.plugin index choice)) index next := by
  obtain ⟨hindex, _⟩ := List.getElem?_eq_some_iff.mp h.phase
  simp only [Shutdown.step, if_neg h.running, Shutdown.State.advance,
    Shutdown.State.advancePlugin, h.phase]
  refine ⟨?_, h.ctx.trans hctx.symm, ?_⟩
  · dsimp only
    split
    · decide
    · exact h.running
  · rw [List.getElem?_set_self hindex, h.ctx, hnext]

theorem step_simulated (config : Config) {state : State} (event : Event)
    {shutdown : Shutdown.State} {index : Nat} (h : Follows shutdown index state) :
    ∃ moves, Follows (final Shutdown.step shutdown moves) index (step config state event) := by
  by_cases hcancel : event = .cancel
  · rw [hcancel]
    exact ⟨[.cancel], h.cancel⟩
  · have hctx := step_ctx config state hcancel
    cases step_phase config state event with
    | inl hsame => exact ⟨[], h.running, h.ctx.trans hctx.symm, by rw [hsame]; exact h.phase⟩
    | inr hnext =>
        obtain ⟨choice, hnext⟩ := hnext
        exact ⟨[.plugin index choice], h.plugin hctx hnext⟩

/-- In every run of a plugin, a goroutine of the shutdown can follow it. -/
theorem run_simulated (config : Config) (events : List Event) {state : State}
    {shutdown : Shutdown.State} {index : Nat} (h : Follows shutdown index state) :
    ∃ moves, Follows (final Shutdown.step shutdown moves) index
      (final (step config) state events) := by
  induction events generalizing state shutdown with
  | nil => exact ⟨[], h⟩
  | cons event rest ih =>
      obtain ⟨first, hfirst⟩ := step_simulated config event h
      obtain ⟨moves, hmoves⟩ := ih hfirst
      refine ⟨first ++ moves, ?_⟩
      rw [final, List.foldl_append]
      exact hmoves

end VirtualSfc.Plugin.Lifecycle
