import VirtualSfc.Driver.CharDriver

/-! Priming and polling of event queues through the patched `sfc_char` device, which
keeps one VI and one readable flag for all files. -/
namespace VirtualSfc.Driver.Prime
open Base.Run EfchManager CharDriver

/-- `efrm_nic_per_vi`: whether a wake-up is asked for, and the private state that the
VI's callback is registered with. -/
structure NicPerVi where
  wakeupPending : Bool
  callback : Option Address
deriving DecidableEq, Repr

abbrev Vis := Nat → NicPerVi

structure WakeupRequest where
  vi : Nat
  current : UInt32
deriving DecidableEq, Repr

def registerCallback (vis : Vis) (vi : Nat) (data : Address) : Except Errno Vis :=
  if (vis vi).callback ≠ none then .error .ebusy
  else .ok (Function.update vis vi { vis vi with callback := some data })

/-- The first part of `efch_vi_prime`: only the first time is the VI looked up. -/
def findVi (resources : Resources) (vis : Vis) (data : Address) (priv : PrivateChar)
    (id : Nat) : Except Errno (Nat × Vis) :=
  match priv.cpcpVi with
  | some vi => .ok (vi, vis)
  | none =>
      match idLookup resources priv.rt id with
      | .error errno => .error errno
      | .ok (_, rs) =>
          match rs.rsBase with
          | some ⟨.vi, vi⟩ => (registerCallback vis vi data).map fun after => (vi, after)
          | _ => .error .eopnotsupp

/-- `efab_vi_rm_prime`, on the VI that `cpcp_vi` has. There is no second request while one
is pending. -/
def viRmPrime (device : Device) (vis : Vis) (data : Address) (priv : PrivateChar) (vi : Nat)
    (currentPtr : UInt32) : Device × Vis × Option WakeupRequest :=
  (device.setPrivate data { priv with cpcpVi := some vi, cpcpReadable := false },
    Function.update vis vi { vis vi with wakeupPending := true },
    if (vis vi).wakeupPending then none else some ⟨vi, currentPtr / 8⟩)

def efchViPrime (device : Device) (vis : Vis) (file : Nat) (copyIn : Bool) (id : Nat)
    (currentPtr : UInt32) : Except Errno Unit × Device × Vis × Option WakeupRequest :=
  match device.private? file with
  | none => (.error .ebadf, device, vis, none)
  | some (data, priv) =>
      if ¬ copyIn then (.error .efault, device, vis, none)
      else
        match findVi device.resources vis data priv id with
        | .error errno => (.error errno, device, vis, none)
        | .ok (vi, found) => (.ok (), viRmPrime device found data priv vi currentPtr)

def viRmPrimeCb (device : Device) (data : Address) : Device :=
  match device.privates data with
  | none => device
  | some priv => device.setPrivate data { priv with cpcpReadable := true }

/-- `efrm_eventq_do_callback`, when the NIC reports a wake-up or a timeout for the VI. -/
def doCallback (device : Device) (vis : Vis) (vi : Nat) (isTimeout : Bool) : Device × Vis :=
  let after := Function.update vis vi
    { vis vi with wakeupPending := isTimeout && (vis vi).wakeupPending }
  match (vis vi).callback with
  | none => (device, after)
  | some data => (viRmPrimeCb device data, after)

def viPoll (device : Device) (file : Nat) : Bool :=
  match device.private? file with
  | none => false
  | some (_, priv) => priv.cpcpReadable

def vi? (device : Device) (file id : Nat) : Option Nat :=
  match device.resolve file id with
  | .error _ => none
  | .ok (_, rs) =>
      match rs.rsBase with
      | some ⟨.vi, vi⟩ => some vi
      | _ => none

/-- The VI named by the last successful prime through a file, and whether an event has
arrived for it since. -/
structure Primed where
  vi : Nat
  arrived : Bool
deriving DecidableEq, Repr

def Primed.event (primed : Primed) (vi : Nat) : Primed :=
  { primed with arrived := primed.arrived || primed.vi == vi }

/-- What was asked and what happened: the VI that the first successful prime named,
whether an event has arrived for it since the last successful prime through any file, the
last prime of every open file, and the VIs with a request after which no wake-up came. -/
structure History where
  first : Option Nat
  news : Bool
  primed : Nat → Option Primed
  outstanding : Nat → Bool

structure State where
  device : Device
  vis : Vis
  history : History

def State.start (pPriv : Address) : State where
  device := init pPriv
  vis := fun _ => ⟨false, none⟩
  history := ⟨none, false, fun _ => none, fun _ => false⟩

inductive Event where
  | opened (file : Nat)
  | closed (file : Nat)
  | alloc (file : Nat) (alloc : Alloc)
  | prime (file : Nat) (copyIn : Bool) (id : Nat) (currentPtr : UInt32)
  | event (vi : Nat) (isTimeout : Bool)
  | poll (file : Nat)

def State.prime (state : State) (file : Nat) (copyIn : Bool) (id : Nat) (currentPtr : UInt32) :
    State :=
  match efchViPrime state.device state.vis file copyIn id currentPtr with
  | (.error _, device, vis, _) => { state with device := device, vis := vis }
  | (.ok _, device, vis, request) =>
      let named := vi? state.device file id
      { device := device
        vis := vis
        history := {
          first := state.history.first.or named
          news := false
          primed := Function.update state.history.primed file
            (named.map fun vi => ⟨vi, false⟩)
          outstanding := fun vi =>
            state.history.outstanding vi || request.any (·.vi == vi) } }

def step (state : State) : Event → State
  | .opened file => { state with device := state.device.fopOpen file }
  | .closed file =>
      { state with
        device := state.device.fopClose file
        history.primed := Function.update state.history.primed file none }
  | .alloc file alloc =>
      { state with device := (state.device.ioctlResourceAlloc file alloc).2 }
  | .prime file copyIn id currentPtr => state.prime file copyIn id currentPtr
  | .event vi isTimeout =>
      let after := doCallback state.device state.vis vi isTimeout
      { device := after.1
        vis := after.2
        history := {
          first := state.history.first
          news := state.history.news || state.history.first == some vi
          primed := fun file => (state.history.primed file).map (·.event vi)
          outstanding := fun other =>
            state.history.outstanding other && (isTimeout || other != vi) } }
  | .poll _ => state

/-! The shared private state follows the first VI that was primed. -/

structure State.Tracks (state : State) (priv : PrivateChar) : Prop where
  shared : state.device.Shared priv
  cpcpVi_eq : priv.cpcpVi = state.history.first
  readable_eq : priv.cpcpReadable = state.history.news
  callback_eq : ∀ vi, (state.vis vi).callback =
    if state.history.first = some vi then some state.device.pPriv else none
  pending : ∀ vi, (state.vis vi).wakeupPending → state.history.first = some vi
  pending_eq : ∀ vi, (state.vis vi).wakeupPending = state.history.outstanding vi
  arrived : ∀ file primed, state.history.news → state.history.primed file = some primed →
    state.history.first = some primed.vi → primed.arrived

theorem start_tracks (pPriv : Address) : (State.start pPriv).Tracks ⟨.ctor, none, false⟩ where
  shared := init_shared pPriv
  cpcpVi_eq := rfl
  readable_eq := rfl
  callback_eq := fun _ => rfl
  pending := by simp [State.start]
  pending_eq := fun _ => rfl
  arrived := by simp [State.start]

theorem vi?_eq {device : Device} {priv : PrivateChar} (h : device.Shared priv) {file : Nat}
    (hfile : device.files file ≠ none) (id : Nat) :
    vi? device file id =
      match idLookup device.resources priv.rt id with
      | .error _ => none
      | .ok (_, rs) =>
          match rs.rsBase with
          | some ⟨.vi, vi⟩ => some vi
          | _ => none := by
  rw [vi?, Device.resolve, h.private?_eq, if_neg hfile]

theorem State.Tracks.findVi_eq {state : State} {priv : PrivateChar} (h : state.Tracks priv)
    {file : Nat} (hfile : state.device.files file ≠ none) (id : Nat) :
    (findVi state.device.resources state.vis state.device.pPriv priv id).toOption =
      (state.history.first.or (vi? state.device file id)).map fun vi =>
        (vi, Function.update state.vis vi
          { state.vis vi with callback := some state.device.pPriv }) := by
  unfold findVi
  rw [h.cpcpVi_eq]
  cases hfirst : state.history.first with
  | some vi =>
      have hcallback := h.callback_eq vi
      rw [if_pos hfirst] at hcallback
      have hsame : { state.vis vi with callback := some state.device.pPriv } = state.vis vi := by
        rw [← hcallback]
      simp [hsame, Except.toOption]
  | none =>
      rw [vi?_eq h.shared hfile]
      cases idLookup state.device.resources priv.rt id with
      | error errno => rfl
      | ok entry =>
          obtain ⟨address, base, ops⟩ := entry
          simp only [Option.none_or]
          split
          · rename_i vi
            have hcallback := h.callback_eq vi
            rw [hfirst, if_neg (by simp)] at hcallback
            simp [registerCallback, hcallback, Except.map, Except.toOption]
          · simp [Except.toOption]

theorem State.Tracks.prime_cases {state : State} {priv : PrivateChar} (h : state.Tracks priv)
    (file : Nat) (copyIn : Bool) (id : Nat) (currentPtr : UInt32) :
    ((∃ errno, efchViPrime state.device state.vis file copyIn id currentPtr =
        (.error errno, state.device, state.vis, none)) ∧
      (state.device.files file = none ∨ copyIn = false ∨
        state.history.first.or (vi? state.device file id) = none)) ∨
      copyIn ∧ ∃ vi, state.history.first.or (vi? state.device file id) = some vi ∧
        efchViPrime state.device state.vis file copyIn id currentPtr =
          (.ok (), state.device.setPrivate state.device.pPriv
              { priv with cpcpVi := some vi, cpcpReadable := false },
            Function.update state.vis vi ⟨true, some state.device.pPriv⟩,
            if state.history.outstanding vi then none else some ⟨vi, currentPtr / 8⟩) := by
  unfold efchViPrime
  rw [h.shared.private?_eq]
  by_cases hfile : state.device.files file = none
  · rw [if_pos hfile]
    exact .inl ⟨⟨_, rfl⟩, .inl hfile⟩
  · rw [if_neg hfile]
    have hfind := h.findVi_eq hfile id
    cases copyIn with
    | false => exact .inl ⟨⟨_, rfl⟩, .inr (.inl rfl)⟩
    | true =>
        cases hvi : findVi state.device.resources state.vis state.device.pPriv priv id with
        | error errno =>
            rw [hvi] at hfind
            refine .inl ⟨⟨errno, by simp [hvi]⟩, .inr (.inr ?_)⟩
            simpa [Except.toOption] using hfind.symm
        | ok found =>
            rw [hvi] at hfind
            obtain ⟨vi, htarget, hfound⟩ := Option.map_eq_some_iff.mp hfind.symm
            refine .inr ⟨rfl, vi, htarget, ?_⟩
            simp [hvi, ← hfound, viRmPrime, h.pending_eq]

theorem State.Tracks.primed {state : State} {priv : PrivateChar} (h : state.Tracks priv)
    (file : Nat) (copyIn : Bool) (id : Nat) (currentPtr : UInt32) :
    ∃ next, (state.prime file copyIn id currentPtr).Tracks next := by
  unfold State.prime
  obtain ⟨⟨errno, hfailed⟩, _⟩ | ⟨_, vi, htarget, hprimed⟩ :=
    h.prime_cases file copyIn id currentPtr
  · rw [hfailed]
    exact ⟨priv, h⟩
  · rw [hprimed]
    refine ⟨_, h.shared.setPrivate _, htarget.symm, rfl, fun other => ?_, fun other hother => ?_,
      fun other => ?_, by simp⟩
    · simp only [htarget]
      by_cases hsame : other = vi
      · subst hsame
        simp [Device.setPrivate]
      · rw [Function.update_of_ne hsame, h.callback_eq, if_neg, if_neg]
        · simpa using Ne.symm hsame
        · intro hfirst
          rw [hfirst, Option.some_or] at htarget
          exact hsame (Option.some.inj htarget)
    · simp only [htarget]
      by_cases hsame : other = vi
      · rw [hsame]
      · simp only [Function.update_of_ne hsame] at hother
        have hfirst := h.pending other hother
        rw [hfirst, Option.some_or] at htarget
        exact htarget.symm
    · by_cases hsame : other = vi
      · subst hsame
        cases hbit : state.history.outstanding other <;> simp [hbit]
      · have hrequest : (if state.history.outstanding vi then none
            else some (⟨vi, currentPtr / 8⟩ : WakeupRequest)).any (·.vi == other) = false := by
          split
          · rfl
          · simpa using Ne.symm hsame
        simp [Function.update_of_ne hsame, h.pending_eq, hrequest]

theorem doCallback_vis (device : Device) (vis : Vis) (vi : Nat) (isTimeout : Bool)
    (other : Nat) :
    ((doCallback device vis vi isTimeout).2 other).callback = (vis other).callback ∧
      ((doCallback device vis vi isTimeout).2 other).wakeupPending =
        ((vis other).wakeupPending && (isTimeout || other != vi)) := by
  have hvis : (doCallback device vis vi isTimeout).2 =
      Function.update vis vi
        { vis vi with wakeupPending := isTimeout && (vis vi).wakeupPending } := by
    unfold doCallback
    split <;> rfl
  rw [hvis]
  by_cases hsame : other = vi
  · subst hsame
    simp [Bool.and_comm]
  · simp [hsame]

theorem State.Tracks.doCallback_device {state : State} {priv : PrivateChar}
    (h : state.Tracks priv) (vi : Nat) (isTimeout : Bool) :
    (doCallback state.device state.vis vi isTimeout).1 =
      if state.history.first = some vi then
        state.device.setPrivate state.device.pPriv { priv with cpcpReadable := true }
      else state.device := by
  simp only [doCallback, h.callback_eq vi]
  by_cases hfirst : state.history.first = some vi
  · simp [hfirst, viRmPrimeCb, h.shared.loaded]
  · simp [hfirst]

theorem State.Tracks.event {state : State} {priv : PrivateChar} (h : state.Tracks priv)
    (vi : Nat) (isTimeout : Bool) :
    ∃ next, (step state (.event vi isTimeout)).Tracks next := by
  have hvis := doCallback_vis state.device state.vis vi isTimeout
  have hpending (other : Nat)
      (hother : ((doCallback state.device state.vis vi isTimeout).2 other).wakeupPending) :
      state.history.first = some other := by
    rw [(hvis other).2, Bool.and_eq_true] at hother
    exact h.pending other hother.1
  have houtstanding (other : Nat) :
      ((doCallback state.device state.vis vi isTimeout).2 other).wakeupPending =
        (state.history.outstanding other && (isTimeout || other != vi)) := by
    rw [(hvis other).2, h.pending_eq]
  have hdevice := h.doCallback_device vi isTimeout
  have harrived (file : Nat) (primed : Primed)
      (hnews : (state.history.news || state.history.first == some vi) = true)
      (hprimed : (state.history.primed file).map (·.event vi) = some primed)
      (hfirst : state.history.first = some primed.vi) : primed.arrived := by
    obtain ⟨before, hbefore, rfl⟩ := Option.map_eq_some_iff.mp hprimed
    simp only [Primed.event, Bool.or_eq_true, beq_iff_eq] at hnews hfirst ⊢
    cases hnews with
    | inl hnews => exact .inl (h.arrived file before hnews hbefore hfirst)
    | inr hvi => exact .inr (Option.some.inj (hfirst.symm.trans hvi))
  by_cases hfirst : state.history.first = some vi
  · rw [if_pos hfirst] at hdevice
    refine ⟨{ priv with cpcpReadable := true }, ?_, h.cpcpVi_eq, ?_, fun other => ?_,
      hpending, houtstanding, harrived⟩
    · simp only [step, hdevice]
      exact h.shared.setPrivate _
    · simp [step, hfirst]
    · simp only [step, (hvis other).1, hdevice]
      exact h.callback_eq other
  · rw [if_neg hfirst] at hdevice
    refine ⟨priv, ?_, h.cpcpVi_eq, ?_, fun other => ?_, hpending, houtstanding, harrived⟩
    · simp only [step, hdevice]
      exact h.shared
    · simp [step, hfirst, h.readable_eq]
    · simp only [step, (hvis other).1, hdevice]
      exact h.callback_eq other

theorem State.Tracks.alloc {state : State} {priv : PrivateChar} (h : state.Tracks priv)
    (file : Nat) (alloc : Alloc) :
    ∃ next, (step state (.alloc file alloc)).Tracks next := by
  obtain ⟨_, hafter⟩ | ⟨_, _, _, _, rt, _, _, _, _, hafter⟩ := h.shared.alloc_cases file alloc
  · refine ⟨priv, ?_⟩
    rw [step, hafter]
    exact h
  · refine ⟨{ priv with rt := rt }, ?_⟩
    rw [step, hafter]
    exact {
      shared := (h.shared.setPrivate _).withResources _
      cpcpVi_eq := h.cpcpVi_eq
      readable_eq := h.readable_eq
      callback_eq := h.callback_eq
      pending := h.pending
      pending_eq := h.pending_eq
      arrived := h.arrived }

theorem State.Tracks.step {state : State} (h : ∃ priv, state.Tracks priv) (event : Event) :
    ∃ next, (step state event).Tracks next := by
  obtain ⟨priv, h⟩ := h
  cases event with
  | opened file =>
      obtain ⟨files, hopened⟩ := state.device.fopOpen_files file
      refine ⟨priv, h.shared.fopOpen file, h.cpcpVi_eq, h.readable_eq, fun vi => ?_, h.pending,
        h.pending_eq, h.arrived⟩
      simp only [Prime.step, hopened]
      exact h.callback_eq vi
  | closed file =>
      refine ⟨priv, h.shared.fopClose file, h.cpcpVi_eq, h.readable_eq, h.callback_eq, h.pending,
        h.pending_eq, fun other primed hnews hprimed hfirst => ?_⟩
      by_cases hsame : other = file
      · simp [Prime.step, hsame] at hprimed
      · exact h.arrived other primed hnews (by simpa [Prime.step, hsame] using hprimed) hfirst
  | alloc file alloc => exact h.alloc file alloc
  | prime file copyIn id currentPtr => exact h.primed file copyIn id currentPtr
  | event vi isTimeout => exact h.event vi isTimeout
  | poll file => exact ⟨priv, h⟩

/-- What holds of priming per VI: a prime that succeeds requests a wake-up on the VI that its
id names, unless one has been requested there that did not come yet; and a file is readable
only after an event for the VI last primed through it. -/
def primedPerVi (state : State) : Event → Prop
  | .prime file copyIn id currentPtr =>
      let outcome := efchViPrime state.device state.vis file copyIn id currentPtr
      outcome.1 = .ok () → ∀ vi, vi? state.device file id = some vi →
        outcome.2.2.2 = some ⟨vi, currentPtr / 8⟩ ∨ state.history.outstanding vi
  | .poll file =>
      viPoll state.device file →
        ∃ primed, state.history.primed file = some primed ∧ primed.arrived
  | _ => True

/-- The VI that was primed first is primed again, and is the one polled for, unless there
is no news of it or there is news of the other as well. -/
def ofFirst (state : State) : Event → Prop
  | .prime file copyIn id _ =>
      copyIn → ∀ vi, vi? state.device file id = some vi →
        state.history.first = none ∨ state.history.first = some vi
  | .poll file =>
      state.device.files file ≠ none → state.history.news →
        ∃ primed, state.history.primed file = some primed ∧
          (state.history.first = some primed.vi ∨ primed.arrived)
  | _ => True

theorem vi?_closed {device : Device} {file : Nat} (hfile : device.files file = none) (id : Nat) :
    vi? device file id = none := by
  simp [vi?, Device.resolve, Device.private?, hfile]

theorem State.Tracks.prime_iff {state : State} {priv : PrivateChar} (h : state.Tracks priv)
    (file : Nat) (copyIn : Bool) (id : Nat) (currentPtr : UInt32) :
    primedPerVi state (.prime file copyIn id currentPtr) ↔
      ofFirst state (.prime file copyIn id currentPtr) := by
  simp only [primedPerVi, ofFirst]
  obtain ⟨⟨errno, hfailed⟩, hwhy⟩ | ⟨hcopy, vi, htarget, hprimed⟩ :=
    h.prime_cases file copyIn id currentPtr
  · rw [hfailed]
    refine iff_of_true (fun hok => by contradiction) fun hcopy vi hvi => ?_
    obtain hfile | hnocopy | htarget := hwhy
    · rw [vi?_closed hfile] at hvi
      contradiction
    · rw [hcopy] at hnocopy
      contradiction
    · exact .inl (Option.or_eq_none_iff.mp htarget).1
  · rw [hprimed]
    simp only [hcopy, forall_const]
    refine forall₂_congr fun named hnamed => ?_
    by_cases hsame : named = vi
    · subst hsame
      refine iff_of_true ?_ ?_
      · cases state.history.outstanding named <;> simp
      · cases hfirst : state.history.first with
        | none => exact .inl rfl
        | some first =>
            rw [hfirst, Option.some_or] at htarget
            exact .inr htarget
    · refine iff_of_false (fun hmade => hsame ?_) fun hor => hsame ?_
      · -- the request is for the first VI, and only it has one outstanding
        cases hmade with
        | inl hrequest =>
            split at hrequest
            · contradiction
            · exact (congrArg WakeupRequest.vi (Option.some.inj hrequest)).symm
        | inr houtstanding =>
            rw [← h.pending_eq] at houtstanding
            rw [h.pending named houtstanding, Option.some_or] at htarget
            exact Option.some.inj htarget
      · obtain hfirst | hfirst := hor
        · rw [hfirst, Option.none_or, hnamed] at htarget
          exact Option.some.inj htarget
        · rw [hfirst, Option.some_or] at htarget
          exact Option.some.inj htarget

theorem State.Tracks.poll_iff {state : State} {priv : PrivateChar} (h : state.Tracks priv)
    (file : Nat) : primedPerVi state (.poll file) ↔ ofFirst state (.poll file) := by
  have hpoll : viPoll state.device file = true ↔
      state.device.files file ≠ none ∧ state.history.news = true := by
    rw [viPoll, h.shared.private?_eq, ← h.readable_eq]
    by_cases hfile : state.device.files file = none <;> simp [hfile]
  simp only [primedPerVi, ofFirst, hpoll, and_imp]
  refine forall₂_congr fun _ hnews => exists_congr fun primed => and_congr_right fun hprimed => ?_
  exact ⟨.inr, fun hor => hor.elim (h.arrived file primed hnews hprimed) fun harrived => harrived⟩

/-- Priming is per VI exactly as long as all primes and polls are for the VI that was
primed first. -/
theorem primedPerVi_iff (pPriv : Address) (events : List Event) :
    (∀ move ∈ moves step (.start pPriv) events, primedPerVi move.1 move.2) ↔
      ∀ move ∈ moves step (.start pPriv) events, ofFirst move.1 move.2 := by
  refine moves_iff step (fun state => ∃ priv, state.Tracks priv) primedPerVi ofFirst
    (fun _ event h => State.Tracks.step h event) ?_ events (.start pPriv)
    ⟨_, start_tracks pPriv⟩
  rintro state event ⟨priv, h⟩
  cases event with
  | prime file copyIn id currentPtr => exact h.prime_iff file copyIn id currentPtr
  | poll file => exact h.poll_iff file
  | opened file => exact Iff.rfl
  | closed file => exact Iff.rfl
  | alloc file alloc => exact Iff.rfl
  | event vi isTimeout => exact Iff.rfl

/-- Two processes, each with a file and a VI of its own: the prime of the second succeeds
and asks for no wake-up of its VI. -/
theorem primedPerVi_crossed :
    ¬ ∀ move ∈ moves step (.start 0)
        [.opened 0, .alloc 0 ⟨true, some 0, 1, some 8, .ok 3, true, true⟩,
          .opened 1, .alloc 1 ⟨true, some 0, 1, some 9, .ok 4, true, true⟩,
          .prime 0 true 0 16, .prime 1 true 1 24],
      primedPerVi move.1 move.2 := by
  intro h
  simp only [moves, List.forall_mem_cons] at h
  have hprime := h.2.2.2.2.2.1 rfl 4 rfl
  exact absurd hprime (by decide)

end VirtualSfc.Driver.Prime
