import Mathlib.Data.List.Basic
import VirtualSfc.Base.Run

/-! Optimistic concurrency on one stored object. A client reads the object with
its version, edits its own copy and submits the copy; the store refuses a copy
whose version is stale. The rules at the end reduce a property of all
interleavings to a property of a single edit of the current object. -/
namespace VirtualSfc.Base.Optimistic

universe u v

structure Versioned (Object : Type u) where
  resourceVersion : Nat
  object : Object
deriving DecidableEq, Repr

section Store

variable {Object : Type u} [DecidableEq Object]

/-- The store's side of a conditional write. An accepted write that changes
nothing keeps the version, every other accepted write takes a new one. -/
def replace? (current submitted : Versioned Object) : Option (Versioned Object) :=
  if submitted.resourceVersion = current.resourceVersion then
    if submitted.object = current.object then some current
    else some ⟨current.resourceVersion + 1, submitted.object⟩
  else none

theorem replace?_object {current submitted next : Versioned Object}
    (h : replace? current submitted = some next) : next.object = submitted.object := by
  unfold replace? at h
  split at h
  · split at h
    · rename_i hsame
      rw [← Option.some.inj h, hsame]
    · rw [← Option.some.inj h]
  · contradiction

theorem replace?_self (current : Versioned Object) (object : Object) :
    ∃ next, replace? current ⟨current.resourceVersion, object⟩ = some next := by
  unfold replace?
  rw [if_pos rfl]
  split
  · exact ⟨_, rfl⟩
  · exact ⟨_, rfl⟩

theorem replace?_version {current submitted next : Versioned Object}
    (h : replace? current submitted = some next) :
    next = current ∨ current.resourceVersion < next.resourceVersion := by
  unfold replace? at h
  split at h
  · split at h
    · exact Or.inl (Option.some.inj h).symm
    · right
      rw [← Option.some.inj h]
      exact Nat.lt_succ_self _
  · contradiction

theorem replace?_fresh {current snapshot next : Versioned Object} {object : Object}
    (hsnapshot : snapshot = current ∨ snapshot.resourceVersion < current.resourceVersion)
    (h : replace? current ⟨snapshot.resourceVersion, object⟩ = some next) :
    snapshot = current := by
  cases hsnapshot with
  | inl hequal => exact hequal
  | inr hstale =>
      have hversion : snapshot.resourceVersion ≠ current.resourceVersion := Nat.ne_of_lt hstale
      simp [replace?, hversion] at h

end Store

/-- What the network does with a write: the client learns the outcome, the
store serves it but the reply is lost, or it never arrives. -/
inductive Delivery where
  | answered
  | replyLost
  | unreachable
deriving DecidableEq, Repr

structure State (Object : Type u) (Call : Type v) where
  current : Versioned Object
  inflight : List (Call × Versioned Object)
  confirmed : List Call

inductive Event (Call : Type v) where
  | read (call : Call)
  | write (index : Nat) (delivery : Delivery)

variable {Object : Type u} {Call : Type v}

def deliver [DecidableEq Object] (state : State Object Call) (call : Call)
    (submitted : Versioned Object) (delivery : Delivery) : State Object Call :=
  match delivery, replace? state.current submitted with
  | .unreachable, _ => state
  | _, none => state
  | .replyLost, some next => { state with current := next }
  | .answered, some next =>
      { state with current := next, confirmed := state.confirmed ++ [call] }

/-- One step of one client. A call whose edit fails ends without a write. -/
def step [DecidableEq Object] (edit : Call → Object → Option Object)
    (state : State Object Call) : Event Call → State Object Call
  | .read call => { state with inflight := state.inflight ++ [(call, state.current)] }
  | .write index delivery =>
      match state.inflight[index]? with
      | none => state
      | some (call, snapshot) =>
          let rest := { state with inflight := state.inflight.eraseIdx index }
          match edit call snapshot.object with
          | none => rest
          | some object => deliver rest call ⟨snapshot.resourceVersion, object⟩ delivery

def initial (object : Versioned Object) : State Object Call := ⟨object, [], []⟩

def Consistent (state : State Object Call) : Prop :=
  ∀ entry ∈ state.inflight,
    entry.2 = state.current ∨ entry.2.resourceVersion < state.current.resourceVersion

/-- The two things a step can do to the stored object: nothing, or one edit of
the object as it currently is, whose caller may or may not be told. -/
def Atomic (edit : Call → Object → Option Object) (before after : State Object Call) : Prop :=
  (after.current.object = before.current.object ∧ after.confirmed = before.confirmed) ∨
    ∃ call, edit call before.current.object = some after.current.object ∧
      (after.confirmed = before.confirmed ∨ after.confirmed = before.confirmed ++ [call])

theorem initial_consistent (object : Versioned Object) :
    Consistent (initial object : State Object Call) := by
  intro entry hentry
  simp [initial] at hentry

variable [DecidableEq Object]

theorem deliver_inflight (state : State Object Call) (call : Call)
    (submitted : Versioned Object) (delivery : Delivery) :
    (deliver state call submitted delivery).inflight = state.inflight := by
  unfold deliver
  split <;> rfl

theorem deliver_cases (state : State Object Call) (call : Call)
    (submitted : Versioned Object) (delivery : Delivery) :
    deliver state call submitted delivery = state ∨
      ∃ next, replace? state.current submitted = some next ∧
        (deliver state call submitted delivery).current = next ∧
        ((deliver state call submitted delivery).confirmed = state.confirmed ∨
          (deliver state call submitted delivery).confirmed = state.confirmed ++ [call]) := by
  unfold deliver
  split
  · exact Or.inl rfl
  · exact Or.inl rfl
  · rename_i next hreplace
    exact Or.inr ⟨next, hreplace, rfl, Or.inl rfl⟩
  · rename_i next hreplace
    exact Or.inr ⟨next, hreplace, rfl, Or.inr rfl⟩

theorem deliver_consistent {state : State Object Call} (h : Consistent state)
    (call : Call) (submitted : Versioned Object) (delivery : Delivery) :
    Consistent (deliver state call submitted delivery) := by
  cases deliver_cases state call submitted delivery with
  | inl hsame => rwa [hsame]
  | inr hwrite =>
      obtain ⟨next, hreplace, hcurrent, _⟩ := hwrite
      intro entry hentry
      rw [deliver_inflight] at hentry
      rw [hcurrent]
      cases replace?_version hreplace with
      | inl hsame =>
          rw [hsame]
          exact h entry hentry
      | inr hlater =>
          right
          cases h entry hentry with
          | inl hequal => rwa [hequal]
          | inr hstale => exact Nat.lt_trans hstale hlater

variable {edit : Call → Object → Option Object}

theorem deliver_atomic (state : State Object Call) {call : Call}
    {snapshot : Versioned Object} {object : Object}
    (hedit : edit call snapshot.object = some object)
    (hsnapshot : snapshot = state.current ∨
      snapshot.resourceVersion < state.current.resourceVersion) (delivery : Delivery) :
    Atomic edit state (deliver state call ⟨snapshot.resourceVersion, object⟩ delivery) := by
  cases deliver_cases state call ⟨snapshot.resourceVersion, object⟩ delivery with
  | inl hsame =>
      rw [hsame]
      exact Or.inl ⟨rfl, rfl⟩
  | inr hwrite =>
      obtain ⟨next, hreplace, hcurrent, hconfirmed⟩ := hwrite
      have hfresh := replace?_fresh hsnapshot hreplace
      refine Or.inr ⟨call, ?_, hconfirmed⟩
      rw [hcurrent, replace?_object hreplace, ← hfresh, hedit]

theorem step_consistent (state : State Object Call) (event : Event Call)
    (h : Consistent state) : Consistent (step edit state event) := by
  cases event with
  | read call =>
      intro entry hentry
      simp only [step, List.mem_append, List.mem_singleton] at hentry
      cases hentry with
      | inl hold => exact h entry hold
      | inr hnew =>
          rw [hnew]
          exact Or.inl rfl
  | write index delivery =>
      have herase : Consistent { state with inflight := state.inflight.eraseIdx index } := by
        intro entry hentry
        exact h entry (List.mem_of_mem_eraseIdx hentry)
      simp only [step]
      split
      · exact h
      · split
        · exact herase
        · exact deliver_consistent herase _ _ _

theorem step_atomic (state : State Object Call) (event : Event Call)
    (h : Consistent state) : Atomic edit state (step edit state event) := by
  cases event with
  | read call => exact Or.inl ⟨rfl, rfl⟩
  | write index delivery =>
      simp only [step]
      split
      · exact Or.inl ⟨rfl, rfl⟩
      · rename_i call snapshot hentry
        split
        · exact Or.inl ⟨rfl, rfl⟩
        · rename_i object hedit
          have hsnapshot := h _ (List.mem_of_getElem? hentry)
          exact deliver_atomic { state with inflight := state.inflight.eraseIdx index }
            hedit hsnapshot delivery

theorem object_invariant {property : Object → Prop}
    (hedit : ∀ call before after, edit call before = some after →
      property before → property after)
    (start : Versioned Object) (hstart : property start.object) (events : List (Event Call)) :
    ∀ state ∈ Run.states (step edit) (initial start) events,
      property state.current.object := by
  have hall := Run.states_invariant (step edit)
    (fun state : State Object Call => Consistent state ∧ property state.current.object) (by
      rintro state event ⟨hconsistent, hproperty⟩
      refine ⟨step_consistent state event hconsistent, ?_⟩
      cases step_atomic state event hconsistent with
      | inl hsame => rwa [hsame.1]
      | inr hwrite =>
          obtain ⟨call, hcall, _⟩ := hwrite
          exact hedit call _ _ hcall hproperty)
    events (initial start) ⟨initial_consistent start, hstart⟩
  intro state hstate
  exact (hall state hstate).2

theorem established_step {established : Call → Object → Prop}
    (hown : ∀ call before after, edit call before = some after → established call after)
    (hother : ∀ call confirmed before after, edit call before = some after →
      established confirmed before → established confirmed after)
    (state : State Object Call) (event : Event Call)
    (h : Consistent state ∧ ∀ call ∈ state.confirmed, established call state.current.object) :
    Consistent (step edit state event) ∧ ∀ call ∈ (step edit state event).confirmed,
      established call (step edit state event).current.object := by
  refine ⟨step_consistent state event h.1, ?_⟩
  intro confirmed hmem
  cases step_atomic state event h.1 with
  | inl hsame =>
      rw [hsame.2] at hmem
      rw [hsame.1]
      exact h.2 confirmed hmem
  | inr hwrite =>
      obtain ⟨call, hcall, hreport⟩ := hwrite
      by_cases hold : confirmed ∈ state.confirmed
      · exact hother call confirmed _ _ hcall (h.2 confirmed hold)
      · have hnew : confirmed = call := by
          cases hreport with
          | inl hsilent =>
              rw [hsilent] at hmem
              exact absurd hmem hold
          | inr htold =>
              rw [htold, List.mem_append, List.mem_singleton] at hmem
              exact hmem.resolve_left hold
        rw [hnew]
        exact hown call _ _ hcall

theorem confirmed_step (state : State Object Call) (event : Event Call) {call : Call}
    (h : Consistent state ∧ call ∈ state.confirmed) :
    Consistent (step edit state event) ∧ call ∈ (step edit state event).confirmed := by
  refine ⟨step_consistent state event h.1, ?_⟩
  cases step_atomic state event h.1 with
  | inl hsame =>
      rw [hsame.2]
      exact h.2
  | inr hwrite =>
      obtain ⟨_, _, hreport⟩ := hwrite
      cases hreport with
      | inl hsilent =>
          rw [hsilent]
          exact h.2
      | inr htold =>
          rw [htold]
          exact List.mem_append_left _ h.2

/-- What a call establishes and no edit destroys holds of a confirmed call in
every state from its confirmation on. -/
theorem confirmed_forever {established : Call → Object → Prop}
    (hown : ∀ call before after, edit call before = some after → established call after)
    (hother : ∀ call confirmed before after, edit call before = some after →
      established confirmed before → established confirmed after)
    (start : Versioned Object) (earlier later : List (Event Call)) (call : Call)
    (hcall : call ∈ (Run.final (step edit) (initial start) earlier).confirmed) :
    ∀ state ∈ Run.states (step edit) (Run.final (step edit) (initial start) earlier) later,
      established call state.current.object := by
  have hearlier := Run.final_invariant (step edit)
    (fun state : State Object Call => Consistent state ∧
      ∀ call ∈ state.confirmed, established call state.current.object)
    (established_step hown hother) earlier (initial start)
    ⟨initial_consistent start, by simp [initial]⟩
  have hlater := Run.states_invariant (step edit)
    (fun state : State Object Call => Consistent state ∧
      ∀ call ∈ state.confirmed, established call state.current.object)
    (established_step hown hother) later _ hearlier
  have hkept := Run.states_invariant (step edit)
    (fun state : State Object Call => Consistent state ∧ call ∈ state.confirmed)
    (fun state event h => confirmed_step state event h) later _ ⟨hearlier.1, hcall⟩
  intro state hstate
  exact (hlater state hstate).2 call (hkept state hstate).2

theorem write_frame (frame : Call → Object → Object → Prop)
    (hrefl : ∀ call object, frame call object object)
    (hedit : ∀ call before after, edit call before = some after → frame call before after)
    (start : Versioned Object) (events : List (Event Call)) :
    ∀ move ∈ Run.moves (step edit) (initial start) events,
      ∀ index delivery call snapshot, move.2 = .write index delivery →
        move.1.inflight[index]? = some (call, snapshot) →
        frame call move.1.current.object (step edit move.1 move.2).current.object := by
  intro move hmove index delivery call snapshot hevent hentry
  have hconsistent := (Run.moves_invariant (step edit) Consistent events
    (fun event _ state h => step_consistent state event h) (initial start)
    (initial_consistent start) move hmove).1
  have hsnapshot := hconsistent _ (List.mem_of_getElem? hentry)
  rw [hevent]
  simp only [step, hentry]
  split
  · exact hrefl _ _
  · rename_i object hobject
    cases deliver_cases { move.1 with inflight := move.1.inflight.eraseIdx index } call
        ⟨snapshot.resourceVersion, object⟩ delivery with
    | inl hsame =>
        rw [hsame]
        exact hrefl _ _
    | inr hwrite =>
        obtain ⟨next, hreplace, hcurrent, _⟩ := hwrite
        have hfresh : snapshot = move.1.current := replace?_fresh hsnapshot hreplace
        rw [hcurrent, replace?_object hreplace, ← hfresh]
        exact hedit call _ _ hobject

end VirtualSfc.Base.Optimistic
