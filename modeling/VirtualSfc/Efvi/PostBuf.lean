import VirtualSfc.Efvi.LoopRecv

/-! `VEfviSocket::post_buf` against a NIC that completes descriptors in order. The
buffer is chosen by masking a counter with an even number, and the fill level is
taken from a counter of all descriptors that were ever added. -/
namespace VirtualSfc.Efvi.PostBuf
open Base Base.Run

inductive Input where
  | postBuf
  | complete
deriving DecidableEq, Repr

/-- `outstanding` are the buffers of the descriptors in the ring, the oldest first,
and `added` counts the descriptors since the reset. -/
structure State where
  postIndex : UInt32
  added : Nat
  outstanding : List UInt32
deriving DecidableEq, Repr

def State.start : State := ⟨0, 0, []⟩

/-- `rxq.posted`: descriptors are given to the NIC in groups of 8. -/
def State.posted (state : State) : Nat := state.added / 8 * 8

def buffer (postIndex : UInt32) : UInt32 := postIndex &&& (nRxBufs - 1)

def State.postBuf (capacity : Nat) (state : State) : State :=
  let next := { state with postIndex := state.postIndex + 1 }
  if state.posted ≥ nRxBufs.toNat then next
  -- a full ring, for which `post_buf` returns `-EAGAIN`
  else if state.outstanding.length ≥ capacity then next
  else
    { next with
      added := state.added + 1
      outstanding := state.outstanding ++ [buffer state.postIndex] }

def step (capacity : Nat) (state : State) : Input → State
  | .postBuf => state.postBuf capacity
  | .complete => { state with outstanding := state.outstanding.tail }

/-- What `post_buf` is to do while there are buffers left. -/
structure Managed (capacity : Nat) (inputs : List Input) : Prop where
  distinct : ∀ state ∈ states (step capacity) .start inputs,
    state.outstanding.length < nRxBufs.toNat → state.outstanding.Nodup
  adds : ∀ move ∈ moves (step capacity) .start inputs, move.2 = .postBuf →
    move.1.outstanding.length < nRxBufs.toNat →
      (step capacity move.1 move.2).outstanding.length = move.1.outstanding.length + 1

/-- A call among the first 256; every second one needs an empty ring. -/
def Allowed (state : State) (input : Input) : Prop :=
  input = .postBuf → state.postIndex.toNat < 256 ∧
    (state.postIndex.toNat % 2 = 1 → state.outstanding = [])

/-- The mask is even, so calls share buffers in pairs. -/
theorem buffer_toNat (postIndex : UInt32) :
    (buffer postIndex).toNat = postIndex.toNat / 2 % 128 * 2 := by
  have hmask : (nRxBufs - 1).toNat = (2 ^ 7 - 1) <<< 1 := by decide
  rw [buffer, UInt32.toNat_and, hmask, and_shifted_mask]
  omega

def bufferOf (calls : Nat) : UInt32 := buffer (UInt32.ofNat calls)

theorem bufferOf_eq_iff (calls : Nat) :
    bufferOf calls = bufferOf (calls + 1) ↔ calls % 2 = 0 := by
  unfold bufferOf
  rw [← UInt32.toNat_inj, buffer_toNat, buffer_toNat, UInt32.toNat_ofNat', UInt32.toNat_ofNat']
  omega

/-- A state that all calls up to now have kept in order: each added a descriptor,
and at most the last two are outstanding. -/
structure Tidy (state : State) : Prop where
  counted : state.postIndex = UInt32.ofNat state.added
  few : state.added ≤ 256
  recent : state.outstanding = [] ∨
    (∃ calls, state.added = calls + 1 ∧ state.outstanding = [bufferOf calls]) ∨
    ∃ calls, state.added = calls + 2 ∧ calls % 2 = 1 ∧
      state.outstanding = [bufferOf calls, bufferOf (calls + 1)]

theorem start_tidy : Tidy .start := ⟨rfl, by decide, Or.inl rfl⟩

section Steps

variable {state : State}

theorem Tidy.calls (h : Tidy state) : state.postIndex.toNat = state.added := by
  have hfew := h.few
  rw [h.counted, UInt32.toNat_ofNat', Nat.mod_eq_of_lt (by omega)]

theorem Tidy.length (h : Tidy state) : state.outstanding.length ≤ 2 := by
  rcases h.recent with hnil | ⟨_, _, hone⟩ | ⟨_, _, _, htwo⟩
  · simp [hnil]
  · simp [hone]
  · simp [htwo]

theorem Tidy.nodup (h : Tidy state) : state.outstanding.Nodup := by
  rcases h.recent with hnil | ⟨_, _, hone⟩ | ⟨calls, _, hodd, htwo⟩
  · simp [hnil]
  · simp [hone]
  · simp [htwo, bufferOf_eq_iff, hodd]

theorem Tidy.complete (h : Tidy state) (capacity : Nat) : Tidy (step capacity state .complete) := by
  refine ⟨h.counted, h.few, ?_⟩
  rcases h.recent with hnil | ⟨_, _, hone⟩ | ⟨calls, hadded, _, htwo⟩
  · exact Or.inl (by simp [step, hnil])
  · exact Or.inl (by simp [step, hone])
  · exact Or.inr (Or.inl ⟨calls + 1, hadded, by simp [step, htwo]⟩)

variable {capacity : Nat} (hcapacity : nRxBufs.toNat ≤ capacity)

include hcapacity

theorem Tidy.postBuf_eq (h : Tidy state) (hfew : state.added < 256) :
    step capacity state .postBuf =
      ⟨UInt32.ofNat (state.added + 1), state.added + 1,
        state.outstanding ++ [bufferOf state.added]⟩ := by
  have hlength := h.length
  have hbufs : nRxBufs.toNat = 255 := rfl
  simp only [step, State.postBuf, State.posted]
  rw [if_neg (by omega), if_neg (by omega), h.counted, UInt32.ofNat_add]
  rfl

theorem Tidy.postBuf (h : Tidy state) (hallowed : Allowed state .postBuf) :
    Tidy (step capacity state .postBuf) := by
  obtain ⟨hfew, hempty⟩ := hallowed rfl
  rw [h.calls] at hfew hempty
  rw [h.postBuf_eq hcapacity hfew]
  refine ⟨rfl, hfew, ?_⟩
  rcases h.recent with hnil | ⟨calls, hadded, hone⟩ | ⟨calls, hadded, hodd, htwo⟩
  · exact Or.inr (Or.inl ⟨state.added, rfl, by simp [hnil]⟩)
  · have heven : calls % 2 = 1 := by
      by_contra hcalls
      simp [hempty (by omega)] at hone
    exact Or.inr (Or.inr ⟨calls, by simp [hadded], heven, by simp [hone, hadded]⟩)
  · simp [hempty (by omega)] at htwo

theorem Tidy.postBuf_good (h : Tidy state)
    (hadds : (step capacity state .postBuf).outstanding.length = state.outstanding.length + 1)
    (hdistinct : (step capacity state .postBuf).outstanding.Nodup) : Allowed state .postBuf := by
  have hbufs : nRxBufs.toNat = 255 := rfl
  have hfew : state.added < 256 := by
    by_contra hmany
    have hposted : state.posted ≥ nRxBufs.toNat := by
      unfold State.posted
      omega
    simp [step, State.postBuf, hposted] at hadds
  rw [h.postBuf_eq hcapacity hfew] at hdistinct
  intro _
  rw [h.calls]
  refine ⟨hfew, fun hodd => ?_⟩
  rcases h.recent with hnil | ⟨calls, hadded, hone⟩ | ⟨calls, hadded, hparity, htwo⟩
  · exact hnil
  · have hsame := (bufferOf_eq_iff calls).mpr (by omega)
    simp [hone, hadded, hsame] at hdistinct
  · have hsame := (bufferOf_eq_iff (calls + 1)).mpr (by omega)
    simp [htwo, hadded, hsame] at hdistinct

end Steps

theorem step_good_iff {capacity : Nat} (hcapacity : nRxBufs.toNat ≤ capacity) (state : State)
    (input : Input) (h : Tidy state) :
    ((step capacity state input).outstanding.length < nRxBufs.toNat →
        (step capacity state input).outstanding.Nodup) ∧
      (input = .postBuf → state.outstanding.length < nRxBufs.toNat →
        (step capacity state input).outstanding.length = state.outstanding.length + 1) ↔
    Allowed state input := by
  have hbufs : nRxBufs.toNat = 255 := rfl
  have hlength := h.length
  cases input with
  | complete => simp [Allowed, (h.complete capacity).nodup]
  | postBuf =>
      constructor
      · rintro ⟨hdistinct, hadds⟩
        have hadds := hadds rfl (by omega)
        exact h.postBuf_good hcapacity hadds (hdistinct (by omega))
      · intro hallowed
        have hnext := h.postBuf hcapacity hallowed
        have hfew := (hallowed rfl).1
        rw [h.calls] at hfew
        refine ⟨fun _ => hnext.nodup, fun _ _ => ?_⟩
        rw [h.postBuf_eq hcapacity hfew]
        simp

/-- Buffers are managed correctly in the runs whose every second call finds the
ring empty and that end before the 257th. -/
theorem managed_iff (capacity : Nat) (hcapacity : nRxBufs.toNat ≤ capacity)
    (inputs : List Input) :
    Managed capacity inputs ↔
      ∀ move ∈ moves (step capacity) .start inputs, Allowed move.1 move.2 := by
  rw [← moves_good_iff (step capacity) Tidy _ Allowed (step_good_iff hcapacity) ?_ inputs .start
    start_tidy]
  · constructor
    · intro h move hmove
      have hstates := ((states_forall_iff (step capacity) _ inputs .start).mp h.distinct).2
      exact ⟨hstates move hmove, h.adds move hmove⟩
    · intro h
      refine ⟨?_, fun move hmove => (h move hmove).2⟩
      rw [states_forall_iff]
      exact ⟨fun _ => List.nodup_nil, fun move hmove => (h move hmove).1⟩
  · intro state input htidy hallowed
    cases input with
    | postBuf => exact htidy.postBuf hcapacity hallowed
    | complete => exact htidy.complete capacity

theorem managed_iff_pingPong :
    nRxBufs.toNat ≤ 511 ∧ (Managed 511 [.postBuf, .complete, .postBuf] ↔
      ∀ move ∈ moves (step 511) .start [.postBuf, .complete, .postBuf], Allowed move.1 move.2) :=
  ⟨by decide, managed_iff 511 (by decide) [.postBuf, .complete, .postBuf]⟩

theorem postBuf_twice :
    (final (step 255) .start [.postBuf, .postBuf]).outstanding = [0, 0] ∧
      ¬ Managed 255 [.postBuf, .postBuf] := by
  refine ⟨by decide, fun h => ?_⟩
  have hdistinct := h.distinct _ (final_mem_states (step 255) .start [.postBuf, .postBuf])
  exact absurd (hdistinct (by decide)) (by decide)

/-- Once 256 descriptors were added no call adds another, whatever is outstanding. -/
theorem exhausted (capacity : Nat) (inputs : List Input) (state : State)
    (h : 256 ≤ state.added) : (final (step capacity) state inputs).added = state.added := by
  apply final_invariant (step capacity) (fun later => later.added = state.added) ?_ inputs state rfl
  intro later input hlater
  cases input with
  | complete => exact hlater
  | postBuf =>
      have hposted : later.posted ≥ nRxBufs.toNat := by
        have hbufs : nRxBufs.toNat = 255 := rfl
        unfold State.posted
        omega
      simpa [step, State.postBuf, hposted] using hlater

/-! The same calls on the queue of an EF10 interface, which completes descriptors
only in the groups it was given. -/

section Queue

variable {bits : Fin 32}

structure Socket (bits : Fin 32) where
  postIndex : UInt32
  rxq : Rxq bits

def receivePost (rxq : Rxq bits) (id : UInt32) : Rxq bits × Int :=
  match rxq.ring.push id with
  | none => (rxq, -11)
  | some ring => ({ rxq with ring := ring }.receivePush, 0)

def Socket.postBuf (socket : Socket bits) : Socket bits :=
  let next := { socket with postIndex := socket.postIndex + 1 }
  if socket.rxq.posted ≥ nRxBufs then next
  else { next with rxq := (receivePost socket.rxq (buffer socket.postIndex)).1 }

def Socket.step (socket : Socket bits) : Input → Socket bits
  | .postBuf => socket.postBuf
  | .complete => { socket with rxq := (socket.rxq.rxDescConsumed .rxDiscard).1 }

/-- The queue holds the outstanding descriptors and counts as the state does. -/
structure Represents (state : State) (socket : Socket bits) : Prop where
  postIndex : socket.postIndex = state.postIndex
  outstanding : socket.rxq.ring.toList = state.outstanding
  added : socket.rxq.ring.added.toNat = state.added
  posted : socket.rxq.posted.toNat = state.posted
  few : state.added ≤ 256

theorem start_represents : Represents .start ⟨0, Rxq.fresh bits⟩ :=
  ⟨rfl, by simp [Rxq.fresh, Ring.empty, Ring.toList, Ring.level, State.start], rfl, rfl,
    by decide⟩

theorem Represents.postBuf {state : State} {socket : Socket bits} (h : Represents state socket) :
    Represents (step (2 ^ bits.val - 1) state .postBuf) (socket.step .postBuf) := by
  have hbufs : nRxBufs.toNat = 255 := rfl
  have hfew := h.few
  have hnext : socket.postIndex + 1 = state.postIndex + 1 := by rw [h.postIndex]
  have hlength : socket.rxq.ring.level = state.outstanding.length := by
    rw [← Ring.length_toList, h.outstanding]
  simp only [step, State.postBuf, Socket.step, Socket.postBuf, ge_iff_le, UInt32.le_iff_toNat_le,
    h.posted]
  by_cases hposted : nRxBufs.toNat ≤ state.posted
  · simp only [hposted, if_true]
    exact ⟨hnext, h.outstanding, h.added, h.posted, h.few⟩
  · simp only [hposted, if_false, receivePost]
    cases hpush : socket.rxq.ring.push (buffer socket.postIndex) with
    | none =>
        have hfull := Ring.push_eq_none hpush
        rw [if_pos (by omega)]
        exact ⟨hnext, h.outstanding, h.added, h.posted, h.few⟩
    | some ring =>
        obtain ⟨hadded, _, hlist⟩ := Ring.push_eq_some hpush
        have hroom : ring.level ≤ 2 ^ bits.val - 1 := ring.bounded
        rw [← Ring.length_toList, hlist, List.length_append, List.length_singleton,
          h.outstanding] at hroom
        have hcount : ring.added.toNat = state.added + 1 := by
          rw [hadded, UInt32.toNat_add, h.added, UInt32.toNat_one]
          omega
        rw [if_neg (by omega)]
        refine ⟨hnext, ?_, ?_, ?_, ?_⟩
        · rw [Rxq.receivePush_ring, hlist, h.outstanding, h.postIndex]
        · rw [Rxq.receivePush_ring, hcount]
        · rw [Rxq.receivePush_posted, hcount]
          rfl
        · simp only [State.posted] at hposted
          simp only
          omega

theorem Represents.complete {state : State} {socket : Socket bits} (h : Represents state socket) :
    Represents state (socket.step .complete) ∨
      Represents (step (2 ^ bits.val - 1) state .complete) (socket.step .complete) := by
  simp only [Socket.step, Rxq.rxDescConsumed]
  split
  · exact Or.inl h
  · cases hpop : socket.rxq.ring.pop with
    | none => exact Or.inl h
    | some taken =>
        obtain ⟨hadded, _, hlist⟩ := Ring.pop_eq_some hpop
        refine Or.inr ⟨h.postIndex, ?_, ?_, h.posted, h.few⟩
        · rw [h.outstanding] at hlist
          simp [step, hlist]
        · rw [hadded, h.added]
          rfl

/-- Every run of the queue is one of the machine with the same calls of `post_buf`. -/
theorem queue_simulated (inputs : List Input) {state : State} {socket : Socket bits}
    (h : Represents state socket) :
    ∃ simulated : List Input, simulated.count .postBuf = inputs.count .postBuf ∧
      Represents (final (step (2 ^ bits.val - 1)) state simulated)
        (final Socket.step socket inputs) := by
  induction inputs generalizing state socket with
  | nil => exact ⟨[], rfl, h⟩
  | cons input rest ih =>
      cases input with
      | postBuf =>
          obtain ⟨simulated, hcount, hrest⟩ := ih h.postBuf
          exact ⟨.postBuf :: simulated, by simp [hcount], hrest⟩
      | complete =>
          rcases h.complete with hidle | hnext
          · obtain ⟨simulated, hcount, hrest⟩ := ih hidle
            exact ⟨simulated, by simp [hcount], hrest⟩
          · obtain ⟨simulated, hcount, hrest⟩ := ih hnext
            exact ⟨.complete :: simulated, by simp [hcount], hrest⟩

theorem queue_added (inputs : List Input) :
    (final Socket.step ⟨0, Rxq.fresh bits⟩ inputs).rxq.ring.added.toNat ≤ 256 := by
  obtain ⟨simulated, _, hend⟩ := queue_simulated inputs start_represents
  rw [hend.added]
  exact hend.few

end Queue

end VirtualSfc.Efvi.PostBuf
