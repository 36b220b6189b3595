import VirtualSfc.Efvi.Connect

/-! Sending. All sockets of a VI share one TX buffer: `connect` writes the headers
there, `send` only the payload. By DMA the NIC reads the buffer some time after
`send` has posted a descriptor; by CTPIO it may get the bytes within `send`. -/
namespace VirtualSfc.Efvi.Send
open Base.Memory Base.Run Connect

/-- The checksums of the packet library, of a packet in the buffer with so many
bytes of payload. -/
structure Checksums where
  ip : (Nat → UInt8) → Vector UInt8 2
  udp : (Nat → UInt8) → Nat → Vector UInt8 2

def headerSize : Nat := 14 + 20 + 8

def fillDma (buf : Nat → UInt8) (payload : List UInt8) : Nat → UInt8 :=
  store buf headerSize payload

def fillCtpio (checksums : Checksums) (buf : Nat → UInt8) (payload : List UInt8) :
    Nat → UInt8 :=
  let buf := store buf headerSize payload
  let buf := store buf 16 (be16 (28 + payload.length))
  let buf := store buf 38 (be16 (8 + payload.length))
  let buf := store buf 24 (checksums.ip buf).toList
  store buf 40 (checksums.udp buf payload.length).toList

/-- A posted descriptor stands for the whole TX buffer up to its length. `later` are the
payloads of the sends since. -/
structure Descriptor where
  sender : Nat
  payload : List UInt8
  later : List (List UInt8)
deriving DecidableEq, Repr

def Descriptor.note (payload : List UInt8) (descriptor : Descriptor) : Descriptor :=
  { descriptor with later := descriptor.later ++ [payload] }

structure Frame where
  sender : Nat
  payload : List UInt8
  bytes : List UInt8
deriving DecidableEq, Repr

def transmit (buf : Nat → UInt8) (sender : Nat) (payload : List UInt8) : Frame :=
  ⟨sender, payload, load buf 0 (payload.length + headerSize)⟩

/-- `connected` are the sockets whose `connect` returned true, on which alone the
application sends, and `lastConnect` is the socket that called it last. -/
structure State where
  world : World
  connected : Nat → Bool
  lastConnect : Option Nat
  descriptors : List Descriptor
  sent : List Frame

def State.start (txBuf : Nat → UInt8) : State :=
  ⟨World.start txBuf, fun _ => false, none, [], []⟩

/-- `room` says whether the TX ring takes a descriptor, `pushed` whether the NIC
took the frame by CTPIO, in which case it drops the fallback descriptor. -/
inductive Event where
  | call (event : Connect.Event)
  | send (i : Nat) (payload : List UInt8) (room pushed : Bool)
  | fetch

section Sender

variable (endpoints : Nat → Endpoint) (viMac : Vector UInt8 6) (ctpio : Bool)
  (checksums : Checksums)

def fill (buf : Nat → UInt8) (payload : List UInt8) : Nat → UInt8 :=
  if ctpio then fillCtpio checksums buf payload else fillDma buf payload

def State.noteConnect (state : State) (i : Nat) (outcome : Outcome) : State :=
  { state with
    connected := fun j => state.connected j || (i == j && outcome == .returned true)
    lastConnect := some i }

def State.call (state : State) (event : Connect.Event) : State :=
  let after := { state with world := Connect.step endpoints viMac state.world event }
  match event with
  | .connect i answer =>
      if (state.world.sockets i).alive then
        after.noteConnect i (state.world.connect endpoints viMac i answer).2
      else state
  | _ => after

def State.maySend (state : State) (i : Nat) : Bool :=
  (state.world.sockets i).alive && state.connected i

def State.send (state : State) (i : Nat) (payload : List UInt8) (room pushed : Bool) : State :=
  let buf := fill ctpio checksums state.world.txBuf payload
  let state := { state with
    world := { state.world with txBuf := buf }
    descriptors := state.descriptors.map (·.note payload) }
  if ctpio && pushed then { state with sent := state.sent ++ [transmit buf i payload] }
  else if room then { state with descriptors := state.descriptors ++ [⟨i, payload, []⟩] }
  else state

def State.fetch (state : State) : State :=
  match state.descriptors with
  | [] => state
  | descriptor :: rest =>
      { state with
        descriptors := rest
        sent := state.sent ++
          [transmit state.world.txBuf descriptor.sender descriptor.payload] }

def step (state : State) : Event → State
  | .call event => state.call endpoints viMac event
  | .send i payload room pushed =>
      if state.maySend i then state.send ctpio checksums i payload room pushed else state
  | .fetch => state.fetch

end Sender

/-! Headers. -/

def route (buf : Nat → UInt8) : List UInt8 :=
  load buf 0 6 ++ (load buf 26 8 ++ load buf 34 4)

def ownRoute (endpoint : Endpoint) : List UInt8 :=
  endpoint.remoteMac.toList.take 6 ++
    (endpoint.localAddr.bytes ++ endpoint.remoteAddr.bytes ++
      (be16 endpoint.localPort.toNat ++ be16 endpoint.remotePort.toNat))

theorem writeHeaders_route (endpoint : Endpoint) (viMac : Vector UInt8 6) (buf : Nat → UInt8) :
    route (endpoint.writeHeaders viMac buf) = ownRoute endpoint := by
  simp only [Endpoint.writeHeaders, initUdpPkt, initEthHdr, route, ownRoute]
  refine congrArg₂ (· ++ ·) ?_ (congrArg₂ (· ++ ·) ?_ ?_)
  · rw [load_store_beside _ (.inl (by decide)), load_store_beside _ (.inl (by decide)),
      load_store_beside _ (.inl (by decide)), load_store_beside _ (.inl (by decide))]
    exact load_store_inside _ 0 0 6 _ (by simp)
  · rw [load_store_beside _ (.inl (by decide)), load_store_beside _ (.inl (by decide))]
    exact load_store_inside _ 14 12 8 _ (by simp [be16, Ipv4.bytes])
  · rw [load_store_beside _ (.inl (by decide))]
    exact load_store_inside _ 34 0 4 _ (by simp [be16])

theorem store_route (buf : Nat → UInt8) {offset : Nat} {bytes : List UInt8}
    (h : 6 ≤ offset) (h' : offset + bytes.length ≤ 26 ∨ 38 ≤ offset) :
    route (store buf offset bytes) = route buf := by
  simp only [route]
  rw [load_store_beside _ (.inl h), load_store_beside _ (by omega),
    load_store_beside _ (by omega)]

theorem fill_route (ctpio : Bool) (checksums : Checksums) (buf : Nat → UInt8)
    (payload : List UInt8) : route (fill ctpio checksums buf payload) = route buf := by
  unfold fill
  split
  · simp only [fillCtpio]
    rw [store_route _ (by decide) (.inr (by decide)),
      store_route _ (by decide) (.inl (by simp)),
      store_route _ (by decide) (.inr (by decide)),
      store_route _ (by decide) (.inl (by simp [be16])),
      store_route _ (by decide) (.inr (by decide))]
  · exact store_route _ (by decide) (.inr (by decide))

theorem fill_apply (ctpio : Bool) (checksums : Checksums) (buf : Nat → UInt8)
    (payload : List UInt8) (position : Nat) :
    fill ctpio checksums buf payload (headerSize + position) =
      payload[position]?.getD (buf (headerSize + position)) := by
  have hstore : store buf headerSize payload (headerSize + position) =
      payload[position]?.getD (buf (headerSize + position)) := by
    simp [store]
  unfold fill
  split
  · simp only [fillCtpio]
    rw [store_beside _ (.inr (by simp [headerSize])),
      store_beside _ (.inr (by simp [headerSize]; omega)),
      store_beside _ (.inr (by simp [headerSize, be16]; omega)),
      store_beside _ (.inr (by simp [headerSize, be16]; omega)), hstore]
  · exact hstore

theorem writeHeaders_apply (endpoint : Endpoint) (viMac : Vector UInt8 6) (buf : Nat → UInt8)
    (position : Nat) :
    endpoint.writeHeaders viMac buf (headerSize + position) = buf (headerSize + position) := by
  simp only [Endpoint.writeHeaders, initUdpPkt, initEthHdr]
  rw [store_beside _ (.inr (by simp [headerSize])),
    store_beside _ (.inr (by simp [headerSize, be16])),
    store_beside _ (.inr (by simp [headerSize, be16, Ipv4.bytes]; omega)),
    store_beside _ (.inr (by simp [headerSize]; omega)),
    store_beside _ (.inr (by simp [headerSize]; omega)),
    store_beside _ (.inr (by simp [headerSize]; omega))]

theorem load_eq_iff (buf : Nat → UInt8) (payload : List UInt8) :
    load buf headerSize payload.length = payload ↔
      ∀ position < payload.length, payload[position]? = some (buf (headerSize + position)) := by
  rw [List.ext_getElem?_iff]
  refine forall_congr' fun position => ?_
  rw [getElem?_load]
  split
  · rename_i hposition
    simp only [hposition, forall_const]
    exact eq_comm
  · rename_i hposition
    simp [hposition]

theorem fill_payload (ctpio : Bool) (checksums : Checksums) (buf : Nat → UInt8)
    (payload : List UInt8) :
    load (fill ctpio checksums buf payload) headerSize payload.length = payload := by
  rw [load_eq_iff]
  intro position hposition
  simp [fill_apply, hposition]

def Frame.own (endpoints : Nat → Endpoint) (frame : Frame) : Prop :=
  frame.bytes.take 6 ++ ((frame.bytes.drop 26).take 8 ++ (frame.bytes.drop 34).take 4) =
      ownRoute (endpoints frame.sender) ∧
    frame.bytes.drop headerSize = frame.payload

theorem transmit_own (endpoints : Nat → Endpoint) (buf : Nat → UInt8) (sender : Nat)
    (payload : List UInt8) :
    (transmit buf sender payload).own endpoints ↔
      route buf = ownRoute (endpoints sender) ∧
        load buf headerSize payload.length = payload := by
  simp only [Frame.own, transmit, route, drop_load, take_load, headerSize]
  have h6 : min 6 (payload.length + (14 + 20 + 8)) = 6 := by omega
  have h8 : min 8 (payload.length + (14 + 20 + 8) - 26) = 8 := by omega
  have h4 : min 4 (payload.length + (14 + 20 + 8) - 34) = 4 := by omega
  rw [h6, h8, h4, Nat.add_sub_cancel]

/-! Runs. -/

section Runs

variable (endpoints : Nat → Endpoint) (viMac : Vector UInt8 6) (ctpio : Bool)
  (checksums : Checksums)

theorem remapVi_txBuf (world : World) (i : Nat) : (world.remapVi i).txBuf = world.txBuf := by
  simp only [World.remapVi]
  split <;> rfl

theorem mapCookie_txBuf (world : World) (i : Nat) :
    (world.mapCookie i).1.txBuf = world.txBuf := by
  simp only [World.mapCookie]
  split
  · rfl
  · split <;> rfl

theorem addFilter_txBuf (world : World) (i n : Nat) (answer : Except Int Nat) :
    (world.addFilter endpoints i n answer).1.txBuf = world.txBuf := by
  simp only [World.addFilter]
  split
  · split <;> rfl
  · rfl

theorem connect_txBuf (world : World) (i : Nat) (answer : Except Int Nat) :
    (world.connect endpoints viMac i answer).1.txBuf =
      (endpoints i).writeHeaders viMac world.txBuf := by
  simp only [World.connect, World.prepare, addFilter_txBuf, mapCookie_txBuf, remapVi_txBuf]

theorem delEfviFilter_txBuf (world : World) (i : Nat) (answer : Int) :
    (world.delEfviFilter i answer).1.txBuf = world.txBuf := by
  simp only [World.delEfviFilter]
  split
  · rfl
  · split
    · split <;> rfl
    · rfl

/-- The byte at a position of the payload that the last of the later sends has written, if
one of them was long enough. -/
def Descriptor.overwritten (descriptor : Descriptor) (position : Nat) : Option UInt8 :=
  (descriptor.later.filterMap (·[position]?)).getLast?

theorem Descriptor.overwritten_note (descriptor : Descriptor) (payload : List UInt8)
    (position : Nat) :
    (descriptor.note payload).overwritten position =
      payload[position]?.or (descriptor.overwritten position) := by
  simp only [overwritten, note, List.filterMap_append, List.getLast?_append]
  cases h : payload[position]? <;> simp [h]

def Descriptor.Holds (buf : Nat → UInt8) (descriptor : Descriptor) : Prop :=
  ∀ position < descriptor.payload.length,
    (descriptor.overwritten position).or descriptor.payload[position]? =
      some (buf (headerSize + position))

def Descriptor.Intact (descriptor : Descriptor) : Prop :=
  ∀ position < descriptor.payload.length, ∀ byte,
    descriptor.overwritten position = some byte → descriptor.payload[position]? = some byte

theorem Descriptor.Holds.load_iff {buf : Nat → UInt8} {descriptor : Descriptor}
    (h : descriptor.Holds buf) :
    load buf headerSize descriptor.payload.length = descriptor.payload ↔ descriptor.Intact := by
  rw [load_eq_iff]
  refine forall₂_congr fun position hposition => ?_
  rw [← h position hposition]
  cases descriptor.overwritten position <;> simp

theorem Descriptor.Holds.send {buf : Nat → UInt8} {descriptor : Descriptor}
    (h : descriptor.Holds buf) (payload : List UInt8) :
    (descriptor.note payload).Holds (fill ctpio checksums buf payload) := by
  intro position hposition
  have hold := h position hposition
  rw [overwritten_note, fill_apply]
  cases payload[position]? with
  | none => exact hold
  | some byte => simp

theorem holds_posted (buf : Nat → UInt8) (i : Nat) (payload : List UInt8) :
    Descriptor.Holds (fill ctpio checksums buf payload) ⟨i, payload, []⟩ := by
  intro position hposition
  have hposition : position < payload.length := hposition
  rw [fill_apply]
  simp [Descriptor.overwritten, hposition]

/-- The headers in the buffer are those of the last `connect`, whoever may send or has a
descriptor posted comes after one, and behind the headers stand the payloads. -/
structure State.Valid (state : State) : Prop where
  routed : ∀ last, state.lastConnect = some last →
    route state.world.txBuf = ownRoute (endpoints last)
  known : ∀ i, state.connected i → state.lastConnect.isSome
  posted : ∀ descriptor ∈ state.descriptors, state.connected descriptor.sender
  holds : ∀ descriptor ∈ state.descriptors, descriptor.Holds state.world.txBuf

theorem start_valid (txBuf : Nat → UInt8) : (State.start txBuf).Valid endpoints :=
  ⟨by simp [State.start], by simp [State.start], by simp [State.start], by simp [State.start]⟩

theorem State.Valid.frame {state : State} (h : state.Valid endpoints) {world : World}
    (hbuf : world.txBuf = state.world.txBuf) :
    State.Valid endpoints { state with world := world } := by
  refine ⟨?_, h.known, h.posted, ?_⟩
  · rw [hbuf]
    exact h.routed
  · rw [hbuf]
    exact h.holds

theorem State.Valid.connect {state : State} (h : state.Valid endpoints) {world : World} {i : Nat}
    (hbuf : world.txBuf = (endpoints i).writeHeaders viMac state.world.txBuf)
    (outcome : Outcome) :
    (State.noteConnect { state with world := world } i outcome).Valid endpoints := by
  refine ⟨?_, ?_, ?_, ?_⟩
  · intro last hlast
    simp only [State.noteConnect, Option.some.injEq] at hlast
    rw [← hlast]
    simp only [State.noteConnect, hbuf, writeHeaders_route]
  · simp [State.noteConnect]
  · intro descriptor hmem
    simp [State.noteConnect, h.posted descriptor hmem]
  · intro descriptor hmem position hposition
    simp only [State.noteConnect, hbuf, writeHeaders_apply]
    exact h.holds descriptor hmem position hposition

theorem call_valid {state : State} (h : state.Valid endpoints) (event : Connect.Event) :
    (state.call endpoints viMac event).Valid endpoints := by
  cases event with
  | connect i answer =>
      simp only [State.call]
      split
      · rename_i halive
        apply h.connect endpoints viMac
        simp only [Connect.step, halive, if_true, connect_txBuf]
      · exact h
  | close i answer =>
      apply h.frame endpoints
      simp only [Connect.step, World.close]
      split
      · rw [delEfviFilter_txBuf]
      · rfl
  | destroy i answer =>
      apply h.frame endpoints
      simp only [Connect.step, World.setSocket]
      split
      · rw [delEfviFilter_txBuf]
      · rfl
  | restart process => exact h.frame endpoints rfl

theorem send_valid {state : State} (h : state.Valid endpoints) {i : Nat}
    (hconnected : state.connected i) (payload : List UInt8) (room pushed : Bool) :
    (state.send ctpio checksums i payload room pushed).Valid endpoints := by
  have hrouted : ∀ last, state.lastConnect = some last →
      route (fill ctpio checksums state.world.txBuf payload) = ownRoute (endpoints last) := by
    intro last hlast
    rw [fill_route]
    exact h.routed last hlast
  have hposted : ∀ descriptor ∈ state.descriptors.map (·.note payload),
      state.connected descriptor.sender := by
    rw [List.forall_mem_map]
    exact h.posted
  have hholds : ∀ descriptor ∈ state.descriptors.map (·.note payload),
      descriptor.Holds (fill ctpio checksums state.world.txBuf payload) := by
    rw [List.forall_mem_map]
    exact fun descriptor hmem => (h.holds descriptor hmem).send ctpio checksums payload
  simp only [State.send]
  split
  · exact ⟨hrouted, h.known, hposted, hholds⟩
  · split
    · refine ⟨hrouted, h.known, ?_, ?_⟩
      · simp only [List.forall_mem_append, List.forall_mem_singleton]
        exact ⟨hposted, hconnected⟩
      · simp only [List.forall_mem_append, List.forall_mem_singleton]
        exact ⟨hholds, holds_posted ctpio checksums state.world.txBuf i payload⟩
    · exact ⟨hrouted, h.known, hposted, hholds⟩

theorem step_valid (state : State) (event : Event) (h : state.Valid endpoints) :
    (step endpoints viMac ctpio checksums state event).Valid endpoints := by
  cases event with
  | call event => exact call_valid endpoints viMac h event
  | send i payload room pushed =>
      simp only [step]
      split
      · rename_i hmay
        rw [State.maySend, Bool.and_eq_true] at hmay
        exact send_valid endpoints ctpio checksums h hmay.2 payload room pushed
      · exact h
  | fetch =>
      simp only [step, State.fetch]
      split
      · exact h
      · rename_i descriptor rest hrest
        have hmem (other : Descriptor) (hother : other ∈ rest) : other ∈ state.descriptors := by
          rw [hrest]
          exact List.mem_cons_of_mem _ hother
        exact ⟨h.routed, h.known, fun other hother => h.posted other (hmem other hother),
          fun other hother => h.holds other (hmem other hother)⟩

def State.routedAs (state : State) (i : Nat) : Prop :=
  ∃ last, state.lastConnect = some last ∧ ownRoute (endpoints last) = ownRoute (endpoints i)

theorem State.Valid.route_iff {state : State} (h : state.Valid endpoints) {i : Nat}
    (hconnected : state.connected i) :
    route state.world.txBuf = ownRoute (endpoints i) ↔ state.routedAs endpoints i := by
  rcases Option.isSome_iff_exists.mp (h.known i hconnected) with ⟨last, hlast⟩
  simp [State.routedAs, hlast, h.routed last hlast]

/-- A frame that leaves now leaves behind a `connect` with the same route, and the payload
of one that is fetched has not been overwritten by later sends. -/
def transmitsOwn (state : State) : Event → Prop
  | .call _ => True
  | .send i _ _ pushed =>
      state.maySend i → ctpio && pushed → state.routedAs endpoints i
  | .fetch => ∀ descriptor ∈ state.descriptors.head?,
      state.routedAs endpoints descriptor.sender ∧ descriptor.Intact

def State.Own (state : State) : Prop := ∀ frame ∈ state.sent, frame.own endpoints

theorem call_sent (state : State) (event : Connect.Event) :
    (state.call endpoints viMac event).sent = state.sent := by
  cases event with
  | connect i answer =>
      simp only [State.call]
      split <;> rfl
  | close i answer => rfl
  | destroy i answer => rfl
  | restart process => rfl

theorem step_own_iff (state : State) (event : Event) (h : state.Valid endpoints)
    (hown : state.Own endpoints) :
    (step endpoints viMac ctpio checksums state event).Own endpoints ↔
      transmitsOwn endpoints ctpio state event := by
  have happend (frame : Frame) :
      (∀ other ∈ state.sent ++ [frame], other.own endpoints) ↔ frame.own endpoints := by
    rw [List.forall_mem_append, List.forall_mem_singleton]
    exact and_iff_right hown
  cases event with
  | call event =>
      rw [step, State.Own, call_sent]
      exact iff_true_intro hown
  | send i payload room pushed =>
      simp only [step, transmitsOwn]
      split
      · rename_i hmay
        have hconnected : state.connected i := by
          rw [State.maySend, Bool.and_eq_true] at hmay
          exact hmay.2
        simp only [State.send, hmay, forall_const]
        split
        · rename_i hpushed
          simp only [State.Own, hpushed, forall_const, happend, transmit_own, fill_route,
            fill_payload, and_true, h.route_iff endpoints hconnected]
        · rename_i hpushed
          refine iff_of_true ?_ fun htrue => absurd htrue hpushed
          split <;> exact hown
      · rename_i hmay
        exact iff_of_true hown fun htrue => absurd htrue hmay
  | fetch =>
      simp only [step, transmitsOwn, State.fetch]
      split
      · rename_i hnone
        simp only [hnone, List.head?_nil, Option.not_mem_none, false_imp_iff, implies_true,
          iff_true]
        exact hown
      · rename_i descriptor rest hrest
        have hmem : descriptor ∈ state.descriptors := by
          rw [hrest]
          exact List.mem_cons_self
        simp only [State.Own, happend, transmit_own,
          h.route_iff endpoints (h.posted descriptor hmem), (h.holds descriptor hmem).load_iff,
          hrest, List.head?_cons, Option.mem_some_iff, forall_eq']

/-- In every run, all frames are their senders' own exactly when every frame
leaves under these conditions. -/
theorem frames_own_iff (txBuf : Nat → UInt8) (events : List Event) :
    (∀ state ∈ states (step endpoints viMac ctpio checksums) (State.start txBuf) events,
        state.Own endpoints) ↔
      ∀ move ∈ moves (step endpoints viMac ctpio checksums) (State.start txBuf) events,
        transmitsOwn endpoints ctpio move.1 move.2 :=
  states_good_iff _ (State.Valid endpoints) _ _ (step_valid endpoints viMac ctpio checksums)
    (step_own_iff endpoints viMac ctpio checksums) events _ (start_valid endpoints txBuf)
    (by simp [State.Own, State.start])

end Runs

/-- The first of two sockets sends after the second has connected, and its frame
goes to the second one's destination. -/
theorem frames_misrouted_twins :
    ¬ ∀ state ∈ states (step twins (Vector.replicate 6 0) false
          ⟨fun _ => Vector.replicate 2 0, fun _ _ => Vector.replicate 2 0⟩)
        (State.start fun _ => 0)
        [.call (.connect 0 (.ok 1)), .call (.connect 1 (.ok 2)), .send 0 [7] true false, .fetch],
      state.Own twins := by
  intro h
  have hlast := h _ (final_mem_states _ _ _)
  have hframe := hlast _ (List.mem_of_mem_head? (by rfl))
  exact absurd hframe.1 (by decide +kernel)

end VirtualSfc.Efvi.Send
