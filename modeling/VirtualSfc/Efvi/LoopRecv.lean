import VirtualSfc.Efvi.Rxq

/-! `VEfviSocket::loop_recv`: refilling the receive queue, polling the event
queue and handing frames to the application. The frames handed on are compared
with the frames the adapter reported. -/
namespace VirtualSfc.Efvi
open Base

def nRxBufs : UInt32 := 255

def pollBatchSize : Nat := 8

structure Batch where
  events : List HwEvent
  bounded : events.length ≤ pollBatchSize

structure Call where
  index : UInt32
  len : UInt16
deriving DecidableEq, Repr

/-- `error_handler` answers whether to try again and may change the index. -/
abbrev ErrorHandler := Option (UInt32 → UInt32 → Bool × UInt32)

/-- The part of the state that handing on events changes. `hung` marks a process
that is still in the `retry` loop when its fuel is spent. -/
structure Delivery where
  rcvIndex : UInt64
  calls : List Call
  hung : Bool

/-- The socket of one process, and a log of the run: the events polled and the
states the receive queue went through. -/
structure VEfviSocket (bits : Fin 32) where
  postIndex : UInt32
  recvIndex : UInt32
  rxq : Rxq bits
  delivery : Delivery
  events : List Event
  passed : List (Rxq bits)

/-- The number of descriptors to add, 0 for none. Indices are 32 bits wide,
buffer counts 64. -/
def refillCount (maxBuf : UInt64) (filled : UInt32) : UInt64 :=
  if filled.toUInt64 < maxBuf / 2 then
    let wanted := (nRxBufs - filled).toUInt64
    let total :=
      if wanted > maxBuf - filled.toUInt64 then (maxBuf - filled.toUInt64) >>> 3 <<< 3
      else wanted
    if total > 0 ∧ total ≤ nRxBufs.toUInt64 then total else 0
  else 0

/-- The `retry` loop for one event: `none` when it does not end, else the index
of the buffer to hand on, if any. -/
def retry (errorHandler : ErrorHandler) (rqId : UInt32) : Nat → UInt32 → Option (Option UInt32)
  | 0, _ => none
  | fuel + 1, idx =>
      if idx = rqId then some (some idx)
      else
        match errorHandler with
        | none => some none
        | some handler =>
            let answer := handler idx rqId
            if answer.1 then retry errorHandler rqId fuel answer.2 else some none

def onEvent (errorHandler : ErrorHandler) (fuel : Nat) (recvIndex : UInt32)
    (delivery : Delivery) : Event → Delivery
  | .rx rqId len =>
      if delivery.hung then delivery
      else
        match retry errorHandler rqId fuel (recvIndex % nRxBufs) with
        | some (some idx) =>
            -- The source counts `rcv_index` here, not its member `recv_index`.
            { delivery with
              rcvIndex := delivery.rcvIndex + 1
              calls := delivery.calls ++ [⟨idx, len⟩] }
        | some none => delivery
        | none => { delivery with hung := true }
  | _ => delivery

def refillIds (postIndex : UInt32) (total : Nat) : List UInt32 :=
  (List.range total).map fun i => (postIndex + UInt32.ofNat i) % nRxBufs

@[simp] theorem length_refillIds (postIndex : UInt32) (total : Nat) :
    (refillIds postIndex total).length = total := by
  simp [refillIds]

namespace VEfviSocket

variable {bits : Fin 32}

def start (bits : Fin 32) : VEfviSocket bits := ⟨0, 0, .fresh bits, ⟨0, [], false⟩, [], []⟩

def total (socket : VEfviSocket bits) : UInt64 :=
  refillCount (Rxq.receiveCapacity bits) (socket.postIndex - socket.recvIndex)

def refill (socket : VEfviSocket bits) : VEfviSocket bits :=
  if socket.total = 0 then socket
  else
    let ids := refillIds socket.postIndex socket.total.toNat
    { socket with
      postIndex := socket.postIndex + socket.total.toUInt32
      rxq := (Run.final Rxq.receiveInit socket.rxq ids).receivePush
      passed := socket.passed ++ Run.states Rxq.receiveInit socket.rxq ids }

def iterate (errorHandler : ErrorHandler) (fuel : Nat) (socket : VEfviSocket bits)
    (batch : Batch) : VEfviSocket bits :=
  if socket.delivery.hung then socket
  else
    let socket := socket.refill
    let polled := socket.rxq.eventqPoll batch.events
    { socket with
      rxq := polled.1
      delivery := polled.2.foldl (onEvent errorHandler fuel socket.recvIndex) socket.delivery
      events := socket.events ++ polled.2
      passed := socket.passed ++
        Run.states (fun rxq event => (rxq.pollEvent event).1) socket.rxq batch.events }

def loopRecv (errorHandler : ErrorHandler) (fuel : Nat) (socket : VEfviSocket bits)
    (batches : List Batch) : VEfviSocket bits :=
  Run.final (iterate errorHandler fuel) socket batches

theorem refill_idle {socket : VEfviSocket bits} (h : socket.total = 0) :
    socket.refill = socket := by
  rw [refill, if_pos h]

theorem refill_frame (socket : VEfviSocket bits) :
    socket.refill.recvIndex = socket.recvIndex ∧ socket.refill.delivery = socket.delivery ∧
      socket.refill.events = socket.events := by
  unfold refill
  split <;> exact ⟨rfl, rfl, rfl⟩

theorem refill_holds (socket : VEfviSocket bits) {history : List UInt32}
    (h : socket.rxq.Holds history)
    (hposted : socket.rxq.posted.toNat = history.length / 8 * 8)
    (hroom : socket.total ≠ 0 → history.length + socket.total.toNat ≤ 2 ^ bits.val - 1) :
    socket.refill.rxq.Holds (history ++ refillIds socket.postIndex socket.total.toNat) ∧
      socket.refill.rxq.posted.toNat = (history.length + socket.total.toNat) / 8 * 8 ∧
      socket.refill.rxq.ring.removed = socket.rxq.ring.removed ∧
      socket.refill.postIndex = socket.postIndex + socket.total.toUInt32 := by
  by_cases htotal : socket.total = 0
  · rw [refill_idle htotal, htotal]
    simpa [refillIds, hposted] using h
  · have hbits := Ring.two_pow_le bits
    have hcompleted := h.completed
    have hspace := hroom htotal
    have hinits := Rxq.receiveInits_holds
      (refillIds socket.postIndex socket.total.toNat) h (by rwa [length_refillIds])
    have hpush := Rxq.receivePush_holds hinits.1
      (by rw [List.length_append, length_refillIds]; omega)
      (by rw [List.length_append, length_refillIds, hinits.2.1]; omega)
    rw [refill, if_neg htotal]
    refine ⟨hpush.1, ?_, ?_, rfl⟩
    · rw [hpush.2.1, List.length_append, length_refillIds]
    · rw [hpush.2.2, hinits.2.1]

end VEfviSocket

theorem toNat_refillId {i : Nat} (hi : i < 255) :
    ((0 + UInt32.ofNat i) % nRxBufs).toNat = i := by
  have hbufs : nRxBufs.toNat = 255 := rfl
  rw [UInt32.zero_add, UInt32.toNat_mod, UInt32.toNat_ofNat', hbufs]
  omega

theorem take_refillIds (postIndex : UInt32) (count total : Nat) (h : count ≤ total) :
    (refillIds postIndex total).take count = refillIds postIndex count := by
  rw [refillIds, ← List.map_take, List.take_range, Nat.min_eq_left h, refillIds]

def firstFill (bits : Fin 32) : UInt64 := refillCount (Rxq.receiveCapacity bits) 0

theorem firstFill_le : ∀ bits : Fin 32,
    (firstFill bits).toNat ≤ 255 ∧ (firstFill bits).toNat ≤ 2 ^ bits.val - 1 := by
  decide

/-- After the first refill the queue counts as full for ever: `recv_index` stays 0. -/
theorem firstFill_final : ∀ bits : Fin 32,
    refillCount (Rxq.receiveCapacity bits) (firstFill bits).toUInt32 = 0 := by
  decide

/-- Descriptors reach the adapter in groups of eight. -/
def postable (bits : Fin 32) : Nat := (firstFill bits).toNat / 8 * 8

theorem postable_eq : ∀ bits : Fin 32, postable bits =
    if bits ≤ 3 then 0 else if bits ≤ 7 then 2 ^ bits.val - 8 else 248 := by
  decide

theorem postable_le (bits : Fin 32) : postable bits ≤ (firstFill bits).toNat :=
  Nat.div_mul_le_self _ 8

/-- An error handler that is absent or never asks to try again. -/
def Quiet (errorHandler : ErrorHandler) : Prop :=
  ∀ handler ∈ errorHandler, ∀ idx rqId, (handler idx rqId).1 = false

def Event.call? : Event → Option Call
  | .rx rqId len => some ⟨rqId, len⟩
  | _ => none

def Event.handed (recvIndex : UInt32) : Event → Option Call
  | .rx rqId len => if recvIndex % nRxBufs = rqId then some ⟨rqId, len⟩ else none
  | _ => none

theorem Event.handed_or (recvIndex : UInt32) (event : Event) :
    event.handed recvIndex = none ∨ event.handed recvIndex = event.call? := by
  cases event with
  | rx rqId len =>
      by_cases h : recvIndex % nRxBufs = rqId
      · exact Or.inr (if_pos h)
      · exact Or.inl (if_neg h)
  | _ => exact Or.inl rfl

theorem retry_quiet {errorHandler : ErrorHandler} (hquiet : Quiet errorHandler)
    (rqId : UInt32) (fuel : Nat) (idx : UInt32) :
    retry errorHandler rqId (fuel + 1) idx = some (if idx = rqId then some idx else none) := by
  unfold retry
  by_cases hsame : idx = rqId
  · rw [if_pos hsame, if_pos hsame]
  · rw [if_neg hsame, if_neg hsame]
    cases errorHandler with
    | none => rfl
    | some handler => simp [hquiet handler rfl idx rqId]

theorem onEvents_calls (errorHandler : ErrorHandler) (fuel : Nat) (recvIndex : UInt32)
    (result : Event → Option Call)
    (hstep : ∀ delivery event, delivery.hung = false →
      (onEvent errorHandler fuel recvIndex delivery event).calls =
          delivery.calls ++ (result event).toList ∧
        (onEvent errorHandler fuel recvIndex delivery event).hung = false)
    (events : List Event) (delivery : Delivery) (hrunning : delivery.hung = false) :
    (events.foldl (onEvent errorHandler fuel recvIndex) delivery).calls =
        delivery.calls ++ events.filterMap result ∧
      (events.foldl (onEvent errorHandler fuel recvIndex) delivery).hung = false := by
  induction events generalizing delivery with
  | nil => exact ⟨(List.append_nil _).symm, hrunning⟩
  | cons event rest ih =>
      have hfirst := hstep delivery event hrunning
      have hrest := ih _ hfirst.2
      rw [hfirst.1, List.append_assoc] at hrest
      rw [List.foldl_cons, hrest.1, List.filterMap_cons]
      cases result event with
      | none => exact ⟨rfl, hrest.2⟩
      | some call => exact ⟨rfl, hrest.2⟩

theorem onEvent_quiet {errorHandler : ErrorHandler} (hquiet : Quiet errorHandler) (fuel : Nat)
    (recvIndex : UInt32) (delivery : Delivery) (event : Event)
    (hrunning : delivery.hung = false) :
    (onEvent errorHandler (fuel + 1) recvIndex delivery event).calls =
        delivery.calls ++ (event.handed recvIndex).toList ∧
      (onEvent errorHandler (fuel + 1) recvIndex delivery event).hung = false := by
  cases event with
  | rx rqId len =>
      rw [onEvent, if_neg (by simp [hrunning]), retry_quiet hquiet, Event.handed]
      by_cases hsame : recvIndex % nRxBufs = rqId
      · simp [hsame, hrunning]
      · simp [hsame, hrunning]
  | _ => exact ⟨(List.append_nil _).symm, hrunning⟩

theorem length_handed_le (recvIndex : UInt32) (events : List Event) :
    (events.filterMap (Event.handed recvIndex)).length ≤
      (events.filterMap Event.call?).length := by
  induction events with
  | nil => exact Nat.le_refl 0
  | cons event rest ih =>
      rw [List.filterMap_cons, List.filterMap_cons]
      cases hcall : event.call? with
      | none =>
          have hhanded : event.handed recvIndex = none := by
            simpa [hcall] using event.handed_or recvIndex
          simpa [hhanded] using ih
      | some call =>
          cases event.handed recvIndex with
          | none => exact Nat.le_succ_of_le ih
          | some handed => exact Nat.succ_le_succ ih

theorem filterMap_handed_iff (recvIndex : UInt32) (events : List Event) :
    events.filterMap (Event.handed recvIndex) = events.filterMap Event.call? ↔
      ∀ event ∈ events, event.handed recvIndex = event.call? := by
  refine ⟨fun h => ?_, List.filterMap_congr⟩
  induction events with
  | nil => simp
  | cons event rest ih =>
      rw [List.filterMap_cons, List.filterMap_cons] at h
      rw [List.forall_mem_cons]
      have hlength := length_handed_le recvIndex rest
      cases event.handed_or recvIndex with
      | inl hnone =>
          cases hcall : event.call? with
          | none =>
              rw [hnone, hcall] at h
              exact ⟨hnone, ih h⟩
          | some call =>
              rw [hnone, hcall] at h
              simp only at h
              rw [h, List.length_cons] at hlength
              omega
      | inr hsame =>
          refine ⟨hsame, ih ?_⟩
          rw [hsame] at h
          cases hcall : event.call? with
          | none => simpa [hcall] using h
          | some call => simpa [hcall] using h

namespace VEfviSocket

variable {bits : Fin 32}

/-- The state after a run over `served`. Refilling once more changes nothing but
a queue that was never filled. -/
structure Serving (served : List HwEvent) (socket : VEfviSocket bits) : Prop where
  running : socket.delivery.hung = false
  unread : socket.recvIndex = 0
  filled : socket.refill.postIndex = (firstFill bits).toUInt32
  holds : socket.refill.rxq.Holds (refillIds 0 (firstFill bits).toNat)
  posted : socket.refill.rxq.posted.toNat = postable bits
  pending : socket.refill.rxq.pending =
    (refillIds 0 (postable bits)).drop (receptions served).length
  shown : socket.events = shown (refillIds 0 (postable bits)) served
  calls : socket.delivery.calls = socket.events.filterMap (Event.handed 0)

theorem start_serving (bits : Fin 32) : (start bits).Serving [] := by
  have htotal : (start bits).total = firstFill bits := by
    rw [total, start, UInt32.sub_self, firstFill]
  have hrefill := refill_holds (start bits) (Rxq.fresh_holds bits) rfl
    (by rw [htotal, List.length_nil, Nat.zero_add]; exact fun _ => (firstFill_le bits).2)
  rw [htotal, List.length_nil, Nat.zero_add, List.nil_append] at hrefill
  have hremoved : (start bits).refill.rxq.ring.removed.toNat = 0 :=
    congrArg UInt32.toNat hrefill.2.2.1
  refine ⟨rfl, rfl, ?_, hrefill.1, hrefill.2.1, ?_, rfl, rfl⟩
  · rw [hrefill.2.2.2]
    exact UInt32.zero_add _
  · rw [hrefill.1.pending, hremoved, hrefill.2.1, List.drop_zero]
    exact take_refillIds 0 _ _ (postable_le bits)

structure Round (errorHandler : ErrorHandler) (fuel : Nat) (socket : VEfviSocket bits)
    (batch : Batch) (next : VEfviSocket bits) : Prop where
  postIndex : next.postIndex = socket.refill.postIndex
  recvIndex : next.recvIndex = socket.recvIndex
  rxq : next.rxq = (socket.refill.rxq.eventqPoll batch.events).1
  delivery : next.delivery = (socket.refill.rxq.eventqPoll batch.events).2.foldl
    (onEvent errorHandler fuel socket.recvIndex) socket.delivery
  events : next.events = socket.events ++ (socket.refill.rxq.eventqPoll batch.events).2
  passed : next.passed = socket.refill.passed ++
    Run.states (fun rxq event => (rxq.pollEvent event).1) socket.refill.rxq batch.events

theorem iterate_round (errorHandler : ErrorHandler) (fuel : Nat) {socket : VEfviSocket bits}
    (h : socket.delivery.hung = false) (batch : Batch) :
    Round errorHandler fuel socket batch (iterate errorHandler fuel socket batch) := by
  have hframe := socket.refill_frame
  constructor <;> simp only [iterate, h, Bool.false_eq_true, if_false, hframe]

theorem iterate_serving {errorHandler : ErrorHandler} (hquiet : Quiet errorHandler) (fuel : Nat)
    {served : List HwEvent} {socket : VEfviSocket bits} (h : socket.Serving served)
    (batch : Batch) :
    (iterate errorHandler (fuel + 1) socket batch).Serving (served ++ batch.events) := by
  have hround := iterate_round errorHandler (fuel + 1) h.running batch
  have hpoll := Rxq.eventqPoll_shown batch.events h.holds
  have hdelivery := onEvents_calls _ _ _ _ (onEvent_quiet hquiet fuel socket.recvIndex)
    (socket.refill.rxq.eventqPoll batch.events).2 socket.delivery h.running
  rw [← hround.delivery] at hdelivery
  rw [← hround.rxq, h.pending] at hpoll
  have hidle : (iterate errorHandler (fuel + 1) socket batch).refill =
      iterate errorHandler (fuel + 1) socket batch := by
    apply refill_idle
    rw [total, hround.postIndex, hround.recvIndex, h.unread, h.filled, UInt32.sub_zero]
    exact firstFill_final bits
  refine ⟨hdelivery.2, ?_, ?_, ?_, ?_, ?_, ?_, ?_⟩
  · rw [hround.recvIndex, h.unread]
  · rw [hidle, hround.postIndex, h.filled]
  · rw [hidle]
    exact hpoll.2.2.2
  · rw [hidle, hpoll.2.2.1, h.posted]
  · rw [hidle, hpoll.2.1, List.drop_drop, receptions, receptions, receptions,
      List.filterMap_append, List.length_append]
  · rw [hround.events, hpoll.1, h.shown, shown_append]
  · rw [hdelivery.1, hround.events, List.filterMap_append, h.calls, h.unread]

theorem loopRecv_serving {errorHandler : ErrorHandler} (hquiet : Quiet errorHandler)
    (fuel : Nat) (batches : List Batch) {served : List HwEvent} {socket : VEfviSocket bits}
    (h : socket.Serving served) :
    (loopRecv errorHandler (fuel + 1) socket batches).Serving
      (served ++ batches.flatMap Batch.events) := by
  induction batches generalizing served socket with
  | nil => simpa [loopRecv, Run.final] using h
  | cons batch rest ih =>
      rw [List.flatMap_cons, ← List.append_assoc]
      exact ih (iterate_serving hquiet fuel h batch)

end VEfviSocket

theorem handed_event_iff (reception : Reception) (id : UInt32) :
    (reception.event id).handed 0 = (reception.event id).call? ↔
      id = 0 ∨ reception = .rxDiscard := by
  cases reception with
  | rx len =>
      have hzero : (0 : UInt32) % nRxBufs = 0 := by decide
      simp [Reception.event, Event.handed, Event.call?, hzero, eq_comm]
  | rxDiscard => simp [Reception.event, Event.handed, Event.call?]

theorem shown_late (events : List HwEvent) (posted : List UInt32)
    (hposted : ∀ id ∈ posted, id ≠ 0) :
    (∀ event ∈ shown posted events, event.handed 0 = event.call?) ↔
      ∀ reception ∈ (receptions events).take posted.length, reception = .rxDiscard := by
  induction events generalizing posted with
  | nil => simp [shown, receptions]
  | cons event rest ih =>
      cases event with
      | received reception =>
          cases posted with
          | nil => simpa [shown] using ih [] hposted
          | cons id others =>
              rw [List.forall_mem_cons] at hposted
              change (∀ event ∈ reception.event id :: shown others rest, _) ↔
                ∀ later ∈ reception :: (receptions rest).take others.length, _
              rw [List.forall_mem_cons, List.forall_mem_cons, ih others hposted.2,
                handed_event_iff, or_iff_right hposted.1]
      | transmitted =>
          rw [shown, List.forall_mem_cons, ih posted hposted]
          exact and_iff_right rfl
      | other =>
          rw [shown, List.forall_mem_cons, ih posted hposted]
          exact and_iff_right rfl

theorem shown_first (events : List HwEvent) (others : List UInt32)
    (hothers : ∀ id ∈ others, id ≠ 0) :
    (∀ event ∈ shown (0 :: others) events, event.handed 0 = event.call?) ↔
      ∀ reception ∈ ((receptions events).take (others.length + 1)).tail,
        reception = .rxDiscard := by
  induction events with
  | nil => simp [shown, receptions]
  | cons event rest ih =>
      cases event with
      | received reception =>
          change (∀ event ∈ reception.event 0 :: shown others rest, _) ↔
            ∀ later ∈ (receptions rest).take others.length, _
          rw [List.forall_mem_cons, shown_late rest others hothers]
          exact and_iff_right ((handed_event_iff reception 0).mpr (Or.inl rfl))
      | transmitted =>
          rw [shown, List.forall_mem_cons, ih]
          exact and_iff_right rfl
      | other =>
          rw [shown, List.forall_mem_cons, ih]
          exact and_iff_right rfl

theorem shown_posted_iff (events : List HwEvent) {count : Nat} (hcount : count ≤ 255) :
    (∀ event ∈ shown (refillIds 0 count) events, event.handed 0 = event.call?) ↔
      ∀ reception ∈ ((receptions events).take count).tail, reception = .rxDiscard := by
  cases count with
  | zero => simpa [refillIds] using shown_late events [] (by simp)
  | succ count =>
      have hids : refillIds 0 (count + 1) =
          0 :: (List.range count).map fun i => (0 + UInt32.ofNat (i + 1)) % nRxBufs := by
        rw [refillIds, List.range_succ_eq_map, List.map_cons, List.map_map]
        rfl
      rw [hids]
      have hfirst := shown_first events
        ((List.range count).map fun i => (0 + UInt32.ofNat (i + 1)) % nRxBufs) (by
          intro id hid hzero
          obtain ⟨i, hi, hvalue⟩ := List.mem_map.mp hid
          have hlt := List.mem_range.mp hi
          have hnumber := toNat_refillId (i := i + 1) (by omega)
          rw [hvalue, hzero] at hnumber
          contradiction)
      rwa [List.length_map, List.length_range] at hfirst

namespace VEfviSocket

/-- On a fresh interface, with a handler that never asks to try again, every frame
is handed on exactly when nothing but discards follows the first completion. -/
theorem delivers_iff (bits : Fin 32) (errorHandler : ErrorHandler)
    (hquiet : Quiet errorHandler) (fuel : Nat) (batches : List Batch) :
    ((loopRecv errorHandler (fuel + 1) (start bits) batches).delivery.hung = false ∧
      (loopRecv errorHandler (fuel + 1) (start bits) batches).delivery.calls =
        (loopRecv errorHandler (fuel + 1) (start bits) batches).events.filterMap Event.call?) ↔
      ∀ reception ∈ ((receptions (batches.flatMap Batch.events)).take (postable bits)).tail,
        reception = .rxDiscard := by
  have hserving := loopRecv_serving hquiet fuel batches (start_serving bits)
  have hcount : postable bits ≤ 255 := Nat.le_trans (postable_le bits) (firstFill_le bits).1
  rw [List.nil_append] at hserving
  rw [and_iff_right hserving.running, hserving.calls, filterMap_handed_iff, hserving.shown]
  exact shown_posted_iff _ hcount

def oneFrame : List Batch :=
  [⟨[.transmitted, .received (.rx 64), .received .rxDiscard], by decide⟩]

theorem delivers_one_frame :
    (loopRecv none 1 (start 9) oneFrame).delivery.hung = false ∧
      (loopRecv none 1 (start 9) oneFrame).delivery.calls =
        (loopRecv none 1 (start 9) oneFrame).events.filterMap Event.call? :=
  (delivers_iff 9 none (by simp [Quiet]) 0 oneFrame).mpr (by decide +kernel)

def twoFrames : List Batch := [⟨[.received (.rx 64), .received (.rx 128)], by decide⟩]

theorem delivers_fails_two_frames :
    (loopRecv none 1 (start 9) twoFrames).events = [.rx 0 64, .rx 1 128] ∧
      (loopRecv none 1 (start 9) twoFrames).delivery.calls = [⟨0, 64⟩] ∧
      ¬ ((loopRecv none 1 (start 9) twoFrames).delivery.hung = false ∧
        (loopRecv none 1 (start 9) twoFrames).delivery.calls =
          (loopRecv none 1 (start 9) twoFrames).events.filterMap Event.call?) := by
  decide +kernel

end VEfviSocket

def adopt : ErrorHandler := some fun _ rqId => (true, rqId)

theorem retry_adopt (rqId : UInt32) (fuel : Nat) (idx : UInt32) :
    retry adopt rqId (fuel + 2) idx = some (some rqId) := by
  unfold retry
  by_cases hsame : idx = rqId
  · rw [if_pos hsame, hsame]
  · rw [if_neg hsame]
    simp [adopt, retry]

theorem onEvent_adopt (fuel : Nat) (recvIndex : UInt32) (delivery : Delivery) (event : Event)
    (hrunning : delivery.hung = false) :
    (onEvent adopt (fuel + 2) recvIndex delivery event).calls =
        delivery.calls ++ event.call?.toList ∧
      (onEvent adopt (fuel + 2) recvIndex delivery event).hung = false := by
  cases event with
  | rx rqId len =>
      rw [onEvent, if_neg (by simp [hrunning]), retry_adopt]
      exact ⟨rfl, hrunning⟩
  | _ => exact ⟨(List.append_nil _).symm, hrunning⟩

namespace VEfviSocket

theorem adopt_delivers (bits : Fin 32) (fuel : Nat) (batches : List Batch) :
    (loopRecv adopt (fuel + 2) (start bits) batches).delivery.hung = false ∧
      (loopRecv adopt (fuel + 2) (start bits) batches).delivery.calls =
        (loopRecv adopt (fuel + 2) (start bits) batches).events.filterMap Event.call? := by
  apply Run.final_invariant (iterate adopt (fuel + 2)) fun socket : VEfviSocket bits =>
    socket.delivery.hung = false ∧ socket.delivery.calls = socket.events.filterMap Event.call?
  · intro socket batch h
    have hround := iterate_round adopt (fuel + 2) h.1 batch
    have hdelivery := onEvents_calls _ _ _ _ (onEvent_adopt fuel socket.recvIndex)
      (socket.refill.rxq.eventqPoll batch.events).2 socket.delivery h.1
    rw [hround.delivery, hround.events, List.filterMap_append, hdelivery.1, h.2]
    exact ⟨hdelivery.2, rfl⟩
  · exact ⟨rfl, rfl⟩

end VEfviSocket

end VirtualSfc.Efvi
