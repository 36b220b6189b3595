import Mathlib.Data.List.Nodup
import VirtualSfc.Efvi.LoopRecv

/-! Successive processes on one virtual interface. The receive queue survives a
process; the next one takes `post_index` from it and starts `recv_index` at 0
again. What the queue can hold is followed by a machine of five stages. -/
namespace VirtualSfc.Efvi
open Base

namespace VEfviSocket

variable {bits : Fin 32}

/-- A new process maps the interface. Of the socket only the queue is left. -/
def remapKernelMem (socket : VEfviSocket bits) : VEfviSocket bits :=
  { socket with
    postIndex := socket.rxq.posted
    recvIndex := 0
    delivery := ⟨0, [], false⟩ }

def process (errorHandler : ErrorHandler) (fuel : Nat) (socket : VEfviSocket bits)
    (batches : List Batch) : VEfviSocket bits :=
  loopRecv errorHandler fuel socket.remapKernelMem batches

def processes (errorHandler : ErrorHandler) (fuel : Nat) (bits : Fin 32)
    (runs : List (List Batch)) : VEfviSocket bits :=
  Run.final (process errorHandler fuel) (start bits) runs

end VEfviSocket

/-- No buffer is behind two outstanding descriptors, and there are no more of
them than buffers. -/
def Rxq.Exclusive {bits : Fin 32} (rxq : Rxq bits) : Prop :=
  rxq.ring.toList.Nodup ∧ rxq.ring.toList.length ≤ nRxBufs.toNat

/-- `stale`: filled by a process that is gone. `doubled`: filled again by a later
process, from the last posted descriptor on. `worn`: that process is gone, too. -/
inductive Stage
  | fresh
  | filled
  | stale
  | doubled
  | worn
deriving DecidableEq

namespace Stage

def postIndex (bits : Fin 32) : Stage → UInt32
  | fresh => 0
  | filled => (firstFill bits).toUInt32
  | stale => UInt32.ofNat (postable bits)
  | doubled => UInt32.ofNat (postable bits) + 7
  | worn => UInt32.ofNat (((firstFill bits).toNat + 7) / 8 * 8)

def history (bits : Fin 32) : Stage → List UInt32
  | fresh => []
  | filled | stale => refillIds 0 (firstFill bits).toNat
  | doubled | worn =>
      refillIds 0 (firstFill bits).toNat ++ refillIds (UInt32.ofNat (postable bits)) 7

def added (bits : Fin 32) : Stage → UInt64
  | fresh => firstFill bits
  | stale => if bits ≤ 8 then 0 else 7
  | _ => 0

def round (bits : Fin 32) : Stage → Stage
  | fresh => filled
  | stale => if bits ≤ 8 then stale else doubled
  | stage => stage

def reconnect : Stage → Stage
  | filled => stale
  | doubled => worn
  | stage => stage

def process (bits : Fin 32) (stage : Stage) (batches : List Batch) : Stage :=
  if batches.isEmpty then stage.reconnect else stage.reconnect.round bits

def fillings : Stage → Nat
  | fresh => 0
  | filled | stale => 1
  | doubled | worn => 2

theorem added_eq (bits : Fin 32) (stage : Stage) :
    refillCount (Rxq.receiveCapacity bits) (stage.postIndex bits) = stage.added bits := by
  revert bits
  cases stage <;> decide

theorem postIndex_round (bits : Fin 32) (stage : Stage) :
    stage.postIndex bits + (stage.added bits).toUInt32 = (stage.round bits).postIndex bits := by
  revert bits
  cases stage <;> decide

theorem postIndex_le (bits : Fin 32) (stage : Stage) :
    (stage.postIndex bits).toNat ≤ 256 := by
  revert bits
  cases stage <;> decide

theorem room (bits : Fin 32) (stage : Stage) (h : stage.added bits ≠ 0) :
    (stage.history bits).length + (stage.added bits).toNat ≤ 2 ^ bits.val - 1 := by
  cases stage with
  | fresh =>
      rw [history, List.length_nil, Nat.zero_add]
      exact (firstFill_le bits).2
  | stale =>
      rw [history, length_refillIds]
      revert bits
      decide
  | filled | doubled | worn => exact absurd rfl h

theorem history_round (bits : Fin 32) (stage : Stage) :
    stage.history bits ++ refillIds (stage.postIndex bits) (stage.added bits).toNat =
      (stage.round bits).history bits := by
  cases stage with
  | fresh => exact List.nil_append _
  | stale =>
      by_cases hbits : bits ≤ 8
      · rw [added, round, if_pos hbits, if_pos hbits]
        exact List.append_nil _
      · rw [added, round, if_neg hbits, if_neg hbits]
        rfl
  | filled | doubled | worn => exact List.append_nil _

theorem history_reconnect (bits : Fin 32) (stage : Stage) :
    stage.reconnect.history bits = stage.history bits := by
  cases stage <;> rfl

theorem postIndex_reconnect (bits : Fin 32) (stage : Stage) :
    stage.reconnect.postIndex bits =
      UInt32.ofNat ((stage.history bits).length / 8 * 8) := by
  cases stage <;> simp [reconnect, postIndex, history, postable]

theorem fillings_reconnect (stage : Stage) : stage.reconnect.fillings = stage.fillings := by
  cases stage <;> rfl

theorem refillIds_nodup {total : Nat} (h : total ≤ 255) : (refillIds 0 total).Nodup := by
  apply List.Nodup.map_on
  · intro i hi j hj hsame
    have hvalue := congrArg UInt32.toNat hsame
    rw [List.mem_range] at hi hj
    rwa [toNat_refillId (by omega), toNat_refillId (by omega)] at hvalue
  · exact List.nodup_range

theorem history_single (bits : Fin 32) {stage : Stage} (h : stage.fillings ≤ 1) :
    (stage.history bits).Nodup ∧ (stage.history bits).length ≤ nRxBufs.toNat := by
  cases stage with
  | fresh => exact ⟨List.nodup_nil, Nat.zero_le _⟩
  | filled | stale =>
      rw [history, length_refillIds]
      exact ⟨refillIds_nodup (firstFill_le bits).1, (firstFill_le bits).1⟩
  | doubled | worn => exact absurd h (by decide)

theorem fillings_round_idle {bits : Fin 32} {stage : Stage} (h : stage.added bits = 0) :
    (stage.round bits).fillings ≤ 1 ↔ stage.fillings ≤ 1 := by
  cases stage with
  | stale =>
      by_cases hbits : bits ≤ 8
      · rw [round, if_pos hbits]
      · rw [added, if_neg hbits] at h
        contradiction
  | _ => simp [round, fillings]

theorem fillings_le_round (bits : Fin 32) (stage : Stage) :
    stage.fillings ≤ (stage.round bits).fillings := by
  revert bits
  cases stage <;> decide

theorem round_round (bits : Fin 32) (stage : Stage) :
    (stage.round bits).round bits = stage.round bits := by
  revert bits
  cases stage <;> decide

theorem fillings_process (bits : Fin 32) (stage : Stage) (batches : List Batch) :
    (stage.process bits batches).fillings =
      if bits ≤ 8 then max stage.fillings (if batches.isEmpty then 0 else 1)
      else min 2 (stage.fillings + if batches.isEmpty then 0 else 1) := by
  rw [process]
  generalize batches.isEmpty = idle
  revert bits
  cases idle <;> cases stage <;> decide

/-- On rings of more than 255 descriptors the second process that runs the loop
does the damage; on smaller ones it does not refill. -/
theorem fillings_processes (bits : Fin 32) (runs : List (List Batch)) (stage : Stage) :
    (Run.final (process bits) stage runs).fillings ≤ 1 ↔
      stage.fillings ≤ 1 ∧ (bits ≤ 8 ∨ stage.fillings + runs.countP (!·.isEmpty) ≤ 1) := by
  induction runs generalizing stage with
  | nil =>
      change stage.fillings ≤ 1 ↔ _
      rw [List.countP_nil]
      omega
  | cons batches rest ih =>
      change (Run.final (process bits) (stage.process bits batches) rest).fillings ≤ 1 ↔ _
      rw [ih, fillings_process, List.countP_cons]
      by_cases hbits : bits ≤ 8
      · cases hempty : batches.isEmpty <;> simp [hbits]
      · cases hempty : batches.isEmpty <;> simp [hbits] <;> omega

end Stage

theorem Rxq.Holds.exclusive {bits : Fin 32} {rxq : Rxq bits} {history whole : List UInt32}
    (h : rxq.Holds history) (hpart : history.Sublist whole)
    (hwhole : whole.Nodup ∧ whole.length ≤ nRxBufs.toNat) : rxq.Exclusive := by
  have hsublist : rxq.ring.toList.Sublist whole := by
    rw [h.outstanding]
    exact (List.drop_sublist _ _).trans hpart
  exact ⟨hwhole.1.sublist hsublist, Nat.le_trans hsublist.length_le hwhole.2⟩

namespace VEfviSocket

variable {bits : Fin 32}

/-- The socket and its queue are at the stage, and the log shows a breach exactly
when the stage does. -/
structure Tracks (stage : Stage) (socket : VEfviSocket bits) : Prop where
  unread : socket.recvIndex = 0
  cursor : socket.postIndex = stage.postIndex bits
  holds : socket.rxq.Holds (stage.history bits)
  posted : socket.rxq.posted.toNat = (stage.history bits).length / 8 * 8
  exclusive : (∀ rxq ∈ socket.passed, rxq.Exclusive) ↔ stage.fillings ≤ 1

theorem start_tracks (bits : Fin 32) : (start bits).Tracks .fresh := by
  refine ⟨rfl, rfl, Rxq.fresh_holds bits, ?_, ?_⟩
  · simp [start, Rxq.fresh, Stage.history]
  · simp [start, Stage.fillings]

theorem remapKernelMem_tracks {stage : Stage} {socket : VEfviSocket bits}
    (h : socket.Tracks stage) : socket.remapKernelMem.Tracks stage.reconnect := by
  refine ⟨rfl, ?_, ?_, ?_, ?_⟩
  · rw [Stage.postIndex_reconnect, ← h.posted, UInt32.ofNat_toNat]
    rfl
  · rw [Stage.history_reconnect]
    exact h.holds
  · rw [Stage.history_reconnect]
    exact h.posted
  · rw [Stage.fillings_reconnect]
    exact h.exclusive

theorem Tracks.total_eq {stage : Stage} {socket : VEfviSocket bits}
    (h : socket.Tracks stage) : socket.total = stage.added bits := by
  rw [total, h.unread, h.cursor, UInt32.sub_zero, Stage.added_eq]

/-- The second filling starts at descriptors that the adapter has not been shown,
so they are still in the queue. -/
theorem doubled_not_exclusive {rxq : Rxq bits} (hbits : ¬ bits ≤ 8)
    (h : rxq.Holds (Stage.doubled.history bits))
    (hremoved : rxq.ring.removed.toNat ≤ postable bits) : ¬ rxq.Exclusive := by
  intro hexclusive
  have hsuffix : ((Stage.doubled.history bits).drop (postable bits)).Sublist
      rxq.ring.toList := by
    rw [h.outstanding]
    exact List.drop_sublist_drop_left _ hremoved
  have hnodup := hexclusive.1.sublist hsuffix
  revert hnodup
  clear hsuffix hremoved hexclusive h rxq
  revert bits
  decide +kernel

theorem refill_exclusive {stage : Stage} {socket : VEfviSocket bits} (h : socket.Tracks stage)
    (hadded : stage.added bits ≠ 0) :
    (∀ rxq ∈ Run.states Rxq.receiveInit socket.rxq
        (refillIds (stage.postIndex bits) (stage.added bits).toNat), rxq.Exclusive) ↔
      (stage.round bits).fillings ≤ 1 := by
  have hroom := Stage.room bits stage hadded
  rw [← length_refillIds (stage.postIndex bits) (stage.added bits).toNat] at hroom
  refine ⟨fun hall => ?_, fun hsingle rxq hrxq => ?_⟩
  · have hlast := Rxq.receiveInits_holds _ h.holds hroom
    have hexclusive := hall _ (Run.final_mem_states _ _ _)
    rw [Stage.history_round] at hlast
    cases stage with
    | stale =>
        by_cases hbits : bits ≤ 8
        · rw [Stage.round, if_pos hbits]
          exact Nat.le_refl 1
        · rw [Stage.round, if_neg hbits] at hlast
          have hremoved := h.holds.completed
          rw [h.posted, Stage.history, length_refillIds, ← hlast.2.1] at hremoved
          exact absurd hexclusive (doubled_not_exclusive hbits hlast.1 hremoved)
    | fresh => exact Nat.le_refl 1
    | filled | doubled | worn => exact absurd rfl hadded
  · obtain ⟨count, hholds⟩ := Rxq.receiveInits_states _ h.holds hroom rxq hrxq
    have hwhole := Stage.history_single bits hsingle
    rw [← Stage.history_round] at hwhole
    exact hholds.exclusive (List.Sublist.append_left (List.take_sublist _ _) _) hwhole

theorem refill_tracks {stage : Stage} {socket : VEfviSocket bits} (h : socket.Tracks stage) :
    socket.refill.Tracks (stage.round bits) := by
  have htotal := h.total_eq
  have hrefill := socket.refill_holds h.holds h.posted
    (by rw [htotal]; exact Stage.room bits stage)
  rw [htotal, h.cursor, Stage.history_round, Stage.postIndex_round] at hrefill
  refine ⟨?_, hrefill.2.2.2, hrefill.1, ?_, ?_⟩
  · rw [socket.refill_frame.1, h.unread]
  · rw [hrefill.2.1, ← Stage.history_round, List.length_append, length_refillIds]
  · by_cases hadded : stage.added bits = 0
    · rw [Stage.fillings_round_idle hadded, refill_idle (htotal.trans hadded)]
      exact h.exclusive
    · rw [refill, if_neg (by rwa [htotal])]
      simp only [List.forall_mem_append]
      rw [htotal, h.cursor, refill_exclusive h hadded, h.exclusive]
      apply and_iff_right_of_imp
      exact Nat.le_trans (Stage.fillings_le_round bits stage)

theorem iterate_tracks {stage : Stage} {socket : VEfviSocket bits} (h : socket.Tracks stage)
    (hrunning : socket.delivery.hung = false) (errorHandler : ErrorHandler) (fuel : Nat)
    (batch : Batch) :
    (iterate errorHandler fuel socket batch).Tracks (stage.round bits) := by
  have hround := iterate_round errorHandler fuel hrunning batch
  have hrefill := refill_tracks h
  have hpoll := Rxq.eventqPoll_shown batch.events hrefill.holds
  rw [← hround.rxq] at hpoll
  refine ⟨?_, ?_, hpoll.2.2.2, ?_, ?_⟩
  · rw [hround.recvIndex, h.unread]
  · rw [hround.postIndex, hrefill.cursor]
  · rw [hpoll.2.2.1, hrefill.posted]
  · rw [hround.passed, List.forall_mem_append, hrefill.exclusive]
    apply and_iff_left_of_imp
    intro hsingle rxq hrxq
    have hholds := Run.states_invariant _ (fun rxq => rxq.Holds ((stage.round bits).history bits))
      (fun _ event hstate => (Rxq.pollEvent_holds hstate event).1) _ _ hrefill.holds rxq hrxq
    exact hholds.exclusive (List.Sublist.refl _) (Stage.history_single bits hsingle)

theorem iterate_settled {stage : Stage} (hsettled : stage.round bits = stage)
    {socket : VEfviSocket bits} (h : socket.Tracks stage) (errorHandler : ErrorHandler)
    (fuel : Nat) (batch : Batch) : (iterate errorHandler fuel socket batch).Tracks stage := by
  cases hhung : socket.delivery.hung with
  | false =>
      have hnext := iterate_tracks h hhung errorHandler fuel batch
      rwa [hsettled] at hnext
  | true => rwa [iterate, hhung, if_pos rfl]

theorem process_tracks {stage : Stage} {socket : VEfviSocket bits} (h : socket.Tracks stage)
    (errorHandler : ErrorHandler) (fuel : Nat) (batches : List Batch) :
    (process errorHandler fuel socket batches).Tracks (stage.process bits batches) := by
  have hconnected := remapKernelMem_tracks h
  cases batches with
  | nil => exact hconnected
  | cons batch rest =>
      have hsettled := Stage.round_round bits stage.reconnect
      exact Run.final_invariant (iterate errorHandler fuel)
        (fun socket => socket.Tracks (stage.reconnect.round bits))
        (fun _ batch htracks => iterate_settled hsettled htracks errorHandler fuel batch)
        rest _ (iterate_tracks hconnected rfl errorHandler fuel batch)

theorem processes_tracks (errorHandler : ErrorHandler) (fuel : Nat) (bits : Fin 32)
    (runs : List (List Batch)) :
    (processes errorHandler fuel bits runs).Tracks
      (Run.final (Stage.process bits) .fresh runs) :=
  Run.final_simulation _ _ Tracks
    (fun _ _ batches h => process_tracks h errorHandler fuel batches) _ _ _ (start_tracks bits)

theorem processes_postIndex_le (errorHandler : ErrorHandler) (fuel : Nat) (bits : Fin 32)
    (runs : List (List Batch)) :
    (processes errorHandler fuel bits runs).postIndex.toNat ≤ 256 := by
  rw [(processes_tracks errorHandler fuel bits runs).cursor]
  exact Stage.postIndex_le bits _

/-- No buffer is ever behind two outstanding descriptors, and no more than
`N_RX_BUFS` are outstanding, exactly when the ring has at most 255 descriptors
or at most one process runs the loop. -/
theorem descriptors_exclusive_iff (errorHandler : ErrorHandler) (fuel : Nat) (bits : Fin 32)
    (runs : List (List Batch)) :
    (∀ rxq ∈ (processes errorHandler fuel bits runs).passed,
        rxq.ring.toList.Nodup ∧ rxq.ring.toList.length ≤ nRxBufs.toNat) ↔
      bits ≤ 8 ∨ runs.countP (!·.isEmpty) ≤ 1 := by
  have htracks := processes_tracks errorHandler fuel bits runs
  have hstage := Stage.fillings_processes bits runs .fresh
  rw [← htracks.exclusive, and_iff_right (by decide), Stage.fillings, Nat.zero_add] at hstage
  exact hstage

def twoProcesses : List (List Batch) := [[⟨[], by decide⟩], [⟨[], by decide⟩]]

theorem descriptors_shared_two_processes :
    ∃ rxq ∈ (processes none 1 9 twoProcesses).passed,
      rxq.ring.toList.count 248 = 2 ∧
        ¬ (rxq.ring.toList.Nodup ∧ rxq.ring.toList.length ≤ nRxBufs.toNat) := by
  have hlast : ((processes none 1 9 twoProcesses).passed.getLast?.map
      fun rxq => rxq.ring.toList.count 248) = some 2 := by decide +kernel
  obtain ⟨rxq, hrxq, hcount⟩ := Option.map_eq_some_iff.mp hlast
  refine ⟨rxq, List.mem_of_getLast? hrxq, hcount, fun hexclusive => ?_⟩
  have honce := List.nodup_iff_count_le_one.mp hexclusive.1 248
  omega

end VEfviSocket

end VirtualSfc.Efvi
