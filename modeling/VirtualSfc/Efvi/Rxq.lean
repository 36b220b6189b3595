import Mathlib.Data.List.TakeDrop
import VirtualSfc.Base.BitField
import VirtualSfc.Base.Ring
import VirtualSfc.Base.Run

/-! The receive queue of a virtual interface, as the EF10 side of `ef_vi` keeps
it in the mapped state. The adapter completes posted descriptors in order; the
queue is a window on the list of all ids ever given to `ef_vi_receive_init`. -/
namespace VirtualSfc.Efvi
open Base

structure Rxq (bits : Fin 32) where
  ring : Ring UInt32 bits
  posted : UInt32

inductive Reception
  | rx (len : UInt16)
  | rxDiscard
deriving DecidableEq, Repr

inductive HwEvent
  | received (reception : Reception)
  | transmitted
  | other
deriving DecidableEq, Repr

inductive Event
  | rx (rqId : UInt32) (len : UInt16)
  | rxDiscard (rqId : UInt32)
  | tx
  | other
deriving DecidableEq, Repr

def Reception.event (rqId : UInt32) : Reception → Event
  | .rx len => .rx rqId len
  | .rxDiscard => .rxDiscard rqId

namespace Rxq

variable {bits : Fin 32}

def fresh (bits : Fin 32) : Rxq bits := ⟨Ring.empty 0xffffffff, 0⟩

def receiveCapacity (bits : Fin 32) : UInt64 := UInt64.ofNat (2 ^ bits.val - 1)

/-- A full ring answers `-EAGAIN`, which the receive loop does not look at. -/
def receiveInit (rxq : Rxq bits) (id : UInt32) : Rxq bits :=
  match rxq.ring.push id with
  | some ring => { rxq with ring := ring }
  | none => rxq

def receivePush (rxq : Rxq bits) : Rxq bits :=
  let posted := rxq.ring.added &&& ~~~7
  if posted ≠ rxq.posted then { rxq with posted := posted } else rxq

/-- `huntington_rx_desc_consumed`. Without a posted descriptor the adapter has
nowhere to put the frame and drops it. -/
def rxDescConsumed (rxq : Rxq bits) (reception : Reception) : Rxq bits × List Event :=
  if rxq.ring.removed = rxq.posted then (rxq, [])
  else
    match rxq.ring.pop with
    | some (id, ring) => ({ rxq with ring := ring }, [reception.event id])
    | none => (rxq, [])

def pollEvent (rxq : Rxq bits) : HwEvent → Rxq bits × List Event
  | .received reception => rxq.rxDescConsumed reception
  | .transmitted => (rxq, [.tx])
  | .other => (rxq, [.other])

def eventqPoll (rxq : Rxq bits) : List HwEvent → Rxq bits × List Event
  | [] => (rxq, [])
  | event :: rest =>
      let first := rxq.pollEvent event
      let others := eventqPoll first.1 rest
      (others.1, first.2 ++ others.2)

/-- The queue after the ids of `history` were initialised, in this order: those
completed are gone, and the adapter has seen some of the others. -/
structure Holds (rxq : Rxq bits) (history : List UInt32) : Prop where
  outstanding : rxq.ring.toList = history.drop rxq.ring.removed.toNat
  completed : rxq.ring.removed.toNat ≤ rxq.posted.toNat
  given : rxq.posted.toNat ≤ history.length

theorem fresh_holds (bits : Fin 32) : (fresh bits).Holds [] := by
  refine ⟨?_, Nat.le_refl 0, Nat.le_refl 0⟩
  simp [fresh, Ring.empty, Ring.toList, Ring.level]

theorem Holds.level {rxq : Rxq bits} {history : List UInt32} (h : rxq.Holds history) :
    rxq.ring.level = history.length - rxq.ring.removed.toNat := by
  rw [← Ring.length_toList, h.outstanding, List.length_drop]

theorem Holds.added {rxq : Rxq bits} {history : List UInt32} (h : rxq.Holds history)
    (hsmall : history.length < 2 ^ 32) : rxq.ring.added.toNat = history.length := by
  have hlevel := h.level
  have hcompleted := h.completed
  have hgiven := h.given
  rw [← Ring.removed_add_level, UInt32.toNat_add, UInt32.toNat_ofNat', hlevel]
  omega

theorem receiveInit_holds {rxq : Rxq bits} {history : List UInt32} (h : rxq.Holds history)
    (hroom : history.length < 2 ^ bits.val - 1) (id : UInt32) :
    (rxq.receiveInit id).Holds (history ++ [id]) ∧
      (rxq.receiveInit id).ring.removed = rxq.ring.removed ∧
      (rxq.receiveInit id).posted = rxq.posted := by
  have hlevel := h.level
  have hcompleted := h.completed
  have hgiven := h.given
  cases hpush : rxq.ring.push id with
  | none =>
      have hfull := Ring.push_eq_none hpush
      omega
  | some ring =>
      have hring := Ring.push_eq_some hpush
      have hnext : rxq.receiveInit id = { rxq with ring := ring } := by
        rw [receiveInit, hpush]
      rw [hnext]
      refine ⟨⟨?_, ?_, ?_⟩, hring.2.1, rfl⟩
      · rw [hring.2.2, hring.2.1, h.outstanding, List.drop_append_of_le_length (by omega)]
      · rw [hring.2.1]
        exact hcompleted
      · rw [List.length_append]
        exact Nat.le_add_right_of_le hgiven

theorem receiveInits_holds (ids : List UInt32) {rxq : Rxq bits} {history : List UInt32}
    (h : rxq.Holds history) (hroom : history.length + ids.length ≤ 2 ^ bits.val - 1) :
    (Run.final receiveInit rxq ids).Holds (history ++ ids) ∧
      (Run.final receiveInit rxq ids).ring.removed = rxq.ring.removed ∧
      (Run.final receiveInit rxq ids).posted = rxq.posted := by
  induction ids generalizing rxq history with
  | nil =>
      rw [List.append_nil]
      exact ⟨h, rfl, rfl⟩
  | cons id rest ih =>
      rw [List.length_cons] at hroom
      have hfirst := receiveInit_holds h (by omega) id
      have hrest := ih hfirst.1 (by rw [List.length_append, List.length_singleton]; omega)
      rw [List.append_assoc, List.singleton_append, hfirst.2.1, hfirst.2.2] at hrest
      exact hrest

theorem receiveInits_states (ids : List UInt32) {rxq : Rxq bits} {history : List UInt32}
    (h : rxq.Holds history) (hroom : history.length + ids.length ≤ 2 ^ bits.val - 1) :
    ∀ state ∈ Run.states receiveInit rxq ids, ∃ count,
      state.Holds (history ++ ids.take count) := by
  induction ids generalizing rxq history with
  | nil =>
      intro state hstate
      rw [List.mem_singleton.mp hstate]
      exact ⟨0, by simpa using h⟩
  | cons id rest ih =>
      intro state hstate
      rw [List.length_cons] at hroom
      have hfirst := receiveInit_holds h (by omega) id
      cases List.mem_cons.mp hstate with
      | inl heq =>
          rw [heq]
          exact ⟨0, by simpa using h⟩
      | inr htail =>
          obtain ⟨count, hholds⟩ := ih hfirst.1
            (by rw [List.length_append, List.length_singleton]; omega) state htail
          rw [List.append_assoc] at hholds
          exact ⟨count + 1, hholds⟩

theorem and_not_seven (counter : UInt32) :
    (counter &&& ~~~7).toNat = counter.toNat / 8 * 8 := by
  have hlt := counter.toNat_lt
  have hmask : (~~~7 : UInt32).toNat = (2 ^ 29 - 1) <<< 3 := by decide
  rw [UInt32.toNat_and, hmask, and_shifted_mask]
  omega

@[simp] theorem receivePush_ring (rxq : Rxq bits) : rxq.receivePush.ring = rxq.ring := by
  simp only [receivePush]
  split <;> rfl

theorem receivePush_posted (rxq : Rxq bits) :
    rxq.receivePush.posted.toNat = rxq.ring.added.toNat / 8 * 8 := by
  rw [← and_not_seven]
  simp only [receivePush]
  split
  · rfl
  · rename_i hsame
    rw [not_not.mp hsame]

theorem receivePush_holds {rxq : Rxq bits} {history : List UInt32} (h : rxq.Holds history)
    (hsmall : history.length < 2 ^ 32)
    (hremoved : rxq.ring.removed.toNat ≤ history.length / 8 * 8) :
    rxq.receivePush.Holds history ∧ rxq.receivePush.posted.toNat = history.length / 8 * 8 ∧
      rxq.receivePush.ring = rxq.ring := by
  have hposted : rxq.receivePush.posted.toNat = history.length / 8 * 8 := by
    rw [receivePush_posted, h.added hsmall]
  refine ⟨⟨?_, ?_, ?_⟩, hposted, receivePush_ring rxq⟩
  · rw [receivePush_ring]
    exact h.outstanding
  · rw [receivePush_ring, hposted]
    exact hremoved
  · rw [hposted]
    omega

def pending (rxq : Rxq bits) : List UInt32 :=
  rxq.ring.toList.take (rxq.posted.toNat - rxq.ring.removed.toNat)

theorem Holds.pending {rxq : Rxq bits} {history : List UInt32} (h : rxq.Holds history) :
    rxq.pending = (history.take rxq.posted.toNat).drop rxq.ring.removed.toNat := by
  rw [Rxq.pending, h.outstanding, List.drop_take]

theorem rxDescConsumed_nil {rxq : Rxq bits} {history : List UInt32} (h : rxq.Holds history)
    (hpending : rxq.pending = []) (reception : Reception) :
    rxq.rxDescConsumed reception = (rxq, []) := by
  have hcompleted := h.completed
  have hgiven := h.given
  have hlength := congrArg List.length (h.pending.symm.trans hpending)
  simp only [List.length_drop, List.length_take, List.length_nil] at hlength
  rw [rxDescConsumed, if_pos (UInt32.toNat_inj.mp (by omega))]

theorem rxDescConsumed_cons {rxq : Rxq bits} {history : List UInt32} (h : rxq.Holds history)
    {id : UInt32} {rest : List UInt32} (hpending : rxq.pending = id :: rest)
    (reception : Reception) :
    ∃ next, rxq.rxDescConsumed reception = (next, [reception.event id]) ∧
      next.pending = rest ∧ next.posted = rxq.posted ∧ next.Holds history := by
  have hlt : rxq.ring.removed.toNat < rxq.posted.toNat := by
    have hlength := congrArg List.length hpending
    rw [pending, List.length_take, List.length_cons] at hlength
    omega
  have hbusy : rxq.ring.removed ≠ rxq.posted := by
    intro hsame
    rw [hsame] at hlt
    exact Nat.lt_irrefl _ hlt
  cases hpop : rxq.ring.pop with
  | none =>
      have hempty : rxq.ring.toList = [] := by
        by_contra hne
        exact Ring.pop_ne_none hne hpop
      rw [pending, hempty, List.take_nil] at hpending
      contradiction
  | some taken =>
      have htaken := Ring.pop_eq_some hpop
      have hremoved : taken.2.removed.toNat = rxq.ring.removed.toNat + 1 := by
        have hposted := rxq.posted.toNat_lt
        rw [htaken.2.1, UInt32.toNat_add, UInt32.toNat_one]
        omega
      have hcount : rxq.posted.toNat - rxq.ring.removed.toNat =
          rxq.posted.toNat - taken.2.removed.toNat + 1 := by omega
      rw [pending, htaken.2.2, hcount, List.take_succ_cons] at hpending
      have hcons := List.cons.inj hpending
      refine ⟨{ rxq with ring := taken.2 }, ?_, hcons.2, rfl, ?_, ?_, h.given⟩
      · rw [rxDescConsumed, if_neg hbusy, hpop, ← hcons.1]
      · rw [hremoved, ← List.drop_drop, ← h.outstanding, htaken.2.2]
        rfl
      · rw [hremoved]
        exact hlt

theorem pollEvent_holds {rxq : Rxq bits} {history : List UInt32} (h : rxq.Holds history)
    (event : HwEvent) :
    (rxq.pollEvent event).1.Holds history ∧ (rxq.pollEvent event).1.posted = rxq.posted := by
  cases event with
  | received reception =>
      cases hpending : rxq.pending with
      | nil =>
          rw [pollEvent, rxDescConsumed_nil h hpending]
          exact ⟨h, rfl⟩
      | cons id rest =>
          obtain ⟨next, hnext, _, hposted, hholds⟩ := rxDescConsumed_cons h hpending reception
          rw [pollEvent, hnext]
          exact ⟨hholds, hposted⟩
  | transmitted => exact ⟨h, rfl⟩
  | other => exact ⟨h, rfl⟩

end Rxq

def HwEvent.reception? : HwEvent → Option Reception
  | .received reception => some reception
  | _ => none

def receptions (events : List HwEvent) : List Reception := events.filterMap HwEvent.reception?

/-- The adapter as a plain queue of posted ids: the events that software is shown. -/
def shown (posted : List UInt32) : List HwEvent → List Event
  | [] => []
  | .received reception :: rest =>
      match posted with
      | [] => shown [] rest
      | id :: others => reception.event id :: shown others rest
  | .transmitted :: rest => .tx :: shown posted rest
  | .other :: rest => .other :: shown posted rest

theorem shown_append (first second : List HwEvent) (posted : List UInt32) :
    shown posted (first ++ second) =
      shown posted first ++ shown (posted.drop (receptions first).length) second := by
  induction first generalizing posted with
  | nil => rfl
  | cons event rest ih =>
      cases event with
      | received reception =>
          cases posted with
          | nil => simpa [shown] using ih []
          | cons id others => exact congrArg (reception.event id :: ·) (ih others)
      | transmitted => exact congrArg (Event.tx :: ·) (ih posted)
      | other => exact congrArg (Event.other :: ·) (ih posted)

/-- Polling the ring shows what the plain queue of posted ids shows. -/
theorem Rxq.eventqPoll_shown {bits : Fin 32} (events : List HwEvent) {rxq : Rxq bits}
    {history : List UInt32} (h : rxq.Holds history) :
    (rxq.eventqPoll events).2 = shown rxq.pending events ∧
      (rxq.eventqPoll events).1.pending = rxq.pending.drop (receptions events).length ∧
      (rxq.eventqPoll events).1.posted = rxq.posted ∧
      (rxq.eventqPoll events).1.Holds history := by
  induction events generalizing rxq with
  | nil => exact ⟨rfl, rfl, rfl, h⟩
  | cons event rest ih =>
      cases event with
      | received reception =>
          cases hpending : rxq.pending with
          | nil =>
              have hrest := ih h
              rw [hpending, List.drop_nil] at hrest
              rw [eventqPoll, pollEvent, rxDescConsumed_nil h hpending, shown, List.drop_nil]
              exact hrest
          | cons id others =>
              obtain ⟨next, hnext, htail, hposted, hholds⟩ :=
                rxDescConsumed_cons h hpending reception
              have hrest := ih hholds
              rw [htail, hposted] at hrest
              rw [eventqPoll, pollEvent, hnext, shown, hrest.1]
              exact ⟨rfl, hrest.2⟩
      | transmitted =>
          have hrest := ih h
          rw [eventqPoll, pollEvent, shown, hrest.1]
          exact ⟨rfl, hrest.2⟩
      | other =>
          have hrest := ih h
          rw [eventqPoll, pollEvent, shown, hrest.1]
          exact ⟨rfl, hrest.2⟩

end VirtualSfc.Efvi
