import VirtualSfc.Efvi.RxPath

/-! Delivery of packets over whole runs of the receive path. The event ring passes the events
of the adapter on in order, and the accounts of buffers and completions are kept by every
step of software and adapter. -/
namespace VirtualSfc.Efvi
open Base

namespace RxSystem

variable {shape : EvqShape} {merge : Bool} {bits : Fin 32} {system : RxSystem bits}

structure Flows (shape : EvqShape) (merge : Bool) (system : RxSystem bits) : Prop where
  sound : system.ring.Sound shape (rxDispatch bits merge)
  events : system.ring.events = Made.words bits 0 system.made
  allowed : ∀ one ∈ system.made, one.Allowed merge
  accounts : Accounts merge system.side system.done system.made system.readIndex system.targets
    system.ring.outputs

theorem reset_flows (shape : EvqShape) (merge : Bool) (bits : Fin 32)
    (descriptors : Nat → BitVec 64) : (reset bits descriptors).Flows shape merge where
  sound := EventSystem.reset_sound shape _ _
  events := rfl
  allowed := fun _ h => absurd h List.not_mem_nil
  accounts := Accounts.reset merge bits descriptors

theorem Flows.handled_le (h : system.Flows shape merge) :
    system.ring.handled.length ≤ system.made.length := by
  rw [← Made.length_words bits 0, ← h.events]
  exact h.sound.handled.length_le

theorem Flows.inner (h : system.Flows shape merge) (hbits : 4 ≤ bits.val)
    {input : EventInput (RxSide bits)} (hinner : EventSystem.Inner input)
    (hlawful : system.ring.Lawful shape input) :
    (system.step shape merge (.ring input)).Flows shape merge := by
  have hsound := h.sound.step hlawful
  cases h.sound.effect hinner with
  | still hevents hvi hhandled houtputs =>
      refine ⟨hsound, hevents.trans h.events, h.allowed, ?_⟩
      have haccounts := h.accounts
      rw [side, ← hvi, done, ← hhandled, ← houtputs] at haccounts
      exact haccounts
  | handle event hhead hevents hvi hhandled houtputs =>
      rw [h.events] at hhead
      obtain ⟨one, htake, hmem, hword⟩ := Made.getElem?_words hhead
      rw [Nat.zero_add] at hword
      have hdone : done (system.step shape merge (.ring input)) = system.done ++ [one] := by
        rw [done, ← show system.made.take (system.ring.handled.length + 1) =
          system.done ++ [one] from htake]
        change system.made.take (system.ring.step shape _ input).handled.length = _
        rw [hhandled, List.length_append]
        rfl
      have hbehind : system.done ++ [one] <+: system.made := by
        rw [← show system.made.take (system.ring.handled.length + 1) =
          system.done ++ [one] from htake]
        exact List.take_prefix _ _
      refine ⟨hsound, hevents.trans h.events, h.allowed, ?_⟩
      have haccounts := h.accounts.handle hbits hbehind (h.allowed one hmem)
      rw [hdone]
      change Accounts merge (system.ring.step shape _ input).vi _ _ _ _
        (system.ring.step shape _ input).outputs
      rw [hvi, houtputs, hword]
      exact haccounts

theorem Flows.client (h : system.Flows shape merge) {change : RxSide bits → RxSide bits}
    (hchange : system.ring.pc = .idle → Accounts merge (change system.side) system.done
      system.made system.readIndex system.targets system.ring.outputs) :
    (system.client shape merge change).Flows shape merge := by
  have hsound : (system.ring.step shape (rxDispatch bits merge) (.client change)).Sound shape
      (rxDispatch bits merge) := h.sound.step trivial
  refine ⟨hsound, ?_, h.allowed, ?_⟩
  · change (system.ring.step shape (rxDispatch bits merge) (.client change)).events = _
    rw [EventSystem.step]
    split <;> exact h.events
  · unfold RxSystem.client side done
    simp only [EventSystem.step]
    split
    · rename_i hpc
      exact hchange hpc
    · exact h.accounts

theorem Flows.raise (h : system.Flows shape merge) {one : Made} (hallowed : one.Allowed merge)
    (hformed : WellFormed (one.word bits (Made.total system.made))) {readIndex : Nat}
    {targets : List UInt64}
    (haccounts : Accounts merge system.side system.done (system.made ++ [one]) readIndex targets
      system.ring.outputs) :
    Flows shape merge ⟨system.ring.step shape (rxDispatch bits merge)
      (.raise (one.word bits (Made.total system.made))), readIndex, targets,
      system.made ++ [one]⟩ where
  sound := by
    have hlawful : system.ring.Lawful shape (.raise (one.word bits (Made.total system.made))) :=
      hformed
    exact h.sound.step hlawful
  events := by
    rw [Made.words_append, Nat.zero_add, ← h.events]
    rfl
  allowed := by
    rw [List.forall_mem_append, List.forall_mem_singleton]
    exact ⟨h.allowed, hallowed⟩
  accounts := by
    have hdone : done ⟨system.ring.step shape (rxDispatch bits merge)
        (.raise (one.word bits (Made.total system.made))), readIndex, targets,
        system.made ++ [one]⟩ = system.done :=
      List.take_append_of_le_length h.handled_le
    rw [hdone]
    exact haccounts

theorem buffers_otherEvent (event : BitVec 64) :
    ((Ef10.otherEvent event).toList.map EfViEvent.buffers).sum = 0 := by
  unfold Ef10.otherEvent Ef10.mcdiEvent
  repeat' split
  all_goals rfl

theorem sum_buffers_told {given : List RxBuffer} {progress : RxProgress} {made : List Made}
    (hallowed : ∀ one ∈ made, one.Allowed merge) :
    ((RxProgress.told merge given progress made).map EfViEvent.buffers).sum =
      if merge then Made.total made else 0 := by
  induction made generalizing progress with
  | nil => cases merge <;> rfl
  | cons one rest ih =>
      rw [List.forall_mem_cons] at hallowed
      cases one with
      | other event =>
          rw [RxProgress.told, List.map_append, List.sum_append, buffers_otherEvent,
            ih hallowed.2, Nat.zero_add, Made.total_cons, Made.count, Nat.zero_add]
      | rx completion =>
          have hcount := hallowed.1.2
          have htell : (progress.tell merge given completion).buffers =
              if merge then completion.count else 0 := by
            rw [RxProgress.tell]
            split
            · rename_i hzero
              rw [hzero, ite_self]
              rfl
            · cases merge with
              | false =>
                  rw [if_neg Bool.false_ne_true, if_neg Bool.false_ne_true, RxProgress.tellOne]
                  split <;> rfl
              | true =>
                  rw [if_pos rfl] at hcount
                  have hvalue : (UInt32.ofNat completion.count).toNat = completion.count := by
                    rw [UInt32.toNat_ofNat', Nat.mod_eq_of_lt (by omega)]
                  rw [if_pos rfl, if_pos rfl, RxProgress.tellMany]
                  split <;> exact hvalue
          rw [RxProgress.told, List.map_cons, List.sum_cons, ih hallowed.2, htell,
            Made.total_cons, Made.count]
          cases merge <;> rfl

theorem Flows.step (h : system.Flows shape merge) (hbits : 4 ≤ bits.val) {input : RxInput bits}
    (hlawful : system.Lawful shape merge input) :
    (system.step shape merge input).Flows shape merge := by
  cases input with
  | ring input => exact h.inner hbits hlawful.1 hlawful.2
  | init buffer => exact h.client fun _ => h.accounts.init hlawful.1 hlawful.2
  | push => exact h.client fun _ => h.accounts.push
  | unbundle count =>
      apply h.client
      intro hpc
      apply h.accounts.unbundle
      have hlocated := h.sound.located
      rw [EventSystem.Located, hpc] at hlocated
      have hdone : ∀ one ∈ system.done, one.Allowed merge := fun one hone =>
        h.allowed one (List.mem_of_mem_take hone)
      have howed : system.Lawful shape merge (.unbundle count) := hlawful
      rw [Lawful, owed, hlocated.2, h.accounts.outputs, sum_buffers_told hdone] at howed
      have hbefore := h.accounts.owed
      omega
  | complete completion =>
      have hword : completion.word ((system.readIndex + completion.count) % 2 ^ bits.val) =
          (Made.rx completion).word bits (Made.total system.made) := by
        rw [Made.word, h.accounts.readIndex, Nat.mod_add_mod]
      have hallowed : (Made.rx completion).Allowed merge := ⟨hlawful.1, hlawful.2.1⟩
      have hflows := h.raise hallowed (RxCompletion.word_wellFormed hlawful.1 _)
        (h.accounts.complete hlawful.2.2)
      rw [RxSystem.step, hword]
      exact hflows
  | other event =>
      have hallowed : (Made.other event).Allowed merge := hlawful.2
      exact h.raise hallowed hlawful.1 (h.accounts.other event)

theorem Flows.run (hbits : 4 ≤ bits.val) {inputs : List (RxInput bits)}
    (h : system.Flows shape merge)
    (hlawful : ∀ move ∈ Run.moves (RxSystem.step shape merge) system inputs,
      move.1.Lawful shape merge move.2) :
    (Run.final (RxSystem.step shape merge) system inputs).Flows shape merge := by
  induction inputs generalizing system with
  | nil => exact h
  | cons input rest ih =>
      rw [Run.moves, List.forall_mem_cons] at hlawful
      exact ih (h.step hbits hlawful.1) hlawful.2

theorem filterMap_otherEvent (event : BitVec 64) :
    (Ef10.otherEvent event).toList.filterMap EfViEvent.rqId? = [] := by
  unfold Ef10.otherEvent Ef10.mcdiEvent
  repeat' split
  all_goals rfl

theorem rqId?_tellOne (progress : RxProgress) (buffer : RxBuffer) (completion : RxCompletion) :
    (progress.tellOne buffer completion).rqId? = some buffer.id := by
  rw [RxProgress.tellOne]
  split <;> rfl

theorem ids_told {given : List RxBuffer} {progress : RxProgress} {made : List Made}
    (hallowed : ∀ one ∈ made, one.Allowed false)
    (hlength : progress.next + Made.total made ≤ given.length) :
    (RxProgress.told false given progress made).filterMap EfViEvent.rqId? =
      ((given.drop progress.next).take (Made.total made)).map RxBuffer.id := by
  induction made generalizing progress with
  | nil => rw [Made.total_nil, List.take_zero]; rfl
  | cons one rest ih =>
      rw [List.forall_mem_cons] at hallowed
      rw [Made.total_cons] at hlength ⊢
      cases one with
      | other event =>
          rw [Made.count, Nat.zero_add] at hlength ⊢
          rw [RxProgress.told, List.filterMap_append, filterMap_otherEvent, List.nil_append,
            ih hallowed.2 hlength]
      | rx completion =>
          rw [Made.count] at hlength ⊢
          have hrest := @ih (progress.advance completion) hallowed.2 (by
            change progress.next + completion.count + _ ≤ _
            omega)
          cases Nat.eq_zero_or_pos completion.count with
          | inl hzero =>
              have htell : progress.tell false given completion = .rxNoDescTrunc 0 := if_pos hzero
              have hnext : (progress.advance completion).next = progress.next := by
                change progress.next + completion.count = _
                rw [hzero, Nat.add_zero]
              rw [RxProgress.told, htell, hzero, Nat.zero_add, List.filterMap_cons_none rfl, hrest,
                hnext]
          | inr hpos =>
              have hcount : completion.count ≤ 1 := hallowed.1.2
              have hone : completion.count = 1 := by omega
              have hlt : progress.next < given.length := by omega
              have htell : progress.tell false given completion =
                  progress.tellOne (bufferAt given progress.next) completion := by
                rw [RxProgress.tell, hone]
                rfl
              have hnext : (progress.advance completion).next = progress.next + 1 := by
                change progress.next + completion.count = _
                rw [hone]
              have hdrop : given.drop progress.next =
                  bufferAt given progress.next :: given.drop (progress.next + 1) := by
                rw [bufferAt, List.getD_eq_getElem _ _ hlt, List.drop_eq_getElem_cons hlt]
              rw [RxProgress.told, htell, List.filterMap_cons_some (rqId?_tellOne ..), hrest,
                hnext, hdrop, hone, Nat.add_comm 1, List.take_succ_cons, List.map_cons]

theorem Flows.returned_prefix (h : system.Flows shape merge) :
    system.ring.returned <+: system.ring.outputs := by
  have hlocated := h.sound.located
  unfold EventSystem.Located at hlocated
  split at hlocated
  · rw [hlocated.2]
  · exact ⟨_, hlocated.2.2.1⟩

theorem Flows.returnedIds_eq (h : system.Flows shape merge) :
    ∃ count ≤ Made.total system.made,
      system.returnedIds merge = (system.side.given.take count).map RxBuffer.id := by
  have htotal := h.accounts.total_le
  have howed := h.accounts.owed
  cases merge with
  | true =>
      refine ⟨system.side.unbundled.length, Nat.le_trans howed htotal, ?_⟩
      exact h.accounts.unbundled
  | false =>
      have hdone : ∀ one ∈ system.done, one.Allowed false := fun one hone =>
        h.allowed one (List.mem_of_mem_take hone)
      have hlength : RxProgress.start.next + Made.total system.done ≤
          system.side.given.length := by
        have hmade := h.accounts.total_made_le
        change 0 + _ ≤ _
        omega
      have hids := ids_told hdone hlength
      rw [← h.accounts.outputs] at hids
      change _ = ((system.side.given.drop 0).take _).map _ at hids
      rw [List.drop_zero] at hids
      have hprefix := h.returned_prefix.filterMap EfViEvent.rqId?
      rw [hids] at hprefix
      have htake := List.prefix_iff_eq_take.mp hprefix
      refine ⟨min (system.ring.returned.filterMap EfViEvent.rqId?).length
        (Made.total system.done), by omega, ?_⟩
      rw [← List.map_take, List.take_take] at htake
      exact htake

end RxSystem

section Reception

open RxSystem

variable {shape : EvqShape} {merge : Bool} {bits : Fin 32} {descriptors : Nat → BitVec 64}
  {inputs : List (RxInput bits)}

/-- Whatever the interleaving of posting, reception, writes of event dwords and loads of the
poll, the callers of the poll get the events of the plain lists: one for each completion that
was handled, in order, with the id of the next buffer given, the length of the packet so far
and the marks of its first and last piece. Neither the four-bit index of an event nor the
wrap of a ring or a counter can be seen. -/
theorem reception_refines (hbits : 4 ≤ bits.val)
    (hlawful : LawfulRun shape merge bits descriptors inputs)
    (hidle : (after shape merge bits descriptors inputs).ring.pc = .idle) :
    (after shape merge bits descriptors inputs).ring.returned =
      RxProgress.told merge (after shape merge bits descriptors inputs).side.given .start
        (after shape merge bits descriptors inputs).done := by
  have h : (after shape merge bits descriptors inputs).Flows shape merge :=
    Flows.run hbits (reset_flows shape merge bits descriptors) hlawful
  have hlocated := h.sound.located
  rw [EventSystem.Located, hidle] at hlocated
  rw [hlocated.2, h.accounts.outputs]

def receiveRun (bits : Fin 32) : List (RxInput bits) :=
  (List.range 8).map (fun i => .init ⟨0x1000, UInt32.ofNat i⟩) ++
    [.push, .complete ⟨1, 60, false, false, 0⟩, .ring (.write .hi), .ring (.write .lo),
      .ring (.call 1), .ring (.load .lo), .ring (.load .hi), .ring .act, .ring (.load .lo),
      .ring (.load .hi), .ring .act]

theorem receiveRun_lawful :
    LawfulRun ⟨2, 1, by decide⟩ false 4 (fun _ => 0) (receiveRun 4) := by decide +kernel

theorem reception_refines_receiveRun :
    (after ⟨2, 1, by decide⟩ false 4 (fun _ => 0) (receiveRun 4)).ring.returned =
      RxProgress.told false (after ⟨2, 1, by decide⟩ false 4 (fun _ => 0) (receiveRun 4)).side.given
        .start (after ⟨2, 1, by decide⟩ false 4 (fun _ => 0) (receiveRun 4)).done :=
  reception_refines (by decide) receiveRun_lawful (by decide +kernel)

/-- The adapter writes to the buffers in the order in which they were given, each once, and
their ids come back in this order, none before the adapter has used its buffer. -/
theorem buffers_returned (hbits : 4 ≤ bits.val)
    (hlawful : LawfulRun shape merge bits descriptors inputs) :
    (after shape merge bits descriptors inputs).targets =
        ((after shape merge bits descriptors inputs).side.given.take
          (after shape merge bits descriptors inputs).targets.length).map RxBuffer.addr ∧
      ∃ count ≤ (after shape merge bits descriptors inputs).targets.length,
        (after shape merge bits descriptors inputs).returnedIds merge =
          ((after shape merge bits descriptors inputs).side.given.take count).map
            RxBuffer.id := by
  have h : (after shape merge bits descriptors inputs).Flows shape merge :=
    Flows.run hbits (reset_flows shape merge bits descriptors) hlawful
  have hlength : (after shape merge bits descriptors inputs).targets.length =
      Made.total (after shape merge bits descriptors inputs).made := by
    rw [h.accounts.targets, List.length_map, List.length_take_of_le h.accounts.total_made_le]
  rw [hlength]
  exact ⟨h.accounts.targets, h.returnedIds_eq⟩

theorem buffers_returned_receiveRun :
    ∃ count ≤ (after ⟨2, 1, by decide⟩ false 4 (fun _ => 0) (receiveRun 4)).targets.length,
      (after ⟨2, 1, by decide⟩ false 4 (fun _ => 0) (receiveRun 4)).returnedIds false =
        ((after ⟨2, 1, by decide⟩ false 4 (fun _ => 0) (receiveRun 4)).side.given.take count).map
          RxBuffer.id :=
  (buffers_returned (by decide) receiveRun_lawful).2

end Reception

end VirtualSfc.Efvi
