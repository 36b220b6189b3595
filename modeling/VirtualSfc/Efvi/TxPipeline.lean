import VirtualSfc.Efvi.Txq

/-! Transmission through the ring as a whole: software and adapter take steps in any
order, and the adapter reads descriptors, completes them and posts events at its own
pace. What the adapter reads and which ids software gets back is what a pipeline of
plain lists gives. -/
namespace VirtualSfc.Efvi
open Base

/-- The adapter's side of a transmit queue: the announced end, the next descriptor to
read and the next one to complete, as ring indices; the number read and not completed;
the words it has read; and the completion events that software has not polled. -/
structure TxNic where
  writeIndex : Nat
  readIndex : Nat
  doneIndex : Nat
  reading : Nat
  fetched : List (BitVec 64)
  events : List UInt32

namespace TxNic

def idle : TxNic := ⟨0, 0, 0, 0, [], []⟩

def take (bits : Fin 32) (nic : TxNic) (word : BitVec 64) : TxNic :=
  { nic with
    readIndex := (nic.readIndex + 1) % 2 ^ bits.val
    reading := nic.reading + 1
    fetched := nic.fetched ++ [word] }

/-- A pushed descriptor is used in place of the ring when the adapter has nothing else
to read. -/
def doorbell (bits : Fin 32) (nic : TxNic) (doorbell : Doorbell) : TxNic :=
  let announced := { nic with writeIndex := doorbell.index }
  match doorbell.pushed with
  | some word => if nic.readIndex = nic.writeIndex then announced.take bits word else announced
  | none => announced

theorem doorbell_some (bits : Fin 32) (nic : TxNic) (index : Nat) (word : BitVec 64) :
    nic.doorbell bits ⟨index, some word⟩ =
      if nic.readIndex = nic.writeIndex then { nic with writeIndex := index }.take bits word
      else { nic with writeIndex := index } := rfl

theorem doorbell_none (bits : Fin 32) (nic : TxNic) (index : Nat) :
    nic.doorbell bits ⟨index, none⟩ = { nic with writeIndex := index } := rfl

def fetch (bits : Fin 32) (nic : TxNic) (descriptors : Nat → BitVec 64) : TxNic :=
  if nic.readIndex = nic.writeIndex then nic else nic.take bits (descriptors nic.readIndex)

/-- One event completes the next `count` of the descriptors that were read. It carries
the index of the last of them, and `ef10_tx_event_completion` adds one. -/
def complete (bits : Fin 32) (nic : TxNic) (count : Nat) : TxNic :=
  if 0 < count ∧ count ≤ nic.reading then
    { nic with
      doneIndex := (nic.doneIndex + count) % 2 ^ bits.val
      reading := nic.reading - count
      events := nic.events ++ [UInt32.ofNat ((nic.doneIndex + (count - 1)) % 2 ^ bits.val) + 1] }
  else nic

end TxNic

inductive TxOp
  | transmit (iovs : List Iovec) (dmaId : UInt32)
  | init (iovs : List Iovec) (dmaId : UInt32)
  | push
  | undo
  | pio (offset len dmaId : UInt32)
  | fetch
  | complete (count : Nat)
  | poll
deriving DecidableEq, Repr

/-- Queue, adapter and what the application has seen: the ids that unbundling gave back,
and the answer to each packet. -/
structure TxSystem (bits : Fin 32) where
  txq : Txq bits
  nic : TxNic
  reported : List UInt32
  answers : List (Except TxError Unit)

namespace TxSystem

variable {bits : Fin 32}

def start (bits : Fin 32) (descriptors : Nat → BitVec 64) : TxSystem bits :=
  ⟨.reset bits descriptors, .idle, [], []⟩

def ring (system : TxSystem bits) (result : Txq bits × Except TxError Doorbell) :
    TxSystem bits :=
  { system with
    txq := result.1
    nic := match result.2 with
      | .ok doorbell => system.nic.doorbell bits doorbell
      | .error _ => system.nic
    answers := system.answers ++ [result.2.map fun _ => ()] }

def step (flags : TxFlags) (system : TxSystem bits) : TxOp → TxSystem bits
  | .transmit iovs dmaId => system.ring (system.txq.transmitv flags iovs dmaId)
  | .init iovs dmaId =>
      let result := system.txq.transmitvInit flags.physAddr iovs dmaId
      { system with
        txq := result.1
        answers := system.answers ++ [if result.2 then .ok () else .error .eagain] }
  | .push =>
      let result := system.txq.transmitPush flags.txPushThresh
      { system with txq := result.1, nic := system.nic.doorbell bits result.2 }
  | .undo => { system with txq := system.txq.transmitInitUndo }
  | .pio offset len dmaId =>
      system.ring (system.txq.transmitPio flags.txPushThresh offset len dmaId)
  | .fetch => { system with nic := system.nic.fetch bits system.txq.descriptors }
  | .complete count => { system with nic := system.nic.complete bits count }
  | .poll =>
      match system.nic.events with
      | [] => system
      | descId :: rest =>
          let result := system.txq.transmitUnbundle descId
          { system with
            txq := result.1
            nic := { system.nic with events := rest }
            reported := system.reported ++ result.2 }

/-- The contract of the calls: packets have I/O vectors and an id, and only descriptors
that were written are pushed. -/
def Lawful (system : TxSystem bits) : TxOp → Prop
  | .transmit iovs dmaId | .init iovs dmaId => iovs ≠ [] ∧ dmaId ≠ requestIdMask
  | .push => system.txq.previous ≠ system.txq.added
  | .pio _ _ dmaId => dmaId ≠ requestIdMask
  | _ => True

instance (system : TxSystem bits) : (op : TxOp) → Decidable (system.Lawful op)
  | .transmit iovs dmaId | .init iovs dmaId =>
      inferInstanceAs (Decidable (iovs ≠ [] ∧ dmaId ≠ requestIdMask))
  | .push => inferInstanceAs (Decidable (system.txq.previous ≠ system.txq.added))
  | .pio _ _ dmaId => inferInstanceAs (Decidable (dmaId ≠ requestIdMask))
  | .undo | .fetch | .complete _ | .poll => inferInstanceAs (Decidable True)

end TxSystem

/-- Transmission without a ring. Descriptors move from one list to the next, and the
completed ones wait in batches, one for each event. All that were ever announced stand
in `pushed`, and `released` counts those whose batch was polled. -/
structure TxPipeline where
  pushed : List Entry
  released : Nat
  done : List (List Entry)
  reading : List Entry
  waiting : List Entry
  queued : List Entry
  fetched : List (BitVec 64)
  reported : List UInt32
  answers : List (Except TxError Unit)

namespace TxPipeline

def start : TxPipeline := ⟨[], 0, [], [], [], [], [], [], []⟩

def sent (pipeline : TxPipeline) : List Entry :=
  pipeline.done.flatten ++ pipeline.reading ++ pipeline.waiting

def live (pipeline : TxPipeline) : List Entry := pipeline.sent ++ pipeline.queued

def fetch (pipeline : TxPipeline) : TxPipeline :=
  match pipeline.waiting with
  | [] => pipeline
  | entry :: rest =>
      { pipeline with
        waiting := rest
        reading := pipeline.reading ++ [entry]
        fetched := pipeline.fetched ++ [entry.word] }

def accept (pipeline : TxPipeline) (capacity : Nat) (packet : List Entry) : TxPipeline :=
  if pipeline.live.length + packet.length ≤ capacity then
    { pipeline with
      queued := pipeline.queued ++ packet
      answers := pipeline.answers ++ [.ok ()] }
  else { pipeline with answers := pipeline.answers ++ [.error .eagain] }

def announce (pipeline : TxPipeline) : TxPipeline :=
  { pipeline with
    pushed := pipeline.pushed ++ pipeline.queued
    waiting := pipeline.waiting ++ pipeline.queued
    queued := [] }

def push (txPushThresh : UInt32) (pipeline : TxPipeline) : TxPipeline :=
  match pipeline.queued with
  | [] => pipeline
  | entry :: _ =>
      if pipeline.waiting = [] ∧ UInt32.ofNat pipeline.sent.length < txPushThresh ∧
          TxDesc.canPush entry.word then pipeline.announce.fetch
      else pipeline.announce

def send (txPushThresh : UInt32) (capacity : Nat) (pipeline : TxPipeline)
    (packet : List Entry) : TxPipeline :=
  let accepted := pipeline.accept capacity packet
  if pipeline.live.length + packet.length ≤ capacity then accepted.push txPushThresh
  else accepted

def complete (pipeline : TxPipeline) (count : Nat) : TxPipeline :=
  if 0 < count ∧ count ≤ pipeline.reading.length then
    { pipeline with
      done := pipeline.done ++ [pipeline.reading.take count]
      reading := pipeline.reading.drop count }
  else pipeline

def poll (pipeline : TxPipeline) : TxPipeline :=
  match pipeline.done with
  | [] => pipeline
  | batch :: rest =>
      { pipeline with
        released := pipeline.released + batch.length
        done := rest
        reported := pipeline.reported ++ Txq.idsOf batch }

def step (flags : TxFlags) (capacity : Nat) (pipeline : TxPipeline) : TxOp → TxPipeline
  | .transmit iovs dmaId =>
      pipeline.send flags.txPushThresh capacity (entries dmaId (txWords flags.physAddr iovs))
  | .init iovs dmaId => pipeline.accept capacity (entries dmaId (txWords flags.physAddr iovs))
  | .push => pipeline.push flags.txPushThresh
  | .undo => { pipeline with queued := [] }
  | .pio offset len dmaId =>
      if offset &&& 63 ≠ 0 then
        { pipeline with answers := pipeline.answers ++ [.error .einval] }
      else pipeline.send flags.txPushThresh capacity [⟨TxDesc.pioWord offset len, dmaId⟩]
  | .fetch => pipeline.fetch
  | .complete count => pipeline.complete count
  | .poll => pipeline.poll

end TxPipeline

def descIds (bits : Fin 32) : Nat → List (List Entry) → List UInt32
  | _, [] => []
  | position, batch :: rest =>
      (UInt32.ofNat ((position + (batch.length - 1)) % 2 ^ bits.val) + 1) ::
        descIds bits (position + batch.length) rest

theorem descIds_concat (bits : Fin 32) (position : Nat) (done : List (List Entry))
    (batch : List Entry) :
    descIds bits position (done ++ [batch]) = descIds bits position done ++
        [UInt32.ofNat ((position + done.flatten.length + (batch.length - 1)) % 2 ^ bits.val) +
          1] := by
  induction done generalizing position with
  | nil => rfl
  | cons first rest ih =>
      rw [List.cons_append, descIds, ih, descIds, List.flatten_cons, List.length_append,
        Nat.add_assoc position first.length]
      rfl

structure Represents {bits : Fin 32} (pipeline : TxPipeline) (system : TxSystem bits) : Prop where
  ring : system.txq.Holds pipeline.released pipeline.sent.length pipeline.live
  batches : ∀ batch ∈ pipeline.done, batch ≠ []
  writeIndex : system.nic.writeIndex =
    (pipeline.released + pipeline.sent.length) % 2 ^ bits.val
  readIndex : system.nic.readIndex =
    (pipeline.released + (pipeline.done.flatten ++ pipeline.reading).length) % 2 ^ bits.val
  doneIndex : system.nic.doneIndex =
    (pipeline.released + pipeline.done.flatten.length) % 2 ^ bits.val
  reading : system.nic.reading = pipeline.reading.length
  events : system.nic.events = descIds bits pipeline.released pipeline.done
  fetched : system.nic.fetched = pipeline.fetched
  reported : system.reported = pipeline.reported
  answers : system.answers = pipeline.answers

namespace Represents

variable {bits : Fin 32} {pipeline : TxPipeline} {system : TxSystem bits}

theorem start (bits : Fin 32) (descriptors : Nat → BitVec 64) :
    Represents .start (TxSystem.start bits descriptors) :=
  ⟨Txq.reset_holds bits descriptors, by simp [TxPipeline.start], rfl, rfl, rfl, rfl, rfl, rfl,
    rfl, rfl⟩

theorem take (h : Represents pipeline system) {entry : Entry} {rest : List Entry}
    (hwaiting : pipeline.waiting = entry :: rest) :
    Represents pipeline.fetch { system with nic := system.nic.take bits entry.word } := by
  have hfetch : pipeline.fetch = { pipeline with
      waiting := rest
      reading := pipeline.reading ++ [entry]
      fetched := pipeline.fetched ++ [entry.word] } := by
    rw [TxPipeline.fetch, hwaiting]
  have hsent : pipeline.fetch.sent = pipeline.sent := by
    simp [hfetch, TxPipeline.sent, hwaiting]
  have hlive : pipeline.fetch.live = pipeline.live := by
    rw [TxPipeline.live, TxPipeline.live, hsent, hfetch]
  refine ⟨?_, ?_, ?_, ?_, ?_, ?_, ?_, ?_, ?_, ?_⟩
  · rw [hsent, hlive, hfetch]
    exact h.ring
  · rw [hfetch]
    exact h.batches
  · rw [hsent, hfetch]
    exact h.writeIndex
  · rw [hfetch, TxNic.take, h.readIndex, Nat.mod_add_mod, ← List.append_assoc,
      @List.length_append _ _ [entry], List.length_singleton, Nat.add_assoc]
  · rw [hfetch]
    exact h.doneIndex
  · rw [hfetch, TxNic.take, h.reading, List.length_append, List.length_singleton]
  · rw [hfetch]
    exact h.events
  · rw [hfetch, TxNic.take, h.fetched]
  · rw [hfetch]
    exact h.reported
  · rw [hfetch]
    exact h.answers

theorem waiting_length_lt (h : Represents pipeline system) :
    pipeline.waiting.length < 2 ^ bits.val := by
  have hbounded := h.ring.bounded
  rw [TxPipeline.live, TxPipeline.sent, List.length_append, List.length_append] at hbounded
  omega

theorem idle_iff (h : Represents pipeline system) :
    system.nic.readIndex = system.nic.writeIndex ↔ pipeline.waiting = [] := by
  have hwaiting := h.waiting_length_lt
  rw [h.readIndex, h.writeIndex, TxPipeline.sent, @List.length_append _ _ pipeline.waiting,
    ← Nat.add_assoc]
  constructor
  · intro hsame
    by_contra hne
    have hpos := List.length_pos_of_ne_nil hne
    apply (Ring.layout bits).separated _ _ hpos hwaiting
    rw [Ring.layout_place, Ring.layout_place]
    exact hsame.symm
  · intro hnil
    rw [hnil, List.length_nil, Nat.add_zero]

theorem next_word (h : Represents pipeline system) {entry : Entry} {rest : List Entry}
    (hwaiting : pipeline.waiting = entry :: rest) :
    system.txq.descriptors system.nic.readIndex = entry.word := by
  have hwords := h.ring.words
  rw [TxPipeline.live, TxPipeline.sent, hwaiting, List.append_assoc, List.map_append,
    List.cons_append, List.map_cons] at hwords
  have hread := hwords.read
  rwa [List.length_map, Ring.layout_place, ← h.readIndex] at hread

theorem fetch (h : Represents pipeline system) :
    Represents pipeline.fetch
      { system with nic := system.nic.fetch bits system.txq.descriptors } := by
  cases hwaiting : pipeline.waiting with
  | nil =>
      rw [TxNic.fetch, if_pos (h.idle_iff.mpr hwaiting), TxPipeline.fetch, hwaiting]
      exact h
  | cons entry rest =>
      have hbusy : ¬ system.nic.readIndex = system.nic.writeIndex := by
        rw [h.idle_iff, hwaiting]
        simp
      rw [TxNic.fetch, if_neg hbusy, h.next_word hwaiting]
      exact h.take hwaiting

theorem announce (h : Represents pipeline system) {entry : Entry} {rest : List Entry}
    (hqueued : pipeline.queued = entry :: rest) (txPushThresh : UInt32) :
    Represents pipeline.announce
      { system with
        txq := (system.txq.transmitPush txPushThresh).1
        nic := { system.nic with
          writeIndex := (system.txq.transmitPush txPushThresh).2.index } } := by
  have hdrop : pipeline.live.drop pipeline.sent.length = entry :: rest := by
    rw [TxPipeline.live, List.drop_left, hqueued]
  have hpush := Txq.transmitPush_spec txPushThresh h.ring hdrop
  have hsent : pipeline.announce.sent = pipeline.live := by
    simp [TxPipeline.announce, TxPipeline.sent, TxPipeline.live]
  have hlive : pipeline.announce.live = pipeline.live := by
    rw [TxPipeline.live, hsent]
    exact List.append_nil _
  refine ⟨?_, h.batches, ?_, h.readIndex, h.doneIndex, h.reading, h.events, h.fetched,
    h.reported, h.answers⟩
  · rw [hsent, hlive]
    exact hpush.1
  · rw [hsent, hpush.2, ← Ring.layout_place]
    rfl

theorem push (h : Represents pipeline system) (hqueued : pipeline.queued ≠ [])
    (txPushThresh : UInt32) :
    Represents (pipeline.push txPushThresh)
      { system with
        txq := (system.txq.transmitPush txPushThresh).1
        nic := system.nic.doorbell bits (system.txq.transmitPush txPushThresh).2 } := by
  cases hcons : pipeline.queued with
  | nil => contradiction
  | cons entry rest =>
      have hdrop : pipeline.live.drop pipeline.sent.length = entry :: rest := by
        rw [TxPipeline.live, List.drop_left, hcons]
      have hdoorbell := (Txq.transmitPush_spec txPushThresh h.ring hdrop).2
      have hannounce := h.announce hcons txPushThresh
      rw [TxPipeline.push, hcons]
      rw [hdoorbell] at hannounce ⊢
      by_cases hpushed : UInt32.ofNat pipeline.sent.length < txPushThresh ∧
          TxDesc.canPush entry.word
      · rw [if_pos hpushed] at hannounce ⊢
        by_cases hidle : pipeline.waiting = []
        · rw [TxNic.doorbell_some, if_pos (h.idle_iff.mpr hidle)]
          simp only [hidle, hpushed, and_self, if_true]
          apply hannounce.take
          rw [TxPipeline.announce, hidle, hcons]
          rfl
        · have hbusy : ¬ system.nic.readIndex = system.nic.writeIndex := by
            rwa [h.idle_iff]
          rw [TxNic.doorbell_some, if_neg hbusy]
          simp only [hidle, false_and, if_false]
          exact hannounce
      · rw [if_neg hpushed] at hannounce ⊢
        rw [TxNic.doorbell_none]
        simp only [hpushed, and_false, if_false]
        exact hannounce

theorem queued_ne_nil (h : Represents pipeline system)
    (hne : system.txq.previous ≠ system.txq.added) : pipeline.queued ≠ [] := by
  intro hnil
  apply hne
  rw [h.ring.previous, h.ring.added, TxPipeline.live, hnil, List.append_nil]

theorem undo (h : Represents pipeline system) :
    Represents { pipeline with queued := [] }
      { system with txq := system.txq.transmitInitUndo } := by
  refine ⟨?_, h.batches, h.writeIndex, h.readIndex, h.doneIndex, h.reading, h.events,
    h.fetched, h.reported, h.answers⟩
  have hring := h.ring
  rw [TxPipeline.live] at hring
  rw [TxPipeline.live, List.append_nil]
  exact Txq.transmitInitUndo_holds hring

theorem queue (h : Represents pipeline system) {txq : Txq bits} {packet : List Entry}
    (hring : txq.Holds pipeline.released pipeline.sent.length (pipeline.live ++ packet)) :
    Represents { pipeline with
        queued := pipeline.queued ++ packet
        answers := pipeline.answers ++ [.ok ()] }
      { system with txq := txq, answers := system.answers ++ [.ok ()] } := by
  refine ⟨?_, h.batches, h.writeIndex, h.readIndex, h.doneIndex, h.reading, h.events,
    h.fetched, h.reported, by rw [h.answers]⟩
  rw [TxPipeline.live, List.append_assoc] at hring
  exact hring

theorem refuse (h : Represents pipeline system) (error : TxError) {txq : Txq bits}
    (hring : txq.Holds pipeline.released pipeline.sent.length pipeline.live) :
    Represents { pipeline with answers := pipeline.answers ++ [.error error] }
      { system with txq := txq, answers := system.answers ++ [.error error] } :=
  ⟨hring, h.batches, h.writeIndex, h.readIndex, h.doneIndex, h.reading, h.events, h.fetched,
    h.reported, by rw [h.answers]⟩

theorem init (h : Represents pipeline system) (flags : TxFlags) {iovs : List Iovec}
    (hne : iovs ≠ []) (dmaId : UInt32) :
    Represents (pipeline.step flags (2 ^ bits.val - 1) (.init iovs dmaId))
      (system.step flags (.init iovs dmaId)) := by
  have hpos := Nat.two_pow_pos bits.val
  rw [TxPipeline.step, TxPipeline.accept, length_entries]
  by_cases hroom : pipeline.live.length + (txWords flags.physAddr iovs).length ≤ 2 ^ bits.val - 1
  · obtain ⟨next, hnext, hholds⟩ := Txq.transmitvInit_room dmaId h.ring
      (txWords_ne_nil flags.physAddr hne) (by omega)
    rw [if_pos hroom, TxSystem.step, hnext]
    exact h.queue hholds
  · obtain ⟨next, hnext, hholds⟩ := @Txq.transmitvInit_full _ _ _ _ _ flags.physAddr iovs dmaId
      h.ring (by omega)
    rw [if_neg hroom, TxSystem.step, hnext]
    exact h.refuse .eagain hholds

theorem send_room (h : Represents pipeline system) {txq : Txq bits} {packet : List Entry}
    {capacity : Nat} (hne : packet ≠ []) (txPushThresh : UInt32)
    (hroom : pipeline.live.length + packet.length ≤ capacity)
    (hring : txq.Holds pipeline.released pipeline.sent.length (pipeline.live ++ packet)) :
    Represents (pipeline.send txPushThresh capacity packet)
      (system.ring
        ((txq.transmitPush txPushThresh).1, .ok (txq.transmitPush txPushThresh).2)) := by
  rw [TxPipeline.send, if_pos hroom, TxPipeline.accept, if_pos hroom]
  exact (h.queue hring).push (by simp [hne]) txPushThresh

theorem send_full (h : Represents pipeline system) {txq : Txq bits} {packet : List Entry}
    {capacity : Nat} (txPushThresh : UInt32)
    (hroom : ¬ pipeline.live.length + packet.length ≤ capacity)
    (hring : txq.Holds pipeline.released pipeline.sent.length pipeline.live) :
    Represents (pipeline.send txPushThresh capacity packet)
      (system.ring (txq, .error .eagain)) := by
  rw [TxPipeline.send, if_neg hroom, TxPipeline.accept, if_neg hroom]
  exact h.refuse .eagain hring

theorem transmit (h : Represents pipeline system) (flags : TxFlags) {iovs : List Iovec}
    (hne : iovs ≠ []) (dmaId : UInt32) :
    Represents (pipeline.step flags (2 ^ bits.val - 1) (.transmit iovs dmaId))
      (system.step flags (.transmit iovs dmaId)) := by
  have hpos := Nat.two_pow_pos bits.val
  have hwords := txWords_ne_nil flags.physAddr hne
  have hlength := length_entries dmaId (txWords flags.physAddr iovs)
  rw [TxPipeline.step, TxSystem.step, Txq.transmitv]
  by_cases hroom : pipeline.live.length + (txWords flags.physAddr iovs).length ≤ 2 ^ bits.val - 1
  · obtain ⟨next, hnext, hholds⟩ := Txq.transmitvInit_room dmaId h.ring hwords (by omega)
    rw [hnext]
    apply h.send_room _ _ (by omega) hholds
    apply List.ne_nil_of_length_pos
    rw [hlength]
    exact List.length_pos_of_ne_nil hwords
  · obtain ⟨next, hnext, hholds⟩ := @Txq.transmitvInit_full _ _ _ _ _ flags.physAddr iovs dmaId
      h.ring (by omega)
    rw [hnext]
    exact h.send_full _ (by omega) hholds

theorem pio (h : Represents pipeline system) (flags : TxFlags) (offset len dmaId : UInt32) :
    Represents (pipeline.step flags (2 ^ bits.val - 1) (.pio offset len dmaId))
      (system.step flags (.pio offset len dmaId)) := by
  have hbounded := h.ring.bounded
  rw [TxPipeline.step, TxSystem.step, Txq.transmitPio]
  by_cases haligned : offset &&& 63 ≠ 0
  · rw [if_pos haligned, if_pos haligned]
    exact h.refuse .einval h.ring
  · rw [if_neg haligned, if_neg haligned]
    have hroom : (system.txq.pioSetDesc offset len dmaId).added -
        (system.txq.pioSetDesc offset len dmaId).removed < Txq.mask bits ↔
          pipeline.live.length + 1 ≤ 2 ^ bits.val - 1 := by
      change system.txq.added - system.txq.removed < Txq.mask bits ↔ _
      rw [← UInt32.not_le, ← ge_iff_le, h.ring.full_iff]
      omega
    by_cases hspace : pipeline.live.length + 1 ≤ 2 ^ bits.val - 1
    · simp only [hroom.mpr hspace, if_true]
      exact h.send_room (by simp) _ hspace
        (Txq.pioSetDesc_holds h.ring (by omega) offset len dmaId)
    · simp only [mt hroom.mp hspace, if_false]
      exact h.send_full _ hspace (Txq.pioSetDesc_undone h.ring offset len dmaId)

theorem complete (h : Represents pipeline system) (count : Nat) :
    Represents (pipeline.complete count)
      { system with nic := system.nic.complete bits count } := by
  rw [TxPipeline.complete, TxNic.complete, h.reading]
  by_cases hcount : 0 < count ∧ count ≤ pipeline.reading.length
  · rw [if_pos hcount, if_pos hcount]
    have htake : (pipeline.reading.take count).length = count :=
      List.length_take_of_le hcount.2
    have hsent : TxPipeline.sent { pipeline with
        done := pipeline.done ++ [pipeline.reading.take count]
        reading := pipeline.reading.drop count } = pipeline.sent := by
      simp [TxPipeline.sent]
    refine ⟨?_, ?_, ?_, ?_, ?_, ?_, ?_, h.fetched, h.reported, h.answers⟩
    · rw [TxPipeline.live, hsent]
      exact h.ring
    · rw [List.forall_mem_append, List.forall_mem_singleton]
      refine ⟨h.batches, List.ne_nil_of_length_pos ?_⟩
      omega
    · rw [hsent]
      exact h.writeIndex
    · rw [h.readIndex]
      simp
    · rw [h.doneIndex, Nat.mod_add_mod, List.flatten_append, List.length_append,
        List.flatten_singleton, htake, Nat.add_assoc]
    · rw [List.length_drop]
    · simp only [descIds_concat, h.events, h.doneIndex, Nat.mod_add_mod, htake]
  · rw [if_neg hcount, if_neg hcount]
    exact h

theorem slot_descId (bits : Fin 32) (position : Nat) {batch : List Entry} (hne : batch ≠ []) :
    Ring.slot bits (UInt32.ofNat ((position + (batch.length - 1)) % 2 ^ bits.val) + 1) =
      (Ring.layout bits).place (position + batch.length) := by
  have hpos := List.length_pos_of_ne_nil hne
  have hslot := Ring.slot_add bits
    (UInt32.ofNat ((position + (batch.length - 1)) % 2 ^ bits.val)) 1
  have hsmall : (position + (batch.length - 1)) % 2 ^ bits.val < 2 ^ 32 := by
    have hbits := Ring.two_pow_le bits
    have hmod := Nat.mod_lt (position + (batch.length - 1)) (Nat.two_pow_pos bits.val)
    omega
  rw [UInt32.toNat_ofNat', Nat.mod_eq_of_lt hsmall, Nat.mod_add_mod] at hslot
  rw [Ring.layout_place, show position + batch.length = position + (batch.length - 1) + 1 by omega]
  exact hslot

theorem poll (h : Represents pipeline system) (flags : TxFlags) :
    Represents pipeline.poll (system.step flags .poll) := by
  cases hdone : pipeline.done with
  | nil =>
      have hevents := h.events
      rw [hdone, descIds] at hevents
      rw [TxPipeline.poll, hdone, TxSystem.step, hevents]
      exact h
  | cons batch rest =>
      have hevents := h.events
      have hbatches := h.batches
      rw [hdone, List.forall_mem_cons] at hbatches
      rw [hdone, descIds] at hevents
      have hsent : pipeline.sent =
          batch ++ (rest.flatten ++ pipeline.reading ++ pipeline.waiting) := by
        simp [TxPipeline.sent, hdone]
      have hlive : pipeline.live = batch ++
          (rest.flatten ++ pipeline.reading ++ pipeline.waiting ++ pipeline.queued) := by
        simp [TxPipeline.live, hsent]
      have hring := h.ring
      rw [hlive, hsent, List.length_append] at hring
      have hbounded := hring.bounded
      rw [List.length_append] at hbounded
      obtain ⟨next, hnext, hholds⟩ := @Txq.unbundleLoop_spec _ _ _ _ _ batch (2 ^ bits.val) []
        hring (by omega)
      have hunbundle : system.txq.transmitUnbundle
          (UInt32.ofNat ((pipeline.released + (batch.length - 1)) % 2 ^ bits.val) + 1) =
            (next, Txq.idsOf batch) := by
        rw [Txq.transmitUnbundle, slot_descId bits _ hbatches.1, hnext, List.nil_append]
      rw [TxPipeline.poll, hdone, TxSystem.step, hevents]
      simp only [hunbundle]
      refine ⟨hholds, hbatches.2, ?_, ?_, ?_, h.reading, rfl, h.fetched, ?_, h.answers⟩
      · rw [h.writeIndex, hsent, List.length_append, ← Nat.add_assoc]
        rfl
      · rw [h.readIndex, hdone, List.flatten_cons, List.append_assoc, List.length_append,
          ← Nat.add_assoc]
      · rw [h.doneIndex, hdone, List.flatten_cons, List.length_append, ← Nat.add_assoc]
      · rw [h.reported]

theorem step (h : Represents pipeline system) (flags : TxFlags) {op : TxOp}
    (hlawful : system.Lawful op) :
    Represents (pipeline.step flags (2 ^ bits.val - 1) op) (system.step flags op) := by
  cases op with
  | transmit iovs dmaId => exact h.transmit flags hlawful.1 dmaId
  | init iovs dmaId => exact h.init flags hlawful.1 dmaId
  | push => exact h.push (h.queued_ne_nil hlawful) flags.txPushThresh
  | undo => exact h.undo
  | pio offset len dmaId => exact h.pio flags offset len dmaId
  | fetch => exact h.fetch
  | complete count => exact h.complete count
  | poll => exact h.poll flags

theorem run (flags : TxFlags) (ops : List TxOp) (h : Represents pipeline system)
    (hlawful : ∀ move ∈ Run.moves (TxSystem.step flags) system ops, move.1.Lawful move.2) :
    Represents (Run.final (TxPipeline.step flags (2 ^ bits.val - 1)) pipeline ops)
      (Run.final (TxSystem.step flags) system ops) := by
  induction ops generalizing pipeline system with
  | nil => exact h
  | cons op rest ih =>
      rw [Run.moves, List.forall_mem_cons] at hlawful
      exact ih (h.step flags hlawful.1) hlawful.2

end Represents

namespace TxPipeline

/-- What was announced is in the hands of software again, or on its way in order. -/
structure Conserved (pipeline : TxPipeline) (past : List Entry) : Prop where
  pushed : pipeline.pushed = past ++ pipeline.sent
  reported : pipeline.reported = Txq.idsOf past
  fetched : pipeline.fetched =
    (past ++ (pipeline.done.flatten ++ pipeline.reading)).map Entry.word

theorem start_conserved : start.Conserved [] := ⟨rfl, rfl, rfl⟩

variable {pipeline : TxPipeline} {past : List Entry}

theorem Conserved.fetch (h : pipeline.Conserved past) : pipeline.fetch.Conserved past := by
  rw [TxPipeline.fetch]
  split
  · exact h
  · rename_i entry rest hwaiting
    have hpushed := h.pushed
    rw [sent, hwaiting] at hpushed
    refine ⟨?_, h.reported, ?_⟩
    · simpa [sent] using hpushed
    · simp [h.fetched]

theorem Conserved.accept (h : pipeline.Conserved past) (capacity : Nat) (packet : List Entry) :
    (pipeline.accept capacity packet).Conserved past := by
  rw [TxPipeline.accept]
  split
  · exact ⟨h.pushed, h.reported, h.fetched⟩
  · exact ⟨h.pushed, h.reported, h.fetched⟩

theorem Conserved.announce (h : pipeline.Conserved past) : pipeline.announce.Conserved past := by
  refine ⟨?_, h.reported, h.fetched⟩
  simp [TxPipeline.announce, sent, h.pushed]

theorem Conserved.push (h : pipeline.Conserved past) (txPushThresh : UInt32) :
    (pipeline.push txPushThresh).Conserved past := by
  rw [TxPipeline.push]
  split
  · exact h
  · split
    · exact h.announce.fetch
    · exact h.announce

theorem Conserved.send (h : pipeline.Conserved past) (txPushThresh : UInt32) (capacity : Nat)
    (packet : List Entry) : (pipeline.send txPushThresh capacity packet).Conserved past := by
  rw [TxPipeline.send]
  split
  · exact (h.accept capacity packet).push txPushThresh
  · exact h.accept capacity packet

theorem Conserved.complete (h : pipeline.Conserved past) (count : Nat) :
    (pipeline.complete count).Conserved past := by
  rw [TxPipeline.complete]
  split
  · refine ⟨?_, h.reported, ?_⟩
    · rw [h.pushed]
      simp [sent]
    · rw [h.fetched]
      simp
  · exact h

theorem idsOf_append (first second : List Entry) :
    Txq.idsOf (first ++ second) = Txq.idsOf first ++ Txq.idsOf second := by
  simp [Txq.idsOf]

theorem Conserved.poll (h : pipeline.Conserved past) : ∃ later, pipeline.poll.Conserved later := by
  rw [TxPipeline.poll]
  split
  · exact ⟨past, h⟩
  · rename_i batch rest hdone
    have hpushed := h.pushed
    have hfetched := h.fetched
    rw [sent, hdone] at hpushed
    rw [hdone] at hfetched
    refine ⟨past ++ batch, ?_, ?_, ?_⟩
    · simpa [sent] using hpushed
    · rw [h.reported, idsOf_append]
    · simpa using hfetched

theorem Conserved.step (h : pipeline.Conserved past) (flags : TxFlags) (capacity : Nat)
    (op : TxOp) : ∃ later, (pipeline.step flags capacity op).Conserved later := by
  cases op with
  | transmit iovs dmaId => exact ⟨past, h.send _ _ _⟩
  | init iovs dmaId => exact ⟨past, h.accept _ _⟩
  | push => exact ⟨past, h.push _⟩
  | undo => exact ⟨past, h.pushed, h.reported, h.fetched⟩
  | pio offset len dmaId =>
      rw [TxPipeline.step]
      split
      · exact ⟨past, h.pushed, h.reported, h.fetched⟩
      · exact ⟨past, h.send _ _ _⟩
  | fetch => exact ⟨past, h.fetch⟩
  | complete count => exact ⟨past, h.complete count⟩
  | poll => exact h.poll

theorem run_conserved (flags : TxFlags) (capacity : Nat) (ops : List TxOp) :
    ∃ past, (Run.final (step flags capacity) start ops).Conserved past := by
  apply Run.final_invariant (step flags capacity) fun pipeline => ∃ past, pipeline.Conserved past
  · intro pipeline op ⟨past, h⟩
    exact h.step flags capacity op
  · exact ⟨[], start_conserved⟩

theorem Conserved.take_fetched (h : pipeline.Conserved past) :
    pipeline.pushed.take pipeline.fetched.length =
      past ++ (pipeline.done.flatten ++ pipeline.reading) := by
  have hsplit : pipeline.pushed =
      past ++ (pipeline.done.flatten ++ pipeline.reading) ++ pipeline.waiting := by
    rw [h.pushed, sent, List.append_assoc past]
  rw [h.fetched, List.length_map, hsplit, List.take_left]

end TxPipeline

def TxSystem.after (flags : TxFlags) (bits : Fin 32) (descriptors : Nat → BitVec 64)
    (ops : List TxOp) : TxSystem bits :=
  Run.final (TxSystem.step flags) (.start bits descriptors) ops

def TxPipeline.after (flags : TxFlags) (bits : Fin 32) (ops : List TxOp) : TxPipeline :=
  Run.final (TxPipeline.step flags (2 ^ bits.val - 1)) .start ops

def LawfulRun (flags : TxFlags) (bits : Fin 32) (descriptors : Nat → BitVec 64)
    (ops : List TxOp) : Prop :=
  ∀ move ∈ Run.moves (TxSystem.step flags) (.start bits descriptors) ops, move.1.Lawful move.2

instance (flags : TxFlags) (bits : Fin 32) (descriptors : Nat → BitVec 64) (ops : List TxOp) :
    Decidable (LawfulRun flags bits descriptors ops) :=
  inferInstanceAs (Decidable (∀ move ∈ _, _))

def refusedRun : List TxOp :=
  [.transmit [⟨0x1000, 60⟩, ⟨0x5000, 20⟩] 7, .transmit [⟨0x3000, 9⟩, ⟨0x4000, 9⟩] 8, .fetch,
    .fetch, .complete 2, .poll]

section Runs

variable {flags : TxFlags} {bits : Fin 32} {descriptors : Nat → BitVec 64} {ops : List TxOp}

theorem after_represents (hlawful : LawfulRun flags bits descriptors ops) :
    Represents (.after flags bits ops) (TxSystem.after flags bits descriptors ops) :=
  Represents.run flags ops (.start bits descriptors) hlawful

/-- Over every interleaving of software and adapter, the words the adapter reads, the ids
given back and the packets refused are those of the pipeline of lists. Neither the wrap
of the counters nor the descriptors pushed through the doorbell can be seen. -/
theorem transmission_refines (hlawful : LawfulRun flags bits descriptors ops) :
    (TxSystem.after flags bits descriptors ops).nic.fetched =
        (TxPipeline.after flags bits ops).fetched ∧
      (TxSystem.after flags bits descriptors ops).reported =
        (TxPipeline.after flags bits ops).reported ∧
      (TxSystem.after flags bits descriptors ops).answers =
        (TxPipeline.after flags bits ops).answers := by
  have h := after_represents hlawful
  exact ⟨h.fetched, h.reported, h.answers⟩

theorem transmission_refines_refusedRun :
    (TxSystem.after ⟨true, 16⟩ 2 (fun _ => 0) refusedRun).reported =
        (TxPipeline.after ⟨true, 16⟩ 2 refusedRun).reported ∧
      (TxPipeline.after ⟨true, 16⟩ 2 refusedRun).reported = [7] ∧
      (TxPipeline.after ⟨true, 16⟩ 2 refusedRun).answers = [.ok (), .error .eagain] :=
  ⟨(@transmission_refines ⟨true, 16⟩ 2 (fun _ => 0) refusedRun (by decide)).2.1, by decide,
    by decide⟩

def TxNic.Quiet (nic : TxNic) : Prop :=
  nic.readIndex = nic.writeIndex ∧ nic.reading = 0 ∧ nic.events = []

theorem Represents.done_nil {pipeline : TxPipeline} {system : TxSystem bits}
    (h : Represents pipeline system) (hevents : system.nic.events = []) : pipeline.done = [] := by
  rw [h.events] at hevents
  cases hdone : pipeline.done with
  | nil => rfl
  | cons batch rest =>
      rw [hdone] at hevents
      contradiction

/-- The adapter reads the announced descriptors in order and each once, and an id comes
back only for a packet that was read to its end. Once the adapter has read, completed and
reported everything, every id announced has come back. -/
theorem transmission_conserves (hlawful : LawfulRun flags bits descriptors ops) :
    (TxSystem.after flags bits descriptors ops).nic.fetched =
        ((TxPipeline.after flags bits ops).pushed.take
          (TxSystem.after flags bits descriptors ops).nic.fetched.length).map Entry.word ∧
      (TxSystem.after flags bits descriptors ops).reported <+:
        Txq.idsOf ((TxPipeline.after flags bits ops).pushed.take
          (TxSystem.after flags bits descriptors ops).nic.fetched.length) ∧
      ((TxSystem.after flags bits descriptors ops).nic.Quiet →
        (TxSystem.after flags bits descriptors ops).reported =
          Txq.idsOf (TxPipeline.after flags bits ops).pushed) := by
  have h := after_represents hlawful
  obtain ⟨past, hconserved⟩ := TxPipeline.run_conserved flags (2 ^ bits.val - 1) ops
  change (TxPipeline.after flags bits ops).Conserved past at hconserved
  rw [h.fetched, h.reported, hconserved.take_fetched]
  refine ⟨hconserved.fetched, ?_, ?_⟩
  · rw [hconserved.reported, TxPipeline.idsOf_append]
    exact List.prefix_append _ _
  · intro hquiet
    have hwaiting := h.idle_iff.mp hquiet.1
    have hreading := hquiet.2.1
    rw [h.reading, List.length_eq_zero_iff] at hreading
    rw [hconserved.reported, hconserved.pushed, TxPipeline.sent, h.done_nil hquiet.2.2, hreading,
      hwaiting]
    simp

theorem transmission_conserves_refusedRun :
    (TxSystem.after ⟨true, 16⟩ 2 (fun _ => 0) refusedRun).nic.Quiet ∧
      (TxSystem.after ⟨true, 16⟩ 2 (fun _ => 0) refusedRun).reported =
        Txq.idsOf (TxPipeline.after ⟨true, 16⟩ 2 refusedRun).pushed := by
  have hquiet : (TxSystem.after ⟨true, 16⟩ 2 (fun _ => 0) refusedRun).nic.Quiet :=
    ⟨by decide, by decide, by decide⟩
  exact ⟨hquiet, (transmission_conserves (by decide)).2.2 hquiet⟩

end Runs

def dmaSend (dmaBufAddr : UInt64) (frameLen : UInt32) : TxOp := .transmit [⟨dmaBufAddr, frameLen⟩] 0

inductive Unpolled : TxOp → Prop
  | send {dmaBufAddr : UInt64} {frameLen : UInt32}
      (page : dmaBufAddr.toNat % 4096 + frameLen.toNat ≤ 4096) :
      Unpolled (dmaSend dmaBufAddr frameLen)
  | fetch : Unpolled .fetch
  | complete (count : Nat) : Unpolled (.complete count)

def isSend : TxOp → Bool
  | .transmit _ _ => true
  | _ => false

namespace TxPipeline

variable {pipeline : TxPipeline}

theorem fetch_live (pipeline : TxPipeline) :
    pipeline.fetch.live = pipeline.live ∧ pipeline.fetch.answers = pipeline.answers := by
  rw [fetch]
  split
  · exact ⟨rfl, rfl⟩
  · rename_i entry rest hwaiting
    simp [live, sent, hwaiting]

theorem complete_live (pipeline : TxPipeline) (count : Nat) :
    (pipeline.complete count).live = pipeline.live ∧
      (pipeline.complete count).answers = pipeline.answers := by
  rw [complete]
  split
  · simp [live, sent]
  · exact ⟨rfl, rfl⟩

theorem push_live (txPushThresh : UInt32) (pipeline : TxPipeline) :
    (pipeline.push txPushThresh).live = pipeline.live ∧
      (pipeline.push txPushThresh).answers = pipeline.answers := by
  have hannounce : pipeline.announce.live = pipeline.live := by
    simp [announce, live, sent]
  rw [push]
  split
  · exact ⟨rfl, rfl⟩
  · split
    · exact ⟨(fetch_live _).1.trans hannounce, (fetch_live _).2⟩
    · exact ⟨hannounce, rfl⟩

structure Filled (capacity sends : Nat) (pipeline : TxPipeline) : Prop where
  level : pipeline.live.length = min sends capacity
  answers : pipeline.answers =
    List.replicate (min sends capacity) (.ok ()) ++
      List.replicate (sends - capacity) (.error .eagain)

theorem Filled.send {capacity sends : Nat} (h : pipeline.Filled capacity sends)
    (txPushThresh : UInt32) {packet : List Entry} (hpacket : packet.length = 1) :
    (pipeline.send txPushThresh capacity packet).Filled capacity (sends + 1) := by
  have hlevel := h.level
  rw [TxPipeline.send, accept, hpacket]
  by_cases hroom : pipeline.live.length + 1 ≤ capacity
  · have hcount : min (sends + 1) capacity = min sends capacity + 1 := by omega
    have hover : sends + 1 - capacity = 0 ∧ sends - capacity = 0 := by omega
    rw [if_pos hroom, if_pos hroom]
    refine ⟨?_, ?_⟩
    · rw [(push_live _ _).1, live, List.length_append, List.length_append, hpacket, hcount,
        ← hlevel, live, List.length_append, Nat.add_assoc]
      rfl
    · rw [(push_live _ _).2, h.answers, hcount, hover.1, hover.2, List.replicate_succ']
      simp
  · have hcount : min (sends + 1) capacity = min sends capacity := by omega
    have hover : sends + 1 - capacity = sends - capacity + 1 := by omega
    rw [if_neg hroom, if_neg hroom]
    refine ⟨?_, ?_⟩
    · rw [hcount]
      exact hlevel
    · rw [h.answers, hcount, hover, List.replicate_succ', List.append_assoc]

theorem Filled.step {flags : TxFlags} {capacity sends : Nat} (h : pipeline.Filled capacity sends)
    {op : TxOp} (hop : Unpolled op) :
    (pipeline.step flags capacity op).Filled capacity (sends + [op].countP isSend) := by
  cases hop with
  | send page =>
      apply h.send
      rw [length_entries]
      exact length_txWords_singleton flags.physAddr page
  | fetch =>
      have hfetch := fetch_live pipeline
      exact ⟨hfetch.1 ▸ h.level, hfetch.2 ▸ h.answers⟩
  | complete count =>
      have hcomplete := complete_live pipeline count
      exact ⟨hcomplete.1 ▸ h.level, hcomplete.2 ▸ h.answers⟩

theorem run_filled {flags : TxFlags} {capacity : Nat} {ops : List TxOp}
    (hops : ∀ op ∈ ops, Unpolled op) {sends : Nat} (h : pipeline.Filled capacity sends) :
    (Run.final (step flags capacity) pipeline ops).Filled capacity (sends + ops.countP isSend) := by
  induction ops generalizing pipeline sends with
  | nil => exact h
  | cons op rest ih =>
      rw [List.forall_mem_cons] at hops
      have hrest := ih hops.2 (@Filled.step _ flags _ _ h _ hops.1)
      rw [Nat.add_assoc, ← List.countP_append] at hrest
      exact hrest

end TxPipeline

theorem unpolled_lawful {bits : Fin 32} {system : TxSystem bits} {op : TxOp} (h : Unpolled op) :
    system.Lawful op := by
  cases h with
  | send page => exact ⟨by simp, by decide⟩
  | fetch => trivial
  | complete count => trivial

/-- However fast the adapter is, a client that sends frames of one page and never polls
has the first `2 ^ bits - 1` of them accepted, and every later one refused with `-EAGAIN`. -/
theorem unpolled_sends (flags : TxFlags) (bits : Fin 32) (descriptors : Nat → BitVec 64)
    {ops : List TxOp} (hops : ∀ op ∈ ops, Unpolled op) :
    (TxSystem.after flags bits descriptors ops).answers =
      List.replicate (min (ops.countP isSend) (2 ^ bits.val - 1)) (.ok ()) ++
        List.replicate (ops.countP isSend - (2 ^ bits.val - 1)) (.error .eagain) := by
  have hlawful : LawfulRun flags bits descriptors ops := by
    intro move hmove
    exact unpolled_lawful (hops _ (Run.moves_invariant _ (fun _ => True) ops
      (fun _ _ _ _ => trivial) _ trivial move hmove).2)
  have hfilled := @TxPipeline.run_filled .start flags (2 ^ bits.val - 1) ops hops 0
    ⟨by simp [TxPipeline.start, TxPipeline.live, TxPipeline.sent], by simp [TxPipeline.start]⟩
  rw [(after_represents hlawful).answers, TxPipeline.after, hfilled.answers, Nat.zero_add]

theorem unpolled_sends_four :
    (TxSystem.after ⟨false, 16⟩ 1 (fun _ => 0)
      [dmaSend 0x7f840 60, .complete 1, dmaSend 0x7f840 60, .fetch]).answers =
        [.ok (), .error .eagain] :=
  unpolled_sends ⟨false, 16⟩ 1 (fun _ => 0) (by
    simp only [List.forall_mem_cons]
    exact ⟨.send (by decide), .complete 1, .send (by decide), .fetch, by simp⟩)

end VirtualSfc.Efvi
