import VirtualSfc.Efvi.RxRing

/-! The whole receive path of an interface: buffers posted to the ring, the adapter that
writes packets to them and makes events, the event ring that is polled dword by dword, and
the client that takes the buffers back. It is compared with the list of all buffers given
and the list of all completions. -/
namespace VirtualSfc.Efvi
open Base

inductive Made
  | rx (completion : RxCompletion)
  | other (event : BitVec 64)
deriving DecidableEq, Repr

namespace Made

def count : Made → Nat
  | .rx completion => completion.count
  | .other _ => 0

def total (made : List Made) : Nat := (made.map count).sum

def word (bits : Fin 32) (before : Nat) : Made → BitVec 64
  | .rx completion => completion.word ((before + completion.count) % 2 ^ bits.val)
  | .other event => event

def words (bits : Fin 32) : Nat → List Made → List (BitVec 64)
  | _, [] => []
  | before, made :: rest => made.word bits before :: words bits (before + made.count) rest

@[simp] theorem total_nil : total [] = 0 := rfl

@[simp] theorem total_cons (made : Made) (rest : List Made) :
    total (made :: rest) = made.count + total rest := List.sum_cons

@[simp] theorem total_append (first second : List Made) :
    total (first ++ second) = total first + total second := by
  rw [total, List.map_append, List.sum_append]
  rfl

@[simp] theorem length_words (bits : Fin 32) (before : Nat) (made : List Made) :
    (words bits before made).length = made.length := by
  induction made generalizing before with
  | nil => rfl
  | cons first rest ih => rw [words, List.length_cons, List.length_cons, ih]

theorem words_append (bits : Fin 32) (before : Nat) (first second : List Made) :
    words bits before (first ++ second) =
      words bits before first ++ words bits (before + total first) second := by
  induction first generalizing before with
  | nil => rfl
  | cons made rest ih =>
      rw [List.cons_append, words, ih, total_cons, Nat.add_assoc]
      rfl

theorem getElem?_words {bits : Fin 32} {before i : Nat} {made : List Made} {event : BitVec 64}
    (h : (words bits before made)[i]? = some event) :
    ∃ one, made.take (i + 1) = made.take i ++ [one] ∧ one ∈ made ∧
      event = one.word bits (before + total (made.take i)) := by
  have hlt : i < made.length := by
    rw [← length_words bits before]
    exact (List.getElem?_eq_some_iff.mp h).1
  refine ⟨made[i], List.take_succ_eq_append_getElem hlt, List.getElem_mem hlt, ?_⟩
  rw [← List.take_append_drop i made, words_append, List.drop_eq_getElem_cons hlt, words,
    List.getElem?_append_right (by simp), length_words, List.length_take_of_le hlt.le,
    Nat.sub_self] at h
  exact (Option.some.inj h).symm

end Made

namespace RxProgress

def start : RxProgress := ⟨0, none⟩

def past (progress : RxProgress) : Made → RxProgress
  | .rx completion => progress.advance completion
  | .other _ => progress

def told (merge : Bool) (given : List RxBuffer) : RxProgress → List Made → List EfViEvent
  | _, [] => []
  | progress, .rx completion :: rest =>
      progress.tell merge given completion :: told merge given (progress.advance completion) rest
  | progress, .other event :: rest =>
      (Ef10.otherEvent event).toList ++ told merge given progress rest

def after (made : List Made) : RxProgress := made.foldl past start

theorem after_concat (made : List Made) (one : Made) :
    after (made ++ [one]) = (after made).past one := by
  rw [after, List.foldl_append]
  rfl

theorem next_foldl (made : List Made) (progress : RxProgress) :
    (made.foldl past progress).next = progress.next + Made.total made := by
  induction made generalizing progress with
  | nil => rfl
  | cons one rest ih =>
      rw [List.foldl_cons, ih, Made.total_cons, ← Nat.add_assoc]
      cases one <;> rfl

@[simp] theorem after_next (made : List Made) : (after made).next = Made.total made := by
  rw [after, next_foldl]
  exact Nat.zero_add _

theorem told_append (merge : Bool) (given : List RxBuffer) (progress : RxProgress)
    (first second : List Made) :
    told merge given progress (first ++ second) =
      told merge given progress first ++ told merge given (first.foldl past progress) second := by
  induction first generalizing progress with
  | nil => rfl
  | cons one rest ih =>
      cases one with
      | rx completion => rw [List.cons_append, told, ih]; rfl
      | other event => rw [List.cons_append, told, ih, told, List.append_assoc]; rfl

theorem told_more {merge : Bool} {given : List RxBuffer} {progress : RxProgress}
    {made : List Made} (h : progress.next + Made.total made ≤ given.length)
    (more : List RxBuffer) :
    told merge (given ++ more) progress made = told merge given progress made := by
  induction made generalizing progress with
  | nil => rfl
  | cons one rest ih =>
      rw [Made.total_cons] at h
      cases one with
      | rx completion =>
          rw [Made.count] at h
          have hrest : (progress.advance completion).next + Made.total rest ≤ given.length := by
            change progress.next + completion.count + _ ≤ _
            omega
          rw [told, told, ih hrest]
          congr 1
          unfold tell
          split
          · rfl
          · rw [bufferAt_append (by omega)]
      | other event =>
          rw [told, told, ih (by omega)]

end RxProgress

/-- The software side: the queue, the last value written to the doorbell, the buffers that
were accepted and the ids that were unbundled. -/
structure RxSide (bits : Fin 32) where
  vi : RxVi bits
  doorbell : Nat
  given : List RxBuffer
  unbundled : List UInt32

namespace RxSide

variable {bits : Fin 32}

def reset (bits : Fin 32) (descriptors : Nat → BitVec 64) : RxSide bits :=
  ⟨.reset bits descriptors, 0, [], []⟩

def init (buffer : RxBuffer) (side : RxSide bits) : RxSide bits :=
  let result := side.vi.receiveInit buffer.addr buffer.id
  { side with
    vi := result.1
    given := if result.2 then side.given ++ [buffer] else side.given }

def push (side : RxSide bits) : RxSide bits :=
  let result := side.vi.receivePush
  { side with vi := result.1, doorbell := result.2.getD side.doorbell }

def unbundle (count : Nat) (side : RxSide bits) : RxSide bits :=
  let result := side.vi.receiveUnbundle count
  { side with vi := result.1, unbundled := side.unbundled ++ result.2 }

def available (side : RxSide bits) (readIndex : Nat) : Nat :=
  (side.doorbell + 2 ^ bits.val - readIndex) % 2 ^ bits.val

def fetch (side : RxSide bits) (readIndex count : Nat) : List UInt64 :=
  (List.range count).map fun i =>
    RxDesc.target (side.vi.descriptors ((readIndex + i) % 2 ^ bits.val))

end RxSide

def rxDispatch (bits : Fin 32) (merge : Bool) : Dispatch (RxSide bits) EfViEvent where
  isMcdi := Ef10.isMcdi
  handle side event :=
    let result := Ef10.handle merge side.vi event
    ({ side with vi := result.1 }, result.2)

def EfViEvent.rqId? : EfViEvent → Option UInt32
  | .rx _ rqId _ _ => some rqId
  | .rxDiscard _ rqId _ _ _ => some rqId
  | _ => none

def EfViEvent.buffers : EfViEvent → Nat
  | .rxMulti _ nDescs _ => nDescs.toNat
  | .rxMultiDiscard _ nDescs _ _ => nDescs.toNat
  | _ => 0

/-- The event ring with the software side, and the adapter: its index in the receive ring,
the addresses it has written to and the events it has made. -/
structure RxSystem (bits : Fin 32) where
  ring : EventSystem (RxSide bits) EfViEvent
  readIndex : Nat
  targets : List UInt64
  made : List Made

inductive RxInput (bits : Fin 32)
  | ring (input : EventInput (RxSide bits))
  | init (buffer : RxBuffer)
  | push
  | unbundle (count : Nat)
  | complete (completion : RxCompletion)
  | other (event : BitVec 64)

namespace RxSystem

variable {bits : Fin 32}

def reset (bits : Fin 32) (descriptors : Nat → BitVec 64) : RxSystem bits :=
  ⟨.reset (.reset bits descriptors), 0, [], []⟩

def side (system : RxSystem bits) : RxSide bits := system.ring.vi

def owed (system : RxSystem bits) : Nat :=
  (system.ring.returned.map EfViEvent.buffers).sum - system.side.unbundled.length

section Step

variable (shape : EvqShape) (merge : Bool)

def client (system : RxSystem bits) (change : RxSide bits → RxSide bits) : RxSystem bits :=
  { system with ring := system.ring.step shape (rxDispatch bits merge) (.client change) }

def step (system : RxSystem bits) : RxInput bits → RxSystem bits
  | .ring input => { system with ring := system.ring.step shape (rxDispatch bits merge) input }
  | .init buffer => system.client shape merge (RxSide.init buffer)
  | .push => system.client shape merge RxSide.push
  | .unbundle count => system.client shape merge (RxSide.unbundle count)
  | .complete completion =>
      let readIndex := (system.readIndex + completion.count) % 2 ^ bits.val
      { ring := system.ring.step shape (rxDispatch bits merge) (.raise (completion.word readIndex))
        readIndex := readIndex
        targets := system.targets ++ system.side.fetch system.readIndex completion.count
        made := system.made ++ [.rx completion] }
  | .other event =>
      { system with
        ring := system.ring.step shape (rxDispatch bits merge) (.raise event)
        made := system.made ++ [.other event] }

/-- The adapter uses posted descriptors only, one for each event or, with merged events, up
to 15. The client posts buffers that are mapped, under ids other than the reserved one, and
unbundles what it was told of. -/
def Lawful (system : RxSystem bits) : RxInput bits → Prop
  | .ring input => EventSystem.Inner input ∧ system.ring.Lawful shape input
  | .init buffer => TxDesc.Mapped buffer.addr ∧ buffer.id ≠ requestIdMask
  | .push => True
  | .unbundle count => count ≤ system.owed
  | .complete completion =>
      completion.Valid ∧ completion.count ≤ (if merge then 15 else 1) ∧
        completion.count ≤ system.side.available system.readIndex
  | .other event => WellFormed event ∧ Ef10.get Ef10.evCode event ≠ 0

instance (system : RxSystem bits) (input : RxInput bits) :
    Decidable (system.Lawful shape merge input) :=
  match input with
  | .ring _ => inferInstanceAs (Decidable (_ ∧ _))
  | .init _ => inferInstanceAs (Decidable ((_ ∧ _) ∧ _))
  | .push => isTrue trivial
  | .unbundle _ => inferInstanceAs (Decidable (_ ≤ _))
  | .complete _ => inferInstanceAs (Decidable (_ ∧ _))
  | .other _ => inferInstanceAs (Decidable (_ ∧ _))

def after (bits : Fin 32) (descriptors : Nat → BitVec 64) (inputs : List (RxInput bits)) :
    RxSystem bits :=
  Run.final (step shape merge) (reset bits descriptors) inputs

def LawfulRun (bits : Fin 32) (descriptors : Nat → BitVec 64) (inputs : List (RxInput bits)) :
    Prop :=
  ∀ move ∈ Run.moves (step shape merge) (reset bits descriptors) inputs,
    move.1.Lawful shape merge move.2

instance (bits : Fin 32) (descriptors : Nat → BitVec 64) (inputs : List (RxInput bits)) :
    Decidable (LawfulRun shape merge bits descriptors inputs) :=
  inferInstanceAs (Decidable (∀ move ∈ _, _))

end Step

def done (system : RxSystem bits) : List Made := system.made.take system.ring.handled.length

/-- The ids that have come back to the client: those in the events, or with merged events
those it has unbundled. -/
def returnedIds (merge : Bool) (system : RxSystem bits) : List UInt32 :=
  if merge then system.side.unbundled else system.ring.returned.filterMap EfViEvent.rqId?

end RxSystem

def Made.Allowed (merge : Bool) : Made → Prop
  | .rx completion => completion.Valid ∧ completion.count ≤ (if merge then 15 else 1)
  | .other event => Ef10.get Ef10.evCode event ≠ 0

structure RxPosted {bits : Fin 32} (side : RxSide bits) (announced completed : Nat) : Prop where
  posted : side.vi.posted = UInt32.ofNat announced
  doorbell : side.doorbell = announced % 2 ^ bits.val
  batches : 8 ∣ announced
  used : completed ≤ announced
  given : announced ≤ side.given.length

/-- The accounts of the receive path: `done` is what software has been told of, `made` what
the adapter has reported. -/
structure Accounts (merge : Bool) {bits : Fin 32} (side : RxSide bits) (done made : List Made)
    (readIndex : Nat) (targets : List UInt64) (outputs : List EfViEvent) : Prop where
  behind : done <+: made
  holds : side.vi.Holds side.given (if merge then side.unbundled.length else Made.total done)
  follows : RxProgress.Follows merge side.vi (RxProgress.after done)
  outputs : outputs = RxProgress.told merge side.given .start done
  posted : ∃ announced, RxPosted side announced (Made.total made)
  readIndex : readIndex = Made.total made % 2 ^ bits.val
  targets : targets = (side.given.take (Made.total made)).map RxBuffer.addr
  given : ∀ buffer ∈ side.given, TxDesc.Mapped buffer.addr ∧ buffer.id ≠ requestIdMask
  unbundled : side.unbundled = (side.given.take side.unbundled.length).map RxBuffer.id
  owed : side.unbundled.length ≤ if merge then Made.total done else 0

namespace Accounts

variable {merge : Bool} {bits : Fin 32} {side : RxSide bits} {done made : List Made}
  {readIndex : Nat} {targets : List UInt64} {outputs : List EfViEvent}

theorem reset (merge : Bool) (bits : Fin 32) (descriptors : Nat → BitVec 64) :
    Accounts merge (.reset bits descriptors) [] [] 0 [] [] where
  behind := List.prefix_refl _
  holds := by
    cases merge <;> exact RxVi.reset_holds bits descriptors
  follows := ⟨rfl, fun _ length hlength => by contradiction, fun _ => rfl⟩
  outputs := rfl
  posted := ⟨0, rfl, (Nat.zero_mod _).symm, Nat.dvd_zero 8, Nat.le_refl 0, Nat.le_refl 0⟩
  readIndex := (Nat.zero_mod _).symm
  targets := rfl
  given := fun _ h => absurd h List.not_mem_nil
  unbundled := rfl
  owed := by cases merge <;> exact Nat.le_refl 0

section

variable (h : Accounts merge side done made readIndex targets outputs)
include h

theorem total_le : Made.total done ≤ Made.total made := by
  obtain ⟨rest, hrest⟩ := h.behind
  rw [← hrest, Made.total_append]
  exact Nat.le_add_right _ _

theorem total_made_le : Made.total made ≤ side.given.length := by
  obtain ⟨_, hposted⟩ := h.posted
  exact Nat.le_trans hposted.used hposted.given

theorem position_le :
    (if merge then side.unbundled.length else Made.total done) ≤ Made.total done := by
  have howed := h.owed
  split
  · rename_i hmerge
    rwa [if_pos hmerge] at howed
  · exact Nat.le_refl _

theorem init {buffer : RxBuffer} (hmapped : TxDesc.Mapped buffer.addr)
    (hid : buffer.id ≠ requestIdMask) :
    Accounts merge (side.init buffer) done made readIndex targets outputs := by
  have htotal := h.total_le
  have hmade := h.total_made_le
  by_cases hroom : side.given.length + 1 <
      (if merge then side.unbundled.length else Made.total done) + 2 ^ bits.val
  · have hinit := h.holds.receiveInit_room buffer hroom
    have hgiven : (side.init buffer).given = side.given ++ [buffer] := by
      rw [RxSide.init, hinit.1]
      rfl
    have hkept : ((side.init buffer).vi.inJumbo = side.vi.inJumbo ∧
        (side.init buffer).vi.bytesAcc = side.vi.bytesAcc) ∧
        (side.init buffer).vi.lastDescI = side.vi.lastDescI ∧
        (side.init buffer).vi.posted = side.vi.posted := by
      simp only [RxSide.init, RxVi.receiveInit]
      split <;> exact ⟨⟨rfl, rfl⟩, rfl, rfl⟩
    obtain ⟨announced, hposted⟩ := h.posted
    refine ⟨h.behind, ?_, ?_, ?_, ⟨announced, ?_⟩, h.readIndex, ?_, ?_, ?_, h.owed⟩
    · rw [hgiven]
      exact hinit.2
    · exact ⟨hkept.1.1.trans h.follows.inJumbo,
        fun hmerge length hlength => hkept.1.2.trans (h.follows.bytesAcc hmerge length hlength),
        fun hmerge => hkept.2.1.trans (h.follows.lastDescI hmerge)⟩
    · rw [hgiven, RxProgress.told_more _ [buffer]]
      · exact h.outputs
      · exact (Nat.zero_add _).le.trans (htotal.trans hmade)
    · refine ⟨hkept.2.2.trans hposted.posted, hposted.doorbell, hposted.batches,
        hposted.used, ?_⟩
      rw [hgiven, List.length_append]
      exact Nat.le_add_right_of_le hposted.given
    · rw [hgiven, List.take_append_of_le_length hmade]
      exact h.targets
    · rw [hgiven, List.forall_mem_append, List.forall_mem_singleton]
      exact ⟨h.given, hmapped, hid⟩
    · change side.unbundled = ((side.init buffer).given.take side.unbundled.length).map _
      have hunbundled := h.owed
      rw [hgiven, List.take_append_of_le_length]
      · exact h.unbundled
      · split at hunbundled <;> omega
  · have hfull := h.holds.receiveInit_full buffer (by omega)
    have hsame : side.init buffer = side := by
      rw [RxSide.init, hfull]
      rfl
    rw [hsame]
    exact h

theorem push : Accounts merge side.push done made readIndex targets outputs := by
  obtain ⟨announced, hposted⟩ := h.posted
  have hnext : side.vi.added &&& ~~~7 = UInt32.ofNat (side.given.length / 8 * 8) := by
    apply UInt32.toNat_inj.mp
    rw [Rxq.and_not_seven, h.holds.added, UInt32.toNat_ofNat', UInt32.toNat_ofNat']
    omega
  by_cases hsame : side.vi.added &&& ~~~7 = side.vi.posted
  · have hpush : side.push = side := by
      simp [RxSide.push, RxVi.receivePush, hsame]
    rw [hpush]
    exact h
  · have hpush : side.push = { side with
        vi := { side.vi with posted := side.vi.added &&& ~~~7 }
        doorbell := Ring.slot bits (side.vi.added &&& ~~~7) } := by
      simp [RxSide.push, RxVi.receivePush, hsame]
    have hused := hposted.used
    have hgiven := hposted.given
    have hbatches := hposted.batches
    rw [hpush, hnext, Ring.slot_ofNat]
    refine ⟨h.behind, ⟨h.holds.added, h.holds.removed, h.holds.taken, h.holds.bounded,
      h.holds.words, h.holds.ids⟩, ⟨h.follows.inJumbo, h.follows.bytesAcc, h.follows.lastDescI⟩,
      h.outputs, ⟨side.given.length / 8 * 8, rfl, rfl, Nat.dvd_mul_left 8 _, ?_, ?_⟩, h.readIndex,
      h.targets, h.given, h.unbundled, h.owed⟩
    · omega
    · exact Nat.div_mul_le_self _ _

theorem unbundle {count : Nat}
    (hcount : side.unbundled.length + count ≤ if merge then Made.total done else 0) :
    Accounts merge (side.unbundle count) done made readIndex targets outputs := by
  cases merge with
  | false =>
      have hzero : count = 0 := by
        simp only [Bool.false_eq_true, if_false] at hcount
        omega
      have hsame : side.unbundle count = side := by
        rw [hzero, RxSide.unbundle, RxVi.receiveUnbundle, List.append_nil]
      rw [hsame]
      exact h
  | true =>
      rw [if_pos rfl] at hcount
      have htotal := h.total_le
      have hmade := h.total_made_le
      have hholds : side.vi.Holds side.given side.unbundled.length := h.holds
      have hlive : side.unbundled.length + count ≤ side.given.length := by omega
      have hresult := hholds.receiveUnbundle hlive fun buffer hbuffer =>
        (h.given buffer hbuffer).2
      have hids : (side.unbundle count).unbundled =
          (side.given.take (side.unbundled.length + count)).map RxBuffer.id := by
        rw [RxSide.unbundle, hresult.1, List.take_add, List.map_append, ← h.unbundled]
      have hlength : (side.unbundle count).unbundled.length = side.unbundled.length + count := by
        rw [hids, List.length_map, List.length_take_of_le (by omega)]
      obtain ⟨announced, hposted⟩ := h.posted
      refine ⟨h.behind, ?_, ?_, h.outputs, ⟨announced, ?_⟩, h.readIndex, h.targets, h.given, ?_, ?_⟩
      · rw [if_pos rfl, hlength]
        exact hresult.2.1
      · exact ⟨hresult.2.2.1.trans h.follows.inJumbo, fun hmerge => by contradiction,
          fun hmerge => hresult.2.2.2.1.trans (h.follows.lastDescI hmerge)⟩
      · exact ⟨hresult.2.2.2.2.trans hposted.posted, hposted.doorbell, hposted.batches,
          hposted.used, hposted.given⟩
      · rw [hlength]
        exact hids
      · rw [if_pos rfl, hlength]
        exact hcount

theorem available_eq :
    ∃ announced, RxPosted side announced (Made.total made) ∧
      side.available readIndex = announced - Made.total made := by
  obtain ⟨announced, hposted⟩ := h.posted
  refine ⟨announced, hposted, ?_⟩
  have hused := hposted.used
  have hgiven := hposted.given
  have hbounded := h.holds.bounded
  have hposition := h.position_le
  have htotal := h.total_le
  rw [RxSide.available, hposted.doorbell, h.readIndex]
  exact Ring.slot_distance hused (by omega)

theorem fetch_eq {count : Nat} (hcount : Made.total made + count ≤ side.given.length) :
    targets ++ side.fetch readIndex count =
      (side.given.take (Made.total made + count)).map RxBuffer.addr := by
  induction count with
  | zero =>
      rw [RxSide.fetch, List.range_zero, List.map_nil, List.append_nil]
      exact h.targets
  | succ count ih =>
      have hlt : Made.total made + count < side.given.length := by omega
      have hplace : (readIndex + count) % 2 ^ bits.val =
          (Ring.layout bits).place (Made.total made + count) := by
        rw [Ring.layout_place, h.readIndex, Nat.mod_add_mod]
      have hword : side.vi.descriptors ((readIndex + count) % 2 ^ bits.val) =
          RxDesc.dmaRxCalcIpBuf (bufferAt side.given (Made.total made + count)).addr := by
        have hposition := h.position_le
        have htotal := h.total_le
        rw [hplace]
        exact h.holds.words.read (by omega) (by omega)
      have hmapped : TxDesc.Mapped (bufferAt side.given (Made.total made + count)).addr := by
        rw [bufferAt, List.getD_eq_getElem _ _ hlt]
        exact (h.given _ (List.getElem_mem hlt)).1
      have hmore : side.fetch readIndex (count + 1) = side.fetch readIndex count ++
          [(bufferAt side.given (Made.total made + count)).addr] := by
        rw [RxSide.fetch, List.range_succ, List.map_append, List.map_singleton, hword,
          RxDesc.target_dmaRxCalcIpBuf hmapped]
        rfl
      rw [hmore, ← List.append_assoc, ih (by omega), ← Nat.add_assoc, take_succ_bufferAt hlt,
        List.map_append]
      rfl

theorem complete {completion : RxCompletion}
    (havailable : completion.count ≤ side.available readIndex) :
    Accounts merge side done (made ++ [.rx completion])
      ((readIndex + completion.count) % 2 ^ bits.val)
      (targets ++ side.fetch readIndex completion.count) outputs := by
  obtain ⟨announced, hposted, heq⟩ := h.available_eq
  have hused := hposted.used
  have hgiven := hposted.given
  have htotal : Made.total (made ++ [.rx completion]) = Made.total made + completion.count := by
    rw [Made.total_append]
    rfl
  refine ⟨h.behind.trans (List.prefix_append _ _), h.holds, h.follows, h.outputs,
    ⟨announced, hposted.posted, hposted.doorbell, hposted.batches, ?_, hgiven⟩, ?_, ?_, h.given,
    h.unbundled, h.owed⟩
  · omega
  · rw [htotal, h.readIndex, Nat.mod_add_mod]
  · rw [htotal]
    exact h.fetch_eq (by omega)

theorem other (event : BitVec 64) :
    Accounts merge side done (made ++ [.other event]) readIndex targets outputs := by
  have htotal : Made.total (made ++ [.other event]) = Made.total made := by
    rw [Made.total_append]
    rfl
  refine ⟨h.behind.trans (List.prefix_append _ _), h.holds, h.follows, h.outputs, ?_, ?_, ?_,
    h.given, h.unbundled, h.owed⟩
  · rw [htotal]
    exact h.posted
  · rw [htotal]
    exact h.readIndex
  · rw [htotal]
    exact h.targets

theorem handle (hbits : 4 ≤ bits.val) {one : Made} (hbehind : done ++ [one] <+: made)
    (hallowed : one.Allowed merge) :
    Accounts merge
      ((rxDispatch bits merge).handle side (one.word bits (Made.total done))).1
      (done ++ [one]) made readIndex targets
      (outputs ++ ((rxDispatch bits merge).handle side
        (one.word bits (Made.total done))).2.toList) := by
  have hnext : (RxProgress.after done).next = Made.total done := RxProgress.after_next done
  cases one with
  | other event =>
      have hhandle : (rxDispatch bits merge).handle side event =
          (side, Ef10.otherEvent event) := by
        simp only [rxDispatch, Ef10.handle, if_neg hallowed]
      have htotal : Made.total (done ++ [.other event]) = Made.total done := by
        rw [Made.total_append]
        rfl
      rw [Made.word, hhandle]
      refine ⟨hbehind, ?_, ?_, ?_, h.posted, h.readIndex, h.targets, h.given, h.unbundled, ?_⟩
      · rw [htotal]
        exact h.holds
      · rw [RxProgress.after_concat]
        exact h.follows
      · rw [RxProgress.told_append, h.outputs, RxProgress.told, RxProgress.told, List.append_nil]
      · rw [htotal]
        exact h.owed
  | rx completion =>
      have htotal : Made.total (done ++ [.rx completion]) =
          Made.total done + completion.count := by
        rw [Made.total_append]
        rfl
      have hlive : Made.total done + completion.count ≤ side.given.length := by
        obtain ⟨rest, hrest⟩ := hbehind
        have hmade := h.total_made_le
        rw [← hrest, Made.total_append, htotal] at hmade
        omega
      have hhandled : ∃ next, Ef10.handle merge side.vi
          (completion.word ((Made.total done + completion.count) % 2 ^ bits.val)) =
          (next, some ((RxProgress.after done).tell merge side.given completion)) ∧
          next.Holds side.given (if merge then side.unbundled.length
            else Made.total done + completion.count) ∧
          RxProgress.Follows merge next ((RxProgress.after done).advance completion) ∧
          next.posted = side.vi.posted := by
        have hholds := h.holds
        have hfollows := h.follows
        have hcount := hallowed.2
        rw [← hnext] at hlive hholds ⊢
        cases merge with
        | false => exact RxProgress.handle_one hbits hholds hfollows hallowed.1 hcount hlive
        | true =>
            exact RxProgress.handle_many hbits hholds hfollows hallowed.1 (Nat.lt_succ_of_le hcount)
      obtain ⟨next, hhandle, hholds, hfollows, hsame⟩ := hhandled
      obtain ⟨announced, hposted⟩ := h.posted
      have howed := h.owed
      simp only [rxDispatch, Made.word, hhandle]
      refine ⟨hbehind, ?_, ?_, ?_, ⟨announced, hsame.trans hposted.posted, hposted.doorbell,
        hposted.batches, hposted.used, hposted.given⟩, h.readIndex, h.targets, h.given,
        h.unbundled, ?_⟩
      · rw [htotal]
        exact hholds
      · rw [RxProgress.after_concat]
        exact hfollows
      · rw [RxProgress.told_append, h.outputs]
        rfl
      · rw [htotal]
        cases merge with
        | false => exact howed
        | true => exact Nat.le_trans howed (Nat.le_add_right _ _)

end

end Accounts

end VirtualSfc.Efvi
