import Mathlib
import VirtualSfc.Base.BitField
import VirtualSfc.Base.Run
import VirtualSfc.Driver.Buddy
import VirtualSfc.Driver.EfchManager

/-! The allocation of the instances of virtual interfaces. An adapter has up to two buddy
allocators over the instances that it offers, and a set of virtual interfaces is one block. -/
namespace VirtualSfc.Driver.ViAllocator
open Base Base.Run Base.Dyadic Buddy
open EfchManager (Errno)

inductive Arch where
  | falcon
  | ef10
  | other (code : Nat)
deriving DecidableEq, Repr

structure ViResourceDimensions where
  evqIntMin : Nat
  evqIntLim : Nat
  evqTimerMin : Nat
  evqTimerLim : Nat
  rxqMin : Nat
  rxqLim : Nat
  txqMin : Nat
  txqLim : Nat
  viMin : Nat
  viLim : Nat
deriving DecidableEq, Repr

def viWithInterrupt : UInt32 := 0x1
def viWithTimer : UInt32 := 0x2

def allocatorInitialised : UInt32 := 0x80000000

abbrev efrmNicNViAllocators : Nat := 2

structure EfrmViAllocator where
  props : UInt32
  instances : BuddyAllocator

structure EfrmNic where
  arch : Arch
  viAllocators : Fin efrmNicNViAllocators → EfrmViAllocator
  falconWakeupMask : UInt32
  rssChannelCount : UInt32

structure EfrmViAllocation where
  viInstance : Nat
  order : Nat
  allocatorId : Fin efrmNicNViAllocators
deriving DecidableEq, Repr

structure Span where
  props : UInt32
  low : Nat
  high : Nat
deriving DecidableEq, Repr

def spans (timerMin timerLim intMin intLim : Nat) : List Span :=
  (if timerMin < timerLim then
    [⟨viWithTimer ||| allocatorInitialised |||
        (if intMin = timerMin ∧ intMin < intLim then viWithInterrupt else 0),
      timerMin, timerLim⟩]
  else []) ++
  (if intMin < intLim ∧ intMin ≠ timerMin then
    [⟨viWithInterrupt ||| allocatorInitialised, intMin, intLim⟩]
  else [])

/-- On Falcon a virtual interface needs the queues of every kind. -/
def archSpans (arch : Arch) (dims : ViResourceDimensions) : Except Errno (List Span) :=
  match arch with
  | .ef10 => .ok (spans dims.viMin dims.viLim dims.viMin dims.viLim)
  | .falcon =>
      let dmaqMin := max dims.rxqMin dims.txqMin
      let dmaqLim := min dims.rxqLim dims.txqLim
      let timerMin := max dmaqMin dims.evqTimerMin
      let timerLim := min dmaqLim dims.evqTimerLim
      let intMin := max dmaqMin dims.evqIntMin
      let intLim := max (min dmaqLim dims.evqIntLim) intMin
      .ok (spans timerMin timerLim intMin intLim)
  | .other _ => .error .einval

/-- An allocator without a span is never used. -/
def allocatorOf : Option Span → EfrmViAllocator
  | some span => ⟨span.props, .rangeCtor span.low span.high⟩
  | none => ⟨0, ⟨fun _ => [], fun _ => false, fun _ => 0, 0⟩⟩

def ctor (arch : Arch) (dims : ViResourceDimensions) (falconWakeupMask rssChannelCount : UInt32) :
    Except Errno EfrmNic := do
  let all ← archSpans arch dims
  return ⟨arch, fun i => allocatorOf all[i.val]?, falconWakeupMask, rssChannelCount⟩

namespace EfrmNic

def acceptViConstraints (nic : EfrmNic) (channel : Int) (minVisInSet : Nat)
    (hasRssContext : Bool) (low _order : Nat) : Bool :=
  let wakeup :=
    if nic.arch = .falcon ∧ 0 ≤ channel then
      decide (((UInt32.ofNat low &&& nic.falconWakeupMask).toNat : Int) = channel)
    else true
  let spread :=
    if 1 < minVisInSet ∧ hasRssContext = false then
      decide ((UInt32.ofNat low ||| (nic.rssChannelCount - 1)) < UInt32.ofNat (low + minVisInSet))
    else true
  wakeup && spread

def setInstances (nic : EfrmNic) (i : Fin efrmNicNViAllocators) (b : BuddyAllocator) : EfrmNic :=
  { nic with
    viAllocators := Function.update nic.viAllocators i ⟨(nic.viAllocators i).props, b⟩ }

def setOrder (minVisInSet : Int) : Nat := BuddyAllocator.fls (minVisInSet.toNat - 1)

/-- There is no result if the loop of `efrm_buddy_alloc_special` does not end. -/
def allocSet (nic : EfrmNic) (viProps : UInt32) (minVisInSet : Int) (hasRssContext : Bool)
    (channel : Int) : Option (Except Errno EfrmViAllocation × EfrmNic) :=
  if minVisInSet < 1 then some (.error .einval, nic)
  else
    let wanted := viProps ||| allocatorInitialised
    match (List.finRange efrmNicNViAllocators).find?
        fun i => wanted &&& (nic.viAllocators i).props == wanted with
    | none => some (.error .einval, nic)
    | some i =>
        match (nic.viAllocators i).instances.allocSpecial (setOrder minVisInSet)
            (nic.acceptViConstraints channel minVisInSet.toNat hasRssContext) with
        | none => none
        | some (none, b) => some (.error .ebusy, nic.setInstances i b)
        | some (some addr, b) => some (.ok ⟨addr, setOrder minVisInSet, i⟩, nic.setInstances i b)

def freeSet (nic : EfrmNic) (set : EfrmViAllocation) : EfrmNic :=
  nic.setInstances set.allocatorId
    ((nic.viAllocators set.allocatorId).instances.free set.viInstance set.order)

end EfrmNic

/-! Clients that allocate and free sets. -/

structure State where
  nic : EfrmNic
  held : List EfrmViAllocation

/-- `free` gives back the set at this place of the sets that are held. -/
inductive Call where
  | alloc (viProps : UInt32) (minVisInSet : Int) (hasRssContext : Bool) (channel : Int)
  | free (place : Nat)

def step (state : State) : Call → State
  | .alloc viProps minVisInSet hasRssContext channel =>
      match state.nic.allocSet viProps minVisInSet hasRssContext channel with
      | some (.ok set, nic) => ⟨nic, set :: state.held⟩
      | some (.error _, nic) => ⟨nic, state.held⟩
      | none => state
  | .free place =>
      match state.held[place]? with
      | some set => ⟨state.nic.freeSet set, state.held.eraseIdx place⟩
      | none => state

def EfrmViAllocation.units (set : EfrmViAllocation) : Set Nat :=
  Set.Ico set.viInstance (set.viInstance + 2 ^ set.order)

def taken (held : List EfrmViAllocation) (id : Fin efrmNicNViAllocators) : Set Nat :=
  {unit | ∃ set ∈ held, set.allocatorId = id ∧ unit ∈ set.units}

structure Sound (all : List Span) (state : State) : Prop where
  props : ∀ id, (state.nic.viAllocators id).props = (allocatorOf all[id.val]?).props
  represents : ∀ (id : Fin efrmNicNViAllocators) span, all[id.val]? = some span →
    Represents (BuddyAllocator.fls (span.high - 1)) (state.nic.viAllocators id).instances
      (Set.Ico span.low span.high \ taken state.held id)
  aligned : ∀ set ∈ state.held, 2 ^ set.order ∣ set.viInstance
  within : ∀ set ∈ state.held, ∃ span, all[set.allocatorId.val]? = some span ∧
    set.units ⊆ Set.Ico span.low span.high
  apart : state.held.Pairwise fun a b => a.allocatorId = b.allocatorId → Disjoint a.units b.units

section Runs

variable {all : List Span} {nic : EfrmNic} {held rest : List EfrmViAllocation}
  {set : EfrmViAllocation} {id : Fin efrmNicNViAllocators} {span : Span}

theorem taken_cons (set : EfrmViAllocation) (rest : List EfrmViAllocation)
    (id : Fin efrmNicNViAllocators) :
    taken (set :: rest) id = (if set.allocatorId = id then set.units else ∅) ∪ taken rest id := by
  ext unit
  split
  · rename_i hid
    simp [taken, hid]
  · rename_i hid
    simp [taken, hid]

theorem ctor_sound (hall : ∀ span ∈ all, span.low < span.high ∧ span.high ≤ 2 ^ 31)
    (hnic : nic.viAllocators = fun i => allocatorOf all[i.val]?) : Sound all ⟨nic, []⟩ := by
  refine ⟨fun id => by rw [hnic], fun id span hspan => ?_, by simp, by simp, List.Pairwise.nil⟩
  have hrange := hall span (List.mem_of_getElem? hspan)
  have hnone : taken [] id = ∅ := by
    ext unit
    simp [taken]
  simp only [hnone, Set.sdiff_empty, hnic, hspan]
  exact rangeCtor_represents hrange.1 hrange.2

theorem Sound.perm (h : Sound all ⟨nic, held⟩) (hperm : held.Perm rest) :
    Sound all ⟨nic, rest⟩ := by
  have htaken (id : Fin efrmNicNViAllocators) : taken rest id = taken held id := by
    ext unit
    simp [taken, hperm.mem_iff]
  refine ⟨h.props, fun id span hspan => ?_, fun set hset => ?_, fun set hset => ?_, ?_⟩
  · rw [htaken]
    exact h.represents id span hspan
  · exact h.aligned set (hperm.mem_iff.mpr hset)
  · exact h.within set (hperm.mem_iff.mpr hset)
  · exact (hperm.pairwise_iff fun hab hid => (hab hid.symm).symm).mp h.apart

theorem Sound.change (h : Sound all ⟨nic, held⟩) (hspan : all[id.val]? = some span)
    {b : BuddyAllocator}
    (hb : Represents (BuddyAllocator.fls (span.high - 1)) b
      (Set.Ico span.low span.high \ taken rest id))
    (hothers : ∀ other, other ≠ id → taken rest other = taken held other)
    (haligned : ∀ set ∈ rest, 2 ^ set.order ∣ set.viInstance)
    (hwithin : ∀ set ∈ rest, ∃ span, all[set.allocatorId.val]? = some span ∧
      set.units ⊆ Set.Ico span.low span.high)
    (hapart : rest.Pairwise fun a b => a.allocatorId = b.allocatorId → Disjoint a.units b.units) :
    Sound all ⟨nic.setInstances id b, rest⟩ := by
  refine ⟨fun other => ?_, fun other otherSpan hother => ?_, haligned, hwithin, hapart⟩
  · rw [← h.props]
    by_cases hid : other = id
    · subst hid
      simp [EfrmNic.setInstances]
    · simp [EfrmNic.setInstances, hid]
  · by_cases hid : other = id
    · subst hid
      rw [hspan, Option.some.injEq] at hother
      subst hother
      simpa [EfrmNic.setInstances] using hb
    · rw [hothers other hid]
      simpa [EfrmNic.setInstances, hid] using h.represents other otherSpan hother

theorem Sound.grant (h : Sound all ⟨nic, held⟩) (hspan : all[id.val]? = some span)
    {b : BuddyAllocator} {order addr : Nat}
    (hb : Represents (BuddyAllocator.fls (span.high - 1)) b
      ((Set.Ico span.low span.high \ taken held id) \ unitsAt order addr))
    (hdvd : 2 ^ order ∣ addr)
    (hfree : unitsAt order addr ⊆ Set.Ico span.low span.high \ taken held id) :
    Sound all ⟨nic.setInstances id b, ⟨addr, order, id⟩ :: held⟩ := by
  have hunits : EfrmViAllocation.units ⟨addr, order, id⟩ = unitsAt order addr :=
    (unitsAt_eq hdvd).symm
  apply h.change hspan
  · rw [taken_cons, if_pos rfl, Set.union_comm, ← Set.sdiff_sdiff, hunits]
    exact hb
  · intro other hother
    rw [taken_cons, if_neg (Ne.symm hother), Set.empty_union]
  · rw [List.forall_mem_cons]
    exact ⟨hdvd, h.aligned⟩
  · rw [List.forall_mem_cons]
    exact ⟨⟨span, hspan, hunits ▸ hfree.trans Set.sdiff_subset⟩, h.within⟩
  · refine List.Pairwise.cons (fun set hset hid => ?_) h.apart
    rw [hunits, Set.disjoint_left]
    exact fun unit hunit hmem => (hfree hunit).2 ⟨set, hset, hid.symm, hmem⟩

theorem range_within (low high : Nat) :
    Set.Ico low high ⊆ block (BuddyAllocator.fls (high - 1)) 0 := by
  intro unit hunit
  have hsize : high - 1 < 2 ^ BuddyAllocator.fls (high - 1) := Nat.lt_size_self _
  rw [Set.mem_Ico] at hunit
  rw [mem_block_zero]
  omega

theorem Sound.freeSet (h : Sound all ⟨nic, set :: rest⟩) : Sound all ⟨nic.freeSet set, rest⟩ := by
  obtain ⟨span, hspan, hrange⟩ := h.within set List.mem_cons_self
  have hdvd := h.aligned set List.mem_cons_self
  have hrep := h.represents set.allocatorId span hspan
  obtain ⟨hfirst, hapart⟩ := List.pairwise_cons.mp h.apart
  have hunits : unitsAt set.order set.viInstance = set.units := unitsAt_eq hdvd
  have hwithin := hrange.trans (range_within span.low span.high)
  rw [← hunits] at hwithin
  have hother : set.units ⊆ Set.Ico span.low span.high \ taken rest set.allocatorId := by
    intro unit hunit
    refine ⟨hrange hunit, ?_⟩
    rintro ⟨other, hmem, hid, hboth⟩
    exact Set.disjoint_left.mp (hfirst other hmem hid.symm) hunit hboth
  rw [taken_cons, if_pos rfl, Set.union_comm, ← Set.sdiff_sdiff] at hrep
  have hfree := hrep.free (Whole.order_le hwithin Set.Subset.rfl) hdvd
    (mem_block_zero.mp (hwithin (mem_unitsAt _ _)))
    (by
      rw [hunits]
      exact Set.disjoint_sdiff_right)
  apply h.change hspan
  · rwa [hunits, Set.sdiff_union_of_subset hother] at hfree
  · intro id hid
    rw [taken_cons, if_neg (Ne.symm hid), Set.empty_union]
  · exact fun other hmem => h.aligned other (List.mem_cons_of_mem set hmem)
  · exact fun other hmem => h.within other (List.mem_cons_of_mem set hmem)
  · exact hapart

inductive Outcome (all : List Span) (nic : EfrmNic) (held : List EfrmViAllocation)
    (viProps : UInt32) (minVisInSet : Int) (acceptFn : Nat → Nat → Bool) :
    Except Errno EfrmViAllocation × EfrmNic → Prop
  | invalid (h : minVisInSet < 1 ∨ ∀ i, (viProps ||| allocatorInitialised) &&&
      (nic.viAllocators i).props ≠ viProps ||| allocatorInitialised) :
      Outcome all nic held viProps minVisInSet acceptFn (.error .einval, nic)
  | busy (id : Fin efrmNicNViAllocators) (span : Span) (b : BuddyAllocator)
      (hspan : all[id.val]? = some span) (hsound : Sound all ⟨nic.setInstances id b, held⟩)
      (hnone : Answers (Set.Ico span.low span.high \ taken held id)
        (EfrmNic.setOrder minVisInSet) acceptFn none) :
      Outcome all nic held viProps minVisInSet acceptFn (.error .ebusy, nic.setInstances id b)
  | granted (id : Fin efrmNicNViAllocators) (span : Span) (b : BuddyAllocator) (addr : Nat)
      (hspan : all[id.val]? = some span)
      (hsound : Sound all
        ⟨nic.setInstances id b, ⟨addr, EfrmNic.setOrder minVisInSet, id⟩ :: held⟩)
      (haddr : Answers (Set.Ico span.low span.high \ taken held id)
        (EfrmNic.setOrder minVisInSet) acceptFn (some addr)) :
      Outcome all nic held viProps minVisInSet acceptFn
        (.ok ⟨addr, EfrmNic.setOrder minVisInSet, id⟩, nic.setInstances id b)

theorem Sound.allocSet (h : Sound all ⟨nic, held⟩) (viProps : UInt32) (minVisInSet : Int)
    (hasRssContext : Bool) (channel : Int) :
    ∃ result, nic.allocSet viProps minVisInSet hasRssContext channel = some result ∧
      Outcome all nic held viProps minVisInSet
        (nic.acceptViConstraints channel minVisInSet.toNat hasRssContext) result := by
  rw [EfrmNic.allocSet]
  split
  · rename_i hmin
    exact ⟨_, rfl, .invalid (.inl hmin)⟩
  · dsimp only
    split
    · rename_i hnone
      refine ⟨_, rfl, .invalid (.inr fun i hi => ?_)⟩
      have hi' := List.find?_eq_none.mp hnone i (List.mem_finRange i)
      simp [hi] at hi'
    · rename_i id hid
      have hprops := List.find?_some hid
      rw [beq_iff_eq] at hprops
      obtain ⟨span, hspan⟩ : ∃ span, all[id.val]? = some span := by
        cases hspan : all[id.val]? with
        | some span => exact ⟨span, rfl⟩
        | none =>
            -- an allocator that is not initialised does not match
            rw [h.props, hspan, allocatorOf, UInt32.and_zero, eq_comm, UInt32.or_eq_zero_iff]
              at hprops
            exact absurd hprops.2 (by decide)
      have hrep := h.represents id span hspan
      obtain ⟨answer, b, hspecial, hb, hanswer⟩ := hrep.allocSpecial (EfrmNic.setOrder minVisInSet)
        (nic.acceptViConstraints channel minVisInSet.toNat hasRssContext)
      dsimp only at hspecial
      rw [hspecial]
      cases answer with
      | none =>
          refine ⟨_, rfl, .busy id span b hspan ?_ hanswer⟩
          rw [Buddy.granted, Set.sdiff_empty] at hb
          exact h.change hspan hb (fun _ _ => rfl) h.aligned h.within h.apart
      | some addr =>
          have hsound := h.grant hspan hb hanswer.1 hanswer.2.1
          exact ⟨_, rfl, .granted id span b addr hspan hsound hanswer⟩

theorem step_sound (state : State) (call : Call) (h : Sound all state) :
    Sound all (step state call) := by
  cases call with
  | alloc viProps minVisInSet hasRssContext channel =>
      obtain ⟨result, hresult, houtcome⟩ := h.allocSet viProps minVisInSet hasRssContext channel
      simp only [step, hresult]
      cases houtcome with
      | invalid _ => exact h
      | busy id span b hspan hsound hnone => exact hsound
      | granted id span b addr hspan hsound haddr => exact hsound
  | free place =>
      simp only [step]
      split
      · rename_i set hset
        obtain ⟨hplace, rfl⟩ := List.getElem?_eq_some_iff.mp hset
        apply Sound.freeSet
        exact h.perm (List.getElem_cons_eraseIdx_perm hplace).symm
      · exact h

theorem spans_bounds {timerMin timerLim intMin intLim : Nat} (htimer : timerLim ≤ 2 ^ 31)
    (hint : intLim ≤ 2 ^ 31) :
    ∀ span ∈ spans timerMin timerLim intMin intLim, span.low < span.high ∧ span.high ≤ 2 ^ 31 := by
  intro span hspan
  rw [spans, List.mem_append] at hspan
  cases hspan with
  | inl hspan =>
      split at hspan
      · rename_i hlt
        rw [List.mem_singleton] at hspan
        subst hspan
        exact ⟨hlt, htimer⟩
      · cases hspan
  | inr hspan =>
      split at hspan
      · rename_i hlt
        rw [List.mem_singleton] at hspan
        subst hspan
        exact ⟨hlt.1, hint⟩
      · cases hspan

end Runs

def ef10Spans (dims : ViResourceDimensions) : List Span :=
  spans dims.viMin dims.viLim dims.viMin dims.viLim

theorem ef10_sound {dims : ViResourceDimensions} (hlim : dims.viLim ≤ 2 ^ 31)
    {mask rss : UInt32} {nic : EfrmNic} (hctor : ctor .ef10 dims mask rss = .ok nic)
    (calls : List Call) : Sound (ef10Spans dims) (final step ⟨nic, []⟩ calls) := by
  apply final_invariant step _ step_sound
  apply ctor_sound (spans_bounds hlim hlim)
  injection hctor with hnic
  rw [← hnic]

theorem ef10Spans_eq {dims : ViResourceDimensions} (hmin : dims.viMin < dims.viLim) :
    ef10Spans dims =
      [⟨viWithTimer ||| allocatorInitialised ||| viWithInterrupt, dims.viMin, dims.viLim⟩] := by
  simp [ef10Spans, spans, hmin]

theorem ef10Spans_zero {dims : ViResourceDimensions} (hmin : dims.viMin < dims.viLim) :
    (ef10Spans dims)[(0 : Fin efrmNicNViAllocators).val]? =
      some ⟨viWithTimer ||| allocatorInitialised ||| viWithInterrupt, dims.viMin, dims.viLim⟩ := by
  rw [ef10Spans_eq hmin]
  rfl

theorem ef10Spans_getElem {dims : ViResourceDimensions} {id : Nat} {span : Span}
    (h : (ef10Spans dims)[id]? = some span) :
    id = 0 ∧ span = ⟨viWithTimer ||| allocatorInitialised ||| viWithInterrupt, dims.viMin,
      dims.viLim⟩ := by
  by_cases hlt : dims.viMin < dims.viLim
  · rw [ef10Spans_eq hlt] at h
    obtain ⟨hid, hspan⟩ := List.getElem?_eq_some_iff.mp h
    rw [List.length_singleton, Nat.lt_one_iff] at hid
    subst hid
    exact ⟨rfl, hspan.symm⟩
  · simp [ef10Spans, spans, hlt] at h

def heldUnits (held : List EfrmViAllocation) : Set Nat := {unit | ∃ set ∈ held, unit ∈ set.units}

theorem taken_ef10 {dims : ViResourceDimensions} {state : State} (h : Sound (ef10Spans dims) state)
    (id : Fin efrmNicNViAllocators) (hid : id.val = 0) :
    taken state.held id = heldUnits state.held := by
  ext unit
  constructor
  · rintro ⟨set, hset, _, hunit⟩
    exact ⟨set, hset, hunit⟩
  · rintro ⟨set, hset, hunit⟩
    obtain ⟨span, hspan, _⟩ := h.within set hset
    exact ⟨set, hset, Fin.ext ((ef10Spans_getElem hspan).1.trans hid.symm), hunit⟩

/-- No instance is in two sets that are held at the same time, and every set is in the range
of the adapter. -/
theorem vi_sets_apart {dims : ViResourceDimensions} (hlim : dims.viLim ≤ 2 ^ 31)
    {mask rss : UInt32} {nic : EfrmNic} (hctor : ctor .ef10 dims mask rss = .ok nic)
    (calls : List Call) :
    let state := final step ⟨nic, []⟩ calls
    (state.held.Pairwise fun a b => Disjoint a.units b.units) ∧
      ∀ set ∈ state.held, set.units ⊆ Set.Ico dims.viMin dims.viLim := by
  intro state
  have h : Sound (ef10Spans dims) state := ef10_sound hlim hctor calls
  have hspan (set : EfrmViAllocation) (hset : set ∈ state.held) :
      set.allocatorId.val = 0 ∧ set.units ⊆ Set.Ico dims.viMin dims.viLim := by
    obtain ⟨span, hspan, hrange⟩ := h.within set hset
    obtain ⟨hid, rfl⟩ := ef10Spans_getElem hspan
    exact ⟨hid, hrange⟩
  refine ⟨?_, fun set hset => (hspan set hset).2⟩
  refine h.apart.imp_of_mem fun {a b} ha hb hab => hab (Fin.ext ?_)
  rw [(hspan a ha).1, (hspan b hb).1]

def smallDims : ViResourceDimensions := ⟨0, 0, 0, 0, 0, 0, 0, 0, 1, 6⟩

def smallNic : EfrmNic := ⟨.ef10, fun i => allocatorOf (ef10Spans smallDims)[i.val]?, 0, 4⟩

theorem smallNic_ctor : ctor .ef10 smallDims 0 4 = .ok smallNic := rfl

theorem vi_sets_apart_small :
    (final step ⟨smallNic, []⟩
        [.alloc viWithTimer 2 true (-1), .alloc viWithInterrupt 1 false (-1)]).held =
      [⟨1, 0, 0⟩, ⟨4, 1, 0⟩] ∧
    ∀ set ∈ (final step ⟨smallNic, []⟩
        [.alloc viWithTimer 2 true (-1), .alloc viWithInterrupt 1 false (-1)]).held,
      set.units ⊆ Set.Ico 1 6 :=
  ⟨by decide +kernel, (vi_sets_apart (by decide) smallNic_ctor _).2⟩

section Requests

variable {dims : ViResourceDimensions} {state : State} {viProps : UInt32} {minVisInSet : Int}

theorem le_two_pow_setOrder (minVisInSet : Int) :
    minVisInSet ≤ ((2 ^ EfrmNic.setOrder minVisInSet : Nat) : Int) := by
  have hroom : minVisInSet.toNat - 1 < 2 ^ EfrmNic.setOrder minVisInSet := Nat.lt_size_self _
  omega

theorem Sound.ef10_props (h : Sound (ef10Spans dims) state) (hmin : dims.viMin < dims.viLim) :
    (state.nic.viAllocators 0).props =
      viWithTimer ||| allocatorInitialised ||| viWithInterrupt := by
  rw [h.props, ef10Spans_zero hmin, allocatorOf]

theorem Sound.ef10_refuses (h : Sound (ef10Spans dims) state) (hmin : dims.viMin < dims.viLim) :
    (∀ i, (viProps ||| allocatorInitialised) &&& (state.nic.viAllocators i).props ≠
        viProps ||| allocatorInitialised) ↔
      viProps &&& ~~~(viWithTimer ||| allocatorInitialised ||| viWithInterrupt) ≠ 0 := by
  have hfirst := @or_and_eq_iff viProps allocatorInitialised
    (viWithTimer ||| allocatorInitialised ||| viWithInterrupt) (by decide)
  constructor
  · intro hnone
    have hzero := hnone 0
    rwa [h.ef10_props hmin, ne_eq, hfirst] at hzero
  · intro hprops i
    by_cases hi : i.val = 0
    · rw [show i = 0 from Fin.ext hi, h.ef10_props hmin, ne_eq, hfirst]
      exact hprops
    · -- the second allocator is not initialised
      have hnone : (ef10Spans dims)[i.val]? = none := by
        rw [Option.eq_none_iff_forall_ne_some]
        exact fun span hspan => hi (ef10Spans_getElem hspan).1
      rw [h.props, hnone, allocatorOf, UInt32.and_zero, ne_eq, eq_comm, UInt32.or_eq_zero_iff]
      exact fun hzero => absurd hzero.2 (by decide)

theorem Sound.ef10_invalid (h : Sound (ef10Spans dims) state) (hmin : dims.viMin < dims.viLim)
    (hrefused : minVisInSet < 1 ∨
      viProps &&& ~~~(viWithTimer ||| allocatorInitialised ||| viWithInterrupt) ≠ 0)
    (hasRssContext : Bool) (channel : Int) :
    state.nic.allocSet viProps minVisInSet hasRssContext channel =
      some (.error .einval, state.nic) := by
  rw [EfrmNic.allocSet]
  by_cases hvis : minVisInSet < 1
  · rw [if_pos hvis]
  · have hnone := (h.ef10_refuses hmin).mpr (hrefused.resolve_left hvis)
    have hfind : (List.finRange efrmNicNViAllocators).find? (fun i =>
        (viProps ||| allocatorInitialised) &&& (state.nic.viAllocators i).props ==
          viProps ||| allocatorInitialised) = none := by
      rw [List.find?_eq_none]
      intro i _
      rw [beq_iff_eq]
      exact hnone i
    simp only [if_neg hvis, hfind]

theorem Sound.ef10_alloc (h : Sound (ef10Spans dims) state) (hmin : dims.viMin < dims.viLim)
    (hprops : viProps &&& ~~~(viWithTimer ||| allocatorInitialised ||| viWithInterrupt) = 0)
    (hvis : 1 ≤ minVisInSet) (hasRssContext : Bool) (channel : Int) :
    ∃ answer nic', Answers (Set.Ico dims.viMin dims.viLim \ heldUnits state.held)
        (EfrmNic.setOrder minVisInSet)
        (state.nic.acceptViConstraints channel minVisInSet.toNat hasRssContext) answer ∧
      state.nic.allocSet viProps minVisInSet hasRssContext channel =
        some (match answer with
          | some addr => .ok ⟨addr, EfrmNic.setOrder minVisInSet, 0⟩
          | none => .error .ebusy, nic') := by
  obtain ⟨result, hresult, houtcome⟩ := h.allocSet viProps minVisInSet hasRssContext channel
  cases houtcome with
  | invalid hinvalid =>
      cases hinvalid with
      | inl hless => omega
      | inr hnone => exact absurd hprops ((h.ef10_refuses hmin).mp hnone)
  | busy id span b hspan hsound hnone =>
      obtain ⟨hid, rfl⟩ := ef10Spans_getElem hspan
      rw [taken_ef10 h id hid] at hnone
      exact ⟨none, _, hnone, hresult⟩
  | granted id span b addr hspan hsound haddr =>
      obtain ⟨hid, rfl⟩ := ef10Spans_getElem hspan
      rw [taken_ef10 h id hid] at haddr
      rw [show id = 0 from Fin.ext hid] at hresult
      exact ⟨some addr, _, haddr, hresult⟩

end Requests

/-- A request is refused with `-EINVAL` exactly if it is for less than one interface or for
properties that the allocator does not have. It is refused with `-EBUSY` exactly if no block of
its order is free that meets the constraints, and otherwise it gets such a block, which has room
for the set. -/
theorem vi_set_alloc_exact {dims : ViResourceDimensions} (hmin : dims.viMin < dims.viLim)
    (hlim : dims.viLim ≤ 2 ^ 31) {mask rss : UInt32} {nic : EfrmNic}
    (hctor : ctor .ef10 dims mask rss = .ok nic) (calls : List Call) (viProps : UInt32)
    (minVisInSet : Int) (hasRssContext : Bool) (channel : Int) :
    let state := final step ⟨nic, []⟩ calls
    let order := EfrmNic.setOrder minVisInSet
    let free := Set.Ico dims.viMin dims.viLim \ heldUnits state.held
    let acceptFn := state.nic.acceptViConstraints channel minVisInSet.toNat hasRssContext
    let refused := minVisInSet < 1 ∨
      viProps &&& ~~~(viWithTimer ||| allocatorInitialised ||| viWithInterrupt) ≠ 0
    (refused ∧ state.nic.allocSet viProps minVisInSet hasRssContext channel =
        some (.error .einval, state.nic)) ∨
      (¬ refused ∧ (∃ nic', state.nic.allocSet viProps minVisInSet hasRssContext channel =
          some (.error .ebusy, nic')) ∧
        ∀ addr, 2 ^ order ∣ addr → Set.Ico addr (addr + 2 ^ order) ⊆ free →
          acceptFn addr order = false) ∨
      (¬ refused ∧ minVisInSet ≤ ((2 ^ order : Nat) : Int) ∧
        ∃ addr nic', state.nic.allocSet viProps minVisInSet hasRssContext channel =
            some (.ok ⟨addr, order, 0⟩, nic') ∧
          2 ^ order ∣ addr ∧ Set.Ico addr (addr + 2 ^ order) ⊆ free ∧
          acceptFn addr order = true) := by
  intro state order free acceptFn refused
  have h : Sound (ef10Spans dims) state := ef10_sound hlim hctor calls
  by_cases hrefused : refused
  · exact .inl ⟨hrefused, h.ef10_invalid hmin hrefused hasRssContext channel⟩
  · obtain ⟨hvis, hprops⟩ := not_or.mp hrefused
    obtain ⟨answer, nic', hanswer, hresult⟩ := h.ef10_alloc hmin (not_not.mp hprops)
      (not_lt.mp hvis) hasRssContext channel
    right
    cases answer with
    | none =>
        refine .inl ⟨hrefused, ⟨nic', hresult⟩, fun addr hdvd hfree => hanswer addr hdvd ?_⟩
        rw [unitsAt_eq hdvd]
        exact hfree
    | some addr =>
        obtain ⟨hdvd, hfree, haccept⟩ := hanswer
        rw [unitsAt_eq hdvd] at hfree
        exact .inr ⟨hrefused, le_two_pow_setOrder minVisInSet, addr, nic', hresult, hdvd, hfree,
          haccept⟩

theorem vi_set_alloc_exact_small :
    let state := final step ⟨smallNic, []⟩ [.alloc viWithTimer 2 true (-1)]
    (∃ addr nic', state.nic.allocSet 0 2 true (-1) =
        some (.ok ⟨addr, EfrmNic.setOrder 2, 0⟩, nic') ∧
      Set.Ico addr (addr + 2 ^ EfrmNic.setOrder 2) ⊆ Set.Ico 1 6 \ heldUnits state.held) ∧
    (step state (.alloc 0 2 true (-1))).held = [⟨2, 1, 0⟩, ⟨4, 1, 0⟩] := by
  intro state
  have hheld : (step state (.alloc 0 2 true (-1))).held = [⟨2, 1, 0⟩, ⟨4, 1, 0⟩] := by
    decide +kernel
  refine ⟨?_, hheld⟩
  rcases vi_set_alloc_exact (by decide) (by decide) smallNic_ctor
    [.alloc viWithTimer 2 true (-1)] 0 2 true (-1) with
    ⟨hrefused, _⟩ | ⟨_, ⟨nic', hbusy⟩, _⟩ | ⟨_, _, addr, nic', hresult, _, hfree, _⟩
  · exact absurd hrefused (by decide)
  · change state.nic.allocSet 0 2 true (-1) = _ at hbusy
    rw [step, hbusy] at hheld
    have hone : state.held.length = 1 := by decide +kernel
    rw [show state.held = _ from hheld] at hone
    contradiction
  · exact ⟨addr, nic', hresult, hfree⟩

/-- When every set has been freed, the free lists hold the blocks that they held at first. -/
theorem freed_sets_merge {dims : ViResourceDimensions} (hmin : dims.viMin < dims.viLim)
    (hlim : dims.viLim ≤ 2 ^ 31) {mask rss : UInt32} {nic : EfrmNic}
    (hctor : ctor .ef10 dims mask rss = .ok nic) (calls : List Call)
    (hfreed : (final step ⟨nic, []⟩ calls).held = []) (order addr : Nat) :
    addr ∈ ((final step ⟨nic, []⟩ calls).nic.viAllocators 0).instances.freeLists order ↔
      addr ∈ (nic.viAllocators 0).instances.freeLists order := by
  have hlast := (ef10_sound hlim hctor calls).represents 0 _ (ef10Spans_zero hmin)
  have hfirst := (ef10_sound hlim hctor []).represents 0 _ (ef10Spans_zero hmin)
  rw [hfreed] at hlast
  exact (hlast.listed order addr).trans (hfirst.listed order addr).symm

theorem freed_sets_merge_small :
    4 ∈ ((final step ⟨smallNic, []⟩
      [.alloc viWithTimer 1 false (-1), .alloc viWithTimer 2 true (-1), .free 1,
        .free 0]).nic.viAllocators 0).instances.freeLists 1 ↔
      4 ∈ (smallNic.viAllocators 0).instances.freeLists 1 :=
  freed_sets_merge (by decide) (by decide) smallNic_ctor _ (by decide +kernel) 1 4

end VirtualSfc.Driver.ViAllocator
