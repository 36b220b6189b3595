import VirtualSfc.Efvi.EventRing

/-! Delivery of events. The poll is followed from one load to the next: what it has loaded
allows conclusions about the adapter that later writes cannot break, and these are enough
to know the event it takes, or that there was none. -/
namespace VirtualSfc.Efvi
open Base

namespace EventSystem

variable {σ ε : Type}

def cell (system : EventSystem σ ε) (half : Half) (position : Nat) : BitVec 32 :=
  if position < system.written half then half.of (system.events.getD position 0) else blank

/-- The ring and its pointer. The slots from the pointer on, without those consumed and
not yet cleared, hold the events the adapter has written, and the last of them is free. -/
structure Tracks (shape : EvqShape) (system : EventSystem σ ε) : Prop where
  evqPtr : system.evqPtr = UInt32.ofNat (8 * system.handled.length)
  shows : ∀ half, shape.layout.Shows (system.memory half) (system.cell half)
    system.handled.length (shape.size - shape.stride)
  behind : ∀ half, system.handled.length ≤ system.written half
  ahead : ∀ half, system.written half < system.handled.length + (shape.size - shape.stride)
  made : ∀ half, system.written half ≤ system.events.length
  wellFormed : ∀ event ∈ system.events, WellFormed event
  handled : system.handled <+: system.events

structure Current (system : EventSystem σ ε) (half : Half) (value : BitVec 32) : Prop where
  complete : system.handled.length < system.target → value ≠ blank
  written : value ≠ blank → system.handled.length < system.written half
  event : value ≠ blank → value = half.of (system.events.getD system.handled.length 0)

def Reads (system : EventSystem σ ε) (half : Half) (value : BitVec 32) : Site → Prop
  | .overflow => value = blank
  | .first => system.Current half value
  | .next => system.Current half value
  | .probe => value ≠ blank → system.handled.length + 1 < system.written half
  | .recheck => value ≠ blank

def Knows (system : EventSystem σ ε) : Site → Prop
  | .overflow => system.evs = []
  | .first => system.evs = []
  | .next => True
  | .probe => system.evs = [] ∧ system.target ≤ system.handled.length
  | .recheck => system.evs = [] ∧ system.target ≤ system.handled.length ∧
      ∀ half, system.handled.length + 1 < system.written half

/-- A poll that is over has taken every event that was complete when it was called, or the
array of its caller is full, or an MCDI event waits behind events that it delivered. -/
def Complete (dispatch : Dispatch σ ε) (system : EventSystem σ ε) : Prop :=
  system.target ≤ system.handled.length ∨ (system.evs.length : Int) = system.evsLenOrig ∨
    ∃ event, system.events[system.handled.length]? = some event ∧ dispatch.isMcdi event ∧
      system.evs ≠ []

def Located (dispatch : Dispatch σ ε) (system : EventSystem σ ε) : Prop :=
  match system.pc with
  | .idle => system.Complete dispatch ∧ system.returned = system.outputs
  | .reading site got => system.Knows site ∧ 0 < system.evsLen ∧
      system.returned ++ system.evs = system.outputs ∧
      ∀ half value, got half = some value → system.Reads half value site

structure Kept (shape : EvqShape) (system : EventSystem σ ε) : Prop extends
    system.Tracks shape where
  target : ∀ half, system.target ≤ system.written half
  count : system.evsLenOrig = system.evsLen + system.evs.length
  evqGap : system.evqGap = 0
  answers : .oflow ∉ system.answers

structure Sound (shape : EvqShape) (dispatch : Dispatch σ ε) (system : EventSystem σ ε) :
    Prop extends system.Kept shape where
  located : system.Located dispatch

section Steps

variable {shape : EvqShape} {dispatch : Dispatch σ ε} {system : EventSystem σ ε}

theorem reset_sound (shape : EvqShape) (dispatch : Dispatch σ ε) (vi : σ) :
    (reset vi).Sound shape dispatch where
  evqPtr := rfl
  shows := fun _ _ _ => (if_neg (Nat.not_lt_zero _)).symm
  behind := fun _ => Nat.le_refl 0
  ahead := fun _ => by
    have hroomy := shape.roomy
    change 0 < 0 + (2 ^ shape.bits.val - shape.stride)
    omega
  made := fun _ => Nat.le_refl 0
  wellFormed := fun _ h => absurd h List.not_mem_nil
  handled := List.nil_prefix
  target := fun _ => Nat.le_refl 0
  count := rfl
  evqGap := rfl
  answers := List.not_mem_nil
  located := ⟨.inl (Nat.le_refl 0), rfl⟩

theorem cell_of_lt {half : Half} {position : Nat} (h : position < system.written half) :
    system.cell half position = half.of (system.events.getD position 0) := if_pos h

theorem cell_of_le {half : Half} {position : Nat} (h : system.written half ≤ position) :
    system.cell half position = blank := if_neg (Nat.not_lt_of_le h)

theorem Tracks.cell_ne_blank (h : system.Tracks shape) {half : Half} {position : Nat}
    (hwritten : position < system.written half) : system.cell half position ≠ blank := by
  have hlength : position < system.events.length := Nat.lt_of_lt_of_le hwritten (h.made half)
  rw [cell_of_lt hwritten, List.getD_eq_getElem _ _ hlength]
  exact h.wellFormed _ (List.getElem_mem hlength) half

theorem Tracks.memory_ahead (h : system.Tracks shape) (half : Half) {distance : Nat}
    (hdistance : distance < 2) :
    system.memory half (shape.eventOffset system.evqPtr distance) =
      system.cell half (system.handled.length + distance) := by
  have hroomy := shape.roomy
  rw [h.evqPtr, shape.eventOffset_ahead _ _ (by omega)]
  apply (h.shows half).read (Nat.le_add_right _ _)
  change _ < _ + (2 ^ shape.bits.val - shape.stride)
  omega

theorem Tracks.memory_overflow (h : system.Tracks shape) (half : Half) :
    system.memory half (shape.eventOffset system.evqPtr (shape.clearStride - 1)) = blank := by
  have hroomy := shape.roomy
  have hsize : shape.size = 2 ^ shape.bits.val := rfl
  have hahead := h.ahead half
  have hindex : shape.clearStride - 1 = -((shape.stride + 1 : Nat) : Int) := by
    rw [EvqShape.clearStride]
    omega
  rw [h.evqPtr, hindex, shape.eventOffset_behind _ (by omega),
    (h.shows half).read (Nat.le_add_right _ _) (by omega)]
  exact cell_of_le (by omega)

theorem Tracks.reads (h : system.Tracks shape)
    (htarget : ∀ half, system.target ≤ system.written half) {site : Site}
    (hknows : system.Knows site) (half : Half) :
    system.Reads half (system.memory half (shape.eventOffset system.evqPtr (site.index shape)))
      site := by
  have hhere : system.memory half (shape.eventOffset system.evqPtr 0) =
      system.cell half system.handled.length := h.memory_ahead half Nat.zero_lt_two
  have hlt_of_ne {position : Nat} (hne : system.cell half position ≠ blank) :
      position < system.written half := by
    by_contra hle
    exact hne (cell_of_le (Nat.le_of_not_lt hle))
  have hcurrent : system.Current half (system.memory half (shape.eventOffset system.evqPtr 0)) := by
    rw [hhere]
    exact ⟨fun hlt => h.cell_ne_blank (Nat.lt_of_lt_of_le hlt (htarget half)), hlt_of_ne,
      fun hne => cell_of_lt (hlt_of_ne hne)⟩
  cases site with
  | overflow => exact h.memory_overflow half
  | first => exact hcurrent
  | next => exact hcurrent
  | probe =>
      intro hne
      apply hlt_of_ne
      rwa [← h.memory_ahead half Nat.one_lt_two]
  | recheck =>
      change system.memory half (shape.eventOffset system.evqPtr 0) ≠ blank
      rw [hhere]
      exact h.cell_ne_blank (Nat.lt_of_succ_lt (hknows.2.2 half))

structure Onward (system next : EventSystem σ ε) : Prop where
  pc : next.pc = system.pc
  handled : next.handled = system.handled
  target : next.target = system.target
  evs : next.evs = system.evs
  evsLen : next.evsLen = system.evsLen
  evsLenOrig : next.evsLenOrig = system.evsLenOrig
  answers : next.answers = system.answers
  outputs : next.outputs = system.outputs
  events : system.events <+: next.events
  written : ∀ half, system.written half ≤ next.written half

section Onward

variable {next : EventSystem σ ε}

theorem Current.onward {half : Half} {value : BitVec 32} (h : system.Current half value)
    (hmade : ∀ half, system.written half ≤ system.events.length) (honward : system.Onward next) :
    next.Current half value := by
  obtain ⟨more, hmore⟩ := honward.events
  refine ⟨fun hlt => ?_, fun hne => ?_, fun hne => ?_⟩
  · rw [honward.handled, honward.target] at hlt
    exact h.complete hlt
  · rw [honward.handled]
    exact Nat.lt_of_lt_of_le (h.written hne) (honward.written half)
  · have hlt := Nat.lt_of_lt_of_le (h.written hne) (hmade half)
    rw [← hmore, honward.handled, List.getD_append _ _ _ _ hlt]
    exact h.event hne

theorem Complete.onward (h : system.Complete dispatch) (honward : system.Onward next) :
    next.Complete dispatch := by
  rw [Complete, honward.handled, honward.target, honward.evs, honward.evsLenOrig]
  obtain htarget | hfull | ⟨event, hevent, hrest⟩ := h
  · exact .inl htarget
  · exact .inr (.inl hfull)
  · obtain ⟨more, hmore⟩ := honward.events
    have hlt := (List.getElem?_eq_some_iff.mp hevent).1
    refine .inr (.inr ⟨event, ?_, hrest⟩)
    rw [← hmore, List.getElem?_append_left hlt, hevent]

theorem Located.onward (h : system.Located dispatch)
    (hmade : ∀ half, system.written half ≤ system.events.length) (honward : system.Onward next) :
    next.Located dispatch := by
  unfold Located at h ⊢
  rw [honward.pc]
  cases hpc : system.pc with
  | idle =>
      rw [hpc] at h
      rw [returned, honward.answers, honward.outputs]
      exact ⟨h.1.onward honward, h.2⟩
  | reading site got =>
      rw [hpc] at h
      have hlater {half : Half} {position : Nat} (hlt : position < system.written half) :
          position < next.written half := Nat.lt_of_lt_of_le hlt (honward.written half)
      rw [returned, honward.answers, honward.outputs, honward.evs]
      refine ⟨?_, honward.evsLen ▸ h.2.1, h.2.2.1, fun half value hgot => ?_⟩
      · have hknows := h.1
        cases site <;>
          simp only [Knows, honward.evs, honward.handled, honward.target] at hknows ⊢
        case recheck => exact ⟨hknows.1, hknows.2.1, fun half => hlater (hknows.2.2 half)⟩
        all_goals exact hknows
      · have hreads := h.2.2.2 half value hgot
        cases site with
        | overflow => exact hreads
        | first => exact Current.onward hreads hmade honward
        | next => exact Current.onward hreads hmade honward
        | probe =>
            intro hne
            rw [honward.handled]
            exact hlater (hreads hne)
        | recheck => exact hreads

end Onward

theorem Tracks.raise (h : system.Tracks shape) {event : BitVec 64} (hevent : WellFormed event) :
    Tracks shape { system with events := system.events ++ [event] } where
  evqPtr := h.evqPtr
  shows := fun half => by
    have hcell : (fun position => cell { system with events := system.events ++ [event] } half
        position) = system.cell half := by
      funext position
      unfold cell
      split
      · rename_i hlt
        rw [List.getD_append _ _ _ _ (Nat.lt_of_lt_of_le hlt (h.made half))]
      · rfl
    change shape.layout.Shows _ (fun position => cell _ half position) _ _
    rw [hcell]
    exact h.shows half
  behind := h.behind
  ahead := h.ahead
  made := fun half => Nat.le_trans (h.made half) (by simp)
  wellFormed := by
    rw [List.forall_mem_append, List.forall_mem_singleton]
    exact ⟨h.wellFormed, hevent⟩
  handled := h.handled.trans (List.prefix_append _ _)

theorem Tracks.write (h : system.Tracks shape) {half : Half} {event : BitVec 64}
    (hevent : system.events[system.written half]? = some event)
    (hroom : (system.written half : Int) ≤ system.handled.length + shape.capacity) :
    (system.write shape half event).Tracks shape := by
  have hsize : shape.size = 2 ^ shape.bits.val := rfl
  have hroomy := shape.roomy
  have hlt := (List.getElem?_eq_some_iff.mp hevent).1
  have hbehind := h.behind half
  rw [shape.capacity_eq] at hroom
  have hbound (other : Half) : Function.update system.written half (system.written half + 1) other <
      system.handled.length + (shape.size - shape.stride) := by
    have hahead := h.ahead other
    rw [Function.update_apply]
    split
    · omega
    · exact hahead
  refine ⟨h.evqPtr, fun other => ?_, fun other => ?_, hbound, fun other => ?_, h.wellFormed,
    h.handled⟩
  · by_cases hsame : other = half
    · rw [hsame]
      have hcell : (system.write shape half event).cell half (system.written half) =
          half.of event := by
        rw [cell_of_lt (by simp [EventSystem.write])]
        change half.of (system.events.getD (system.written half) 0) = _
        rw [List.getD_eq_getElem?_getD, hevent]
        rfl
      have hother (position : Nat) (hne : position ≠ system.written half) :
          (system.write shape half event).cell half position = system.cell half position := by
        unfold cell EventSystem.write
        simp only [Function.update_self]
        split <;> split <;> first | rfl | omega
      have hshows := (h.shows half).write (by omega) (h.behind half) (by omega) hother
      rw [hcell] at hshows
      simpa [EventSystem.write] using hshows
    · have hcell : (system.write shape half event).cell other = system.cell other := by
        funext position
        simp [cell, EventSystem.write, Function.update_of_ne hsame]
      rw [hcell]
      simpa [EventSystem.write, Function.update_of_ne hsame] using h.shows other
  · have hother := h.behind other
    simp only [EventSystem.write, Function.update_apply]
    split
    · omega
    · exact hother
  · have hother := h.made other
    simp only [EventSystem.write, Function.update_apply]
    split
    · omega
    · exact hother

theorem Tracks.consume (h : system.Tracks shape) {event : BitVec 64} (result : σ × Option ε)
    (hwritten : ∀ half, system.handled.length < system.written half)
    (hevent : system.events[system.handled.length]? = some event) :
    (system.consume shape event result).Tracks shape := by
  have hroomy := shape.roomy
  have hsize : shape.size = 2 ^ shape.bits.val := rfl
  have hlength : (system.handled ++ [event]).length = system.handled.length + 1 := by simp
  refine ⟨?_, fun half => ?_, fun half => ?_, fun half => ?_, h.made, h.wellFormed, ?_⟩
  · change system.evqPtr + 8 = UInt32.ofNat (8 * (system.handled ++ [event]).length)
    rw [hlength, h.evqPtr, Nat.mul_add, UInt32.ofNat_add]
    rfl
  · have hadvance := (h.shows half).advance (Nat.sub_le _ _)
    rw [cell_of_le (h.ahead half).le] at hadvance
    change shape.layout.Shows (Function.update _ (shape.eventOffset _ (-shape.stride)) _)
      (system.cell half) (system.handled ++ [event]).length _
    rw [hlength, h.evqPtr, shape.eventOffset_behind _ (by omega)]
    exact hadvance
  · change (system.handled ++ [event]).length ≤ _
    rw [hlength]
    exact hwritten half
  · change _ < (system.handled ++ [event]).length + _
    have hahead := h.ahead half
    rw [hlength]
    exact Nat.lt_of_lt_of_le hahead (by omega)
  · obtain ⟨more, hmore⟩ := h.handled
    change system.handled ++ [event] <+: system.events
    rw [← hmore] at hevent ⊢
    rw [List.getElem?_append_right (Nat.le_refl _), Nat.sub_self] at hevent
    cases more with
    | nil => contradiction
    | cons first rest =>
        cases hevent
        exact ⟨rest, by simp⟩

theorem Kept.read (h : system.Kept shape) {site : Site} (hknows : system.Knows site)
    (hroom : 0 < system.evsLen) (houtputs : system.returned ++ system.evs = system.outputs) :
    (system.read site).Sound shape dispatch := by
  refine ⟨⟨⟨h.evqPtr, h.shows, h.behind, h.ahead, h.made, h.wellFormed, h.handled⟩, h.target,
    h.count, h.evqGap, h.answers⟩, ?_, hroom, houtputs, fun half value hgot => ?_⟩
  · cases site <;> exact hknows
  · contradiction

theorem Kept.leave (h : system.Kept shape) (hcomplete : system.Complete dispatch)
    {evs : List ε} (houtputs : system.returned ++ evs = system.outputs) :
    (system.leave (.events evs)).Sound shape dispatch := by
  refine ⟨⟨⟨h.evqPtr, h.shows, h.behind, h.ahead, h.made, h.wellFormed, h.handled⟩, h.target,
    h.count, h.evqGap, fun hmem => ?_⟩, hcomplete, ?_⟩
  · cases List.mem_append.mp hmem with
    | inl hold => exact h.answers hold
    | inr hnew => cases List.mem_singleton.mp hnew
  · change (system.answers ++ [Answer.events evs]).flatMap Answer.evs = system.outputs
    rw [List.flatMap_append, List.flatMap_singleton]
    exact houtputs

theorem Kept.consume (h : system.Kept shape) {event : BitVec 64} (result : σ × Option ε)
    (hwritten : ∀ half, system.handled.length < system.written half)
    (hevent : system.events[system.handled.length]? = some event) :
    (system.consume shape event result).Kept shape where
  toTracks := h.toTracks.consume result hwritten hevent
  target := h.target
  count := by
    have hcount := h.count
    simp only [EventSystem.consume, List.length_append, Nat.cast_add]
    omega
  evqGap := h.evqGap
  answers := h.answers

theorem Kept.next_event (h : system.Kept shape) {lo hi : BitVec 32}
    (hlo : system.Current .lo lo) (hhi : system.Current .hi hi) (hevent : isEvent lo hi = true) :
    (∀ half, system.handled.length < system.written half) ∧
      system.events[system.handled.length]? = some (hi ++ lo) := by
  have hne := (isEvent_iff lo hi).mp hevent
  have hwritten : ∀ half, system.handled.length < system.written half := by
    intro half
    cases half with
    | lo => exact hlo.written hne.1
    | hi => exact hhi.written hne.2
  have hlength := Nat.lt_of_lt_of_le (hwritten .lo) (h.made .lo)
  refine ⟨hwritten, ?_⟩
  rw [hlo.event hne.1, hhi.event hne.2, append_halves, List.getD_eq_getElem _ _ hlength]
  exact List.getElem?_eq_getElem hlength

theorem Kept.body (h : system.Kept shape) (hroom : 0 < system.evsLen) {event : BitVec 64}
    (houtputs : system.returned ++ system.evs = system.outputs)
    (hwritten : ∀ half, system.handled.length < system.written half)
    (hevent : system.events[system.handled.length]? = some event) :
    (system.body shape dispatch event).Sound shape dispatch := by
  unfold EventSystem.body
  split
  · rename_i hwait
    refine h.leave (.inr (.inr ⟨event, hevent, hwait.1, fun hnil => hwait.2 ?_⟩)) houtputs
    rw [h.count, hnil]
    simp
  · have hnext := h.consume (dispatch.handle system.vi event) hwritten hevent
    have hlength : (dispatch.handle system.vi event).2.toList.length ≤ 1 := by
      cases (dispatch.handle system.vi event).2 <;> simp
    have hmore : (system.consume shape event (dispatch.handle system.vi event)).returned ++
          (system.consume shape event (dispatch.handle system.vi event)).evs =
        (system.consume shape event (dispatch.handle system.vi event)).outputs := by
      change system.returned ++ (system.evs ++ _) = system.outputs ++ _
      rw [← List.append_assoc, houtputs]
    simp only
    split
    · rename_i hfull
      apply hnext.leave _ hmore
      right
      left
      rw [hnext.count, hfull, Int.zero_add]
    · rename_i hleft
      have hknows : (system.consume shape event (dispatch.handle system.vi event)).Knows .next :=
        trivial
      apply hnext.read hknows _ hmore
      simp only [EventSystem.consume] at hleft ⊢
      omega

theorem target_le_of_not_event {lo hi : BitVec 32} (hlo : system.Current .lo lo)
    (hhi : system.Current .hi hi) (hevent : isEvent lo hi = false) :
    system.target ≤ system.handled.length := by
  by_contra hlt
  have hmore := Nat.lt_of_not_le hlt
  have htrue := (isEvent_iff lo hi).mpr ⟨hlo.complete hmore, hhi.complete hmore⟩
  rw [hevent] at htrue
  contradiction

theorem Sound.act (h : system.Sound shape dispatch) {site : Site}
    {got : Half → Option (BitVec 32)} (hpc : system.pc = .reading site got) {lo hi : BitVec 32}
    (hlo : got .lo = some lo) (hhi : got .hi = some hi) :
    (system.act shape dispatch site lo hi).Sound shape dispatch := by
  have hlocated := h.located
  rw [Located, hpc] at hlocated
  have hknows := hlocated.1
  have hroom := hlocated.2.1
  have houtputs := hlocated.2.2.1
  have hreadLo := hlocated.2.2.2 .lo lo hlo
  have hreadHi := hlocated.2.2.2 .hi hi hhi
  have hkept := h.toKept
  cases hevent : isEvent lo hi with
  | true =>
      have hne := (isEvent_iff lo hi).mp hevent
      cases site <;> simp only [EventSystem.act, hevent]
      case overflow => exact absurd hreadLo hne.1
      case first =>
          have hnext := hkept.next_event hreadLo hreadHi hevent
          exact hkept.body hroom houtputs hnext.1 hnext.2
      case next =>
          have hnext := hkept.next_event hreadLo hreadHi hevent
          exact hkept.body hroom houtputs hnext.1 hnext.2
      case probe =>
          refine hkept.read ⟨hknows.1, hknows.2, fun half => ?_⟩ hroom houtputs
          cases half with
          | lo => exact hreadLo hne.1
          | hi => exact hreadHi hne.2
      case recheck => exact hkept.leave (.inl hknows.2.1) (hknows.1 ▸ houtputs)
  | false =>
      cases site <;> simp only [EventSystem.act, hevent]
      case overflow => exact hkept.read hknows hroom houtputs
      case first =>
          exact hkept.read ⟨hknows, target_le_of_not_event hreadLo hreadHi hevent⟩ hroom houtputs
      case next =>
          exact hkept.leave (.inl (target_le_of_not_event hreadLo hreadHi hevent)) houtputs
      case probe => exact hkept.leave (.inl hknows.2) (hknows.1 ▸ houtputs)
      case recheck =>
          have htrue := (isEvent_iff lo hi).mpr ⟨hreadLo, hreadHi⟩
          rw [hevent] at htrue
          contradiction

theorem Sound.load (h : system.Sound shape dispatch) {site : Site}
    {got : Half → Option (BitVec 32)} (hpc : system.pc = .reading site got) (half : Half) :
    (system.load shape site got half).Sound shape dispatch := by
  have hlocated := h.located
  rw [Located, hpc] at hlocated
  refine ⟨⟨⟨h.evqPtr, h.shows, h.behind, h.ahead, h.made, h.wellFormed, h.handled⟩, h.target,
    h.count, h.evqGap, h.answers⟩, ?_, hlocated.2.1, hlocated.2.2.1, fun other value hgot => ?_⟩
  · have hknows := hlocated.1
    cases site <;> exact hknows
  · have hreads : system.Reads other value site := by
      by_cases hsame : other = half
      · rw [hsame, Function.update_self] at hgot
        rw [hsame, ← Option.some.inj hgot]
        exact h.toTracks.reads h.target hlocated.1 half
      · rw [Function.update_of_ne hsame] at hgot
        exact hlocated.2.2.2 other value hgot
    cases site with
    | first => exact ⟨hreads.complete, hreads.written, hreads.event⟩
    | next => exact ⟨hreads.complete, hreads.written, hreads.event⟩
    | _ => exact hreads

theorem Sound.call (h : system.Sound shape dispatch) (hpc : system.pc = .idle) {evsLen : Int}
    (hroom : 0 < evsLen) : (system.call evsLen).Sound shape dispatch := by
  have hlocated := h.located
  rw [Located, hpc] at hlocated
  refine ⟨⟨⟨h.evqPtr, h.shows, h.behind, h.ahead, h.made, h.wellFormed, h.handled⟩,
    fun half => ?_, ?_, h.evqGap, h.answers⟩, rfl, hroom, ?_, fun half value hgot => ?_⟩
  · cases half with
    | lo => exact Nat.min_le_left _ _
    | hi => exact Nat.min_le_right _ _
  · exact (Int.add_zero evsLen).symm
  · exact (List.append_nil _).trans hlocated.2
  · contradiction

/-- All that a step of the poll can do to software: nothing, or the next event of the adapter
is given to its handler. -/
inductive Effect (dispatch : Dispatch σ ε) (system next : EventSystem σ ε) : Prop
  | still (events : next.events = system.events) (vi : next.vi = system.vi)
      (handled : next.handled = system.handled) (outputs : next.outputs = system.outputs)
  | handle (event : BitVec 64) (head : system.events[system.handled.length]? = some event)
      (events : next.events = system.events)
      (vi : next.vi = (dispatch.handle system.vi event).1)
      (handled : next.handled = system.handled ++ [event])
      (outputs : next.outputs =
        system.outputs ++ (dispatch.handle system.vi event).2.toList)

theorem body_effect {event : BitVec 64}
    (hevent : system.events[system.handled.length]? = some event) :
    Effect dispatch system (system.body shape dispatch event) := by
  unfold EventSystem.body
  split
  · exact .still rfl rfl rfl rfl
  · simp only
    split <;> exact .handle event hevent rfl rfl rfl rfl

theorem Sound.act_effect (h : system.Sound shape dispatch) {site : Site}
    {got : Half → Option (BitVec 32)} (hpc : system.pc = .reading site got) {lo hi : BitVec 32}
    (hlo : got .lo = some lo) (hhi : got .hi = some hi) :
    Effect dispatch system (system.act shape dispatch site lo hi) := by
  have hlocated := h.located
  rw [Located, hpc] at hlocated
  have hreadLo := hlocated.2.2.2 .lo lo hlo
  have hreadHi := hlocated.2.2.2 .hi hi hhi
  cases hevent : isEvent lo hi with
  | true =>
      cases site <;> simp only [EventSystem.act, hevent]
      case first => exact body_effect (h.toKept.next_event hreadLo hreadHi hevent).2
      case next => exact body_effect (h.toKept.next_event hreadLo hreadHi hevent).2
      all_goals exact .still rfl rfl rfl rfl
  | false =>
      cases site <;> simp only [EventSystem.act, hevent] <;> exact .still rfl rfl rfl rfl

def Inner : EventInput σ → Prop
  | .raise _ => False
  | .client _ => False
  | _ => True

instance (input : EventInput σ) : Decidable (Inner input) :=
  match input with
  | .raise _ => isFalse id
  | .client _ => isFalse id
  | .write _ => isTrue trivial
  | .call _ => isTrue trivial
  | .load _ => isTrue trivial
  | .act => isTrue trivial

theorem Sound.effect (h : system.Sound shape dispatch) {input : EventInput σ}
    (hinner : Inner input) : Effect dispatch system (system.step shape dispatch input) := by
  cases input with
  | raise event => exact hinner.elim
  | client change => exact hinner.elim
  | write half =>
      rw [EventSystem.step]
      split <;> exact .still rfl rfl rfl rfl
  | call evsLen =>
      rw [EventSystem.step]
      split <;> exact .still rfl rfl rfl rfl
  | load half =>
      rw [EventSystem.step]
      split
      · exact .still rfl rfl rfl rfl
      · split <;> exact .still rfl rfl rfl rfl
  | act =>
      rw [EventSystem.step]
      split
      · exact .still rfl rfl rfl rfl
      · rename_i hpc
        split
        · rename_i hlo hhi
          exact h.act_effect hpc hlo hhi
        · exact .still rfl rfl rfl rfl

theorem Sound.step (h : system.Sound shape dispatch) {input : EventInput σ}
    (hlawful : system.Lawful shape input) :
    (system.step shape dispatch input).Sound shape dispatch := by
  cases input with
  | raise event =>
      refine ⟨⟨h.toTracks.raise hlawful, h.target, h.count, h.evqGap, h.answers⟩, ?_⟩
      exact h.located.onward h.made
        ⟨rfl, rfl, rfl, rfl, rfl, rfl, rfl, rfl, List.prefix_append _ _, fun _ => Nat.le_refl _⟩
  | write half =>
      rw [EventSystem.step]
      cases hevent : system.events[system.written half]? with
      | none => exact h
      | some event =>
          have hgrows (other : Half) :
              system.written other ≤ (system.write shape half event).written other := by
            simp only [EventSystem.write, Function.update_apply]
            split
            · rename_i hsame
              rw [hsame]
              exact Nat.le_succ _
            · exact Nat.le_refl _
          refine ⟨⟨h.toTracks.write hevent hlawful, fun other => ?_, h.count, h.evqGap, h.answers⟩,
            ?_⟩
          · exact Nat.le_trans (h.target other) (hgrows other)
          · exact h.located.onward h.made
              ⟨rfl, rfl, rfl, rfl, rfl, rfl, rfl, rfl, List.prefix_refl _, hgrows⟩
  | call evsLen =>
      rw [EventSystem.step]
      split
      · rename_i hpc
        exact h.call hpc hlawful
      · exact h
  | load half =>
      rw [EventSystem.step]
      split
      · exact h
      · rename_i hpc
        split
        · exact h.load hpc half
        · exact h
  | act =>
      rw [EventSystem.step]
      split
      · exact h
      · rename_i hpc
        split
        · rename_i hlo hhi
          exact h.act hpc hlo hhi
        · exact h
  | client change =>
      rw [EventSystem.step]
      split
      · rename_i hpc
        have hlocated := h.located
        rw [Located, hpc] at hlocated
        refine ⟨⟨⟨h.evqPtr, h.shows, h.behind, h.ahead, h.made, h.wellFormed, h.handled⟩,
          h.target, h.count, h.evqGap, h.answers⟩, ?_⟩
        rw [Located, hpc]
        exact hlocated
      · exact h

end Steps

theorem run_sound {shape : EvqShape} {dispatch : Dispatch σ ε} {inputs : List (EventInput σ)}
    {system : EventSystem σ ε} (h : system.Sound shape dispatch)
    (hlawful : ∀ move ∈ Run.moves (step shape dispatch) system inputs,
      move.1.Lawful shape move.2) :
    (Run.final (step shape dispatch) system inputs).Sound shape dispatch := by
  induction inputs generalizing system with
  | nil => exact h
  | cons input rest ih =>
      rw [Run.moves, List.forall_mem_cons] at hlawful
      exact ih (h.step hlawful.1) hlawful.2

end EventSystem

section Delivery

open EventSystem

variable {σ ε : Type} {shape : EvqShape} {dispatch : Dispatch σ ε} {vi : σ}

/-- While no more than `ef_eventq_capacity` events and one wait in the ring, the poll gives
every event to its handler once, whole and in order, however its loads fall between the
writes of the adapter. It skips no slot, reports no overflow, and does not return before
the events that were complete when it was called, unless its caller has no room for them or
an MCDI event has to wait. Whatever a handler makes of an event reaches a caller. -/
theorem eventq_delivers {inputs : List (EventInput σ)}
    (hlawful : LawfulRun shape dispatch vi inputs) :
    (after shape dispatch vi inputs).handled <+: (after shape dispatch vi inputs).events ∧
      (after shape dispatch vi inputs).evqGap = 0 ∧
      .oflow ∉ (after shape dispatch vi inputs).answers ∧
      ((after shape dispatch vi inputs).pc = .idle →
        (after shape dispatch vi inputs).Complete dispatch ∧
          (after shape dispatch vi inputs).returned =
            (after shape dispatch vi inputs).outputs) := by
  have h : (after shape dispatch vi inputs).Sound shape dispatch :=
    run_sound (reset_sound shape dispatch vi) hlawful
  refine ⟨h.handled, h.evqGap, h.answers, fun hpc => ?_⟩
  have hlocated := h.located
  rwa [Located, hpc] at hlocated

def verbatim : Dispatch Unit (BitVec 64) := ⟨fun _ => false, fun _ event => ((), some event)⟩

def tornRun : List (EventInput Unit) :=
  [.raise 5, .raise 6, .write .hi, .write .hi, .write .lo, .call 2, .load .hi, .load .lo, .act,
    .load .lo, .load .hi, .act, .load .lo, .write .lo, .load .hi, .act]

theorem eventq_delivers_tornRun :
    (after ⟨2, 1, by decide⟩ verbatim () tornRun).answers = [.events [5]] ∧
      (after ⟨2, 1, by decide⟩ verbatim () tornRun).evqGap = 0 :=
  ⟨by decide, (eventq_delivers (by decide)).2.1⟩

end Delivery

end VirtualSfc.Efvi
