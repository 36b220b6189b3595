import VirtualSfc.Efvi.EventPoll

/-! Overflow of the event ring. A poll first looks at the slot before those it has not
cleared yet. Nobody but the poll clears slots, so a ring that was overrun stays so. -/
namespace VirtualSfc.Efvi
open Base

namespace EventSystem

def Adapter {σ : Type} : EventInput σ → Prop
  | .raise event => WellFormed event
  | .write _ => True
  | _ => False

def WellMade {σ : Type} : EventInput σ → Prop
  | .raise event => WellFormed event
  | _ => True

section Overflow

variable {σ ε : Type} {shape : EvqShape} {dispatch : Dispatch σ ε} {system : EventSystem σ ε}

structure Overrun (shape : EvqShape) (system : EventSystem σ ε) : Prop where
  full : ∀ half, system.memory half
    (shape.eventOffset system.evqPtr (shape.clearStride - 1)) ≠ blank
  wellFormed : ∀ event ∈ system.events, WellFormed event
  pc : ∀ site got, system.pc = .reading site got →
    site = .overflow ∧ ∀ half value, got half = some value → value ≠ blank

def Refused (system next : EventSystem σ ε) : Prop :=
  next.handled = system.handled ∧
    ∃ count, next.answers = system.answers ++ List.replicate count .oflow

theorem Refused.refl (system : EventSystem σ ε) : system.Refused system :=
  ⟨rfl, 0, (List.append_nil _).symm⟩

theorem Refused.trans {middle last : EventSystem σ ε} (hfirst : system.Refused middle)
    (hsecond : middle.Refused last) : system.Refused last := by
  obtain ⟨hhandled, count, hanswers⟩ := hfirst
  obtain ⟨hhandled', count', hanswers'⟩ := hsecond
  refine ⟨hhandled'.trans hhandled, count + count', ?_⟩
  rw [hanswers', hanswers, List.append_assoc, List.replicate_append_replicate]

theorem write_ne_blank {half other : Half} {event : BitVec 64} {offset : Nat}
    (hevent : WellFormed event) (hne : system.memory other offset ≠ blank) :
    (system.write shape half event).memory other offset ≠ blank := by
  simp only [EventSystem.write]
  by_cases hsame : other = half
  · rw [hsame] at hne ⊢
    rw [Function.update_self, Function.update_apply]
    split
    · exact hevent half
    · exact hne
  · rw [Function.update_of_ne hsame]
    exact hne

theorem Overrun.step (dispatch : Dispatch σ ε) (h : system.Overrun shape)
    {input : EventInput σ} (hmade : WellMade input) :
    (system.step shape dispatch input).Overrun shape ∧
      system.Refused (system.step shape dispatch input) := by
  cases input with
  | raise event =>
      refine ⟨⟨h.full, ?_, h.pc⟩, Refused.refl _⟩
      change ∀ made ∈ system.events ++ [event], WellFormed made
      rw [List.forall_mem_append, List.forall_mem_singleton]
      exact ⟨h.wellFormed, hmade⟩
  | write half =>
      rw [EventSystem.step]
      cases hevent : system.events[system.written half]? with
      | none => exact ⟨h, Refused.refl _⟩
      | some event =>
          have hwell := h.wellFormed event (List.mem_of_getElem? hevent)
          exact ⟨⟨fun other => write_ne_blank hwell (h.full other), h.wellFormed, h.pc⟩,
            Refused.refl _⟩
  | call evsLen =>
      rw [EventSystem.step]
      split
      · refine ⟨⟨h.full, h.wellFormed, fun site got hpc => ?_⟩, Refused.refl _⟩
        cases hpc
        exact ⟨rfl, fun half value hgot => by contradiction⟩
      · exact ⟨h, Refused.refl _⟩
  | load half =>
      rw [EventSystem.step]
      split
      · exact ⟨h, Refused.refl _⟩
      · rename_i site got hpc
        split
        · refine ⟨⟨h.full, h.wellFormed, fun site got hpc' => ?_⟩, Refused.refl _⟩
          cases hpc'
          obtain ⟨hsite, hgot⟩ := h.pc _ _ hpc
          refine ⟨hsite, fun other value hvalue => ?_⟩
          by_cases hsame : other = half
          · rw [hsame, Function.update_self, hsite] at hvalue
            rw [← Option.some.inj hvalue]
            exact h.full half
          · rw [Function.update_of_ne hsame] at hvalue
            exact hgot other value hvalue
        · exact ⟨h, Refused.refl _⟩
  | act =>
      rw [EventSystem.step]
      split
      · exact ⟨h, Refused.refl _⟩
      · rename_i hpc
        split
        · rename_i lo hi hlo hhi
          obtain ⟨hsite, hgot⟩ := h.pc _ _ hpc
          have hevent := (isEvent_iff lo hi).mpr ⟨hgot _ _ hlo, hgot _ _ hhi⟩
          simp only [EventSystem.act, hsite, hevent]
          refine ⟨⟨h.full, h.wellFormed, fun site got hpc' => ?_⟩, rfl, 1, rfl⟩
          cases hpc'
        · exact ⟨h, Refused.refl _⟩
  | client change =>
      rw [EventSystem.step]
      split
      · exact ⟨⟨h.full, h.wellFormed, h.pc⟩, Refused.refl _⟩
      · exact ⟨h, Refused.refl _⟩

theorem Overrun.run (dispatch : Dispatch σ ε) (h : system.Overrun shape)
    {inputs : List (EventInput σ)} (hmade : ∀ input ∈ inputs, WellMade input) :
    system.Refused (Run.final (EventSystem.step shape dispatch) system inputs) := by
  induction inputs generalizing system with
  | nil => exact Refused.refl _
  | cons input rest ih =>
      rw [List.forall_mem_cons] at hmade
      have hfirst := h.step dispatch hmade.1
      exact hfirst.2.trans (ih hfirst.1 hmade.2)

/-- Outside a poll the adapter fills the ring: once it has gone far enough, the slot that
the poll looks at first is in use, and remains so if the adapter goes round again. -/
structure Filling (shape : EvqShape) (system : EventSystem σ ε) : Prop where
  evqPtr : system.evqPtr = UInt32.ofNat (8 * system.handled.length)
  pc : system.pc = .idle
  wellFormed : ∀ event ∈ system.events, WellFormed event
  full : ∀ half, system.handled.length + (shape.size - shape.stride) ≤ system.written half →
    system.memory half (shape.layout.place
      (system.handled.length + (shape.size - (shape.stride + 1)))) ≠ blank

theorem Filling.step (dispatch : Dispatch σ ε) (h : system.Filling shape)
    {input : EventInput σ} (hinput : Adapter input) :
    (system.step shape dispatch input).Filling shape ∧
      system.Refused (system.step shape dispatch input) := by
  have hroomy := shape.roomy
  have hsize : shape.size = 2 ^ shape.bits.val := rfl
  cases input with
  | raise event =>
      refine ⟨⟨h.evqPtr, h.pc, ?_, h.full⟩, Refused.refl _⟩
      change ∀ made ∈ system.events ++ [event], WellFormed made
      rw [List.forall_mem_append, List.forall_mem_singleton]
      exact ⟨h.wellFormed, hinput⟩
  | write half =>
      rw [EventSystem.step]
      cases hevent : system.events[system.written half]? with
      | none => exact ⟨h, Refused.refl _⟩
      | some event =>
          have hwell := h.wellFormed event (List.mem_of_getElem? hevent)
          refine ⟨⟨h.evqPtr, h.pc, h.wellFormed, fun other hother => ?_⟩, Refused.refl _⟩
          by_cases hbefore :
              system.handled.length + (shape.size - shape.stride) ≤ system.written other
          · exact write_ne_blank hwell (h.full other hbefore)
          · have hsame : other = half := by
              by_contra hne
              simp only [EventSystem.write, Function.update_of_ne hne] at hother
              exact hbefore hother
            rw [hsame] at hother hbefore ⊢
            simp only [EventSystem.write, Function.update_self] at hother ⊢
            have hlast : system.written half =
                system.handled.length + (shape.size - (shape.stride + 1)) := by omega
            rw [← hlast, Function.update_self]
            exact hwell half
  | call evsLen => exact absurd hinput id
  | load half => exact absurd hinput id
  | act => exact absurd hinput id
  | client change => exact absurd hinput id

theorem Filling.run (dispatch : Dispatch σ ε) (h : system.Filling shape)
    {inputs : List (EventInput σ)} (hinputs : ∀ input ∈ inputs, Adapter input) :
    (Run.final (EventSystem.step shape dispatch) system inputs).Filling shape ∧
      system.Refused (Run.final (EventSystem.step shape dispatch) system inputs) := by
  induction inputs generalizing system with
  | nil => exact ⟨h, Refused.refl _⟩
  | cons input rest ih =>
      rw [List.forall_mem_cons] at hinputs
      have hfirst := h.step dispatch hinputs.1
      have hrest := ih hfirst.1 hinputs.2
      exact ⟨hrest.1, hfirst.2.trans hrest.2⟩

theorem Sound.filling (h : system.Sound shape dispatch) (hpc : system.pc = .idle) :
    system.Filling shape := by
  refine ⟨h.evqPtr, hpc, h.wellFormed, fun half hfull => ?_⟩
  exact absurd (h.ahead half) (Nat.not_lt_of_le hfull)

theorem Filling.overrun (h : system.Filling shape)
    (hfull : ∀ half, (system.handled.length : Int) + shape.capacity + 2 ≤ system.written half) :
    system.Overrun shape := by
  have hroomy := shape.roomy
  have hsize : shape.size = 2 ^ shape.bits.val := rfl
  have hindex : shape.clearStride - 1 = -((shape.stride + 1 : Nat) : Int) := by
    rw [EvqShape.clearStride]
    omega
  refine ⟨fun half => ?_, h.wellFormed, fun site got hpc => ?_⟩
  · have hhalf := hfull half
    rw [shape.capacity_eq] at hhalf
    rw [h.evqPtr, hindex, shape.eventOffset_behind _ (by omega)]
    exact h.full half (by omega)
  · rw [h.pc] at hpc
    contradiction

end Overflow

end EventSystem

section Overflow

open EventSystem

variable {σ ε : Type} {shape : EvqShape} {dispatch : Dispatch σ ε} {vi : σ}

/-- An overflow is for ever. If the adapter fills the ring between two polls with two events
more than `ef_eventq_capacity`, no later poll takes an event out of it, whatever the adapter
does: each of them reports the overflow only. -/
theorem eventq_overflow_permanent {before burst later : List (EventInput σ)}
    (hbefore : LawfulRun shape dispatch vi before)
    (hidle : (after shape dispatch vi before).pc = .idle)
    (hburst : ∀ input ∈ burst, Adapter input)
    (hfull : ∀ half, ((after shape dispatch vi (before ++ burst)).handled.length : Int) +
      shape.capacity + 2 ≤ (after shape dispatch vi (before ++ burst)).written half)
    (hlater : ∀ input ∈ later, WellMade input) :
    (after shape dispatch vi (before ++ burst ++ later)).handled =
        (after shape dispatch vi before).handled ∧
      ∃ count, (after shape dispatch vi (before ++ burst ++ later)).answers =
        (after shape dispatch vi before).answers ++ List.replicate count .oflow := by
  have hsound : (after shape dispatch vi before).Sound shape dispatch :=
    run_sound (reset_sound shape dispatch vi) hbefore
  have hfilled := (hsound.filling hidle).run dispatch hburst
  have hsplit : after shape dispatch vi (before ++ burst) =
      Run.final (step shape dispatch) (after shape dispatch vi before) burst := List.foldl_append
  have hsplit' : after shape dispatch vi (before ++ burst ++ later) =
      Run.final (step shape dispatch) (after shape dispatch vi (before ++ burst)) later :=
    List.foldl_append
  rw [← hsplit] at hfilled
  have hstuck := (hfilled.1.overrun hfull).run dispatch hlater
  rw [← hsplit'] at hstuck
  exact hfilled.2.trans hstuck

def fillingBurst : List (EventInput Unit) :=
  [.raise 5, .raise 6, .write .lo, .write .lo, .write .hi, .write .hi]

theorem fillingBurst_adapter : ∀ input ∈ fillingBurst, Adapter input := by
  simp only [fillingBurst, List.forall_mem_cons]
  exact ⟨(by decide : WellFormed 5), (by decide : WellFormed 6), trivial, trivial, trivial,
    trivial, by simp⟩

def twoPolls : List (EventInput Unit) :=
  [.call 1, .load .lo, .load .hi, .act, .call 1, .load .lo, .load .hi, .act]

theorem eventq_overflow_permanent_two_slots :
    let last := after ⟨1, 0, by decide⟩ verbatim () ([] ++ fillingBurst ++ twoPolls)
    last.handled = [] ∧ last.answers = [.oflow, .oflow] :=
  ⟨(eventq_overflow_permanent (by decide) rfl fillingBurst_adapter
    (by intro half; cases half <;> decide) (by simp [twoPolls, WellMade])).1, by decide⟩

end Overflow

end VirtualSfc.Efvi
