import Mathlib
import VirtualSfc.Efvi.WaitEvent

/-! `rx_wait`, which keeps the number of ids that it has not yet returned for
between its calls. It returns for a merged event when it reads it, and then once
more for each of the ids. -/
namespace VirtualSfc.Efvi.RxWait
open Base.Poll WaitEvent

structure Vars where
  reader : Reader EfEvent
  nRx : Nat

def Vars.start (evs : Nat → EfEvent) : Vars := ⟨idle evs, 0⟩

def merged (event : EfEvent) : Bool := event.type = .rxMulti ∨ event.type = .rxMultiDiscard

def unbundled (event : EfEvent) : Nat := if merged event then event.ids.length else 0

def rxWait (vars : Vars) (polls : List (List EfEvent)) : Option (Vars × List (List EfEvent)) :=
  if vars.nRx ≠ 0 then some ({ vars with nRx := vars.nRx - 1 }, polls)
  else
    match vars.reader.next arrives polls with
    | none => none
    | some (reader, polls) => some (⟨reader, unbundled reader.current⟩, polls)

def rxWaits : Nat → Vars → List (List EfEvent) → Option (Vars × List (List EfEvent))
  | 0, vars, polls => some (vars, polls)
  | calls + 1, vars, polls =>
      match rxWait vars polls with
      | none => none
      | some (vars, polls) => rxWaits calls vars polls

def due (event : EfEvent) : Nat := if event.type = .rx then 1 else unbundled event

def dues (events : List EfEvent) : Nat := (events.map due).sum

/-- After any number of calls, those made and those that the pending ids will take
are one for each packet of the events consumed. -/
def OncePerPacket (evs : Nat → EfEvent) (polls : List (List EfEvent)) : Prop :=
  ∀ calls vars rest, rxWaits calls (Vars.start evs) polls = some (vars, rest) →
    ∀ consumed, polls.flatten = consumed ++ (vars.reader.left ++ rest.flatten) →
      calls + vars.nRx = dues consumed

theorem rxWaits_drain (vars : Vars) (polls : List (List EfEvent)) :
    rxWaits vars.nRx vars polls = some ({ vars with nRx := 0 }, polls) := by
  rcases vars with ⟨reader, nRx⟩
  induction nRx with
  | zero => rfl
  | succ nRx ih =>
      rw [rxWaits, rxWait, if_pos (Nat.succ_ne_zero nRx)]
      exact ih

theorem rxWait_eq_some {vars after : Vars} {polls rest : List (List EfEvent)}
    (h : rxWait vars polls = some (after, rest)) :
    (vars.nRx = after.nRx + 1 ∧ after.reader = vars.reader ∧ rest = polls) ∨
      (vars.nRx = 0 ∧ vars.reader.next arrives polls = some (after.reader, rest) ∧
        after.nRx = unbundled after.reader.current) := by
  unfold rxWait at h
  split at h
  · rename_i hpending
    cases h
    exact Or.inl ⟨by simp only; omega, rfl, rfl⟩
  · rename_i hdrained
    split at h
    · contradiction
    · rename_i hnext
      cases h
      exact Or.inr ⟨by omega, hnext, rfl⟩

theorem rxWait_eq_none {vars : Vars} {polls : List (List EfEvent)}
    (h : rxWait vars polls = none) : vars.reader.next arrives polls = none := by
  unfold rxWait at h
  split at h
  · contradiction
  · split at h
    · assumption
    · contradiction

/-! The balance. -/

theorem passed_due {event : EfEvent} (h : arrives event = false) :
    due event = 0 ∧ merged event = false := by
  rcases event with ⟨type, rqId, ids⟩
  cases type <;> simp_all [arrives, due, unbundled, merged]

theorem arrived_due {event : EfEvent} (h : arrives event = true) :
    1 + unbundled event = due event + if merged event then 1 else 0 := by
  rcases event with ⟨type, rqId, ids⟩
  cases type <;> simp_all [arrives, due, unbundled, merged, Nat.add_comm]

theorem dues_passed {passed : List EfEvent} (h : ∀ event ∈ passed, arrives event = false) :
    dues passed = 0 ∧ passed.countP merged = 0 := by
  constructor
  · apply List.sum_eq_zero
    intro value hvalue
    obtain ⟨event, hevent, hdue⟩ := List.mem_map.mp hvalue
    rw [← hdue, (passed_due (h event hevent)).1]
  · rw [List.countP_eq_zero]
    intro event hevent
    simp [(passed_due (h event hevent)).2]

theorem rxWait_balance {vars after : Vars} {polls rest : List (List EfEvent)}
    (h : rxWait vars polls = some (after, rest)) :
    ∃ consumed, vars.reader.left ++ polls.flatten =
        consumed ++ (after.reader.left ++ rest.flatten) ∧
      1 + after.nRx = vars.nRx + dues consumed + consumed.countP merged := by
  rcases rxWait_eq_some h with ⟨hpending, hreader, hrest⟩ | ⟨hdrained, hnext, hpending⟩
  · refine ⟨[], by rw [hreader, hrest, List.nil_append], ?_⟩
    simp only [dues, List.map_nil, List.sum_nil, List.countP_nil]
    omega
  · have hreturned := next_eq_some hnext
    obtain ⟨passed, hpassed, hconsumed⟩ := hreturned.consumed
    refine ⟨passed ++ [after.reader.current], by simpa using hconsumed, ?_⟩
    have hzero := dues_passed hpassed
    have hdue := arrived_due hreturned.stopped
    simp only [dues, List.map_append, List.sum_append, List.map_singleton, List.sum_singleton,
      List.countP_append, List.countP_singleton] at hzero ⊢
    omega

theorem rxWaits_balance {calls : Nat} {vars after : Vars} {polls rest : List (List EfEvent)}
    (h : rxWaits calls vars polls = some (after, rest)) :
    ∃ consumed, vars.reader.left ++ polls.flatten =
        consumed ++ (after.reader.left ++ rest.flatten) ∧
      calls + after.nRx = vars.nRx + dues consumed + consumed.countP merged := by
  induction calls generalizing vars polls with
  | zero =>
      cases h
      exact ⟨[], rfl, by simp [dues]⟩
  | succ calls ih =>
      rw [rxWaits] at h
      split at h
      · contradiction
      · rename_i next polls' hnext
        obtain ⟨first, hfirst, hbalance⟩ := rxWait_balance hnext
        obtain ⟨others, hothers, hbalance'⟩ := ih h
        refine ⟨first ++ others, by rw [hfirst, hothers, List.append_assoc], ?_⟩
        simp only [dues, List.map_append, List.sum_append, List.countP_append] at *
        omega

theorem rxWaits_end (vars : Vars) (polls : List (List EfEvent)) :
    ∃ calls after rest, rxWaits calls vars polls = some (after, rest) ∧
      rxWait after rest = none := by
  cases hcall : rxWait vars polls with
  | none => exact ⟨0, vars, polls, rfl, hcall⟩
  | some next =>
      obtain ⟨calls, after, rest, hcalls, hend⟩ := rxWaits_end next.1 next.2
      exact ⟨calls + 1, after, rest, by rw [rxWaits, hcall]; exact hcalls, hend⟩
termination_by ((vars.reader.ahead arrives polls).length, vars.nRx)
decreasing_by
  rcases rxWait_eq_some hcall with ⟨hpending, hreader, hrest⟩ | ⟨_, hnext, _⟩
  · rw [hreader, hrest]
    exact Prod.Lex.right _ (by omega)
  · exact Prod.Lex.left _ _ (next_eq_some hnext).shorter

/-- `rx_wait` returns once per packet unless it meets a merged event. -/
theorem oncePerPacket_iff (evs : Nat → EfEvent) (polls : List (List EfEvent)) :
    OncePerPacket evs polls ↔ ∀ batch ∈ polls, ∀ event ∈ batch, merged event = false := by
  have hstart : (Vars.start evs).reader.left ++ polls.flatten = polls.flatten := rfl
  constructor
  · intro h
    obtain ⟨calls, vars, rest, hcalls, hend⟩ := rxWaits_end (Vars.start evs) polls
    obtain ⟨consumed, hconsumed, hbalance⟩ := rxWaits_balance hcalls
    rw [hstart] at hconsumed
    have honce := h calls vars rest hcalls consumed hconsumed
    have hnone : consumed.countP merged = 0 := by
      simp only [Vars.start] at hbalance
      omega
    intro batch hbatch event hevent
    have hmem : event ∈ polls.flatten := List.mem_flatten.mpr ⟨batch, hbatch, hevent⟩
    rw [hconsumed] at hmem
    rcases List.mem_append.mp hmem with hearly | hlate
    · simpa using List.countP_eq_zero.mp hnone event hearly
    · exact (passed_due (next_eq_none (rxWait_eq_none hend) event hlate)).2
  · intro h calls vars rest hcalls consumed hconsumed
    obtain ⟨consumed', hconsumed', hbalance⟩ := rxWaits_balance hcalls
    rw [hstart, hconsumed] at hconsumed'
    rw [← List.append_cancel_right hconsumed'] at hbalance
    have hnone : consumed.countP merged = 0 := by
      rw [List.countP_eq_zero]
      intro event hevent
      have hmem : event ∈ polls.flatten := by
        rw [hconsumed]
        exact List.mem_append_left _ hevent
      obtain ⟨batch, hbatch, hevent⟩ := List.mem_flatten.mp hmem
      simp [h batch hbatch event hevent]
    simp only [Vars.start] at hbalance
    omega

theorem rxWaits_merged :
    ∃ vars rest, rxWaits 2 (Vars.start fun _ => ⟨.other, 0, []⟩) [[⟨.rxMulti, 1, [3]⟩]] =
        some (vars, rest) ∧ vars.nRx = 0 ∧ vars.reader.left ++ rest.flatten = [] ∧
      dues [⟨.rxMulti, 1, [3]⟩] = 1 ∧
      ¬ OncePerPacket (fun _ => ⟨.other, 0, []⟩) [[⟨.rxMulti, 1, [3]⟩]] := by
  refine ⟨_, _, rfl, rfl, rfl, rfl, fun h => ?_⟩
  exact absurd (h 2 _ _ rfl [⟨.rxMulti, 1, [3]⟩] rfl) (by decide)

end VirtualSfc.Efvi.RxWait
