import VirtualSfc.Base.Ring

/-! Lists kept in ring memory. Positions count without bound; a layout says where a
position is kept, with a period, so that a write disturbs a list only if it hits a
position of the list. Producer and consumer of a ring are both described by the
lists that stand from their positions on. -/
namespace VirtualSfc.Base

universe u v

/-- The places of a ring: they repeat after `size` positions, and not before. -/
structure Layout (κ : Type u) (size : Nat) where
  place : Nat → κ
  periodic : ∀ position, place (position + size) = place position
  separated : ∀ position distance, 0 < distance → distance < size →
    place (position + distance) ≠ place position

namespace Layout

variable {κ : Type u} {α : Type v} {size : Nat}

def Stored (layout : Layout κ size) (memory : κ → α) : Nat → List α → Prop
  | _, [] => True
  | start, value :: rest =>
      memory (layout.place start) = value ∧ layout.Stored memory (start + 1) rest

variable {layout : Layout κ size} {memory : κ → α} {start : Nat}

theorem stored_append {first second : List α} :
    layout.Stored memory start (first ++ second) ↔
      layout.Stored memory start first ∧
        layout.Stored memory (start + first.length) second := by
  induction first generalizing start with
  | nil => simp [Stored]
  | cons value rest ih =>
      rw [List.cons_append, Stored, Stored, ih, List.length_cons, and_assoc,
        Nat.add_right_comm start 1, Nat.add_assoc]

theorem Stored.read {first rest : List α} {value : α}
    (h : layout.Stored memory start (first ++ value :: rest)) :
    memory (layout.place (start + first.length)) = value :=
  (stored_append.mp h).2.1

theorem Stored.update_of_ne [DecidableEq κ] {values : List α} {key : κ} {value : α}
    (h : layout.Stored memory start values)
    (hne : ∀ i < values.length, layout.place (start + i) ≠ key) :
    layout.Stored (Function.update memory key value) start values := by
  induction values generalizing start with
  | nil => trivial
  | cons first rest ih =>
      have hfirst : layout.place start ≠ key := hne 0 (Nat.zero_lt_succ _)
      refine ⟨?_, ih h.2 fun i hi => ?_⟩
      · rw [Function.update_of_ne hfirst]
        exact h.1
      · rw [Nat.add_right_comm, Nat.add_assoc]
        exact hne (i + 1) (Nat.succ_lt_succ hi)

theorem Stored.update_after [DecidableEq κ] {values : List α} {value : α} {distance : Nat}
    (h : layout.Stored memory start values) (hafter : values.length ≤ distance)
    (hsize : distance < size) :
    layout.Stored (Function.update memory (layout.place (start + distance)) value) start
      values := by
  apply h.update_of_ne
  intro i hi hsame
  apply layout.separated (start + i) (distance - i) (by omega) (by omega)
  rw [hsame]
  congr 1
  omega

theorem Stored.update_before [DecidableEq κ] {values : List α} {value : α} {distance : Nat}
    (h : layout.Stored memory (start + distance) values) (hbefore : 0 < distance)
    (hsize : distance + values.length ≤ size) :
    layout.Stored (Function.update memory (layout.place start) value) (start + distance)
      values := by
  apply h.update_of_ne
  intro i hi
  rw [Nat.add_assoc]
  exact layout.separated start (distance + i) (by omega) (by omega)

theorem Stored.push [DecidableEq κ] {values : List α} (value : α)
    (h : layout.Stored memory start values) (hsize : values.length < size) :
    layout.Stored (Function.update memory (layout.place (start + values.length)) value) start
      (values ++ [value]) :=
  stored_append.mpr
    ⟨h.update_after (Nat.le_refl _) hsize, Function.update_self .., trivial⟩

theorem Stored.set [DecidableEq κ] {first rest : List α} {value : α} (next : α)
    (h : layout.Stored memory start (first ++ value :: rest))
    (hsize : first.length + rest.length < size) :
    layout.Stored (Function.update memory (layout.place (start + first.length)) next) start
      (first ++ next :: rest) := by
  have hparts := stored_append.mp h
  refine stored_append.mpr ⟨?_, Function.update_self .., ?_⟩
  · exact hparts.1.update_after (Nat.le_refl _) (by omega)
  · exact hparts.2.2.update_before Nat.one_pos (by omega)

theorem Stored.rotate {values : List α} {value : α}
    (h : layout.Stored memory start (value :: values)) (hsize : values.length + 1 = size) :
    layout.Stored memory (start + 1) (values ++ [value]) := by
  refine stored_append.mpr ⟨h.2, ?_, trivial⟩
  rw [Nat.add_right_comm, Nat.add_assoc, hsize, layout.periodic]
  exact h.1

theorem Stored.overwrite [DecidableEq κ] {values : List α} {value : α} (next : α)
    (h : layout.Stored memory start (value :: values)) (hsize : values.length + 1 = size) :
    layout.Stored (Function.update memory (layout.place start) next) (start + 1)
      (values ++ [next]) := by
  apply Stored.rotate _ hsize
  refine ⟨Function.update_self .., ?_⟩
  exact h.2.update_before Nat.one_pos (by omega)

/-- The positions from `start` on, `span` of them, hold what `value` says. -/
def Shows (layout : Layout κ size) (memory : κ → α) (value : Nat → α) (start span : Nat) : Prop :=
  ∀ i < span, memory (layout.place (start + i)) = value (start + i)

theorem Shows.read {value : Nat → α} {span : Nat} (h : layout.Shows memory value start span)
    {position : Nat} (hstart : start ≤ position) (hspan : position < start + span) :
    memory (layout.place position) = value position := by
  have hread := h (position - start) (by omega)
  rwa [Nat.add_sub_cancel' hstart] at hread

theorem Shows.write [DecidableEq κ] {value next : Nat → α} {span position : Nat}
    (h : layout.Shows memory value start span) (hspan : span ≤ size) (hstart : start ≤ position)
    (hposition : position < start + span)
    (hother : ∀ other, other ≠ position → next other = value other) :
    layout.Shows (Function.update memory (layout.place position) (next position)) next start
      span := by
  intro i hi
  by_cases hsame : start + i = position
  · rw [hsame, Function.update_self]
  · have hplace : layout.place (start + i) ≠ layout.place position := by
      cases Nat.lt_or_gt_of_ne hsame with
      | inl hlt =>
          have h := layout.separated (start + i) (position - (start + i)) (by omega) (by omega)
          rw [Nat.add_sub_cancel' hlt.le] at h
          exact h.symm
      | inr hgt =>
          have h := layout.separated position (start + i - position) (by omega) (by omega)
          rwa [Nat.add_sub_cancel' hgt.le] at h
    rw [Function.update_of_ne hplace, hother _ hsame]
    exact h i hi

theorem Shows.extend [DecidableEq κ] {value next : Nat → α} {span : Nat}
    (h : layout.Shows memory value start span) (hspan : span < size)
    (hother : ∀ position < start + span, next position = value position) :
    layout.Shows (Function.update memory (layout.place (start + span)) (next (start + span))) next
      start (span + 1) := by
  intro i hi
  by_cases hlast : i = span
  · rw [hlast, Function.update_self]
  · have hplace : layout.place (start + i) ≠ layout.place (start + span) := by
      have h := layout.separated (start + i) (span - i) (by omega) (by omega)
      rw [Nat.add_assoc, Nat.add_sub_cancel' (by omega : i ≤ span)] at h
      exact h.symm
    rw [Function.update_of_ne hplace, hother _ (by omega)]
    exact h i (by omega)

theorem Shows.rest {value : Nat → α} {span : Nat}
    (h : layout.Shows memory value start (span + 1)) :
    layout.Shows memory value (start + 1) span := by
  intro i hi
  rw [Nat.add_assoc, Nat.add_comm 1 i]
  exact h (i + 1) (by omega)

theorem Shows.tail [DecidableEq κ] {value : Nat → α} {span : Nat} (spare : α)
    (h : layout.Shows memory value start (span + 1)) (hspan : span < size) :
    layout.Shows (Function.update memory (layout.place start) spare) value (start + 1) span := by
  intro i hi
  rw [Nat.add_assoc, Nat.add_comm 1 i,
    Function.update_of_ne (layout.separated start (i + 1) (by omega) (by omega))]
  exact h (i + 1) (by omega)

theorem Shows.advance [DecidableEq κ] {value : Nat → α} {span : Nat}
    (h : layout.Shows memory value start span) (hspan : span ≤ size) :
    layout.Shows (Function.update memory (layout.place (start + span)) (value (start + span)))
      value (start + 1) span := by
  intro i hi
  by_cases hlast : i + 1 = span
  · rw [← hlast, Nat.add_right_comm, Nat.add_assoc, Function.update_self]
  · have hplace : layout.place (start + (i + 1)) ≠ layout.place (start + span) := by
      have h := layout.separated (start + (i + 1)) (span - (i + 1)) (by omega) (by omega)
      rw [Nat.add_assoc, Nat.add_sub_cancel' (by omega : i + 1 ≤ span)] at h
      exact h.symm
    rw [Nat.add_right_comm, Nat.add_assoc, Function.update_of_ne hplace]
    exact h (i + 1) (by omega)

end Layout

namespace Ring

theorem slot_ofNat (bits : Fin 32) (position : Nat) :
    slot bits (UInt32.ofNat position) = position % 2 ^ bits.val := by
  simpa using slot_add bits 0 position

/-- The slots of a ring with free-running 32-bit counters, position by position. -/
def layout (bits : Fin 32) : Layout Nat (2 ^ bits.val) where
  place position := slot bits (UInt32.ofNat position)
  periodic position := by rw [slot_ofNat, slot_ofNat, Nat.add_mod_right]
  separated position distance hpos hlt := by
    have h := slot_ne bits (UInt32.ofNat position) hpos hlt
    rw [UInt32.ofNat_add]
    intro hsame
    apply h
    rw [hsame]
    congr 1
    simp

theorem slot_distance {size first second : Nat} (hle : first ≤ second)
    (hlt : second - first < size) :
    (second % size + size - first % size) % size = second - first := by
  have hbound := Nat.mod_lt first (Nat.zero_lt_of_lt hlt)
  have hsplit : second % size = (first % size + (second - first)) % size := by
    rw [Nat.mod_add_mod, Nat.add_sub_cancel' hle]
  by_cases hwrap : first % size + (second - first) < size
  · have hsum : first % size + (second - first) + size - first % size =
        second - first + size := by omega
    rw [hsplit, Nat.mod_eq_of_lt hwrap, hsum, Nat.add_mod_right, Nat.mod_eq_of_lt hlt]
  · have hback : (first % size + (second - first)) % size =
        first % size + (second - first) - size := by
      rw [Nat.mod_eq_sub_mod (Nat.le_of_not_lt hwrap), Nat.mod_eq_of_lt (by omega)]
    have hsum : first % size + (second - first) - size + size - first % size =
        second - first := by omega
    rw [hsplit, hback, hsum, Nat.mod_eq_of_lt hlt]

theorem layout_place (bits : Fin 32) (position : Nat) :
    (layout bits).place position = position % 2 ^ bits.val :=
  slot_ofNat bits position

end Ring

end VirtualSfc.Base
