import Mathlib

/-! Blocks of `2 ^ order` units, at the multiples of their size. A set of units is the union of
its largest blocks, and to add or remove one block changes those in one place only. -/
namespace VirtualSfc.Base.Dyadic

def block (order index : Nat) : Set Nat := {unit | unit / 2 ^ order = index}

def buddy (index : Nat) : Nat := index ^^^ 1

def Whole (units : Set Nat) (order index : Nat) : Prop := block order index ⊆ units

/-- A whole block whose parent is not whole, or that is of the highest order. -/
structure Largest (units : Set Nat) (top order index : Nat) : Prop where
  order_le : order ≤ top
  whole : Whole units order index
  parent : order < top → ¬Whole units (order + 1) (index / 2)

section Blocks

variable {units : Set Nat} {top order index unit : Nat}

theorem mem_block : unit ∈ block order index ↔ unit / 2 ^ order = index := Iff.rfl

theorem first_mem_block (order index : Nat) : index * 2 ^ order ∈ block order index := by
  rw [mem_block, Nat.mul_div_cancel _ (Nat.two_pow_pos order)]

theorem div_block (h : unit ∈ block order index) (above : Nat) :
    unit / 2 ^ (order + above) = index / 2 ^ above := by
  rw [← mem_block.mp h, Nat.div_div_eq_div_mul, ← Nat.pow_add]

theorem block_subset {above larger : Nat} (hunit : unit ∈ block order index)
    (hlarger : unit ∈ block (order + above) larger) :
    block order index ⊆ block (order + above) larger := by
  intro other hother
  rw [mem_block, div_block hother above, ← div_block hunit above]
  exact hlarger

theorem mem_block_zero : unit ∈ block order 0 ↔ unit < 2 ^ order := by
  rw [mem_block, Nat.div_eq_zero_iff_lt (Nat.two_pow_pos order)]

theorem buddy_div (index : Nat) : buddy index / 2 = index / 2 := by
  rw [buddy, Nat.xor_div_two, show 1 / 2 = 0 from rfl, Nat.xor_zero]

theorem buddy_mod (index : Nat) : buddy index % 2 = (index + 1) % 2 := Nat.xor_mod_two_eq

theorem buddy_of_even (h : index % 2 = 0) : buddy index = index + 1 := by
  have hdiv := buddy_div index
  have hmod := buddy_mod index
  omega

theorem buddy_buddy (index : Nat) : buddy (buddy index) = index := by
  rw [buddy, buddy, Nat.xor_assoc, Nat.xor_self, Nat.xor_zero]

theorem buddy_ne (index : Nat) : buddy index ≠ index := by
  intro hsame
  have hmod := buddy_mod index
  rw [hsame] at hmod
  omega

theorem half_iff {other : Nat} : other / 2 = index / 2 ↔ other = index ∨ other = buddy index := by
  have hdiv := buddy_div index
  have hmod := buddy_mod index
  constructor
  · intro hhalf
    omega
  · rintro (rfl | rfl)
    · rfl
    · exact hdiv

theorem block_parent (order index : Nat) :
    block (order + 1) (index / 2) = block order index ∪ block order (buddy index) := by
  ext unit
  rw [Set.mem_union, mem_block, mem_block, mem_block, Nat.pow_succ, ← Nat.div_div_eq_div_mul]
  exact half_iff

theorem whole_parent :
    Whole units (order + 1) (index / 2) ↔
      Whole units order index ∧ Whole units order (buddy index) := by
  rw [Whole, block_parent, Set.union_subset_iff]
  rfl

theorem disjoint_buddy (order index : Nat) :
    Disjoint (block order index) (block order (buddy index)) := by
  rw [Set.disjoint_left]
  intro unit hunit hbuddy
  exact buddy_ne index (hbuddy.symm.trans hunit)

theorem first_mem_whole (h : Whole units order index) : index * 2 ^ order ∈ units :=
  h (first_mem_block order index)

theorem Whole.order_le (h : Whole units order index) (hwithin : units ⊆ block top 0) :
    order ≤ top := by
  by_contra hlt
  have hlast : index * 2 ^ order + (2 ^ order - 1) ∈ block order index := by
    rw [mem_block, Nat.add_comm, Nat.add_mul_div_right _ _ (Nat.two_pow_pos order),
      Nat.div_eq_of_lt (Nat.sub_lt (Nat.two_pow_pos order) Nat.one_pos), Nat.zero_add]
  have hbound := mem_block_zero.mp (hwithin (h hlast))
  have hpow : 2 ^ top < 2 ^ order := Nat.pow_lt_pow_right (by decide) (Nat.not_le.mp hlt)
  omega

theorem Whole.largest (h : Whole units order index) (horder : order ≤ top) :
    ∃ above, Largest units top (order + above) (index / 2 ^ above) := by
  -- go up to the parent as long as that is whole
  induction hleft : top - order generalizing order index with
  | zero => exact ⟨0, horder, by simpa using h, by omega⟩
  | succ left ih =>
      by_cases hparent : Whole units (order + 1) (index / 2)
      · obtain ⟨above, hlargest⟩ := ih hparent (by omega) (by omega)
        refine ⟨above + 1, ?_⟩
        rwa [Nat.div_div_eq_div_mul, ← Nat.pow_succ', Nat.add_assoc, Nat.add_comm 1 above]
          at hlargest
      · exact ⟨0, horder, by simpa using h, fun _ => by simpa using hparent⟩

end Blocks

section Changes

variable {units : Set Nat} {top order index other place : Nat}

theorem whole_add (hbuddy : order < top → ¬Whole units order (buddy index))
    (hother : other ≤ top) :
    Whole (units ∪ block order index) other place ↔
      Whole units other place ∨ other ≤ order ∧ block other place ⊆ block order index := by
  constructor
  · intro hwhole
    by_contra hnot
    rw [not_or, Whole, Set.not_subset] at hnot
    obtain ⟨⟨unit, hunit, houtside⟩, hinside⟩ := hnot
    have hnew : unit ∈ block order index := (hwhole hunit).resolve_left houtside
    cases Nat.lt_or_ge order other with
    | inr hle =>
        obtain ⟨above, rfl⟩ := Nat.exists_eq_add_of_le hle
        exact hinside ⟨hle, block_subset hunit hnew⟩
    | inl hlt =>
        -- the buddy is in the larger block as well, so it would be whole
        apply hbuddy (by omega)
        intro sibling hsibling
        obtain ⟨above, rfl⟩ := Nat.exists_eq_add_of_lt hlt
        have hparent : unit ∈ block (order + 1) (index / 2) := by
          rw [block_parent]
          exact .inl hnew
        rw [Nat.add_right_comm] at hunit
        have hlarger := block_subset hparent hunit
        rw [block_parent, Nat.add_right_comm] at hlarger
        have hadded := hwhole (hlarger (.inr hsibling))
        exact hadded.resolve_right
          fun hmeets => Set.disjoint_left.mp (disjoint_buddy order index) hmeets hsibling
  · rintro (hwhole | ⟨_, hinside⟩)
    · exact fun unit hunit => .inl (hwhole hunit)
    · exact fun unit hunit => .inr (hinside hunit)

theorem largest_add (horder : order ≤ top) (hfree : Disjoint (block order index) units)
    (hbuddy : order < top → ¬Whole units order (buddy index)) :
    Largest (units ∪ block order index) top other place ↔
      Largest units top other place ∨ other = order ∧ place = index := by
  have hshared : place * 2 ^ other ∈ block (other + 1) (place / 2) := by
    rw [block_parent]
    exact .inl (first_mem_block other place)
  constructor
  · intro h
    cases (whole_add hbuddy h.order_le).mp h.whole with
    | inl hwhole =>
        refine .inl ⟨h.order_le, hwhole, fun hlt hparent => h.parent hlt ?_⟩
        exact fun unit hunit => .inl (hparent hunit)
    | inr hinside =>
        obtain ⟨hle, hinside⟩ := hinside
        have hfirst := hinside (first_mem_block other place)
        cases Nat.lt_or_eq_of_le hle with
        | inl hlt =>
            obtain ⟨above, rfl⟩ := Nat.exists_eq_add_of_lt hlt
            refine absurd ?_ (h.parent (by omega))
            rw [Nat.add_right_comm] at hfirst
            intro unit hunit
            have hmem := block_subset hshared hfirst hunit
            rw [Nat.add_right_comm] at hmem
            exact .inr hmem
        | inr heq =>
            subst heq
            exact .inr ⟨rfl, (first_mem_block other place).symm.trans hfirst⟩
  · rintro (h | ⟨rfl, rfl⟩)
    · refine ⟨h.order_le, fun unit hunit => .inl (h.whole hunit), fun hlt hparent => ?_⟩
      cases (whole_add hbuddy hlt).mp hparent with
      | inl hwhole => exact h.parent hlt hwhole
      | inr hinside =>
          exact Set.disjoint_left.mp hfree (hinside.2 hshared) (first_mem_whole h.whole)
    · refine ⟨horder, fun unit hunit => .inr hunit, fun hlt hparent => ?_⟩
      cases (whole_add hbuddy hlt).mp hparent with
      | inl hwhole => exact hbuddy hlt (whole_parent.mp hwhole).2
      | inr hinside => exact absurd hinside.1 (by omega)

theorem largest_remove (h : Largest units top order index) :
    Largest (units \ block order index) top other place ↔
      Largest units top other place ∧ ¬(other = order ∧ place = index) := by
  have hadd := @largest_add (units \ block order index) top order index other place h.order_le
    Set.disjoint_sdiff_right
    fun hlt hbuddy => h.parent hlt (whole_parent.mpr ⟨h.whole, hbuddy.trans Set.sdiff_subset⟩)
  rw [Set.sdiff_union_of_subset h.whole] at hadd
  rw [hadd, or_and_right, and_not_self_iff, or_false, iff_self_and]
  rintro hlargest ⟨rfl, rfl⟩
  exact (first_mem_whole hlargest.whole).2 (first_mem_block other place)

theorem Largest.unique {unit : Nat} (h : Largest units top order index)
    (hother : Largest units top other place) (hunit : unit ∈ block order index)
    (hmem : unit ∈ block other place) : other = order ∧ place = index := by
  by_contra hne
  exact ((largest_remove h).mpr ⟨hother, hne⟩).whole hmem |>.2 hunit

end Changes

end VirtualSfc.Base.Dyadic
