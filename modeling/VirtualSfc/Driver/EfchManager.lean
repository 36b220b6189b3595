import Mathlib.Logic.Function.Basic

/-! The resource table of the `sfc_char` driver and the allocation of its ids, each
call as one step. What the kernel answers is part of the call. -/
namespace VirtualSfc.Driver.EfchManager

inductive Errno where
  | ebadf
  | ebusy
  | efault
  | einval
  | elibacc
  | enoent
  | enomem
  | enospc
  | eopnotsupp
  | other (code : Nat)
deriving DecidableEq, Repr

inductive ResourceType where
  | vi
  | viSet
  | memreg
  | pd
  | pio
deriving DecidableEq, Repr

def efchOpsTable : Nat → Option ResourceType
  | 1 => some .vi
  | 2 => some .viSet
  | 4 => some .memreg
  | 5 => some .pd
  | 6 => some .pio
  | _ => none

/-- `struct efrm_resource`; the instance stands for the NIC as well. -/
structure EfrmResource where
  rsType : ResourceType
  rsInstance : Nat
deriving DecidableEq, Repr

structure EfchResource where
  rsBase : Option EfrmResource
  rsOps : ResourceType
deriving DecidableEq, Repr

abbrev Address := Nat

abbrev Resources := Address → Option EfchResource

/-- `ci_resource_table_t`. The table pointer is at the static entries as long as there
is no grown table. -/
structure ResourceTable where
  static : Fin 5 → Option Address
  grown : Option (Fin 512 → Option Address)
  highwater : Nat
  size : Nat
  size_eq : size = if grown.isSome then 512 else 5
  highwater_le : highwater ≤ size

def ResourceTable.ctor : ResourceTable where
  static := fun _ => none
  grown := none
  highwater := 0
  size := 5
  size_eq := rfl
  highwater_le := by decide

def ResourceTable.entry (rt : ResourceTable) (index : Nat) : Option Address :=
  match rt.grown with
  | none => if h : index < 5 then rt.static ⟨index, h⟩ else none
  | some table => if h : index < 512 then table ⟨index, h⟩ else none

/-- Nobody else writes the table meanwhile, so the table pointer is swapped. -/
def growPrivTable (kmalloc : Bool) (rt : ResourceTable) : Except Errno ResourceTable :=
  if rt.size = 512 then .error .enospc
  else if ¬ kmalloc then .error .enomem
  else .ok {
    rt with
    grown := some fun index => if h : index.val < 5 then rt.static ⟨index, h⟩ else none
    size := 512
    size_eq := rfl
    highwater_le := by
      have hsize := rt.size_eq
      have hle := rt.highwater_le
      split at hsize <;> omega }

def ResourceTable.insert (rt : ResourceTable) (rs : Address) (h : rt.highwater < rt.size) :
    ResourceTable where
  static := fun index =>
    if rt.grown.isNone ∧ index = rt.highwater then some rs else rt.static index
  grown := rt.grown.map fun table index =>
    if index = rt.highwater then some rs else table index
  highwater := rt.highwater + 1
  size := rt.size
  size_eq := by simpa using rt.size_eq
  highwater_le := h

def allocateIdLoop (kmalloc : Bool) (rs : Address) :
    Nat → ResourceTable → Except Errno (Nat × ResourceTable)
  | 0, _ => .error .enospc
  | passes + 1, rt =>
      if h : rt.highwater < rt.size then .ok (rt.highwater, rt.insert rs h)
      else
        match growPrivTable kmalloc rt with
        | .error errno => .error errno
        | .ok larger => allocateIdLoop kmalloc rs passes larger

/-- `efch_resource_manager_allocate_id`, which never makes a third pass. -/
def allocateId (kmalloc : Bool) (rt : ResourceTable) (rs : Address) :
    Except Errno (Nat × ResourceTable) :=
  allocateIdLoop kmalloc rs 2 rt

def idLookup (resources : Resources) (rt : ResourceTable) (id : Nat) :
    Except Errno (Address × EfchResource) :=
  if id ≥ rt.highwater then .error .einval
  else
    match rt.entry id with
    | none => .error .enoent
    | some address =>
        match resources address with
        | none => .error .enoent
        | some rs => if rs.rsBase = none then .error .enoent else .ok (address, rs)

/-- The argument of `CI_RESOURCE_ALLOC` and what the kernel answers: whether the
argument can be read and the reply written, what `find_intf_ver` finds, the memory for
the resource and for a larger table, and the instance that the type's own allocation
gives. -/
structure Alloc where
  copyIn : Bool
  intfVerId : Option Nat
  raType : Nat
  ciAlloc : Option Address
  rmAlloc : Except Errno Nat
  kmalloc : Bool
  copyOut : Bool

/-- Memory in use is not given out again. -/
def ciAlloc (resources : Resources) (answer : Option Address) : Option Address :=
  answer.filter fun address => (resources address).isNone

def rmBase (ops : ResourceType) (rsInstance : Nat) : Option EfrmResource :=
  if ops = .memreg then none else some ⟨ops, rsInstance⟩

def efchResourceAlloc (resources : Resources) (rt : ResourceTable) (alloc : Alloc) :
    Except Errno Nat × ResourceTable × Resources :=
  if alloc.intfVerId = none then (.error .elibacc, rt, resources)
  else
    match efchOpsTable alloc.raType with
    | none => (.error .eopnotsupp, rt, resources)
    | some ops =>
        match ciAlloc resources alloc.ciAlloc with
        | none => (.error .enomem, rt, resources)
        | some rs =>
            match alloc.rmAlloc with
            | .error errno => (.error errno, rt, resources)
            | .ok rsInstance =>
                let allocated :=
                  Function.update resources rs (some ⟨rmBase ops rsInstance, ops⟩)
                match allocateId alloc.kmalloc rt rs with
                | .ok (id, after) => (.ok id, after, allocated)
                | .error errno => (.error errno, rt, Function.update allocated rs none)

theorem idLookup_eq_ok_iff {resources : Resources} {rt : ResourceTable} {id : Nat}
    {address : Address} {rs : EfchResource} :
    idLookup resources rt id = .ok (address, rs) ↔
      id < rt.highwater ∧ rt.entry id = some address ∧ resources address = some rs ∧
        rs.rsBase ≠ none := by
  unfold idLookup
  split
  · rename_i hid
    simp [Nat.not_lt.mpr hid]
  · rename_i hid
    rw [Nat.not_le] at hid
    cases hentry : rt.entry id with
    | none => simp
    | some found =>
        cases hrs : resources found with
        | none => grind
        | some stored => grind

/-! What an index reads after each change of the table. -/

theorem growPrivTable_ok {kmalloc : Bool} {rt larger : ResourceTable}
    (h : growPrivTable kmalloc rt = .ok larger) :
    larger.size = 512 ∧ larger.highwater = rt.highwater ∧ rt.size = 5 ∧
      ∀ index, larger.entry index = rt.entry index := by
  unfold growPrivTable at h
  split at h
  · contradiction
  · rename_i hsize
    split at h
    · contradiction
    · have hgrown : rt.grown = none := by
        by_contra hsome
        rw [rt.size_eq, if_pos (Option.isSome_iff_ne_none.mpr hsome)] at hsize
        contradiction
      have hfive : rt.size = 5 := by
        rw [rt.size_eq, hgrown]
        rfl
      rw [← Except.ok.inj h]
      refine ⟨rfl, rfl, hfive, fun index => ?_⟩
      simp only [ResourceTable.entry, hgrown]
      by_cases hindex : index < 5
      · simp [hindex, show index < 512 by omega]
      · simp [hindex]

theorem ResourceTable.size_le (rt : ResourceTable) : rt.size ≤ 512 := by
  rw [rt.size_eq]
  split <;> omega

theorem ResourceTable.entry_insert (rt : ResourceTable) (rs : Address)
    (h : rt.highwater < rt.size) (index : Nat) :
    (rt.insert rs h).entry index =
      if index = rt.highwater then some rs else rt.entry index := by
  obtain ⟨static, grown, highwater, size, size_eq, highwater_le⟩ := rt
  simp only [insert, entry]
  cases grown with
  | none =>
      by_cases hindex : index < 5
      · simp [hindex]
      · have hne : index ≠ highwater := by
          simp at size_eq h
          omega
        simp [hindex, hne]
  | some table =>
      by_cases hindex : index < 512
      · simp [hindex]
      · have hne : index ≠ highwater := by
          simp at size_eq h
          omega
        simp [hindex, hne]

/-- The table after an id is given out: a new entry at the end, and every entry in its
place whether the table grew or not. -/
structure Appended (rt : ResourceTable) (rs : Address) (id : Nat) (after : ResourceTable) :
    Prop where
  id_eq : id = rt.highwater
  highwater_eq : after.highwater = rt.highwater + 1
  entry_eq : ∀ index, after.entry index = if index = id then some rs else rt.entry index

theorem ResourceTable.insert_appended (rt : ResourceTable) (rs : Address)
    (h : rt.highwater < rt.size) : Appended rt rs rt.highwater (rt.insert rs h) :=
  ⟨rfl, rfl, rt.entry_insert rs h⟩

theorem allocateIdLoop_ok {kmalloc : Bool} {rs : Address} {passes id : Nat}
    {rt after : ResourceTable} (h : allocateIdLoop kmalloc rs passes rt = .ok (id, after)) :
    Appended rt rs id after := by
  induction passes generalizing rt with
  | zero => contradiction
  | succ passes ih =>
      unfold allocateIdLoop at h
      split at h
      · rename_i hroom
        rw [← (Prod.mk.inj (Except.ok.inj h)).1, ← (Prod.mk.inj (Except.ok.inj h)).2]
        exact rt.insert_appended rs hroom
      · split at h
        · contradiction
        · rename_i larger hgrow
          obtain ⟨_, hhighwater, _, hentry⟩ := growPrivTable_ok hgrow
          obtain ⟨hid, hnext, hread⟩ := ih h
          refine ⟨hid.trans hhighwater, by rw [hnext, hhighwater], fun index => ?_⟩
          rw [hread, hentry]

theorem growPrivTable_error_iff (kmalloc : Bool) (rt : ResourceTable) (errno : Errno) :
    growPrivTable kmalloc rt = .error errno ↔
      rt.size = 512 ∧ errno = .enospc ∨ rt.size = 5 ∧ kmalloc = false ∧ errno = .enomem := by
  have hsize : rt.size = 512 ∨ rt.size = 5 := by
    rw [rt.size_eq]
    split <;> simp
  unfold growPrivTable
  cases hsize with
  | inl hmax => simp [hmax, eq_comm]
  | inr hfive => cases kmalloc <;> simp [hfive, eq_comm]

/-- With memory for one larger table there are ids until 512 are given out. -/
theorem allocateId_error_iff (kmalloc : Bool) (rt : ResourceTable) (rs : Address)
    (errno : Errno) :
    allocateId kmalloc rt rs = .error errno ↔
      rt.highwater = 512 ∧ errno = .enospc ∨
        rt.highwater = 5 ∧ rt.size = 5 ∧ kmalloc = false ∧ errno = .enomem := by
  have hgrow : allocateId kmalloc rt rs = .error errno ↔
      ¬ rt.highwater < rt.size ∧ growPrivTable kmalloc rt = .error errno := by
    unfold allocateId allocateIdLoop
    split
    · simp [*]
    · cases hlarger : growPrivTable kmalloc rt with
      | error grow => simp [*]
      | ok larger =>
          obtain ⟨hsize, hhighwater, hfive, _⟩ := growPrivTable_ok hlarger
          have hle := rt.highwater_le
          have hroom : larger.highwater < larger.size := by omega
          simp [allocateIdLoop, hroom]
  have hle := rt.highwater_le
  have hmax := rt.size_le
  rw [hgrow, growPrivTable_error_iff]
  refine ⟨?_, ?_⟩
  · rintro ⟨hroom, ⟨hsize, herrno⟩ | ⟨hsize, hmemory, herrno⟩⟩
    · exact .inl ⟨by omega, herrno⟩
    · exact .inr ⟨by omega, hsize, hmemory, herrno⟩
  · rintro (⟨hfull, herrno⟩ | ⟨hfull, hsize, hmemory, herrno⟩)
    · exact ⟨by omega, .inl ⟨by omega, herrno⟩⟩
    · exact ⟨by omega, .inr ⟨hsize, hmemory, herrno⟩⟩

theorem ciAlloc_some {resources : Resources} {answer : Option Address} {rs : Address}
    (h : ciAlloc resources answer = some rs) : resources rs = none := by
  unfold ciAlloc at h
  simpa using (Option.filter_eq_some_iff.mp h).2

theorem efchResourceAlloc_cases {resources allocated : Resources} {rt after : ResourceTable}
    {alloc : Alloc} {result : Except Errno Nat}
    (h : efchResourceAlloc resources rt alloc = (result, after, allocated)) :
    (∃ errno, result = .error errno ∧ after = rt ∧ allocated = resources) ∨
      ∃ id rs ops rsInstance, result = .ok id ∧ Appended rt rs id after ∧
        resources rs = none ∧ efchOpsTable alloc.raType = some ops ∧
        alloc.rmAlloc = .ok rsInstance ∧
        allocated = Function.update resources rs (some ⟨rmBase ops rsInstance, ops⟩) := by
  unfold efchResourceAlloc at h
  split at h
  · cases h
    exact .inl ⟨_, rfl, rfl, rfl⟩
  · split at h
    · cases h
      exact .inl ⟨_, rfl, rfl, rfl⟩
    · rename_i ops hops
      split at h
      · cases h
        exact .inl ⟨_, rfl, rfl, rfl⟩
      · rename_i rs hrs
        split at h
        · cases h
          exact .inl ⟨_, rfl, rfl, rfl⟩
        · rename_i rsInstance hrm
          have hfresh := ciAlloc_some hrs
          simp only at h
          split at h
          · rename_i id table hid
            cases h
            exact .inr ⟨id, rs, ops, rsInstance, rfl, allocateIdLoop_ok hid, hfresh, hops,
              hrm, rfl⟩
          · rename_i errno hid
            cases h
            refine .inl ⟨errno, rfl, rfl, ?_⟩
            rw [Function.update_idem, ← hfresh, Function.update_eq_self]

end VirtualSfc.Driver.EfchManager
