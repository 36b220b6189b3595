import VirtualSfc.Base.Run
import VirtualSfc.Driver.EfchManager

/-! The patched `sfc_char` device. Every file is opened on the private state that the
module makes when it is loaded, and closing a file frees nothing. -/
namespace VirtualSfc.Driver.CharDriver
open Base.Run EfchManager

/-- `ci_private_char_t`, with `cpcp_vi` as the instance of the VI. -/
structure PrivateChar where
  rt : ResourceTable
  cpcpVi : Option Nat
  cpcpReadable : Bool

/-- The loaded module: the private states in memory, `p_priv`, the private data of every
open file, and the resources. -/
structure Device where
  privates : Address → Option PrivateChar
  pPriv : Address
  files : Nat → Option Address
  resources : Resources

def init (pPriv : Address) : Device where
  privates := Function.update (fun _ => none) pPriv (some ⟨.ctor, none, false⟩)
  pPriv := pPriv
  files := fun _ => none
  resources := fun _ => none

def Device.fopOpen (device : Device) (file : Nat) : Device :=
  if device.files file = none then
    { device with files := Function.update device.files file (some device.pPriv) }
  else device

theorem Device.fopOpen_files (device : Device) (file : Nat) :
    ∃ files, device.fopOpen file = { device with files := files } := by
  unfold Device.fopOpen
  split
  · exact ⟨_, rfl⟩
  · exact ⟨_, rfl⟩

def Device.fopClose (device : Device) (file : Nat) : Device :=
  { device with files := Function.update device.files file none }

def Device.private? (device : Device) (file : Nat) : Option (Address × PrivateChar) :=
  match device.files file with
  | none => none
  | some data => (device.privates data).map fun priv => (data, priv)

def Device.setPrivate (device : Device) (data : Address) (priv : PrivateChar) : Device :=
  { device with privates := Function.update device.privates data (some priv) }

def Device.ioctlResourceAlloc (device : Device) (file : Nat) (alloc : Alloc) :
    Except Errno Nat × Device :=
  match device.private? file with
  | none => (.error .ebadf, device)
  | some (data, priv) =>
      if ¬ alloc.copyIn then (.error .efault, device)
      else
        match efchResourceAlloc device.resources priv.rt alloc with
        | (result, rt, resources) =>
            let after := { device.setPrivate data { priv with rt := rt } with
              resources := resources }
            match result with
            | .error errno => (.error errno, after)
            | .ok id => (if alloc.copyOut then .ok id else .error .efault, after)

inductive Descriptor where
  | none
  | foreign
  | char (file : Nat)

def Device.resolve (device : Device) (file id : Nat) : Except Errno (Address × EfchResource) :=
  match device.private? file with
  | none => .error .ebadf
  | some (_, priv) => idLookup device.resources priv.rt id

def Device.efchLookupRs (device : Device) (fd : Descriptor) (id : Nat)
    (rsType : ResourceType) : Except Errno Unit :=
  match fd with
  | .none => .error .ebadf
  | .foreign => .error .einval
  | .char file =>
      match device.resolve file id with
      | .error errno => .error errno
      | .ok (_, rs) => if rs.rsBase.map (·.rsType) = some rsType then .ok () else .error .einval

inductive Rsop where
  | dump
  | pioLinkVi (fd : Descriptor) (viId : Nat)
  | pioUnlinkVi (fd : Descriptor) (viId : Nat)
  | other

/-- The argument of `CI_RESOURCE_OP` and what is answered to it: by user memory, by the
operation itself, and whether an unlinked PIO region was freed. -/
structure Op where
  copyIn : Bool
  id : Nat
  op : Rsop
  answer : Except Errno Unit
  freedResource : Bool
  copyOut : Bool

def Device.pioRmRsops (device : Device) (address : Address) (rs : EfchResource) (op : Op) :
    Except Errno Unit × Resources :=
  match op.op with
  | .pioLinkVi fd viId =>
      match device.efchLookupRs fd viId .vi with
      | .error errno => (.error errno, device.resources)
      | .ok _ => (op.answer, device.resources)
  | .pioUnlinkVi fd viId =>
      match device.efchLookupRs fd viId .vi with
      | .error errno => (.error errno, device.resources)
      | .ok _ =>
          (op.answer,
            if op.freedResource then
              Function.update device.resources address (some { rs with rsBase := none })
            else device.resources)
  | _ => (.error .einval, device.resources)

def Device.efchResourceOp (device : Device) (rt : ResourceTable) (op : Op) :
    Except Errno Unit × Resources :=
  match idLookup device.resources rt op.id with
  | .error errno => (.error errno, device.resources)
  | .ok (address, rs) =>
      match op.op, rs.rsOps with
      | .dump, _ => (.ok (), device.resources)
      | _, .memreg => (.error .eopnotsupp, device.resources)
      | _, .pd => (.error .eopnotsupp, device.resources)
      | _, .vi => (op.answer, device.resources)
      | _, .viSet => (op.answer, device.resources)
      | _, .pio => device.pioRmRsops address rs op

def Device.ioctlResourceOp (device : Device) (file : Nat) (op : Op) :
    Except Errno Unit × Device :=
  match device.private? file with
  | none => (.error .ebadf, device)
  | some (_, priv) =>
      if ¬ op.copyIn then (.error .efault, device)
      else
        match device.efchResourceOp priv.rt op with
        | (result, resources) =>
            (if op.copyOut then result else .error .efault,
              { device with resources := resources })

inductive Event where
  | opened (file : Nat)
  | closed (file : Nat)
  | alloc (file : Nat) (alloc : Alloc)
  | op (file : Nat) (op : Op)

def step (device : Device) : Event → Device
  | .opened file => device.fopOpen file
  | .closed file => device.fopClose file
  | .alloc file alloc => (device.ioctlResourceAlloc file alloc).2
  | .op file op => (device.ioctlResourceOp file op).2

/-! All files see one table. -/

structure Device.Shared (device : Device) (priv : PrivateChar) : Prop where
  loaded : device.privates device.pPriv = some priv
  opened : ∀ file data, device.files file = some data → data = device.pPriv

theorem init_shared (pPriv : Address) : (init pPriv).Shared ⟨.ctor, none, false⟩ where
  loaded := by simp [init]
  opened := by
    intro file data h
    simp [init] at h

theorem Device.Shared.private?_eq {device : Device} {priv : PrivateChar}
    (h : device.Shared priv) (file : Nat) :
    device.private? file =
      if device.files file = none then none else some (device.pPriv, priv) := by
  unfold private?
  cases hfile : device.files file with
  | none => rfl
  | some data => simp [h.opened file data hfile, h.loaded]

theorem Device.Shared.fopOpen {device : Device} {priv : PrivateChar}
    (h : device.Shared priv) (file : Nat) : (device.fopOpen file).Shared priv := by
  unfold Device.fopOpen
  split
  · refine ⟨h.loaded, fun other data hother => ?_⟩
    by_cases hsame : other = file
    · subst hsame
      simpa [eq_comm] using hother
    · exact h.opened other data (by simpa [hsame] using hother)
  · exact h

theorem Device.Shared.fopClose {device : Device} {priv : PrivateChar}
    (h : device.Shared priv) (file : Nat) : (device.fopClose file).Shared priv := by
  refine ⟨h.loaded, fun other data hother => ?_⟩
  by_cases hsame : other = file
  · subst hsame
    simp [Device.fopClose] at hother
  · exact h.opened other data (by simpa [Device.fopClose, hsame] using hother)

theorem Device.Shared.setPrivate {device : Device} {priv : PrivateChar}
    (h : device.Shared priv) (next : PrivateChar) :
    (device.setPrivate device.pPriv next).Shared next :=
  ⟨Function.update_self .., h.opened⟩

theorem Device.Shared.withResources {device : Device} {priv : PrivateChar}
    (h : device.Shared priv) (resources : Resources) :
    { device with resources := resources }.Shared priv :=
  ⟨h.loaded, h.opened⟩

theorem Device.Shared.alloc_cases {device : Device} {priv : PrivateChar}
    (h : device.Shared priv) (file : Nat) (alloc : Alloc) :
    (∃ errno, device.ioctlResourceAlloc file alloc = (.error errno, device)) ∨
      ∃ id rs ops rsInstance rt, Appended priv.rt rs id rt ∧ device.resources rs = none ∧
        efchOpsTable alloc.raType = some ops ∧ alloc.rmAlloc = .ok rsInstance ∧
        device.ioctlResourceAlloc file alloc =
          (if alloc.copyOut then .ok id else .error .efault,
            { device.setPrivate device.pPriv { priv with rt := rt } with
              resources := Function.update device.resources rs
                (some ⟨rmBase ops rsInstance, ops⟩) }) := by
  unfold Device.ioctlResourceAlloc
  rw [h.private?_eq]
  split
  · exact .inl ⟨_, rfl⟩
  · rename_i data found hfound
    split at hfound
    · contradiction
    · cases hfound
      split
      · exact .inl ⟨_, rfl⟩
      · cases hresult : efchResourceAlloc device.resources priv.rt alloc with
        | mk result rest =>
            obtain ⟨rt, resources⟩ := rest
            obtain ⟨errno, rfl, rfl, rfl⟩ | ⟨id, rs, ops, rsInstance, rfl, happended, hfresh,
              hops, hrm, rfl⟩ := efchResourceAlloc_cases hresult
            · refine .inl ⟨errno, ?_⟩
              simp [Device.setPrivate, ← h.loaded]
            · exact .inr ⟨id, rs, ops, rsInstance, rt, happended, hfresh, hops, hrm, rfl⟩

theorem Device.Shared.op_cases {device : Device} {priv : PrivateChar}
    (h : device.Shared priv) (file : Nat) (op : Op) :
    (device.ioctlResourceOp file op).2 = device ∨
      ∃ address rs, device.resources address = some rs ∧ rs.rsOps = .pio ∧
        (device.ioctlResourceOp file op).2 = { device with
          resources := Function.update device.resources address
            (some { rs with rsBase := none }) } := by
  unfold Device.ioctlResourceOp
  rw [h.private?_eq]
  split
  · exact .inl rfl
  · split
    · exact .inl rfl
    · rename_i found hfound hcopy
      simp only [efchResourceOp]
      cases hlookup : idLookup device.resources found.rt op.id with
      | error errno => exact .inl rfl
      | ok entry =>
          obtain ⟨address, rs⟩ := entry
          obtain ⟨_, _, hrs, _⟩ := idLookup_eq_ok_iff.mp hlookup
          simp only
          split
          · exact .inl rfl
          · exact .inl rfl
          · exact .inl rfl
          · exact .inl rfl
          · exact .inl rfl
          · rename_i hops _
            simp only [pioRmRsops]
            split
            · split <;> exact .inl rfl
            · split
              · exact .inl rfl
              · split
                · exact .inr ⟨address, rs, hrs, hops, rfl⟩
                · exact .inl rfl
            · exact .inl rfl

/-- What every step keeps: the shared state, the entries given out, and the resources
whose base is not taken away. -/
structure Extends (device : Device) (priv : PrivateChar) (after : Device) (next : PrivateChar) :
    Prop where
  shared : after.Shared next
  highwater_le : priv.rt.highwater ≤ next.rt.highwater
  entry_eq : ∀ id < priv.rt.highwater, next.rt.entry id = priv.rt.entry id
  resources_eq : ∀ address rs, device.resources address = some rs → rs.rsOps ≠ .pio →
    after.resources address = some rs

theorem Device.Shared.extended {device after : Device} {priv : PrivateChar}
    (hafter : after.Shared priv) (hresources : after.resources = device.resources) :
    Extends device priv after priv :=
  ⟨hafter, Nat.le_refl _, fun _ _ => rfl, fun _ _ hrs _ => by rw [hresources, hrs]⟩

theorem Device.Shared.step {device : Device} {priv : PrivateChar} (h : device.Shared priv)
    (event : Event) : ∃ next, Extends device priv (step device event) next := by
  cases event with
  | opened file =>
      obtain ⟨files, hopened⟩ := device.fopOpen_files file
      exact ⟨priv, (h.fopOpen file).extended (by rw [hopened])⟩
  | closed file => exact ⟨priv, (h.fopClose file).extended rfl⟩
  | alloc file alloc =>
      obtain ⟨_, hafter⟩ | ⟨new, fresh, _, _, rt, happended, hfresh, _, _, hafter⟩ :=
        h.alloc_cases file alloc
      · rw [CharDriver.step, hafter]
        exact ⟨priv, h.extended rfl⟩
      · rw [CharDriver.step, hafter]
        refine ⟨{ priv with rt := rt }, (h.setPrivate _).withResources _, ?_, fun id hid => ?_,
          fun address rs hrs _ => ?_⟩
        · rw [happended.highwater_eq]
          exact Nat.le_succ _
        · have hold : id ≠ new := by
            rw [happended.id_eq]
            omega
          rw [happended.entry_eq, if_neg hold]
        · have hne : address ≠ fresh := by
            rintro rfl
            simp [hrs] at hfresh
          simp only [Function.update_of_ne hne, hrs]
  | op file op =>
      obtain hafter | ⟨cleared, pio, hpio, hkind, hafter⟩ := h.op_cases file op
      · rw [CharDriver.step, hafter]
        exact ⟨priv, h.extended rfl⟩
      · rw [CharDriver.step, hafter]
        refine ⟨priv, h.withResources _, Nat.le_refl _, fun _ _ => rfl,
          fun address rs hrs hops => ?_⟩
        have hne : address ≠ cleared := by
          rintro rfl
          rw [hrs] at hpio
          cases hpio
          exact hops hkind
        simp only [Function.update_of_ne hne, hrs]

def Device.idsOut (device : Device) : Nat :=
  match device.privates device.pPriv with
  | none => 0
  | some priv => priv.rt.highwater

theorem Device.Shared.idsOut_eq {device : Device} {priv : PrivateChar}
    (h : device.Shared priv) : device.idsOut = priv.rt.highwater := by
  rw [idsOut, h.loaded]

theorem final_shared (pPriv : Address) (events : List Event) :
    ∃ priv, (final step (init pPriv) events).Shared priv := by
  refine final_invariant step (fun device => ∃ priv, device.Shared priv) ?_ events _
    ⟨_, init_shared pPriv⟩
  rintro device event ⟨priv, h⟩
  obtain ⟨next, hnext⟩ := h.step event
  exact ⟨next, hnext.shared⟩

theorem final_used {device : Device} {id : Nat}
    (h : ∃ priv, device.Shared priv ∧ id < priv.rt.highwater) (later : List Event) :
    ∃ priv, (final step device later).Shared priv ∧ id < priv.rt.highwater := by
  refine final_invariant step
    (fun device => ∃ priv, device.Shared priv ∧ id < priv.rt.highwater) ?_ later device h
  rintro device event ⟨priv, hshared, hid⟩
  obtain ⟨next, hnext⟩ := hshared.step event
  exact ⟨next, hnext.shared, Nat.lt_of_lt_of_le hid hnext.highwater_le⟩

def Device.Holds (device : Device) (id : Nat) (address : Address) (rs : EfchResource) : Prop :=
  ∃ priv, device.Shared priv ∧ id < priv.rt.highwater ∧ priv.rt.entry id = some address ∧
    device.resources address = some rs

theorem Device.Holds.step {device : Device} {id : Nat} {address : Address} {rs : EfchResource}
    (h : device.Holds id address rs) (hops : rs.rsOps ≠ .pio) (event : Event) :
    (step device event).Holds id address rs := by
  obtain ⟨priv, hshared, hid, hentry, hrs⟩ := h
  obtain ⟨next, hnext⟩ := hshared.step event
  refine ⟨next, hnext.shared, Nat.lt_of_lt_of_le hid hnext.highwater_le, ?_,
    hnext.resources_eq address rs hrs hops⟩
  rw [hnext.entry_eq id hid, hentry]

theorem Device.Holds.resolve {device : Device} {id : Nat} {address : Address}
    {rs : EfchResource} (h : device.Holds id address rs) (hbase : rs.rsBase ≠ none)
    {file : Nat} (hfile : device.files file ≠ none) :
    device.resolve file id = .ok (address, rs) := by
  obtain ⟨priv, hshared, hid, hentry, hrs⟩ := h
  rw [Device.resolve, hshared.private?_eq, if_neg hfile]
  exact idLookup_eq_ok_iff.mpr ⟨hid, hentry, hrs, hbase⟩

theorem Device.Shared.alloc_ok {device after : Device} {priv : PrivateChar}
    (h : device.Shared priv) {file id : Nat} {alloc : Alloc}
    (halloc : device.ioctlResourceAlloc file alloc = (.ok id, after)) :
    id = priv.rt.highwater ∧ ∃ address ops rsInstance,
      efchOpsTable alloc.raType = some ops ∧ alloc.rmAlloc = .ok rsInstance ∧
      after.Holds id address ⟨rmBase ops rsInstance, ops⟩ := by
  obtain ⟨_, hfailed⟩ | ⟨new, rs, ops, rsInstance, rt, happended, _, hops, hrm, hafter⟩ :=
    h.alloc_cases file alloc
  · rw [halloc] at hfailed
    cases hfailed
  · rw [halloc] at hafter
    obtain ⟨hresult, rfl⟩ := Prod.mk.inj hafter
    have hid : id = new := by
      split at hresult
      · exact Except.ok.inj hresult
      · contradiction
    subst hid
    refine ⟨happended.id_eq, rs, ops, rsInstance, hops, hrm, _,
      (h.setPrivate _).withResources _, ?_, ?_, ?_⟩
    · rw [happended.highwater_eq, happended.id_eq]
      exact Nat.lt_succ_self _
    · rw [happended.entry_eq, if_pos rfl]
    · exact Function.update_self ..

theorem Device.Shared.alloc_full {device : Device} {priv : PrivateChar}
    (h : device.Shared priv) (hfull : priv.rt.highwater = 512) (file : Nat) (alloc : Alloc) :
    ∃ errno, device.ioctlResourceAlloc file alloc = (.error errno, device) := by
  obtain hfailed | ⟨_, _, _, _, rt, happended, _⟩ := h.alloc_cases file alloc
  · exact hfailed
  · have hle := rt.highwater_le
    have hmax := rt.size_le
    have hnext := happended.highwater_eq
    omega

structure Served (resources : Resources) (alloc : Alloc) : Prop where
  copyIn : alloc.copyIn
  version : alloc.intfVerId ≠ none
  type : efchOpsTable alloc.raType ≠ none
  memory : ciAlloc resources alloc.ciAlloc ≠ none
  allocated : ∃ rsInstance, alloc.rmAlloc = .ok rsInstance
  kmalloc : alloc.kmalloc
  copyOut : alloc.copyOut

theorem Device.Shared.alloc_served {device : Device} {priv : PrivateChar}
    (h : device.Shared priv) (hroom : priv.rt.highwater < 512) {file : Nat}
    (hfile : device.files file ≠ none) {alloc : Alloc} (hserved : Served device.resources alloc) :
    ∃ id, (device.ioctlResourceAlloc file alloc).1 = .ok id := by
  obtain ⟨hcopyIn, hversion, htype, hmemory, ⟨rsInstance, hrm⟩, hkmalloc, hcopyOut⟩ := hserved
  obtain ⟨ops, hops⟩ := Option.ne_none_iff_exists'.mp htype
  obtain ⟨rs, hrs⟩ := Option.ne_none_iff_exists'.mp hmemory
  unfold Device.ioctlResourceAlloc efchResourceAlloc
  rw [h.private?_eq, if_neg hfile]
  simp only [hcopyIn, hversion, hops, hrs, hrm, hcopyOut]
  cases hid : allocateId alloc.kmalloc priv.rt rs with
  | ok granted => exact ⟨granted.1, rfl⟩
  | error errno =>
      obtain ⟨hfull, _⟩ | ⟨_, _, hnone, _⟩ := (allocateId_error_iff _ _ _ _).mp hid
      · omega
      · rw [hkmalloc] at hnone
        contradiction

/-- Ids are shared by all files. An id that an allocation returns is never returned
again; the id of a VI resolves to that VI on every file open later, whatever was opened,
closed, allocated and done in between; and allocations are served until 512 ids are out
and then fail and change nothing. -/
theorem ids_shared (pPriv : Address) (events : List Event) :
    (∀ file alloc id after,
      (final step (init pPriv) events).ioctlResourceAlloc file alloc = (.ok id, after) →
        (∀ later other again,
          ((final step after later).ioctlResourceAlloc other again).1 ≠ .ok id) ∧
        (alloc.raType = 1 → ∃ address rsInstance, alloc.rmAlloc = .ok rsInstance ∧
          ∀ later other, (final step after later).files other ≠ none →
            (final step after later).resolve other id =
              .ok (address, ⟨some ⟨.vi, rsInstance⟩, .vi⟩))) ∧
    (∀ file alloc, (final step (init pPriv) events).files file ≠ none →
      Served (final step (init pPriv) events).resources alloc →
      (final step (init pPriv) events).idsOut < 512 →
        ∃ id, ((final step (init pPriv) events).ioctlResourceAlloc file alloc).1 = .ok id) ∧
    ∀ file alloc, (final step (init pPriv) events).idsOut = 512 →
      ∃ errno, (final step (init pPriv) events).ioctlResourceAlloc file alloc =
        (.error errno, final step (init pPriv) events) := by
  obtain ⟨priv, hshared⟩ := final_shared pPriv events
  rw [hshared.idsOut_eq]
  refine ⟨fun file alloc id after halloc => ?_,
    fun file alloc hfile hserved hroom => hshared.alloc_served hroom hfile hserved,
    fun file alloc hfull => hshared.alloc_full hfull file alloc⟩
  obtain ⟨_, address, ops, rsInstance, hops, hrm, hholds⟩ := hshared.alloc_ok halloc
  refine ⟨fun later other again hagain => ?_, fun htype => ?_⟩
  · obtain ⟨current, hcurrent, hid, _⟩ := hholds
    obtain ⟨last, hlast, hused⟩ := final_used ⟨current, hcurrent, hid⟩ later
    have hnew := (hlast.alloc_ok (Prod.ext hagain rfl)).1
    omega
  · rw [htype] at hops
    cases hops
    refine ⟨address, rsInstance, hrm, fun later other hopen => ?_⟩
    have hlater := final_invariant step
      (fun device => device.Holds id address ⟨some ⟨.vi, rsInstance⟩, .vi⟩)
      (fun _ event h => h.step (by simp) event) later after hholds
    exact hlater.resolve (by simp) hopen

theorem ids_shared_reopened :
    ∃ address rsInstance, (final step (init 0)
      [.opened 0, .alloc 0 ⟨true, some 0, 1, some 8, .ok 3, true, true⟩, .closed 0,
        .opened 1]).resolve 1 0 = .ok (address, ⟨some ⟨.vi, rsInstance⟩, .vi⟩) := by
  obtain ⟨address, rsInstance, _, hresolve⟩ :=
    ((ids_shared 0 [.opened 0]).1 0 ⟨true, some 0, 1, some 8, .ok 3, true, true⟩ 0 _ rfl).2 rfl
  exact ⟨address, rsInstance, hresolve [.closed 0, .opened 1] 1 (by decide)⟩

end VirtualSfc.Driver.CharDriver
