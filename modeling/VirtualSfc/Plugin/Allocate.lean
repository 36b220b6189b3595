import VirtualSfc.Base.Text
import VirtualSfc.Efvi.Allocator
import VirtualSfc.Plugin.Refresh

/-! `TryAllocate` of both servers. The shared-memory server asks the allocation
service for every device while it builds the response, so a call that fails half
way leaves what it has asked for. The second half is about the mounts. -/
namespace VirtualSfc.Plugin.Allocate
open Base.Text (quote)
open VsfcServer Server Refresh

def hugepages : String := "/mnt/hugepages/"
def viHugePageQueueMountPath : String := "/mnt/vi/huge"

structure ContainerAllocateResponse where
  devices : List DeviceSpec
  mounts : List Mount
deriving DecidableEq, Repr

def requestedDevice (devices : DeviceMap) (id : String) : Except String MountDevice :=
  match devices.devices.lookup id with
  | none => .error ("requested device does not exist " ++ quote id)
  | some device =>
      if device.health ≠ .healthy then .error ("requested device is not healthy " ++ quote id)
      else .ok device

section Loops

variable {σ : Type} (body : String → ContainerAllocateResponse → σ →
  Except String ContainerAllocateResponse × σ)

def allocateContainer (response : ContainerAllocateResponse) (state : σ) :
    List String → Except String ContainerAllocateResponse × σ
  | [] => (.ok response, state)
  | id :: devicesIDs =>
      match body id response state with
      | (.error message, state) => (.error message, state)
      | (.ok response, state) => allocateContainer response state devicesIDs

def allocateContainers (resp : List ContainerAllocateResponse) (state : σ) :
    List (List String) → Except String (List ContainerAllocateResponse) × σ
  | [] => (.ok resp, state)
  | devicesIDs :: req =>
      match allocateContainer body ⟨[], []⟩ state devicesIDs with
      | (.error message, state) => (.error message, state)
      | (.ok response, state) => allocateContainers (resp ++ [response]) state req

end Loops

def allocatePlain (devices : DeviceMap) (id : String) (response : ContainerAllocateResponse)
    (state : Unit) : Except String ContainerAllocateResponse × Unit :=
  match requestedDevice devices id with
  | .error message => (.error message, state)
  | .ok device =>
      (.ok ⟨response.devices ++ device.deviceSpecs, response.mounts ++ device.mounts⟩, state)

def tryAllocate (devices : DeviceMap) (req : List (List String)) :
    Except String (List ContainerAllocateResponse) :=
  (allocateContainers (allocatePlain devices) [] () req).1

def allocate (devices : DeviceMap) (req : List (List String)) :
    Except String (List ContainerAllocateResponse) × DeviceMap :=
  match tryAllocate devices req with
  | .error message => (.error message, devices)
  | .ok cap => (.ok cap, devices)

def Available (devices : DeviceMap) (id : String) : Prop :=
  ∃ device, devices.devices.lookup id = some device ∧ device.health = .healthy

def granted (devices : DeviceMap) (devicesIDs : List String) : ContainerAllocateResponse :=
  let requested := devicesIDs.filterMap fun id => devices.devices.lookup id
  ⟨requested.flatMap (·.deviceSpecs), requested.flatMap (·.mounts)⟩

theorem allocatePlain_cases (devices : DeviceMap) (id : String)
    (response : ContainerAllocateResponse) :
    (Available devices id ∧ allocatePlain devices id response () =
      (.ok ⟨response.devices ++ (granted devices [id]).devices,
        response.mounts ++ (granted devices [id]).mounts⟩, ())) ∨
    (¬ Available devices id ∧
      ∃ message, allocatePlain devices id response () = (.error message, ())) := by
  unfold allocatePlain requestedDevice
  cases hlookup : devices.devices.lookup id with
  | none =>
      apply Or.inr
      simp [Available, hlookup]
  | some device =>
      by_cases hhealth : device.health = .healthy
      · apply Or.inl
        simp [Available, hlookup, hhealth, granted]
      · apply Or.inr
        simp [Available, hlookup, hhealth]

theorem granted_append (devices : DeviceMap) (left right : List String) :
    granted devices (left ++ right) =
      ⟨(granted devices left).devices ++ (granted devices right).devices,
        (granted devices left).mounts ++ (granted devices right).mounts⟩ := by
  simp [granted, List.filterMap_append]

theorem allocateContainer_plain (devices : DeviceMap) (response : ContainerAllocateResponse)
    (devicesIDs : List String) :
    ((∀ id ∈ devicesIDs, Available devices id) ∧
      (allocateContainer (allocatePlain devices) response () devicesIDs).1 =
        .ok ⟨response.devices ++ (granted devices devicesIDs).devices,
          response.mounts ++ (granted devices devicesIDs).mounts⟩) ∨
    ((∃ id ∈ devicesIDs, ¬ Available devices id) ∧ ∃ message,
      (allocateContainer (allocatePlain devices) response () devicesIDs).1 = .error message) := by
  induction devicesIDs generalizing response with
  | nil => simp [allocateContainer, granted]
  | cons id devicesIDs ih =>
      rw [List.forall_mem_cons, List.exists_mem_cons_iff, allocateContainer,
        ← List.singleton_append, granted_append]
      rcases allocatePlain_cases devices id response with
        ⟨havailable, hplain⟩ | ⟨hmissing, message, hplain⟩
      · rw [hplain]
        simpa [havailable] using ih ⟨response.devices ++ (granted devices [id]).devices,
          response.mounts ++ (granted devices [id]).mounts⟩
      · rw [hplain]
        exact Or.inr ⟨Or.inl hmissing, message, rfl⟩

theorem allocateContainers_plain (devices : DeviceMap) (resp : List ContainerAllocateResponse)
    (req : List (List String)) :
    ((∀ devicesIDs ∈ req, ∀ id ∈ devicesIDs, Available devices id) ∧
      (allocateContainers (allocatePlain devices) resp () req).1 =
        .ok (resp ++ req.map (granted devices))) ∨
    ((∃ devicesIDs ∈ req, ∃ id ∈ devicesIDs, ¬ Available devices id) ∧ ∃ message,
      (allocateContainers (allocatePlain devices) resp () req).1 = .error message) := by
  induction req generalizing resp with
  | nil => simp [allocateContainers]
  | cons devicesIDs req ih =>
      rw [List.forall_mem_cons, List.exists_mem_cons_iff, allocateContainers]
      have hcontainer := allocateContainer_plain devices ⟨[], []⟩ devicesIDs
      cases hresult : allocateContainer (allocatePlain devices) ⟨[], []⟩ () devicesIDs with
      | mk result state =>
          rw [hresult] at hcontainer
          rcases hcontainer with ⟨havailable, hok⟩ | ⟨hmissing, message, herror⟩
          · have hgranted : result = .ok (granted devices devicesIDs) := by simpa using hok
            rw [hgranted]
            have hnone : ¬ ∃ id ∈ devicesIDs, ¬ Available devices id := by simpa using havailable
            rw [and_iff_right havailable, or_iff_right hnone]
            simpa using ih (resp ++ [granted devices devicesIDs])
          · have hfailed : result = .error message := herror
            rw [hfailed]
            exact Or.inr ⟨Or.inl hmissing, message, rfl⟩

/-- An answer to a request: an error exactly for an ID that is unknown or not
healthy, else one response for each container, in order; the map stays. -/
structure Answers (devices : DeviceMap) (req : List (List String))
    (outcome : Except String (List ContainerAllocateResponse) × DeviceMap) : Prop where
  refused : (∃ message, outcome.1 = .error message) ↔
    ∃ devicesIDs ∈ req, ∃ id ∈ devicesIDs, ¬ Available devices id
  answered : ∀ resp, outcome.1 = .ok resp → resp = req.map (granted devices)
  unchanged : outcome.2 = devices

theorem allocate_answers (devices : DeviceMap) (req : List (List String)) :
    Answers devices req (allocate devices req) := by
  unfold allocate tryAllocate
  rcases allocateContainers_plain devices [] req with
    ⟨havailable, hok⟩ | ⟨hmissing, message, herror⟩
  · rw [hok]
    refine ⟨?_, fun resp hresp => (Except.ok.inj hresp).symm, rfl⟩
    simpa using havailable
  · rw [herror]
    exact ⟨iff_of_true ⟨message, rfl⟩ hmissing, fun resp hresp => by simp at hresp, rfl⟩

structure ViResource where
  code : Int
  message : String
  viPath : String
  queuePath : String
deriving DecidableEq, Repr

/-- What becomes of one RPC: the reply or the error that the client sees, and
whether the device is applied although the call did not succeed. -/
structure Answer where
  reply : Except String ViResource
  leftover : Bool

def Answer.succeeded (answer : Answer) : Bool :=
  match answer.reply with
  | .error _ => false
  | .ok viResource => viResource.code == 0

def Answer.applies (answer : Answer) : Bool := answer.succeeded || answer.leftover

/-- The service with the answers that it will give and the devices applied. -/
structure AllocService where
  answers : Nat → Answer
  calls : Nat
  applied : Finset Efvi.Allocator.Request

def AllocService.applyVirtualDevice (service : AllocService)
    (request : Efvi.Allocator.Request) : Except String ViResource × AllocService :=
  let answer := service.answers service.calls
  (answer.reply, { service with
    calls := service.calls + 1
    applied := if answer.applies then insert request service.applied else service.applied })

def applyRequest (device : MountDevice) : Efvi.Allocator.Request := ⟨device.nic, device.name⟩

def hugepagesMount (device : MountDevice) : Mount :=
  ⟨hugepages ++ device.name, viHugePageQueueMountPath, false⟩

theorem hugepagesMount_containerPath (device : MountDevice) :
    (hugepagesMount device).containerPath = viHugePageQueueMountPath := rfl

def allocateDevice (devices : DeviceMap) (id : String) (response : ContainerAllocateResponse)
    (service : AllocService) : Except String ContainerAllocateResponse × AllocService :=
  match requestedDevice devices id with
  | .error message => (.error message, service)
  | .ok device =>
      match service.applyVirtualDevice (applyRequest device) with
      | (.error message, service) =>
          (.error ("requested device apply failed err: " ++ message), service)
      | (.ok viResource, service) =>
          if viResource.code ≠ 0 then
            (.error ("requested device apply error: " ++ quote viResource.message), service)
          else
            let mounts := if viResource.queuePath ≠ "" then
              response.mounts ++ [hugepagesMount device] else response.mounts
            (.ok ⟨response.devices ++ device.deviceSpecs, mounts ++ device.mounts⟩, service)

/-- `memVSfcPluginServer.TryAllocate`. A failed dial ends the process, as a panic
does. -/
def memTryAllocate (dial : Except String Unit) (devices : DeviceMap)
    (req : List (List String)) (service : AllocService) :
    Except Fault (List ContainerAllocateResponse) × AllocService :=
  match dial with
  | .error message => (.error (.panic ("dial to allocate server failed: " ++ message)), service)
  | .ok () =>
      let (result, service) := allocateContainers (allocateDevice devices) [] service req
      (result.mapError .error, service)

/-! What a call asks for. -/

def asked (answers : Nat → Answer) (calls : Nat) : List String → List (String × Answer)
  | [] => []
  | id :: devicesIDs => (id, answers calls) :: asked answers (calls + 1) devicesIDs

theorem asked_append (answers : Nat → Answer) (calls : Nat) (left right : List String) :
    asked answers calls (left ++ right) =
      asked answers calls left ++ asked answers (calls + left.length) right := by
  induction left generalizing calls with
  | nil => rfl
  | cons id left ih =>
      rw [List.cons_append, asked, asked, ih, List.cons_append, List.length_cons]
      congr 3
      omega

def passes (devices : DeviceMap) (pair : String × Answer) : Bool :=
  (requestedDevice devices pair.1).isOk && pair.2.succeeded

theorem requestedDevice_of_passes {devices : DeviceMap} {pair : String × Answer}
    (h : passes devices pair = true) : ∃ device, requestedDevice devices pair.1 = .ok device := by
  rw [passes, Bool.and_eq_true] at h
  cases hdevice : requestedDevice devices pair.1 with
  | error message => simp [hdevice] at h
  | ok device => exact ⟨device, rfl⟩

/-- The pairs up to the first that does not pass, which is included. -/
def attempted (devices : DeviceMap) (pairs : List (String × Answer)) : List (String × Answer) :=
  pairs.take ((pairs.takeWhile (passes devices)).length + 1)

def appliedBy (devices : DeviceMap) (pairs : List (String × Answer)) :
    List Efvi.Allocator.Request :=
  pairs.filterMap fun pair =>
    if pair.2.applies then (requestedDevice devices pair.1).toOption.map applyRequest else none

theorem attempted_cons (devices : DeviceMap) (pair : String × Answer)
    (pairs : List (String × Answer)) :
    attempted devices (pair :: pairs) =
      pair :: if passes devices pair then attempted devices pairs else [] := by
  cases hpasses : passes devices pair with
  | false => simp [attempted, hpasses]
  | true => simp [attempted, hpasses]

theorem attempted_append (devices : DeviceMap) (left right : List (String × Answer)) :
    attempted devices (left ++ right) =
      if left.all (passes devices) then left ++ attempted devices right
      else attempted devices left := by
  induction left with
  | nil => rfl
  | cons pair left ih =>
      rw [List.cons_append, attempted_cons, attempted_cons, ih, List.all_cons]
      cases passes devices pair with
      | false => rfl
      | true =>
          rw [Bool.true_and, if_pos rfl, if_pos rfl]
          split <;> rfl

theorem attempted_all {devices : DeviceMap} {pairs : List (String × Answer)}
    (h : pairs.all (passes devices) = true) : attempted devices pairs = pairs := by
  have happend := attempted_append devices pairs []
  rw [List.append_nil, if_pos h] at happend
  exact happend.trans (List.append_nil pairs)

structure Effect (devices : DeviceMap) (service next : AllocService) (ok : Bool)
    (ids : List String) : Prop where
  answers : next.answers = service.answers
  succeeds : ok = (asked service.answers service.calls ids).all (passes devices)
  calls : ok = true → next.calls = service.calls + ids.length
  applied : ∀ request, request ∈ next.applied ↔ request ∈ service.applied ∨
    request ∈ appliedBy devices
      (attempted devices (asked service.answers service.calls ids))

theorem Effect.append {devices : DeviceMap} {service between next : AllocService} {ok : Bool}
    {left right : List String} (hleft : Effect devices service between true left)
    (hright : Effect devices between next ok right) :
    Effect devices service next ok (left ++ right) := by
  have hpairs : asked service.answers service.calls (left ++ right) =
      asked service.answers service.calls left ++
        asked between.answers between.calls right := by
    rw [asked_append, hleft.answers, hleft.calls rfl]
  refine ⟨hright.answers.trans hleft.answers, ?_, fun hok => ?_, fun request => ?_⟩
  · rw [hpairs, List.all_append, ← hleft.succeeds, Bool.true_and]
    exact hright.succeeds
  · rw [hright.calls hok, hleft.calls rfl, List.length_append]
    omega
  · rw [hpairs, attempted_append, if_pos hleft.succeeds.symm, appliedBy, List.filterMap_append,
      List.mem_append, hright.applied, hleft.applied, attempted_all hleft.succeeds.symm,
      or_assoc]
    rfl

theorem Effect.stop {devices : DeviceMap} {service next : AllocService} {left : List String}
    (h : Effect devices service next false left) (right : List String) :
    Effect devices service next false (left ++ right) := by
  refine ⟨h.answers, ?_, by simp, fun request => ?_⟩
  · rw [asked_append, List.all_append, ← h.succeeds, Bool.false_and]
  · rw [asked_append, attempted_append, ← h.succeeds]
    exact h.applied request

theorem applyVirtualDevice_effect {devices : DeviceMap} {id : String} {device : MountDevice}
    (hdevice : requestedDevice devices id = .ok device) (service : AllocService) :
    Effect devices service (service.applyVirtualDevice (applyRequest device)).2
      (service.answers service.calls).succeeded [id] := by
  have hok : (requestedDevice devices id).isOk = true := by rw [hdevice]; rfl
  refine ⟨rfl, by simp [asked, passes, hok], fun _ => rfl, fun request => ?_⟩
  cases happlies : (service.answers service.calls).applies with
  | false => simp [AllocService.applyVirtualDevice, asked, attempted, appliedBy, happlies]
  | true =>
      simp [AllocService.applyVirtualDevice, asked, attempted, appliedBy, happlies, hdevice,
        Except.toOption, or_comm]

theorem allocateDevice_effect (devices : DeviceMap) (id : String)
    (response : ContainerAllocateResponse) (service : AllocService) :
    Effect devices service (allocateDevice devices id response service).2
      (allocateDevice devices id response service).1.isOk [id] := by
  unfold allocateDevice
  cases hdevice : requestedDevice devices id with
  | error message =>
      refine ⟨rfl, ?_, ?_, fun request => ?_⟩
      · simp [asked, passes, hdevice]
      · simp
      · simp [asked, attempted, appliedBy, hdevice, Except.toOption]
  | ok device =>
      have heffect := applyVirtualDevice_effect hdevice service
      cases hreply : (service.answers service.calls).reply with
      | error message =>
          simpa [AllocService.applyVirtualDevice, Answer.succeeded, hreply] using heffect
      | ok viResource =>
          by_cases hcode : viResource.code = 0
          · simpa [AllocService.applyVirtualDevice, Answer.succeeded, hreply, hcode] using heffect
          · have hfailed : (viResource.code == 0) = false := by simpa using hcode
            simpa [AllocService.applyVirtualDevice, Answer.succeeded, hreply, hcode, hfailed]
              using heffect

theorem allocateContainer_effect (devices : DeviceMap) (response : ContainerAllocateResponse)
    (service : AllocService) (devicesIDs : List String) :
    Effect devices service
      (allocateContainer (allocateDevice devices) response service devicesIDs).2
      (allocateContainer (allocateDevice devices) response service devicesIDs).1.isOk
      devicesIDs := by
  induction devicesIDs generalizing response service with
  | nil => exact ⟨rfl, rfl, fun _ => rfl, by simp [asked, attempted, appliedBy, allocateContainer]⟩
  | cons id devicesIDs ih =>
      have hdevice := allocateDevice_effect devices id response service
      rw [allocateContainer]
      cases hresult : allocateDevice devices id response service with
      | mk result next =>
          rw [hresult] at hdevice
          cases result with
          | error message => exact hdevice.stop devicesIDs
          | ok response => exact hdevice.append (ih response next)

theorem allocateContainers_effect (devices : DeviceMap)
    (resp : List ContainerAllocateResponse) (service : AllocService)
    (req : List (List String)) :
    Effect devices service (allocateContainers (allocateDevice devices) resp service req).2
      (allocateContainers (allocateDevice devices) resp service req).1.isOk req.flatten := by
  induction req generalizing resp service with
  | nil => exact ⟨rfl, rfl, fun _ => rfl, by simp [asked, attempted, appliedBy, allocateContainers]⟩
  | cons devicesIDs req ih =>
      have hcontainer := allocateContainer_effect devices ⟨[], []⟩ service devicesIDs
      rw [allocateContainers, List.flatten_cons]
      cases hresult : allocateContainer (allocateDevice devices) ⟨[], []⟩ service devicesIDs with
      | mk result next =>
          rw [hresult] at hcontainer
          cases result with
          | error message => exact hcontainer.stop req.flatten
          | ok response => exact hcontainer.append (ih _ next)

/-- A failed call leaves nothing applied that was not applied before exactly when
nothing fails, or everything that the service applied up to and including the
first failure was applied already. -/
theorem memTryAllocate_all_or_nothing_iff (dial : Except String Unit) (devices : DeviceMap)
    (req : List (List String)) (service : AllocService) :
    (∀ message, (memTryAllocate dial devices req service).1 = .error (.error message) →
      ∀ request ∈ (memTryAllocate dial devices req service).2.applied,
        request ∈ service.applied) ↔
    dial.isOk = false ∨
      (asked service.answers service.calls req.flatten).all (passes devices) = true ∨
      ∀ request ∈ appliedBy devices
          (attempted devices (asked service.answers service.calls req.flatten)),
        request ∈ service.applied := by
  cases dial with
  | error message => simp [memTryAllocate]
  | ok done =>
      have heffect := allocateContainers_effect devices [] service req
      rw [← heffect.succeeds]
      cases hresult : allocateContainers (allocateDevice devices) [] service req with
      | mk result next =>
          rw [hresult] at heffect
          have hunchanged : (∀ request ∈ next.applied, request ∈ service.applied) ↔
              ∀ request ∈ appliedBy devices
                (attempted devices (asked service.answers service.calls req.flatten)),
                request ∈ service.applied := by
            simp only [heffect.applied, or_imp, imp_self, true_and]
          cases result with
          | error message =>
              simpa [memTryAllocate, hresult, Except.mapError]
                using hunchanged
          | ok resp => simp [memTryAllocate, hresult, Except.mapError]

def granting (queuePath : String) : AllocService where
  answers _ := ⟨.ok ⟨0, "", "", queuePath⟩, false⟩
  calls := 0
  applied := ∅

theorem allocateDevice_granting {service : AllocService}
    (h : service.answers = (granting "").answers) (devices : DeviceMap) (id : String)
    (response : ContainerAllocateResponse) :
    (allocateDevice devices id response service).1 =
      (allocatePlain devices id response ()).1 := by
  unfold allocateDevice allocatePlain
  cases requestedDevice devices id with
  | error message => rfl
  | ok device => simp [AllocService.applyVirtualDevice, h, granting]

theorem allocateContainer_granting {service : AllocService}
    (h : service.answers = (granting "").answers) (devices : DeviceMap)
    (response : ContainerAllocateResponse) (devicesIDs : List String) :
    (allocateContainer (allocateDevice devices) response service devicesIDs).1 =
      (allocateContainer (allocatePlain devices) response () devicesIDs).1 := by
  induction devicesIDs generalizing response service with
  | nil => rfl
  | cons id devicesIDs ih =>
      have hbody := allocateDevice_granting h devices id response
      have hanswers := (allocateDevice_effect devices id response service).answers
      rw [allocateContainer, allocateContainer]
      cases hmem : allocateDevice devices id response service with
      | mk result next =>
          cases hplain : allocatePlain devices id response () with
          | mk plain state =>
              rw [hmem, hplain] at hbody
              rw [hmem] at hanswers
              cases (show result = plain from hbody)
              cases result with
              | error message => rfl
              | ok response => exact ih (hanswers.trans h) response

/-- A service that grants everything without huge pages makes the two servers
answer alike. -/
theorem allocateContainers_granting {service : AllocService}
    (h : service.answers = (granting "").answers) (devices : DeviceMap)
    (resp : List ContainerAllocateResponse) (req : List (List String)) :
    (allocateContainers (allocateDevice devices) resp service req).1 =
      (allocateContainers (allocatePlain devices) resp () req).1 := by
  induction req generalizing resp service with
  | nil => rfl
  | cons devicesIDs req ih =>
      have hbody := allocateContainer_granting h devices ⟨[], []⟩ devicesIDs
      have hanswers := (allocateContainer_effect devices ⟨[], []⟩ service devicesIDs).answers
      rw [allocateContainers, allocateContainers]
      cases hmem : allocateContainer (allocateDevice devices) ⟨[], []⟩ service devicesIDs with
      | mk result next =>
          cases hplain : allocateContainer (allocatePlain devices) ⟨[], []⟩ () devicesIDs with
          | mk plain state =>
              rw [hmem, hplain] at hbody
              rw [hmem] at hanswers
              cases (show result = plain from hbody)
              cases result with
              | error message => rfl
              | ok response => exact ih (hanswers.trans h) _

theorem memTryAllocate_granting (devices : DeviceMap) (req : List (List String)) :
    (memTryAllocate (.ok ()) devices req (granting "")).1 =
      (tryAllocate devices req).mapError .error := by
  rw [tryAllocate, ← allocateContainers_granting rfl, memTryAllocate]

/-- The second ID is unknown, and the device of the first one stays applied. -/
theorem memTryAllocate_leaves_first :
    (memTryAllocate (.ok ()) (.ofList [⟨"a", .healthy, "vi01", "ens1", [], []⟩])
        [["a", "b"]] (granting "")).1 =
      .error (.error "requested device does not exist \"b\"") ∧
    ⟨"ens1", "vi01"⟩ ∈ (memTryAllocate (.ok ())
      (.ofList [⟨"a", .healthy, "vi01", "ens1", [], []⟩]) [["a", "b"]] (granting "")).2.applied ∧
    ⟨"ens1", "vi01"⟩ ∉ (granting "").applied := by
  decide +kernel

def answerOf (status : Efvi.Allocator.Status) (response : Efvi.Allocator.ViResource) :
    Answer where
  reply := match status with
    | .ok => .ok ⟨response.code, "", response.vipath, response.queuepath⟩
    | .notFound message => .error ("rpc error: code = NotFound desc = " ++ message)
    | .internal message => .error ("rpc error: code = Internal desc = " ++ message)
  leftover := false

theorem answerOf_applies {nametoindex : String → Nat} {env : Efvi.Allocator.Env}
    {request : Efvi.Allocator.Request} {state next : Efvi.Allocator.State}
    (h : Efvi.Allocator.Invariant state) {status : Efvi.Allocator.Status}
    {response : Efvi.Allocator.ViResource}
    (happly : Efvi.Allocator.applyVirtualDevice nametoindex env request state =
      (status, response, next)) :
    next.constructed.map some = state.constructed.map some ++
      if (answerOf status response).applies then [request.key nametoindex] else [] := by
  have hcode : response.code = 0 := by
    have hzero := Efvi.Allocator.applyVirtualDevice_code nametoindex env request state
    rwa [happly] at hzero
  rcases Efvi.Allocator.applyVirtualDevice_spec nametoindex env request h happly with
    ⟨_, _, _, _, hconstructed⟩
  rw [hconstructed]
  cases status with
  | ok => simp [answerOf, Answer.applies, Answer.succeeded, hcode]
  | notFound message => simp [answerOf, Answer.applies, Answer.succeeded]
  | internal message => simp [answerOf, Answer.applies, Answer.succeeded]

/-! The mounts of a response. -/

def mountsFor (devices : DeviceMap) (pair : String × Answer) : List Mount :=
  match requestedDevice devices pair.1, pair.2.reply with
  | .ok device, .ok viResource =>
      (if viResource.queuePath ≠ "" then [hugepagesMount device] else []) ++ device.mounts
  | _, _ => []

theorem allocateDevice_mounts {devices : DeviceMap} {id : String}
    {response final : ContainerAllocateResponse} {service next : AllocService}
    (h : allocateDevice devices id response service = (.ok final, next)) :
    final.mounts = response.mounts ++ mountsFor devices (id, service.answers service.calls) := by
  unfold allocateDevice at h
  split at h
  · simp at h
  · rename_i device hdevice
    split at h
    · simp at h
    · rename_i viResource after happly
      have hreply : (service.answers service.calls).reply = .ok viResource :=
        congrArg Prod.fst happly
      split at h
      · simp at h
      · simp only [Prod.mk.injEq, Except.ok.injEq] at h
        rw [← h.1, mountsFor, hdevice, hreply]
        by_cases hqueue : viResource.queuePath = ""
        · simp [hqueue]
        · simp [hqueue]

theorem allocateContainer_mounts {devices : DeviceMap} {devicesIDs : List String}
    {response final : ContainerAllocateResponse} {service next : AllocService}
    (h : allocateContainer (allocateDevice devices) response service devicesIDs =
      (.ok final, next)) :
    final.mounts = response.mounts ++
      (asked service.answers service.calls devicesIDs).flatMap (mountsFor devices) := by
  induction devicesIDs generalizing response service with
  | nil =>
      cases h
      simp [asked]
  | cons id devicesIDs ih =>
      rw [allocateContainer] at h
      split at h
      · simp at h
      · rename_i between after hdevice
        have heffect := allocateDevice_effect devices id response service
        rw [hdevice] at heffect
        rw [ih h, allocateDevice_mounts hdevice, asked, List.flatMap_cons, heffect.answers,
          heffect.calls rfl, List.append_assoc]
        rfl

def askedBy (answers : Nat → Answer) (calls : Nat) :
    List (List String) → List (List (String × Answer))
  | [] => []
  | devicesIDs :: req =>
      asked answers calls devicesIDs :: askedBy answers (calls + devicesIDs.length) req

theorem flatten_askedBy (answers : Nat → Answer) (calls : Nat) (req : List (List String)) :
    (askedBy answers calls req).flatten = asked answers calls req.flatten := by
  induction req generalizing calls with
  | nil => rfl
  | cons devicesIDs req ih =>
      rw [askedBy, List.flatten_cons, ih, List.flatten_cons, asked_append]

theorem allocateContainers_mounts {devices : DeviceMap} {req : List (List String)}
    {resp final : List ContainerAllocateResponse} {service next : AllocService}
    (h : allocateContainers (allocateDevice devices) resp service req = (.ok final, next)) :
    ∃ added, final = resp ++ added ∧
      List.Forall₂ (fun response pairs => response.mounts = pairs.flatMap (mountsFor devices))
        added (askedBy service.answers service.calls req) := by
  induction req generalizing resp service with
  | nil =>
      cases h
      exact ⟨[], (List.append_nil _).symm, List.Forall₂.nil⟩
  | cons devicesIDs req ih =>
      rw [allocateContainers] at h
      split at h
      · simp at h
      · rename_i response after hcontainer
        have heffect := allocateContainer_effect devices ⟨[], []⟩ service devicesIDs
        rw [hcontainer] at heffect
        rcases ih h with ⟨added, hfinal, hmounts⟩
        rw [heffect.answers, heffect.calls rfl] at hmounts
        refine ⟨response :: added, ?_, List.Forall₂.cons ?_ hmounts⟩
        · rw [hfinal, List.append_assoc, List.singleton_append]
        · exact allocateContainer_mounts hcontainer

theorem memTryAllocate_ok {dial : Except String Unit} {devices : DeviceMap}
    {req : List (List String)} {service next : AllocService}
    {resp : List ContainerAllocateResponse}
    (h : memTryAllocate dial devices req service = (.ok resp, next)) :
    List.Forall₂ (fun response pairs => response.mounts = pairs.flatMap (mountsFor devices))
        resp (askedBy service.answers service.calls req) ∧
      ∀ pairs ∈ askedBy service.answers service.calls req, ∀ pair ∈ pairs,
        passes devices pair = true := by
  cases dial with
  | error message => simp [memTryAllocate] at h
  | ok done =>
      cases hresult : allocateContainers (allocateDevice devices) [] service req with
      | mk result after =>
          cases result with
          | error message => simp [memTryAllocate, hresult, Except.mapError] at h
          | ok final =>
              have hall := (allocateContainers_effect devices [] service req).succeeds
              rw [hresult, ← flatten_askedBy] at hall
              rcases allocateContainers_mounts hresult with ⟨added, hfinal, hmounts⟩
              simp only [memTryAllocate, hresult, Except.mapError, Prod.mk.injEq,
                Except.ok.injEq] at h
              rw [List.nil_append] at hfinal
              rw [← h.1, hfinal]
              refine ⟨hmounts, fun pairs hpairs pair hpair => ?_⟩
              exact List.all_eq_true.mp hall.symm pair
                (List.mem_flatten.mpr ⟨pairs, hpairs, hpair⟩)

theorem forall₂_iff {α β : Type*} {P Q : α → β → Prop} {R : β → Prop} {left : List α}
    {right : List β} (hmatch : List.Forall₂ Q left right)
    (h : ∀ a, ∀ b ∈ right, Q a b → (P a b ↔ R b)) :
    List.Forall₂ P left right ↔ ∀ b ∈ right, R b := by
  induction hmatch with
  | nil => simp
  | cons hfirst hrest ih =>
      rw [List.forall₂_cons, List.forall_mem_cons, h _ _ List.mem_cons_self hfirst,
        ih fun a b hb => h a b (List.mem_cons_of_mem _ hb)]

theorem askedBy_nil_iff (answers : Nat → Answer) (calls : Nat) (req : List (List String)) :
    (∀ pairs ∈ askedBy answers calls req, pairs = []) ↔
      ∀ devicesIDs ∈ req, devicesIDs = [] := by
  induction req generalizing calls with
  | nil => simp [askedBy]
  | cons devicesIDs req ih =>
      rw [askedBy, List.forall_mem_cons, List.forall_mem_cons, ih]
      cases devicesIDs with
      | nil => simp [asked]
      | cons id devicesIDs => simp [asked]

def oneNic : Placement := ⟨0, "ens1", "hft/a"⟩

theorem served_oneNic : served twoNics "hft/a" ["ens1"] = [oneNic] := by decide

theorem oneNic_sha1 : Sha1InjectiveOn (hashedFor (served twoNics "hft/a" ["ens1"])) := by
  have hmem : ∀ input ∈ hashedFor (served twoNics "hft/a" ["ens1"]),
      input ∈ hashedFor (served twoNics "hft/a" ["ens1", "ens2"]) := by
    rw [served_oneNic, served_twoNics, hashedFor, List.flatMap_singleton]
    exact fun input hinput => List.mem_append_left _ hinput
  exact fun left hleft right hright => twoNics_sha1 left (hmem left hleft) right (hmem right hright)

theorem oneNic_result :
    Call.result canonicalCodec "n1" ⟨.memVSfc, freshServer "hft/a", twoNics, ["ens1"]⟩ =
      .ok oneNic.devices := by
  rcases freshServer_refresh ["ens1"] with ⟨after, hrefresh⟩
  simp [Call.result, memRefreshDevices, hrefresh, served_oneNic]

def oneNicMap : DeviceMap := (refreshDevices .empty (.ok oneNic.devices)).2

theorem oneNic_requested {i : Nat} (hi : i ∈ numbers) :
    requestedDevice oneNicMap (oneNic.device i).id = .ok (oneNic.device i) := by
  have hids := served_ids_nodup twoNics "hft/a" (by decide : ["ens1"].Nodup) oneNic_sha1
  rw [served_oneNic, List.flatMap_singleton] at hids
  have hlookup := (DeviceMap.lookup_ofList hids (oneNic.device i).id (oneNic.device i)).mpr
    ⟨List.mem_map_of_mem hi, rfl⟩
  rw [requestedDevice, oneNicMap, refreshDevices_snd, hlookup]
  rfl

theorem memTryAllocate_of_passes {devices : DeviceMap} {req : List (List String)}
    {service : AllocService}
    (h : ∀ pair ∈ asked service.answers service.calls req.flatten, passes devices pair = true) :
    ∃ resp next, memTryAllocate (.ok ()) devices req service = (.ok resp, next) := by
  have hsucceeds := (allocateContainers_effect devices [] service req).succeeds
  rw [List.all_eq_true.mpr h] at hsucceeds
  cases hresult : allocateContainers (allocateDevice devices) [] service req with
  | mk result next =>
      rw [hresult] at hsucceeds
      cases result with
      | error message => simp at hsucceeds
      | ok resp => exact ⟨resp, next, by simp [memTryAllocate, hresult, Except.mapError]⟩

theorem oneNic_memTryAllocate {chosen : List Nat} (hchosen : ∀ i ∈ chosen, i ∈ numbers)
    {service : AllocService} (hgrants : ∀ call, (service.answers call).succeeded = true) :
    ∃ response next, memTryAllocate (.ok ()) oneNicMap
        [chosen.map fun i => (oneNic.device i).id] service = (.ok [response], next) ∧
      response.mounts = (asked service.answers service.calls
        (chosen.map fun i => (oneNic.device i).id)).flatMap (mountsFor oneNicMap) := by
  have hpasses (calls : Nat) : ∀ pair ∈ asked service.answers calls
      (chosen.map fun i => (oneNic.device i).id), passes oneNicMap pair = true := by
    induction chosen generalizing calls with
    | nil => simp [asked]
    | cons i rest ih =>
        rw [List.forall_mem_cons] at hchosen
        rw [List.map_cons, asked, List.forall_mem_cons]
        refine ⟨?_, ih hchosen.2 (calls + 1)⟩
        simp [passes, oneNic_requested hchosen.1, hgrants]
  rcases @memTryAllocate_of_passes oneNicMap [chosen.map fun i => (oneNic.device i).id] service
    (by simpa using hpasses service.calls) with ⟨resp, next, htry⟩
  rcases List.forall₂_cons_right_iff.mp (memTryAllocate_ok htry).1 with
    ⟨response, rest, hmounts, hrest, hresp⟩
  rw [List.forall₂_nil_right_iff.mp hrest] at hresp
  exact ⟨response, next, hresp ▸ htry, hmounts⟩

theorem oneNic_ids_ne : (oneNic.device 1).id ≠ (oneNic.device 2).id := by
  intro hsame
  have hmem : oneNic ∈ served twoNics "hft/a" ["ens1"] := by decide
  have hnumber :=
    ((Placement.id_inj oneNic_sha1 hmem hmem (by decide) (by decide)).mp hsame).2
  exact absurd hnumber (by decide)

section Advertised

variable {codec : DeviceInfoCodec} {node : String} {dps : VSfcPluginServer} {config : Config}
  {interfaces : List String} {returned : List MountDevice}

theorem requestedDevice_generated
    (hreturned : Call.result codec node ⟨.memVSfc, dps, config, interfaces⟩ = .ok returned)
    {old : DeviceMap} {id : String} {device : MountDevice}
    (h : requestedDevice (refreshDevices old (.ok returned)).2 id = .ok device) :
    device.id = id ∧ ∃ place ∈ served config dps.resource interfaces, ∃ i ∈ numbers,
      place.device i = device := by
  rw [refreshDevices_snd] at h
  unfold requestedDevice at h
  split at h
  · contradiction
  · rename_i stored hlookup
    split at h
    · contradiction
    · rw [← Except.ok.inj h]
      refine ⟨(DeviceMap.ofList returned).keyed _ _ hlookup, ?_⟩
      have hmem := DeviceMap.mem_of_lookup_ofList hlookup
      have hplaced : returned =
          (Call.placed codec node ⟨.memVSfc, dps, config, interfaces⟩).flatMap
            Placement.devices := by
        rw [← Call.returned_eq, Call.returned, hreturned]
      rw [hplaced] at hmem
      rcases List.mem_flatMap.mp hmem with ⟨place, hplace, hdevice⟩
      rcases List.mem_map.mp hdevice with ⟨i, hi, hdevice⟩
      unfold Call.placed at hplace
      split at hplace
      · exact ⟨place, hplace, i, hi, hdevice⟩
      · simp at hplace

def queued (pair : String × Answer) : Bool :=
  match pair.2.reply with
  | .error _ => false
  | .ok viResource => viResource.queuePath ≠ ""

theorem mem_mounts
    (hreturned : Call.result codec node ⟨.memVSfc, dps, config, interfaces⟩ = .ok returned)
    {old : DeviceMap} {pairs : List (String × Answer)} {mount : Mount} :
    mount ∈ pairs.flatMap (mountsFor (refreshDevices old (.ok returned)).2) ↔
      ∃ pair ∈ pairs, queued pair = true ∧ ∃ device,
        requestedDevice (refreshDevices old (.ok returned)).2 pair.1 = .ok device ∧
          mount = hugepagesMount device := by
  rw [List.mem_flatMap]
  refine exists_congr fun pair => and_congr_right fun _ => ?_
  cases hdevice : requestedDevice (refreshDevices old (.ok returned)).2 pair.1 with
  | error message => simp [mountsFor, hdevice]
  | ok device =>
      rcases requestedDevice_generated hreturned hdevice with ⟨_, place, _, i, _, hgenerated⟩
      have hmounts : device.mounts = [] := by rw [← hgenerated, Placement.device]
      cases hreply : pair.2.reply with
      | error message => simp [mountsFor, queued, hdevice, hreply]
      | ok viResource => simp [mountsFor, queued, hdevice, hreply, hmounts]

/-- The container finds the interface of every requested device, and its queue
exactly when there is one. -/
def GetsVi (devices : DeviceMap) (response : ContainerAllocateResponse)
    (pairs : List (String × Answer)) : Prop :=
  ∀ pair ∈ pairs, ∀ device, requestedDevice devices pair.1 = .ok device →
    (∃ mount ∈ response.mounts, mount.hostPath = sharedMemory ++ device.name ∧
      mount.containerPath = viContainerMountPath) ∧
    ((∃ mount ∈ response.mounts, mount.hostPath = hugepages ++ device.name) ↔
      queued pair = true)

theorem getsVi_iff
    (hreturned : Call.result codec node ⟨.memVSfc, dps, config, interfaces⟩ = .ok returned)
    {old : DeviceMap} {response : ContainerAllocateResponse} {pairs : List (String × Answer)}
    (hmounts : response.mounts = pairs.flatMap (mountsFor (refreshDevices old (.ok returned)).2))
    (hpasses : ∀ pair ∈ pairs, passes (refreshDevices old (.ok returned)).2 pair = true) :
    GetsVi (refreshDevices old (.ok returned)).2 response pairs ↔ pairs = [] := by
  refine ⟨fun hgets => ?_, fun hempty => by simp [hempty, GetsVi]⟩
  cases pairs with
  | nil => rfl
  | cons pair rest =>
      rcases requestedDevice_of_passes (hpasses pair List.mem_cons_self) with
        ⟨device, hdevice⟩
      rcases (hgets pair List.mem_cons_self device hdevice).1 with ⟨mount, hmount, _, hpath⟩
      rw [hmounts, mem_mounts hreturned] at hmount
      rcases hmount with ⟨_, _, _, _, _, hhuge⟩
      rw [hhuge, hugepagesMount_containerPath] at hpath
      exact absurd hpath (by decide)

/-- No mount of a container is hidden behind another one. -/
def NoHiding (mounts : List Mount) : Prop :=
  ∀ left ∈ mounts, ∀ right ∈ mounts,
    left.containerPath = right.containerPath → left.hostPath = right.hostPath

theorem generated_name_inj
    (hreturned : Call.result codec node ⟨.memVSfc, dps, config, interfaces⟩ = .ok returned)
    {old : DeviceMap} {id other : String} {left right : MountDevice}
    (hleft : requestedDevice (refreshDevices old (.ok returned)).2 id = .ok left)
    (hright : requestedDevice (refreshDevices old (.ok returned)).2 other = .ok right)
    (h : left.name = right.name) : id = other := by
  rcases requestedDevice_generated hreturned hleft with
    ⟨hid, place, hplace, i, hi, hdevice⟩
  rcases requestedDevice_generated hreturned hright with
    ⟨hother, place', hplace', j, hj, hdevice'⟩
  rw [← hdevice, ← hdevice',
    Placement.name_inj (mem_numbers_lt hi) (mem_numbers_lt hj)] at h
  rw [← hid, ← hother, ← hdevice, ← hdevice', served_index_inj hplace hplace' h.1, h.2]

/-- Mounts of queues alone hide one another as soon as there are two. -/
theorem noHiding_queues_iff
    (hreturned : Call.result codec node ⟨.memVSfc, dps, config, interfaces⟩ = .ok returned)
    {old : DeviceMap} {mounts : List Mount} {queues : List (String × Answer)}
    (hmem : ∀ mount, mount ∈ mounts ↔ ∃ pair ∈ queues, ∃ device,
      requestedDevice (refreshDevices old (.ok returned)).2 pair.1 = .ok device ∧
        mount = hugepagesMount device)
    (hpasses : ∀ pair ∈ queues, passes (refreshDevices old (.ok returned)).2 pair = true)
    (hdistinct : (queues.map (·.1)).Nodup) :
    NoHiding mounts ↔ queues.length ≤ 1 := by
  match queues with
  | [] =>
      simp only [List.length_nil, Nat.zero_le, iff_true]
      intro left hleft
      simp [hmem] at hleft
  | [pair] =>
      simp only [List.length_singleton, Nat.le_refl, iff_true]
      intro left hleft right hright _
      simp only [hmem, List.mem_singleton, exists_eq_left] at hleft hright
      rcases hleft with ⟨device, hfirst, hleft⟩
      rcases hright with ⟨device', hsecond, hright⟩
      cases hfirst.symm.trans hsecond
      rw [hleft, hright]
  | first :: second :: rest =>
      refine iff_of_false (fun hno => ?_) (by simp)
      have hfirst : first ∈ first :: second :: rest := List.mem_cons_self
      have hsecond : second ∈ first :: second :: rest :=
        List.mem_cons_of_mem _ List.mem_cons_self
      rcases requestedDevice_of_passes (hpasses first hfirst) with ⟨left, hleft⟩
      rcases requestedDevice_of_passes (hpasses second hsecond) with ⟨right, hright⟩
      have hhost : hugepages ++ left.name = hugepages ++ right.name :=
        hno (hugepagesMount left) ((hmem _).mpr ⟨first, hfirst, left, hleft, rfl⟩)
          (hugepagesMount right) ((hmem _).mpr ⟨second, hsecond, right, hright, rfl⟩) rfl
      rw [String.append_right_inj] at hhost
      have hsame := generated_name_inj hreturned hleft hright hhost
      simp [hsame] at hdistinct

theorem noHiding_iff
    (hreturned : Call.result codec node ⟨.memVSfc, dps, config, interfaces⟩ = .ok returned)
    {old : DeviceMap} {response : ContainerAllocateResponse} {pairs : List (String × Answer)}
    (hmounts : response.mounts = pairs.flatMap (mountsFor (refreshDevices old (.ok returned)).2))
    (hpasses : ∀ pair ∈ pairs, passes (refreshDevices old (.ok returned)).2 pair = true)
    (hdistinct : (pairs.map (·.1)).Nodup) :
    NoHiding response.mounts ↔ (pairs.filter queued).length ≤ 1 := by
  have hmem : ∀ mount, mount ∈ response.mounts ↔ ∃ pair ∈ pairs.filter queued, ∃ device,
      requestedDevice (refreshDevices old (.ok returned)).2 pair.1 = .ok device ∧
        mount = hugepagesMount device := by
    intro mount
    simp only [hmounts, mem_mounts hreturned, List.mem_filter, and_assoc]
  refine noHiding_queues_iff hreturned hmem (fun pair hpair => ?_) ?_
  · exact hpasses pair (List.mem_of_mem_filter hpair)
  · exact hdistinct.sublist (List.filter_sublist.map _)

/-- After a refresh, a successful call gives every container the interfaces of its
devices exactly when no container asks for a device. -/
theorem memTryAllocate_getsVi_iff
    (hreturned : Call.result codec node ⟨.memVSfc, dps, config, interfaces⟩ = .ok returned)
    {old : DeviceMap} {dial : Except String Unit} {req : List (List String)}
    {service next : AllocService} {resp : List ContainerAllocateResponse}
    (htry : memTryAllocate dial (refreshDevices old (.ok returned)).2 req service =
      (.ok resp, next)) :
    List.Forall₂ (GetsVi (refreshDevices old (.ok returned)).2) resp
        (askedBy service.answers service.calls req) ↔
      ∀ devicesIDs ∈ req, devicesIDs = [] := by
  rcases memTryAllocate_ok htry with ⟨hmounts, hpasses⟩
  have hcontainer : ∀ response, ∀ pairs ∈ askedBy service.answers service.calls req,
      response.mounts = pairs.flatMap (mountsFor (refreshDevices old (.ok returned)).2) →
        (GetsVi (refreshDevices old (.ok returned)).2 response pairs ↔ pairs = []) :=
    fun response pairs hpairs hmounts => getsVi_iff hreturned hmounts (hpasses pairs hpairs)
  rw [forall₂_iff hmounts hcontainer]
  exact askedBy_nil_iff service.answers service.calls req

theorem memTryAllocate_getsVi_one_device :
    ∃ resp next, memTryAllocate (.ok ()) (refreshDevices .empty (.ok oneNic.devices)).2
        [[(oneNic.device 1).id]] (granting "") = (.ok resp, next) ∧
      ¬ List.Forall₂ (GetsVi (refreshDevices .empty (.ok oneNic.devices)).2) resp
        (askedBy (granting "").answers 0 [[(oneNic.device 1).id]]) := by
  rcases @oneNic_memTryAllocate [1] (by decide) (granting "") (fun _ => rfl) with
    ⟨response, next, htry, _⟩
  refine ⟨_, next, htry, fun hgets => ?_⟩
  have hempty := (memTryAllocate_getsVi_iff oneNic_result htry).mp hgets
  simp at hempty

theorem memTryAllocate_no_vi :
    requestedDevice (refreshDevices .empty (.ok oneNic.devices)).2 (oneNic.device 1).id =
        .ok (oneNic.device 1) ∧
      ∃ response next, memTryAllocate (.ok ()) (refreshDevices .empty (.ok oneNic.devices)).2
          [[(oneNic.device 1).id]] (granting "") = (.ok [response], next) ∧
        ¬ ∃ mount ∈ response.mounts,
          mount.hostPath = sharedMemory ++ (oneNic.device 1).name ∧
            mount.containerPath = viContainerMountPath := by
  rcases @oneNic_memTryAllocate [1] (by decide) (granting "") (fun _ => rfl) with
    ⟨response, next, htry, hmounts⟩
  have hone : requestedDevice oneNicMap (oneNic.device 1).id = .ok (oneNic.device 1) :=
    oneNic_requested (by decide)
  have hplain : (oneNic.device 1).mounts = [] := rfl
  refine ⟨hone, response, next, htry, ?_⟩
  simp [hmounts, asked, granting, mountsFor, hone, hplain]

/-- After a refresh, no mount of a container with distinct IDs is hidden exactly
when at most one of its devices has a queue in huge pages. -/
theorem memTryAllocate_noHiding_iff
    (hreturned : Call.result codec node ⟨.memVSfc, dps, config, interfaces⟩ = .ok returned)
    {old : DeviceMap} {dial : Except String Unit} {req : List (List String)}
    {service next : AllocService} {resp : List ContainerAllocateResponse}
    (htry : memTryAllocate dial (refreshDevices old (.ok returned)).2 req service =
      (.ok resp, next)) :
    List.Forall₂ (fun response pairs => (pairs.map (·.1)).Nodup →
        (NoHiding response.mounts ↔ (pairs.filter queued).length ≤ 1))
      resp (askedBy service.answers service.calls req) := by
  rcases memTryAllocate_ok htry with ⟨hmounts, hpasses⟩
  have hcontainer : ∀ response : ContainerAllocateResponse,
      ∀ pairs ∈ askedBy service.answers service.calls req,
      response.mounts = pairs.flatMap (mountsFor (refreshDevices old (.ok returned)).2) →
        (((pairs.map (·.1)).Nodup →
          (NoHiding response.mounts ↔ (pairs.filter queued).length ≤ 1)) ↔ True) :=
    fun response pairs hpairs hmounts =>
      iff_true_intro (noHiding_iff hreturned hmounts (hpasses pairs hpairs))
  exact (forall₂_iff hmounts hcontainer).mpr fun _ _ => trivial

def firstQueued : AllocService :=
  { granting "" with
    answers := fun call =>
      ⟨.ok ⟨0, "", "", if call = 0 then "/mnt/hugepages/vi01" else ""⟩, false⟩ }

theorem memTryAllocate_noHiding_two_devices :
    ∃ response next, memTryAllocate (.ok ()) (refreshDevices .empty (.ok oneNic.devices)).2
        [[(oneNic.device 1).id, (oneNic.device 2).id]] firstQueued = (.ok [response], next) ∧
      NoHiding response.mounts := by
  rcases @oneNic_memTryAllocate [1, 2] (by decide) firstQueued (fun _ => rfl) with
    ⟨response, next, htry, _⟩
  have hcontainers := memTryAllocate_noHiding_iff oneNic_result htry
  refine ⟨response, next, htry, ?_⟩
  refine ((List.forall₂_cons.mp hcontainers).1 ?_).mpr ?_
  · simp [asked, oneNic_ids_ne]
  · simp [asked, firstQueued, granting, queued]

theorem memTryAllocate_hides_second :
    (oneNic.device 1).id ≠ (oneNic.device 2).id ∧
      ∃ response next, memTryAllocate (.ok ()) (refreshDevices .empty (.ok oneNic.devices)).2
          [[(oneNic.device 1).id, (oneNic.device 2).id]] (granting "/mnt/hugepages/vi01") =
          (.ok [response], next) ∧
        ¬ NoHiding response.mounts := by
  rcases @oneNic_memTryAllocate [1, 2] (by decide) (granting "/mnt/hugepages/vi01")
    (fun _ => rfl) with ⟨response, next, htry, hmounts⟩
  refine ⟨oneNic_ids_ne, response, next, htry, fun hno => ?_⟩
  have hmem (i : Nat) (hi : i ∈ [1, 2]) : hugepagesMount (oneNic.device i) ∈ response.mounts := by
    have hmount := oneNic_requested (by revert i; decide : i ∈ numbers)
    simp only [List.mem_cons, List.not_mem_nil, or_false] at hi
    rcases hi with hi | hi
    · subst hi
      simp [hmounts, asked, granting, mountsFor, hmount]
    · subst hi
      simp [hmounts, asked, granting, mountsFor, hmount]
  have hpath : (hugepagesMount (oneNic.device 1)).containerPath =
      (hugepagesMount (oneNic.device 2)).containerPath := by
    rw [hugepagesMount_containerPath, hugepagesMount_containerPath]
  have hhost : hugepages ++ (oneNic.device 1).name = hugepages ++ (oneNic.device 2).name :=
    hno (hugepagesMount (oneNic.device 1)) (hmem 1 (by decide))
      (hugepagesMount (oneNic.device 2)) (hmem 2 (by decide)) hpath
  rw [String.append_right_inj, Placement.name_inj (by decide) (by decide)] at hhost
  exact absurd hhost.2 (by decide)

end Advertised

end VirtualSfc.Plugin.Allocate
