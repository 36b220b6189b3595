import VirtualSfc.Base.Sha1
import VirtualSfc.Plugin.Storage

/-! `RefreshDevices` of both plugin servers. Every configured interface gives
eight devices and one publication; a failed publication ends the call. The
second half compares the identifiers and the shared-memory names of all devices
that the servers of a node ever return. -/
namespace VirtualSfc.Plugin.VsfcServer
open Base.Text Client Storage

inductive Health where
  | healthy
  | unhealthy
deriving DecidableEq, Repr

structure DeviceSpec where
  hostPath : String
  containerPath : String
  permissions : String
deriving DecidableEq, Repr

structure Mount where
  hostPath : String
  containerPath : String
  readOnly : Bool
deriving DecidableEq, Repr

structure MountDevice where
  id : String
  health : Health
  name : String
  nic : String
  deviceSpecs : List DeviceSpec
  mounts : List Mount
deriving DecidableEq, Repr

def vNicPerNic : Nat := 8
def sharedMemory : String := "/dev/shm/"
def defaultPermission : String := "mrw"
def viAllocNamePrefix : String := "vi"
def viContainerMountPath : String := "/mnt/vi"

def deviceSpec (path : String) : DeviceSpec := ⟨path, path, defaultPermission⟩

/-- An interface at its position in the list of Solarflare interfaces, as seen
by the server of a resource. -/
structure Placement where
  index : Nat
  nic : String
  resource : Resource
deriving DecidableEq, Repr

def Placement.hashed (place : Placement) (i : Nat) : List UInt8 :=
  utf8 place.nic ++ utf8 place.resource ++ utf8 i.repr

def Placement.device (place : Placement) (i : Nat) : MountDevice where
  id := hex (Base.Sha1.sum (place.hashed i))
  health := .healthy
  name := viAllocNamePrefix ++ (place.index.repr ++ i.repr)
  nic := place.nic
  deviceSpecs := ["/dev/sfc_char", "/dev/sfc_affinity", "/dev/onload",
    "/dev/onload_epoll"].map deviceSpec
  mounts := []

def numbers : List Nat := List.range' 1 vNicPerNic

def Placement.devices (place : Placement) : List MountDevice := numbers.map place.device

def placements (resource : Resource) (interfaces : List String) : List Placement :=
  interfaces.zipIdx.map fun (nic, index) => ⟨index, nic, resource⟩

def configuredFor (config : Config) (resource : Resource) (nic : String) : Bool :=
  config.interfaces.any fun configed => resource == configed.resource && nic == configed.name

def found (config : Config) (place : Placement) : Bool :=
  configuredFor config place.resource place.nic

structure VSfcPluginServer where
  firstRunDiscover : Bool
  resource : Resource
  k8sclient : Option ClientInfo

section Refresh

variable (codec : DeviceInfoCodec) (node : String) (config : Config)

/-- The loop over the interfaces. Each publication carries the identifiers of
all devices collected so far. -/
def discover (resource : Resource) (devices : List MountDevice)
    (k8sclient : Option ClientInfo) :
    List Placement → Except Fault (List MountDevice) × Option ClientInfo
  | [] => (.ok devices, k8sclient)
  | place :: rest =>
      if !found config place then discover resource devices k8sclient rest
      else
        let devices := devices ++ place.devices
        let deviceIDs := devices.map (·.id)
        match addDeviceIDs codec node resource.name place.nic deviceIDs k8sclient with
        | (.error fault, k8sclient) => (.error fault, k8sclient)
        | (.ok (), k8sclient) => discover resource devices k8sclient rest

def VSfcPluginServer.refreshDevices (interfaces : List String) (dps : VSfcPluginServer) :
    Except Fault (List MountDevice) × VSfcPluginServer :=
  match discover codec node config dps.resource [] dps.k8sclient
      (placements dps.resource interfaces) with
  | (.error fault, k8sclient) => (.error fault, { dps with k8sclient := k8sclient })
  | (.ok devices, k8sclient) =>
      (.ok devices, { dps with firstRunDiscover := false, k8sclient := k8sclient })

def mounted (devices : List MountDevice) : List MountDevice :=
  rangeCopies
    (fun device => { device with mounts := device.mounts ++
      [⟨sharedMemory ++ device.name, viContainerMountPath, false⟩] })
    devices

@[simp] theorem mounted_eq (devices : List MountDevice) : mounted devices = devices :=
  rangeCopies_eq _ devices

/-- The error of the inner call is dropped together with its nil list; a panic
is not an error and passes through. -/
def memRefreshDevices (interfaces : List String) (dps : VSfcPluginServer) :
    Except Fault (List MountDevice) × VSfcPluginServer :=
  match dps.refreshDevices codec node config interfaces with
  | (.error (.panic message), dps) => (.error (.panic message), dps)
  | (.error (.error _), dps) => (.ok (mounted []), dps)
  | (.ok devices, dps) => (.ok (mounted devices), dps)

end Refresh

def served (config : Config) (resource : Resource) (interfaces : List String) :
    List Placement :=
  (placements resource interfaces).filter (found config)

theorem served_found (config : Config) (resource : Resource) (interfaces : List String) :
    ∀ place ∈ served config resource interfaces, found config place = true :=
  fun _ hplace => (List.mem_filter.mp hplace).2

theorem served_nics_nodup (config : Config) (resource : Resource)
    {interfaces : List String} (h : interfaces.Nodup) :
    ((served config resource interfaces).map (·.nic)).Nodup := by
  have hnics : (placements resource interfaces).map (·.nic) = interfaces := by
    rw [placements, List.map_map]
    exact List.zipIdx_map_fst 0 interfaces
  apply List.Nodup.sublist (List.filter_sublist.map _)
  rwa [hnics]

theorem devices_nic {place : Placement} {device : MountDevice} (h : device ∈ place.devices) :
    device.nic = place.nic := by
  rcases List.mem_map.mp h with ⟨i, _, hdevice⟩
  rw [← hdevice, Placement.device]

@[simp] theorem devices_length (place : Placement) : place.devices.length = vNicPerNic := by
  simp [Placement.devices, numbers]

theorem devices_filter_nic_nil {places : List Placement} {nic : String}
    (h : nic ∉ places.map (·.nic)) :
    (places.flatMap Placement.devices).filter (·.nic = nic) = [] := by
  rw [List.filter_eq_nil_iff]
  intro device hdevice hnic
  rcases List.mem_flatMap.mp hdevice with ⟨place, hplace, hmem⟩
  rw [decide_eq_true_eq, devices_nic hmem] at hnic
  exact h (hnic ▸ List.mem_map_of_mem hplace)

theorem devices_filter_nic {places : List Placement} {place : Placement}
    (hdistinct : (places.map (·.nic)).Nodup) (hplace : place ∈ places) :
    (places.flatMap Placement.devices).filter (·.nic = place.nic) = place.devices := by
  induction places with
  | nil => simp at hplace
  | cons first rest ih =>
      rw [List.map_cons, List.nodup_cons] at hdistinct
      rw [List.flatMap_cons, List.filter_append]
      rcases List.mem_cons.mp hplace with hfirst | hrest
      · subst hfirst
        rw [devices_filter_nic_nil hdistinct.1, List.append_nil, List.filter_eq_self]
        intro device hdevice
        exact decide_eq_true (devices_nic hdevice)
      · have hfirst : first.devices.filter (·.nic = place.nic) = [] := by
          rw [List.filter_eq_nil_iff]
          intro device hdevice hnic
          rw [decide_eq_true_eq, devices_nic hdevice] at hnic
          exact hdistinct.1 (hnic ▸ List.mem_map_of_mem hrest)
        rw [hfirst, List.nil_append, ih hdistinct.2 hrest]

section Loop

variable {σ : Type} (add : String → List String → σ → Except Fault Unit × σ)
  (config : Config)

def discoverWith (devices : List MountDevice) (state : σ) :
    List Placement → Except Fault (List MountDevice) × σ
  | [] => (.ok devices, state)
  | place :: rest =>
      if !found config place then discoverWith devices state rest
      else
        let devices := devices ++ place.devices
        let deviceIDs := devices.map (·.id)
        match add place.nic deviceIDs state with
        | (.error fault, state) => (.error fault, state)
        | (.ok (), state) => discoverWith devices state rest

theorem discoverWith_filter (devices : List MountDevice) (state : σ)
    (places : List Placement) :
    discoverWith add config devices state places =
      discoverWith add config devices state (places.filter (found config)) := by
  induction places generalizing devices state with
  | nil => rfl
  | cons place rest ih =>
      cases hfound : found config place with
      | false => simp [discoverWith, hfound, ih]
      | true =>
          simp only [List.filter_cons, hfound, if_true, discoverWith, Bool.not_true,
            Bool.false_eq_true, if_false]
          split
          · rfl
          · exact ih _ _

theorem discoverWith_devices {devices result : List MountDevice} {state after : σ}
    {places : List Placement} (hfound : ∀ place ∈ places, found config place = true)
    (h : discoverWith add config devices state places = (.ok result, after)) :
    result = devices ++ places.flatMap Placement.devices := by
  induction places generalizing devices state with
  | nil =>
      simp only [discoverWith, Prod.mk.injEq, Except.ok.injEq] at h
      simp [h.1]
  | cons place rest ih =>
      rw [List.forall_mem_cons] at hfound
      simp only [discoverWith, hfound.1, Bool.not_true, Bool.false_eq_true, if_false] at h
      split at h
      · simp at h
      · rw [ih hfound.2 h, List.append_assoc, List.flatMap_cons]

end Loop

theorem discover_eq_discoverWith (codec : DeviceInfoCodec) (node : String) (config : Config)
    (resource : Resource) (devices : List MountDevice) (k8sclient : Option ClientInfo)
    (places : List Placement) :
    discover codec node config resource devices k8sclient places =
      discoverWith (addDeviceIDs codec node resource.name) config devices k8sclient places := by
  induction places generalizing devices k8sclient with
  | nil => rfl
  | cons place rest ih =>
      simp only [discover, discoverWith]
      split
      · exact ih devices k8sclient
      · cases addDeviceIDs codec node resource.name place.nic
            ((devices ++ place.devices).map (·.id)) k8sclient with
        | mk result after =>
            cases result with
            | error fault => rfl
            | ok done => exact ih _ after

theorem discover_filter (codec : DeviceInfoCodec) (node : String) (config : Config)
    (resource : Resource) (devices : List MountDevice) (k8sclient : Option ClientInfo)
    (places : List Placement) :
    discover codec node config resource devices k8sclient places =
      discover codec node config resource devices k8sclient
        (places.filter (found config)) := by
  rw [discover_eq_discoverWith, discover_eq_discoverWith, discoverWith_filter]

theorem refreshDevices_ok {codec : DeviceInfoCodec} {node : String} {config : Config}
    {interfaces : List String} {dps after : VSfcPluginServer} {devices : List MountDevice}
    (h : dps.refreshDevices codec node config interfaces = (.ok devices, after)) :
    devices = (served config dps.resource interfaces).flatMap Placement.devices ∧
      discover codec node config dps.resource [] dps.k8sclient
        (served config dps.resource interfaces) = (.ok devices, after.k8sclient) ∧
      after.resource = dps.resource := by
  unfold VSfcPluginServer.refreshDevices at h
  rw [discover_filter] at h
  split at h
  · simp at h
  · rename_i result k8sclient hdiscover
    simp only [Prod.mk.injEq, Except.ok.injEq] at h
    rw [← h.1, ← h.2]
    refine ⟨?_, hdiscover, rfl⟩
    rw [discover_eq_discoverWith] at hdiscover
    exact discoverWith_devices _ config (served_found config dps.resource interfaces) hdiscover

theorem refreshDevices_fst (codec : DeviceInfoCodec) (node : String) (config : Config)
    (interfaces : List String) (dps : VSfcPluginServer) :
    (dps.refreshDevices codec node config interfaces).1 =
      (discover codec node config dps.resource [] dps.k8sclient
        (served config dps.resource interfaces)).1 := by
  rw [VSfcPluginServer.refreshDevices, discover_filter, served]
  split
  · rename_i hdiscover
    rw [hdiscover]
  · rename_i hdiscover
    rw [hdiscover]

theorem discover_ready {codec : DeviceInfoCodec} {node : String} (config : Config)
    {resource : Resource} (hnode : node ≠ "") (places : List Placement)
    (devices : List MountDevice) (client : ClientInfo)
    (h : Ready codec node resource.name client) :
    ∃ result next, discover codec node config resource devices (some client) places =
        (.ok result, some next) ∧ Ready codec node resource.name next := by
  induction places generalizing devices client with
  | nil => exact ⟨devices, client, rfl, h⟩
  | cons place rest ih =>
      cases hfound : found config place with
      | false =>
          simp only [discover, hfound, Bool.not_false, if_true]
          exact ih devices client h
      | true =>
          rcases addDeviceIDs_ready hnode h place.nic
            ((devices ++ place.devices).map (·.id)) with ⟨next, hadd, hnext⟩
          simp only [discover, hfound, Bool.not_true, Bool.false_eq_true, if_false, hadd]
          exact ih _ next hnext

theorem refreshDevices_ready {codec : DeviceInfoCodec} {node : String} (config : Config)
    (interfaces : List String) {dps : VSfcPluginServer} {client : ClientInfo}
    (hnode : node ≠ "") (hclient : dps.k8sclient = some client)
    (h : Ready codec node dps.resource.name client) :
    ∃ after next, dps.refreshDevices codec node config interfaces =
        (.ok ((served config dps.resource interfaces).flatMap Placement.devices), after) ∧
      after.k8sclient = some next ∧ Ready codec node after.resource.name next := by
  rcases discover_ready config hnode (placements dps.resource interfaces) []
    client h with ⟨devices, next, hdiscover, hnext⟩
  have hrefresh : dps.refreshDevices codec node config interfaces =
      (.ok devices, { dps with firstRunDiscover := false, k8sclient := some next }) := by
    simp [VSfcPluginServer.refreshDevices, hclient, hdiscover]
  have hdevices := (refreshDevices_ok hrefresh).1
  rw [hdevices] at hrefresh
  exact ⟨_, next, hrefresh, rfl, hnext⟩

theorem discover_isOk {codec : DeviceInfoCodec} {node : String} {config : Config}
    {resource : Resource} (hnode : node ≠ "") {places : List Placement}
    (hfound : ∀ place ∈ places, found config place = true) (devices : List MountDevice)
    {client : ClientInfo} (h : accepting codec node resource.name client.store = true) :
    (discover codec node config resource devices (some client) places).1.isOk =
      answering (2 * places.length) client := by
  induction places generalizing devices client with
  | nil => rfl
  | cons place rest ih =>
      rw [List.forall_mem_cons] at hfound
      have hiff := addDeviceIDs_ok_iff codec node resource.name place.nic
        ((devices ++ place.devices).map (·.id)) client (2 * rest.length)
      rw [Bool.eq_iff_iff, List.length_cons, Nat.mul_succ]
      simp only [discover, hfound.1, Bool.not_true, Bool.false_eq_true, if_false]
      cases hadd : addDeviceIDs codec node resource.name place.nic
          ((devices ++ place.devices).map (·.id)) (some client) with
      | mk result after =>
          rw [hadd] at hiff
          cases result with
          | error fault =>
              have hrefused : answering (2 * rest.length + 2) client ≠ true := by
                intro hanswering
                rcases hiff.mpr ⟨hnode, h, hanswering⟩ with ⟨next, hnext, _⟩
                simp at hnext
              simp [hrefused]
          | ok done =>
              rcases addDeviceIDs_ok hadd with ⟨next, _, hafter, _⟩
              rw [hafter] at hadd hiff ⊢
              rw [ih hfound.2 _ (addDeviceIDs_accepting hadd)]
              refine ⟨fun hanswering => (hiff.mp ⟨next, rfl, hanswering⟩).2.2, fun hall => ?_⟩
              rcases hiff.mpr ⟨hnode, h, hall⟩ with ⟨_, hnext, hanswering⟩
              rwa [Option.some.inj (Prod.mk.inj hnext).2]

theorem discover_needs {codec : DeviceInfoCodec} {node : String} {config : Config}
    {resource : Resource} {place : Placement} {rest : List Placement}
    (hfound : found config place = true) {devices : List MountDevice}
    {k8sclient : Option ClientInfo}
    (h : (discover codec node config resource devices k8sclient (place :: rest)).1.isOk = true) :
    node ≠ "" ∧ ∃ client, k8sclient = some client ∧
      accepting codec node resource.name client.store = true := by
  simp only [discover, hfound, Bool.not_true, Bool.false_eq_true, if_false] at h
  cases k8sclient with
  | none => simp [addDeviceIDs] at h
  | some client =>
      split at h
      · simp at h
      · rename_i after hadd
        rcases addDeviceIDs_ok hadd with ⟨next, _, hafter, _⟩
        rw [hafter] at hadd
        have hready := (addDeviceIDs_ok_iff _ _ _ _ _ client 0).mp ⟨next, hadd, rfl⟩
        exact ⟨hready.1, client, rfl, hready.2.1⟩

/-- Whether a server can publish all that it serves: it has a client and a node
name, the net-attach-def accepts its records, and the GET and the UPDATE of every
publication are answered. -/
def VSfcPluginServer.publishes (codec : DeviceInfoCodec) (node : String) (config : Config)
    (interfaces : List String) (dps : VSfcPluginServer) : Bool :=
  decide (node ≠ "") && dps.k8sclient.any fun client =>
    accepting codec node dps.resource.name client.store &&
      answering (2 * (served config dps.resource interfaces).length) client

theorem refreshDevices_isOk (codec : DeviceInfoCodec) (node : String) (config : Config)
    (interfaces : List String) (dps : VSfcPluginServer)
    (h : served config dps.resource interfaces ≠ []) :
    (dps.refreshDevices codec node config interfaces).1.isOk =
      dps.publishes codec node config interfaces := by
  have hfound := served_found config dps.resource interfaces
  rw [refreshDevices_fst, VSfcPluginServer.publishes, Bool.eq_iff_iff, Bool.and_eq_true,
    decide_eq_true_eq, Option.any_eq_true]
  refine ⟨fun hok => ?_, fun hpublishes => ?_⟩
  · have hneeds : node ≠ "" ∧ ∃ client, dps.k8sclient = some client ∧
        accepting codec node dps.resource.name client.store = true := by
      cases hplaces : served config dps.resource interfaces with
      | nil => exact absurd hplaces h
      | cons place rest =>
          rw [hplaces] at hok hfound
          exact discover_needs (hfound place List.mem_cons_self) hok
    rcases hneeds with ⟨hnode, client, hclient, haccepting⟩
    rw [hclient, discover_isOk hnode hfound [] haccepting] at hok
    exact ⟨hnode, client, hclient, by rw [haccepting, hok]; rfl⟩
  · rcases hpublishes with ⟨hnode, client, hclient, hclientReady⟩
    rw [Bool.and_eq_true] at hclientReady
    rw [hclient, discover_isOk hnode hfound [] hclientReady.1]
    exact hclientReady.2

/-! Identifiers and names over a run. -/

theorem Placement.hashed_eq (place : Placement) (i : Nat) :
    place.hashed i = utf8 (place.nic ++ place.resource ++ i.repr) := by
  rw [hashed, utf8_append, utf8_append]

theorem Placement.hashed_inj {left right : Placement} {i j : Nat} (hi : i < 10)
    (hj : j < 10) :
    left.hashed i = right.hashed j ↔
      left.nic ++ left.resource = right.nic ++ right.resource ∧ i = j := by
  rw [hashed_eq, hashed_eq, utf8_inj, append_repr_inj hi hj]

theorem Placement.name_inj {left right : Placement} {i j : Nat} (hi : i < 10)
    (hj : j < 10) :
    (left.device i).name = (right.device j).name ↔ left.index = right.index ∧ i = j := by
  simp only [device, String.append_right_inj]
  rw [append_repr_inj hi hj, Nat.repr_inj]

theorem mem_numbers_lt {i : Nat} (h : i ∈ numbers) : i < 10 := by
  simp only [numbers, vNicPerNic, List.mem_range'_1] at h
  omega

def hashedFor (places : List Placement) : List (List UInt8) :=
  places.flatMap fun place => numbers.map place.hashed

def Sha1InjectiveOn (inputs : List (List UInt8)) : Prop :=
  ∀ left ∈ inputs, ∀ right ∈ inputs, Base.Sha1.sum left = Base.Sha1.sum right → left = right

theorem sha1InjectiveOn_of_nodup {inputs : List (List UInt8)}
    (h : (inputs.map Base.Sha1.sum).Nodup) : Sha1InjectiveOn inputs :=
  fun _ hleft _ hright hsum => List.inj_on_of_nodup_map h hleft hright hsum

theorem Placement.id_inj {places : List Placement} (hsha : Sha1InjectiveOn (hashedFor places))
    {left right : Placement} (hleft : left ∈ places) (hright : right ∈ places) {i j : Nat}
    (hi : i ∈ numbers) (hj : j ∈ numbers) :
    (left.device i).id = (right.device j).id ↔
      left.nic ++ left.resource = right.nic ++ right.resource ∧ i = j := by
  have hmem : ∀ place ∈ places, ∀ i ∈ numbers, place.hashed i ∈ hashedFor places :=
    fun place hplace i hi => List.mem_flatMap.mpr ⟨place, hplace, List.mem_map_of_mem hi⟩
  rw [← hashed_inj (mem_numbers_lt hi) (mem_numbers_lt hj)]
  simp only [device, hex_inj]
  refine ⟨hsha _ (hmem left hleft i hi) _ (hmem right hright j hj), fun h => ?_⟩
  rw [h]

theorem served_index_inj {config : Config} {resource : Resource} {interfaces : List String}
    {left right : Placement} (hleft : left ∈ served config resource interfaces)
    (hright : right ∈ served config resource interfaces) (h : left.index = right.index) :
    left = right := by
  rcases List.mem_map.mp (List.mem_filter.mp hleft).1 with ⟨⟨nic, index⟩, hnic, hplace⟩
  rcases List.mem_map.mp (List.mem_filter.mp hright).1 with ⟨⟨nic', index'⟩, hnic', hplace'⟩
  subst hplace hplace'
  cases (h : index = index')
  rw [List.mem_zipIdx_iff_getElem?] at hnic hnic'
  cases hnic.symm.trans hnic'
  rfl

theorem served_resource {config : Config} {resource : Resource} {interfaces : List String}
    {place : Placement} (h : place ∈ served config resource interfaces) :
    place.resource = resource := by
  rcases List.mem_map.mp (List.mem_filter.mp h).1 with ⟨_, _, hplace⟩
  rw [← hplace]

theorem served_ids_nodup (config : Config) (resource : Resource) {interfaces : List String}
    (hdistinct : interfaces.Nodup)
    (hsha : Sha1InjectiveOn (hashedFor (served config resource interfaces))) :
    (((served config resource interfaces).flatMap Placement.devices).map (·.id)).Nodup := by
  have hnics := List.pairwise_map.mp (served_nics_nodup config resource hdistinct)
  rw [List.map_flatMap, List.nodup_flatMap]
  refine ⟨fun place hplace => ?_, hnics.imp_of_mem fun hleft hright hdifferent => ?_⟩
  · rw [Placement.devices, List.map_map]
    refine List.Nodup.map_on (fun i hi j hj hsame => ?_) List.nodup_range'
    exact ((Placement.id_inj hsha hplace hplace hi hj).mp hsame).2
  · intro id hmemLeft hmemRight
    simp only [Placement.devices, List.map_map, List.mem_map, Function.comp_apply] at hmemLeft
    simp only [Placement.devices, List.map_map, List.mem_map, Function.comp_apply] at hmemRight
    rcases hmemLeft with ⟨i, hi, hidLeft⟩
    rcases hmemRight with ⟨j, hj, hidRight⟩
    have hsame := ((Placement.id_inj hsha hleft hright hi hj).mp
      (hidLeft.trans hidRight.symm)).1
    rw [served_resource hleft, served_resource hright, String.append_left_inj] at hsame
    exact hdifferent hsame

inductive Impl where
  | vSfc
  | memVSfc
deriving DecidableEq, Repr

/-- One `RefreshDevices` call of one of the node's servers, with the
configuration, the interfaces and the state of the server that it finds. -/
structure Call where
  impl : Impl
  dps : VSfcPluginServer
  config : Config
  interfaces : List String

section Names

variable (codec : DeviceInfoCodec) (node : String)

def Call.result (call : Call) : Except Fault (List MountDevice) :=
  match call.impl with
  | .vSfc => (call.dps.refreshDevices codec node call.config call.interfaces).1
  | .memVSfc => (memRefreshDevices codec node call.config call.interfaces call.dps).1

def Call.returned (call : Call) : List MountDevice :=
  match call.result codec node with
  | .ok devices => devices
  | .error _ => []

/-- The interfaces whose devices a call hands out: those it serves, if it can
publish them. -/
def Call.placed (call : Call) : List Placement :=
  if call.dps.publishes codec node call.config call.interfaces then
    served call.config call.dps.resource call.interfaces
  else []

def placed (calls : List Call) : List Placement := calls.flatMap (Call.placed codec node)

def returned (calls : List Call) : List MountDevice :=
  calls.flatMap (Call.returned codec node)

def hashed (calls : List Call) : List (List UInt8) :=
  (placed codec node calls).flatMap fun place => numbers.map place.hashed

theorem Call.returned_eq (call : Call) :
    call.returned codec node = (call.placed codec node).flatMap Placement.devices := by
  have hplaced : call.placed codec node =
      if (call.dps.refreshDevices codec node call.config call.interfaces).1.isOk then
        served call.config call.dps.resource call.interfaces else [] := by
    by_cases hserved : served call.config call.dps.resource call.interfaces = []
    · simp [placed, hserved]
    · rw [placed, refreshDevices_isOk codec node _ _ _ hserved]
  rw [hplaced]
  cases hrefresh : call.dps.refreshDevices codec node call.config call.interfaces with
  | mk result after =>
  cases result with
  | error fault =>
      cases himpl : call.impl <;> cases fault <;>
        simp [returned, Call.result, memRefreshDevices, himpl, hrefresh]
  | ok devices =>
      have hdevices := (refreshDevices_ok hrefresh).1
      cases himpl : call.impl <;>
        simp [returned, Call.result, memRefreshDevices, himpl, hrefresh, hdevices]

theorem Call.placed_ready {call : Call} {client : ClientInfo} (hnode : node ≠ "")
    (hclient : call.dps.k8sclient = some client)
    (h : Ready codec node call.dps.resource.name client) :
    call.placed codec node = served call.config call.dps.resource call.interfaces := by
  rw [placed, if_pos]
  simp [VSfcPluginServer.publishes, hnode, hclient, h.2, answering, h.1]

theorem mem_returned {calls : List Call} {device : MountDevice} :
    device ∈ returned codec node calls ↔
      ∃ place ∈ placed codec node calls, ∃ i ∈ numbers, place.device i = device := by
  simp only [returned, placed, List.mem_flatMap, Call.returned_eq, Placement.devices,
    List.mem_map]
  refine ⟨fun h => ?_, fun h => ?_⟩
  · rcases h with ⟨call, hcall, place, hplace, i, hi, hdevice⟩
    exact ⟨place, ⟨call, hcall, hplace⟩, i, hi, hdevice⟩
  · rcases h with ⟨place, ⟨call, hcall, hplace⟩, i, hi, hdevice⟩
    exact ⟨call, hcall, place, hplace, i, hi, hdevice⟩

/-- Over the whole life of a node, the shared-memory name is an injective
function of the device identifier exactly when positions identify the pairs of
interface and resource: a pair keeps its position, and no two pairs share one. -/
theorem names_injective_iff (calls : List Call)
    (hsha : ∀ left ∈ hashed codec node calls, ∀ right ∈ hashed codec node calls,
      Base.Sha1.sum left = Base.Sha1.sum right → left = right) :
    (∀ left ∈ returned codec node calls, ∀ right ∈ returned codec node calls,
      left.id = right.id ↔ left.name = right.name) ↔
    ∀ left ∈ placed codec node calls, ∀ right ∈ placed codec node calls,
      left.nic ++ left.resource = right.nic ++ right.resource ↔
        left.index = right.index := by
  have hid : ∀ left ∈ placed codec node calls, ∀ right ∈ placed codec node calls,
      ∀ i ∈ numbers, ∀ j ∈ numbers, (left.device i).id = (right.device j).id ↔
        left.nic ++ left.resource = right.nic ++ right.resource ∧ i = j :=
    fun left hleft right hright i hi j hj => Placement.id_inj hsha hleft hright hi hj
  refine ⟨fun hnames left hleft right hright => ?_,
    fun hplaces device hdevice other hother => ?_⟩
  · have hone : 1 ∈ numbers := by decide
    have hdevices := hnames (left.device 1)
      ((mem_returned codec node).mpr ⟨left, hleft, 1, hone, rfl⟩) (right.device 1)
      ((mem_returned codec node).mpr ⟨right, hright, 1, hone, rfl⟩)
    rw [hid left hleft right hright 1 hone 1 hone,
      Placement.name_inj (by decide) (by decide)] at hdevices
    simpa using hdevices
  · rcases (mem_returned codec node).mp hdevice with ⟨left, hleft, i, hi, hi_device⟩
    rcases (mem_returned codec node).mp hother with ⟨right, hright, j, hj, hj_device⟩
    rw [← hi_device, ← hj_device, hid left hleft right hright i hi j hj,
      Placement.name_inj (mem_numbers_lt hi) (mem_numbers_lt hj),
      hplaces left hleft right hright]

end Names

def freshClient (resource : Resource) : ClientInfo :=
  ⟨Store.empty.put ⟨0, "default", resource.name, some ∅⟩, []⟩

def freshServer (resource : Resource) : VSfcPluginServer where
  firstRunDiscover := true
  resource := resource
  k8sclient := some (freshClient resource)

theorem freshClient_ready (codec : DeviceInfoCodec) (node : String) (resource : Resource) :
    Ready codec node resource.name (freshClient resource) := by
  refine ⟨rfl, ?_⟩
  have hget : (freshClient resource).store.get? "default" resource.name =
      some ⟨0, "default", resource.name, some ∅⟩ := by
    rw [freshClient, Store.get?_put]
    exact if_pos rfl
  rw [accepting, hget]
  simp [editable, nodeRecords, NetAttachDef.annotation?]

theorem Call.placed_fresh (codec : DeviceInfoCodec) {node : String} (hnode : node ≠ "")
    (impl : Impl) (resource : Resource) (config : Config) (interfaces : List String) :
    Call.placed codec node ⟨impl, freshServer resource, config, interfaces⟩ =
      served config resource interfaces :=
  Call.placed_ready codec node hnode rfl (freshClient_ready codec node resource)

def twoNics : Config where
  pluginDir := ""
  interfaces := [⟨"ens1", "hft/a", "", 0, ""⟩, ⟨"ens2", "hft/a", "", 0, ""⟩]

theorem served_twoNics : served twoNics "hft/a" ["ens1", "ens2"] =
    [⟨0, "ens1", "hft/a"⟩, ⟨1, "ens2", "hft/a"⟩] := by
  decide

theorem twoNics_sha1 :
    Sha1InjectiveOn (hashedFor (served twoNics "hft/a" ["ens1", "ens2"])) := by
  rw [served_twoNics]
  apply sha1InjectiveOn_of_nodup
  decide +kernel

def twoNicsCall : Call := ⟨.memVSfc, freshServer "hft/a", twoNics, ["ens1", "ens2"]⟩

theorem names_injective_two_nics :
    (∀ left ∈ hashed canonicalCodec "node1" [twoNicsCall],
      ∀ right ∈ hashed canonicalCodec "node1" [twoNicsCall],
        Base.Sha1.sum left = Base.Sha1.sum right → left = right) ∧
    (placed canonicalCodec "node1" [twoNicsCall]).length = 2 ∧
    ∀ left ∈ returned canonicalCodec "node1" [twoNicsCall],
      ∀ right ∈ returned canonicalCodec "node1" [twoNicsCall],
        left.id = right.id ↔ left.name = right.name := by
  have hplaced : placed canonicalCodec "node1" [twoNicsCall] =
      served twoNics "hft/a" ["ens1", "ens2"] := by
    rw [placed, List.flatMap_singleton, twoNicsCall, Call.placed_fresh _ (by decide)]
  have hsha : Sha1InjectiveOn (hashed canonicalCodec "node1" [twoNicsCall]) := by
    rw [hashed, hplaced]
    exact twoNics_sha1
  refine ⟨hsha, by rw [hplaced, served_twoNics]; rfl,
    (names_injective_iff canonicalCodec "node1" [twoNicsCall] hsha).mpr ?_⟩
  rw [hplaced, served_twoNics]
  decide

def sharedNic : Config where
  pluginDir := ""
  interfaces := [⟨"ens1", "hft/a", "", 0, ""⟩, ⟨"ens1", "hft/b", "", 0, ""⟩]

def sharedNicCalls : List Call :=
  [⟨.memVSfc, freshServer "hft/a", sharedNic, ["ens1"]⟩,
    ⟨.memVSfc, freshServer "hft/b", sharedNic, ["ens1"]⟩]

theorem names_collide_shared_nic :
    ¬ ∀ left ∈ returned canonicalCodec "node1" sharedNicCalls,
      ∀ right ∈ returned canonicalCodec "node1" sharedNicCalls,
        left.id = right.id ↔ left.name = right.name := by
  intro hnames
  have hplaced : placed canonicalCodec "node1" sharedNicCalls =
      [⟨0, "ens1", "hft/a"⟩, ⟨0, "ens1", "hft/b"⟩] := by
    simp only [placed, sharedNicCalls, List.flatMap_cons, List.flatMap_nil,
      Call.placed_fresh canonicalCodec (by decide : "node1" ≠ "")]
    decide
  have hreturned : ∀ place ∈ placed canonicalCodec "node1" sharedNicCalls,
      place.device 1 ∈ returned canonicalCodec "node1" sharedNicCalls := by
    intro place hplace
    exact (mem_returned canonicalCodec "node1").mpr ⟨place, hplace, 1, by decide, rfl⟩
  rw [hplaced] at hreturned
  have hids : ((⟨0, "ens1", "hft/a"⟩ : Placement).device 1).id ≠
      ((⟨0, "ens1", "hft/b"⟩ : Placement).device 1).id := by decide +kernel
  exact hids ((hnames _ (hreturned _ (by decide)) _ (hreturned _ (by decide))).mpr rfl)

end VirtualSfc.Plugin.VsfcServer
