import VirtualSfc.Plugin.Server

/-! The device map after a refresh, from the loop over the interfaces up to
`PluginServerBase`: no device is lost on the way, and what a failed publication
does to the devices already there. -/
namespace VirtualSfc.Plugin.Refresh
open Storage VsfcServer Server

theorem mem_served_nics {config : Config} {resource : Resource} {interfaces : List String}
    {nic : String} :
    nic ∈ (served config resource interfaces).map (·.nic) ↔
      nic ∈ interfaces ∧ configuredFor config resource nic = true := by
  have hplacement : ∀ place : Placement, place ∈ placements resource interfaces →
      place.resource = resource ∧ place.nic ∈ interfaces := by
    intro place hplace
    rcases List.mem_map.mp hplace with ⟨⟨name, index⟩, hindex, hplace⟩
    rw [← hplace]
    exact ⟨rfl, List.fst_mem_of_mem_zipIdx hindex⟩
  refine ⟨fun h => ?_, fun h => ?_⟩
  · rcases List.mem_map.mp h with ⟨place, hplace, hnic⟩
    rcases List.mem_filter.mp hplace with ⟨hplacements, hfound⟩
    rcases hplacement place hplacements with ⟨hresource, hinterface⟩
    rw [← hnic, ← hresource]
    exact ⟨hinterface, hfound⟩
  · rcases h with ⟨hinterface, hconfigured⟩
    rcases List.mem_iff_getElem?.mp hinterface with ⟨index, hindex⟩
    have hplace : ⟨index, nic, resource⟩ ∈ placements resource interfaces :=
      List.mem_map.mpr ⟨(nic, index), List.mem_zipIdx_iff_getElem?.mpr hindex, rfl⟩
    exact List.mem_map.mpr ⟨_, List.mem_filter.mpr ⟨hplace, hconfigured⟩, rfl⟩

theorem served_count (config : Config) (resource : Resource) {interfaces : List String}
    (hdistinct : interfaces.Nodup) (nic : String) :
    (((served config resource interfaces).flatMap Placement.devices).filter
        (·.nic = nic)).length =
      if nic ∈ interfaces ∧ configuredFor config resource nic = true then vNicPerNic else 0 := by
  split
  · rename_i hconfigured
    rcases List.mem_map.mp (mem_served_nics.mpr hconfigured) with ⟨place, hplace, hnic⟩
    rw [← hnic, devices_filter_nic (served_nics_nodup config resource hdistinct) hplace,
      devices_length]
  · rename_i hmissing
    rw [devices_filter_nic_nil (mt mem_served_nics.mp hmissing), List.length_nil]

/-- A map that holds the devices of the interfaces configured for a resource, and
nothing else. -/
structure Complete (config : Config) (resource : Resource) (interfaces : List String)
    (map : DeviceMap) : Prop where
  count : ∀ nic, (map.devices.entries.filter fun entry => entry.2.nic = nic).card =
    if nic ∈ interfaces ∧ configuredFor config resource nic = true then vNicPerNic else 0
  stored : ∀ place ∈ served config resource interfaces, ∀ i ∈ numbers,
    map.devices.lookup (place.device i).id = some (place.device i)
  generated : ∀ id device, map.devices.lookup id = some device → device.id = id ∧
    ∃ place ∈ served config resource interfaces, ∃ i ∈ numbers, device = place.device i

/-- With distinct interface names and no SHA-1 collision, a successful
`RefreshDevices` is stored whole. -/
theorem refreshDevices_complete {codec : DeviceInfoCodec} {node : String} {config : Config}
    {interfaces : List String} {dps after : VSfcPluginServer} {devices : List MountDevice}
    (hdistinct : interfaces.Nodup)
    (hsha : Sha1InjectiveOn (hashedFor (served config dps.resource interfaces)))
    (h : dps.refreshDevices codec node config interfaces = (.ok devices, after))
    (old : DeviceMap) :
    Complete config dps.resource interfaces (refreshDevices old (.ok devices)).2 := by
  have hdevices := (refreshDevices_ok h).1
  have hids := served_ids_nodup config dps.resource hdistinct hsha
  rw [← hdevices] at hids
  have hlookup := DeviceMap.lookup_ofList hids
  rw [refreshDevices_snd]
  refine ⟨fun nic => ?_, fun place hplace i hi => ?_, fun id device hstored => ?_⟩
  · rw [DeviceMap.entries_ofList hids, Multiset.filter_coe, List.filter_map, Multiset.coe_card,
      List.length_map, hdevices]
    exact served_count config dps.resource hdistinct nic
  · rw [hlookup, hdevices]
    exact ⟨List.mem_flatMap.mpr ⟨place, hplace, List.mem_map_of_mem hi⟩, rfl⟩
  · rcases (hlookup id device).mp hstored with ⟨hmem, hid⟩
    rw [hdevices] at hmem
    rcases List.mem_flatMap.mp hmem with ⟨place, hplace, hplaceDevice⟩
    rcases List.mem_map.mp hplaceDevice with ⟨i, hi, hdevice⟩
    exact ⟨hid, place, hplace, i, hi, hdevice.symm⟩

theorem freshServer_refresh (interfaces : List String) : ∃ after,
    (freshServer "hft/a").refreshDevices canonicalCodec "n1" twoNics interfaces =
      (.ok ((served twoNics "hft/a" interfaces).flatMap Placement.devices), after) := by
  have hready := freshClient_ready canonicalCodec "n1" "hft/a"
  rcases @refreshDevices_ready canonicalCodec "n1" twoNics interfaces (freshServer "hft/a") _
    (by decide) rfl hready with ⟨after, _, hrefresh, _, _⟩
  exact ⟨after, hrefresh⟩

theorem refreshDevices_complete_two_nics :
    Complete twoNics "hft/a" ["ens1", "ens2"] (refreshDevices .empty
      (.ok ((served twoNics "hft/a" ["ens1", "ens2"]).flatMap Placement.devices))).2 := by
  rcases freshServer_refresh ["ens1", "ens2"] with ⟨after, hrefresh⟩
  exact @refreshDevices_complete canonicalCodec "n1" twoNics ["ens1", "ens2"]
    (freshServer "hft/a") after _ (by decide) twoNics_sha1 hrefresh .empty

/-! A publication that fails. `AddDeviceIDs` is a parameter here, so that it may
fail at any interface and for any reason, a conflict with another writer
included. -/

section Failure

variable {σ : Type} (add : String → List String → σ → Except Fault Unit × σ)
  (config : Config)

def refreshWith (impl : Impl) (state : σ) (places : List Placement) :
    Except Fault (List MountDevice) :=
  match impl, (discoverWith add config [] state places).1 with
  | .vSfc, result => result
  | .memVSfc, .error (.panic message) => .error (.panic message)
  | .memVSfc, .error (.error _) => .ok (mounted [])
  | .memVSfc, .ok devices => .ok (mounted devices)

/-- `refreshDevices` with the `RefreshDevices` that it calls. A panic ends it
before it touches the map. -/
def refreshMap (old : DeviceMap) :
    Except Fault (List MountDevice) → Except Fault Bool × DeviceMap
  | .error (.panic message) => (.error (.panic message), old)
  | .error (.error message) =>
      let (result, map) := refreshDevices old (.error message)
      (result.mapError .error, map)
  | .ok devices =>
      let (result, map) := refreshDevices old (.ok devices)
      (result.mapError .error, map)

/-- A failed publication is reported, and the devices stay, in a
`vSfcPluginServer` and never in a `memVSfcPluginServer`. -/
theorem failed_publication_iff (impl : Impl) (state : σ) (places : List Placement)
    (old : DeviceMap) (message : String)
    (h : (discoverWith add config [] state places).1 = .error (.error message)) :
    ((∃ reported, (refreshMap old (refreshWith add config impl state places)).1 =
        .error (.error reported)) ∧
      (refreshMap old (refreshWith add config impl state places)).2 = old) ↔
    impl = .vSfc := by
  cases impl with
  | vSfc => simp [refreshWith, refreshMap, refreshDevices, h, Except.mapError]
  | memVSfc =>
      have hrefresh : refreshWith add config .memVSfc state places = .ok [] := by
        simp [refreshWith, h]
      rcases refreshDevices_ok old [] with ⟨new, hresult, _⟩
      simp [hrefresh, refreshMap, hresult, Except.mapError]

end Failure

/-- The servers of the node run this loop with the real `AddDeviceIDs`. -/
theorem call_result_eq (codec : DeviceInfoCodec) (node : String) (call : Call) :
    call.result codec node =
      refreshWith (addDeviceIDs codec node call.dps.resource.name) call.config call.impl
        call.dps.k8sclient (placements call.dps.resource call.interfaces) := by
  simp only [Call.result, memRefreshDevices, VSfcPluginServer.refreshDevices,
    discover_eq_discoverWith, refreshWith]
  cases discoverWith (addDeviceIDs codec node call.dps.resource.name) call.config []
      call.dps.k8sclient (placements call.dps.resource call.interfaces) with
  | mk result after =>
      cases result with
      | error fault => cases call.impl <;> cases fault <;> rfl
      | ok devices => cases call.impl <;> rfl

def unreachableCall (impl : Impl) : Call where
  impl := impl
  dps := { freshServer "hft/a" with
    k8sclient := some { freshClient "hft/a" with network := [.unreachable] } }
  config := twoNics
  interfaces := ["ens1", "ens2"]

theorem failed_publication_reported :
    (∃ reported, (refreshMap (.ofList [Server.found "a"])
        (refreshWith (addDeviceIDs canonicalCodec "n1" "a") twoNics .vSfc
          (unreachableCall .vSfc).dps.k8sclient (placements "hft/a" ["ens1", "ens2"]))).1 =
        .error (.error reported)) ∧
      (refreshMap (.ofList [Server.found "a"])
        (refreshWith (addDeviceIDs canonicalCodec "n1" "a") twoNics .vSfc
          (unreachableCall .vSfc).dps.k8sclient (placements "hft/a" ["ens1", "ens2"]))).2 =
        .ofList [Server.found "a"] :=
  (failed_publication_iff (addDeviceIDs canonicalCodec "n1" "a") twoNics .vSfc
    (unreachableCall .vSfc).dps.k8sclient (placements "hft/a" ["ens1", "ens2"])
    (.ofList [Server.found "a"]) "request failed" (by decide +kernel)).mpr rfl

theorem failed_publication_withdraws :
    (DeviceMap.ofList [Server.found "a"]).ids = {"a"} ∧
      ((unreachableCall .memVSfc).dps.refreshDevices canonicalCodec "n1" twoNics
          ["ens1", "ens2"]).1 = .error (.error "request failed") ∧
      (refreshMap (.ofList [Server.found "a"])
        ((unreachableCall .memVSfc).result canonicalCodec "n1")).1 = .ok false ∧
      (refreshMap (.ofList [Server.found "a"])
        ((unreachableCall .memVSfc).result canonicalCodec "n1")).2.ids = ∅ := by
  decide +kernel

end VirtualSfc.Plugin.Refresh
