import VirtualSfc.Plugin.VsfcServer

/-! `getParentInterface`: the CNI plugin looks up the interface behind a device
in the records that the device plugin published, and the round trip between the
two binaries. -/
namespace VirtualSfc.Cni.Parent
open Base.Optimistic Plugin Plugin.Client Plugin.Storage Plugin.VsfcServer

/-- The nested loop over the records. `found` is never reset, so every record
after the first match overwrites the name. -/
def searchParent (deviceId : String) : Bool × String → List DeviceInfo → Bool × String
  | state, [] => state
  | (found, parentIfName), device :: devices =>
      let found := found || device.deviceIDs.any (deviceId == ·)
      searchParent deviceId (found, if found then device.name else parentIfName) devices

def getParentInterface (codec : DeviceInfoCodec) (hostname : Except String String)
    (deviceId name : String) (k8sclient : ClientInfo) : Except String String :=
  if deviceId.length ≤ 0 then .error "device did not exists"
  else
    match hostname with
    | .error message => .error message
    | .ok node =>
        match (k8sclient.getDefaultNetAttachDef name).1 with
        | .error fault => .error ("nad not found in k8s err: " ++ fault.message)
        | .ok nad =>
            let annotation := nodeAnnotKey node
            match nad.object.annotation? annotation with
            | none => .error ("device info not found in k8s annot: " ++ annotation)
            | some devicesAnnot =>
                match parseDeviceInfo codec devicesAnnot with
                | .error fault => .error ("failed to parse device info err: " ++ fault.message)
                | .ok devices =>
                    match searchParent deviceId (false, "") devices with
                    | (false, _) =>
                        .error ("deviceId not found in nad deviceId: " ++ deviceId)
                    | (true, parentIfName) => .ok parentIfName

theorem searchParent_found (deviceId parent : String) (devices : List DeviceInfo) :
    searchParent deviceId (true, parent) devices =
      (true, (devices.map (·.name)).getLastD parent) := by
  induction devices generalizing parent with
  | nil => rfl
  | cons device devices ih =>
      rw [searchParent, Bool.true_or]
      simp only [if_true, ih, List.map_cons, List.getLastD_cons]

theorem searchParent_eq {deviceId : String} {devices : List DeviceInfo}
    (h : ∃ device ∈ devices, deviceId ∈ device.deviceIDs) (parent : String) :
    searchParent deviceId (false, parent) devices =
      (true, (devices.map (·.name)).getLastD parent) := by
  induction devices generalizing parent with
  | nil => simp at h
  | cons device devices ih =>
      by_cases hhere : deviceId ∈ device.deviceIDs
      · have hany : device.deviceIDs.any (deviceId == ·) = true := by
          simpa using hhere
        simp only [searchParent, hany, Bool.or_true, if_true, searchParent_found,
          List.map_cons, List.getLastD_cons]
      · have hany : device.deviceIDs.any (deviceId == ·) = false := by
          rw [← Bool.not_eq_true]
          simpa using hhere
        have hlater : ∃ other ∈ devices, deviceId ∈ other.deviceIDs := by
          simpa [hhere] using h
        have hnames : devices.map (·.name) ≠ [] := by
          rcases hlater with ⟨other, hother, _⟩
          exact List.ne_nil_of_mem (List.mem_map_of_mem hother)
        simp only [searchParent, hany, Bool.or_false, Bool.false_eq_true, if_false,
          ih hlater, List.map_cons, List.getLastD_cons]
        rw [List.getLastD_eq_getLast?, List.getLastD_eq_getLast?,
          List.getLast?_eq_some_getLast hnames]
        rfl

theorem searchParent_missing {deviceId : String} {devices : List DeviceInfo}
    (h : ∀ device ∈ devices, deviceId ∉ device.deviceIDs) (parent : String) :
    searchParent deviceId (false, parent) devices = (false, parent) := by
  induction devices with
  | nil => rfl
  | cons device devices ih =>
      rw [List.forall_mem_cons] at h
      have hany : device.deviceIDs.any (deviceId == ·) = false := by
        rw [← Bool.not_eq_true]
        simpa using h.1
      simp only [searchParent, hany, Bool.or_false, Bool.false_eq_true, if_false, ih h.2]

theorem getParentInterface_search {codec : DeviceInfoCodec} {node deviceId name : String}
    {k8sclient : ClientInfo} {devices : List DeviceInfo} (hid : deviceId ≠ "")
    (hanswered : k8sclient.delivery = .answered)
    (hrecords : storedRecords codec node name k8sclient.store = some (.ok devices)) :
    getParentInterface codec (.ok node) deviceId name k8sclient =
      match searchParent deviceId (false, "") devices with
      | (false, _) => .error ("deviceId not found in nad deviceId: " ++ deviceId)
      | (true, parentIfName) => .ok parentIfName := by
  have hlength : ¬ deviceId.length ≤ 0 := (length_pos_iff deviceId).mpr hid
  rcases Option.bind_eq_some_iff.mp hrecords with ⟨nad, hget, hnad⟩
  rcases Option.map_eq_some_iff.mp hnad with ⟨content, hcontent, hparse⟩
  have hread : (k8sclient.getDefaultNetAttachDef name).1 = .ok nad := by
    simp [ClientInfo.getDefaultNetAttachDef, ClientInfo.getNetAttachDef, hanswered, hget]
  simp only [getParentInterface, if_neg hlength, hread, hcontent, parseDeviceInfo, hparse]

theorem getParentInterface_eq {codec : DeviceInfoCodec} {node deviceId name : String}
    {k8sclient : ClientInfo} {devices : List DeviceInfo} (hid : deviceId ≠ "")
    (hanswered : k8sclient.delivery = .answered)
    (hrecords : storedRecords codec node name k8sclient.store = some (.ok devices))
    (hpublished : ∃ device ∈ devices, deviceId ∈ device.deviceIDs) :
    getParentInterface codec (.ok node) deviceId name k8sclient =
      .ok ((devices.map (·.name)).getLastD "") := by
  rw [getParentInterface_search hid hanswered hrecords, searchParent_eq hpublished]

/-- The lookup gives the record that contains the device, and an error exactly for
a device of no record, if and only if that record has the name of the last one. -/
theorem getParentInterface_record_iff {codec : DeviceInfoCodec} {node deviceId name : String}
    {k8sclient : ClientInfo} {devices : List DeviceInfo} (hid : deviceId ≠ "")
    (hanswered : k8sclient.delivery = .answered)
    (hrecords : storedRecords codec node name k8sclient.store = some (.ok devices)) :
    ((∀ device ∈ devices, deviceId ∈ device.deviceIDs →
        getParentInterface codec (.ok node) deviceId name k8sclient = .ok device.name) ∧
      ((∃ message, getParentInterface codec (.ok node) deviceId name k8sclient =
          .error message) ↔ ∀ device ∈ devices, deviceId ∉ device.deviceIDs)) ↔
    ∀ device ∈ devices, deviceId ∈ device.deviceIDs →
      device.name = (devices.map (·.name)).getLastD "" := by
  by_cases hpublished : ∃ device ∈ devices, deviceId ∈ device.deviceIDs
  · have hparent := getParentInterface_eq hid hanswered hrecords hpublished
    have hrejected : ¬ ∀ device ∈ devices, deviceId ∉ device.deviceIDs := by
      rcases hpublished with ⟨device, hdevice, hmem⟩
      exact fun hnone => hnone device hdevice hmem
    simp only [hparent, Except.ok.injEq, reduceCtorEq, exists_false, hrejected, iff_self,
      and_true]
    exact forall₂_congr fun device _ => imp_congr_right fun _ => eq_comm
  · have hmissing : ∀ device ∈ devices, deviceId ∉ device.deviceIDs :=
      fun device hdevice hmem => hpublished ⟨device, hdevice, hmem⟩
    rw [getParentInterface_search hid hanswered hrecords, searchParent_missing hmissing]
    refine ⟨fun _ device hdevice hmem => absurd hmem (hmissing device hdevice), fun _ => ?_⟩
    exact ⟨fun device hdevice hmem => absurd hmem (hmissing device hdevice),
      fun _ => hmissing, fun _ => ⟨_, rfl⟩⟩

def twoRecords : List DeviceInfo := [⟨"ens1", ["a"]⟩, ⟨"ens2", ["b"]⟩]

def twoRecordsClient : ClientInfo where
  store := Store.empty.put ⟨1, "default", "vsfc",
    some (Finmap.singleton (nodeAnnotKey "n1") (canonicalCodec.marshal twoRecords))⟩
  network := []

theorem getParentInterface_last_record :
    getParentInterface canonicalCodec (.ok "n1") "b" "vsfc" twoRecordsClient = .ok "ens2" :=
  ((getParentInterface_record_iff (by decide) rfl (by decide +kernel)).mpr
    (by decide +kernel)).1 ⟨"ens2", ["b"]⟩ (by decide +kernel : _ ∈ twoRecords) (by decide)

theorem getParentInterface_first_record_lost :
    twoRecords.Pairwise (fun left right => ∀ id ∈ left.deviceIDs, id ∉ right.deviceIDs) ∧
      storedRecords canonicalCodec "n1" "vsfc" twoRecordsClient.store =
        some (.ok twoRecords) ∧
      ¬ ∀ device ∈ twoRecords, "a" ∈ device.deviceIDs →
        getParentInterface canonicalCodec (.ok "n1") "a" "vsfc" twoRecordsClient =
          .ok device.name := by
  decide +kernel

/-! The records that a run of `RefreshDevices` leaves. -/

/-- The records of a first call: each carries its own identifiers and those of
all interfaces before it. -/
def accumulated (devices : List MountDevice) : List Placement → List DeviceInfo
  | [] => []
  | place :: rest =>
      ⟨place.nic, (devices ++ place.devices).map (·.id)⟩ ::
        accumulated (devices ++ place.devices) rest

theorem accumulated_names (devices : List MountDevice) (places : List Placement) :
    (accumulated devices places).map (·.name) = places.map (·.nic) := by
  induction places generalizing devices with
  | nil => rfl
  | cons place rest ih =>
      rw [accumulated, List.map_cons, ih, List.map_cons]

theorem accumulated_published (devices : List MountDevice) {places : List Placement}
    {device : MountDevice} (h : device ∈ places.flatMap Placement.devices) :
    ∃ record ∈ accumulated devices places, device.id ∈ record.deviceIDs := by
  induction places generalizing devices with
  | nil => simp at h
  | cons place rest ih =>
      rw [List.flatMap_cons, List.mem_append] at h
      cases h with
      | inl hhere =>
          refine ⟨_, List.mem_cons_self, ?_⟩
          exact List.mem_map_of_mem (List.mem_append_right devices hhere)
      | inr hlater =>
          rcases ih (devices ++ place.devices) hlater with ⟨record, hrecord, hid⟩
          exact ⟨record, List.mem_cons_of_mem _ hrecord, hid⟩

theorem discover_first {codec : DeviceInfoCodec} {node : String} {config : Config}
    {resource : Resource} {devices result : List MountDevice} {client : ClientInfo}
    {after : Option ClientInfo} {places : List Placement} {records : List DeviceInfo}
    (hfound : ∀ place ∈ places, found config place = true)
    (hnew : ∀ place ∈ places, place.nic ∉ records.map (·.name))
    (hdistinct : (places.map (·.nic)).Nodup)
    (hrecords : Recorded codec node resource.name client.store records)
    (h : discover codec node config resource devices (some client) places =
      (.ok result, after)) :
    ∃ next, after = some next ∧
      Recorded codec node resource.name next.store
        (records ++ accumulated devices places) := by
  induction places generalizing devices client records with
  | nil =>
      simp only [discover, Prod.mk.injEq] at h
      refine ⟨client, h.2.symm, ?_⟩
      rwa [accumulated, List.append_nil]
  | cons place rest ih =>
      rw [List.forall_mem_cons] at hfound hnew
      rw [List.map_cons, List.nodup_cons] at hdistinct
      simp only [discover, hfound.1, Bool.not_true, Bool.false_eq_true, if_false] at h
      split at h
      · simp at h
      · rename_i written hadd
        rcases addDeviceIDs_ok hadd with ⟨next, before, hnext, hmerged, hbefore⟩
        rw [hbefore.unique hrecords, mergeDevices_eq, if_neg hnew.1] at hmerged
        rw [hnext] at h
        rw [accumulated, ← List.singleton_append, ← List.append_assoc]
        refine ih hfound.2 ?_ hdistinct.2 (Or.inl hmerged) h
        intro other hother
        rw [List.map_append, List.mem_append, not_or]
        refine ⟨hnew.2 other hother, ?_⟩
        intro hsame
        have hnic : other.nic = place.nic := List.mem_singleton.mp hsame
        apply hdistinct.1
        rw [← hnic]
        exact List.mem_map_of_mem hother

theorem discover_again {codec : DeviceInfoCodec} {node : String} {config : Config}
    {resource : Resource} {devices result : List MountDevice} {client : ClientInfo}
    {after : Option ClientInfo} {places : List Placement} {records : List DeviceInfo}
    (hfound : ∀ place ∈ places, found config place = true)
    (hold : ∀ place ∈ places, place.nic ∈ records.map (·.name))
    (hrecords : Recorded codec node resource.name client.store records)
    (h : discover codec node config resource devices (some client) places =
      (.ok result, after)) :
    ∃ next, after = some next ∧ Recorded codec node resource.name next.store records := by
  induction places generalizing devices client with
  | nil =>
      simp only [discover, Prod.mk.injEq] at h
      exact ⟨client, h.2.symm, hrecords⟩
  | cons place rest ih =>
      rw [List.forall_mem_cons] at hfound hold
      simp only [discover, hfound.1, Bool.not_true, Bool.false_eq_true, if_false] at h
      split at h
      · simp at h
      · rename_i written hadd
        rcases addDeviceIDs_ok hadd with ⟨next, before, hnext, hmerged, hbefore⟩
        rw [hbefore.unique hrecords, mergeDevices_eq, if_pos hold.1] at hmerged
        rw [hnext] at h
        exact ih hfound.2 hold.2 (Or.inl hmerged) h

def refreshes (codec : DeviceInfoCodec) (node : String) (config : Config)
    (interfaces : List String) : Nat → VSfcPluginServer →
    Except Fault (List MountDevice) × VSfcPluginServer
  | 0, dps => dps.refreshDevices codec node config interfaces
  | calls + 1, dps =>
      match dps.refreshDevices codec node config interfaces with
      | (.error fault, dps) => (.error fault, dps)
      | (.ok _, dps) => refreshes codec node config interfaces calls dps

theorem refreshes_again {codec : DeviceInfoCodec} {node : String} {config : Config}
    {interfaces : List String} {calls : Nat} {dps after : VSfcPluginServer}
    {client : ClientInfo} {devices : List MountDevice}
    (hclient : dps.k8sclient = some client)
    (hrecords : Recorded codec node dps.resource.name client.store
      (accumulated [] (served config dps.resource interfaces)))
    (h : refreshes codec node config interfaces calls dps = (.ok devices, after)) :
    devices = (served config dps.resource interfaces).flatMap Placement.devices ∧
      ∃ next, after.k8sclient = some next ∧
        Recorded codec node dps.resource.name next.store
          (accumulated [] (served config dps.resource interfaces)) := by
  have hfound := served_found config dps.resource interfaces
  have hold : ∀ place ∈ served config dps.resource interfaces, place.nic ∈
      (accumulated [] (served config dps.resource interfaces)).map (·.name) := by
    intro place hplace
    rw [accumulated_names]
    exact List.mem_map_of_mem hplace
  induction calls generalizing dps client with
  | zero =>
      have hspec := refreshDevices_ok h
      rw [hclient] at hspec
      exact ⟨hspec.1, discover_again hfound hold hrecords hspec.2.1⟩
  | succ calls ih =>
      simp only [refreshes] at h
      split at h
      · simp at h
      · rename_i first between hfirst
        have hspec := refreshDevices_ok hfirst
        rw [hclient] at hspec
        rcases discover_again hfound hold hrecords hspec.2.1 with ⟨next, hnext, hkept⟩
        rw [← hspec.2.2] at hkept hfound hold ⊢
        exact ih hnext hkept h hfound hold

theorem refreshes_recorded {codec : DeviceInfoCodec} {node : String} {config : Config}
    {interfaces : List String} (hdistinct : interfaces.Nodup) {calls : Nat}
    {dps after : VSfcPluginServer} {client : ClientInfo} {devices : List MountDevice}
    (hclient : dps.k8sclient = some client)
    (hfresh : storedRecords codec node dps.resource.name client.store = none)
    (h : refreshes codec node config interfaces calls dps = (.ok devices, after)) :
    devices = (served config dps.resource interfaces).flatMap Placement.devices ∧
      ∃ next, after.k8sclient = some next ∧
        Recorded codec node dps.resource.name next.store
          (accumulated [] (served config dps.resource interfaces)) := by
  have hfound := served_found config dps.resource interfaces
  have hfirst : ∀ {result : List MountDevice} {written : Option ClientInfo},
      discover codec node config dps.resource [] (some client)
        (served config dps.resource interfaces) = (.ok result, written) →
      ∃ next, written = some next ∧ Recorded codec node dps.resource.name next.store
        (accumulated [] (served config dps.resource interfaces)) := by
    intro result written hdiscover
    exact discover_first hfound (by simp) (served_nics_nodup config dps.resource hdistinct)
      (Or.inr ⟨hfresh, rfl⟩) hdiscover
  cases calls with
  | zero =>
      have hspec := refreshDevices_ok h
      rw [hclient] at hspec
      exact ⟨hspec.1, hfirst hspec.2.1⟩
  | succ calls =>
      simp only [refreshes] at h
      split at h
      · simp at h
      · rename_i returned between hreturned
        have hspec := refreshDevices_ok hreturned
        rw [hclient] at hspec
        rcases hfirst hspec.2.1 with ⟨next, hnext, hrecords⟩
        rw [← hspec.2.2] at hrecords ⊢
        exact refreshes_again hnext hrecords h

theorem devices_id_ne_empty {places : List Placement} {device : MountDevice}
    (h : device ∈ places.flatMap Placement.devices) : device.id ≠ "" := by
  rcases List.mem_flatMap.mp h with ⟨place, _, hplace⟩
  rcases List.mem_map.mp hplace with ⟨i, _, hi⟩
  rw [← hi]
  apply Base.Text.hex_ne_empty
  intro hempty
  have hlength := Base.Sha1.sum_length (place.hashed i)
  simp [hempty] at hlength

theorem refreshes_parent {codec : DeviceInfoCodec} {node : String} {config : Config}
    {interfaces : List String} (hdistinct : interfaces.Nodup) {calls : Nat}
    {dps after : VSfcPluginServer} {client : ClientInfo} {devices : List MountDevice}
    (hclient : dps.k8sclient = some client)
    (hfresh : storedRecords codec node dps.resource.name client.store = none)
    (h : refreshes codec node config interfaces calls dps = (.ok devices, after)) :
    devices = (served config dps.resource interfaces).flatMap Placement.devices ∧
      ∃ next, after.k8sclient = some next ∧ ∀ device ∈ devices,
        getParentInterface codec (.ok node) device.id dps.resource.name ⟨next.store, []⟩ =
          .ok (((served config dps.resource interfaces).map (·.nic)).getLastD "") := by
  rcases refreshes_recorded hdistinct hclient hfresh h with ⟨hdevices, next, hnext, hrecords⟩
  refine ⟨hdevices, next, hnext, ?_⟩
  intro device hdevice
  rw [hdevices] at hdevice
  have hpublished := accumulated_published [] hdevice
  have hstored : storedRecords codec node dps.resource.name next.store =
      some (.ok (accumulated [] (served config dps.resource interfaces))) := by
    cases hrecords with
    | inl hsome => exact hsome
    | inr hnone =>
        rcases hpublished with ⟨record, hrecord, _⟩
        simp [hnone.2] at hrecord
  have hparent : getParentInterface codec (.ok node) device.id dps.resource.name
      ⟨next.store, []⟩ = .ok _ :=
    getParentInterface_eq (devices_id_ne_empty hdevice) rfl hstored hpublished
  rw [hparent, accumulated_names]

theorem all_last_iff {places : List Placement} (h : (places.map (·.nic)).Nodup) :
    (∀ device ∈ places.flatMap Placement.devices,
      (places.map (·.nic)).getLastD "" = device.nic) ↔ places.length ≤ 1 := by
  cases places with
  | nil => simp
  | cons first rest =>
      cases rest with
      | nil =>
          simp only [List.flatMap_singleton, List.length_singleton, le_refl, iff_true]
          intro device hdevice
          rw [devices_nic hdevice]
          rfl
      | cons second rest =>
          simp only [List.length_cons]
          refine ⟨fun hall => ?_, fun hlength => absurd hlength (by omega)⟩
          have hmem : first.device 1 ∈ (first :: second :: rest).flatMap Placement.devices :=
            List.mem_flatMap.mpr ⟨first, List.mem_cons_self,
              List.mem_map_of_mem (by decide)⟩
          have hlast : ((second :: rest).map (·.nic)).getLastD first.nic = first.nic :=
            hall _ hmem
          have hnonempty : (second :: rest).map (·.nic) ≠ [] := by simp
          rw [List.getLastD_eq_getLast?, List.getLast?_eq_some_getLast hnonempty,
            Option.getD_some] at hlast
          have hagain : first.nic ∈ (second :: rest).map (·.nic) := by
            rw [← hlast]
            exact List.getLast_mem hnonempty
          rw [List.map_cons, List.nodup_cons] at h
          exact absurd hagain h.1

theorem refreshes_ready {codec : DeviceInfoCodec} {node : String} (config : Config)
    (interfaces : List String) (hnode : node ≠ "") (calls : Nat) (dps : VSfcPluginServer)
    {client : ClientInfo} (hclient : dps.k8sclient = some client)
    (h : Ready codec node dps.resource.name client) :
    ∃ devices after, refreshes codec node config interfaces calls dps =
      (.ok devices, after) := by
  induction calls generalizing dps client with
  | zero =>
      rcases refreshDevices_ready config interfaces hnode hclient h with
        ⟨after, next, hrefresh, _⟩
      exact ⟨_, after, hrefresh⟩
  | succ calls ih =>
      rcases refreshDevices_ready config interfaces hnode hclient h with
        ⟨after, next, hrefresh, hnext, hready⟩
      simp only [refreshes, hrefresh]
      exact ih _ hnext hready

/-- The round trip from the device plugin to the CNI plugin: it returns every
device's own interface exactly when the resource has at most one interface. -/
theorem round_trip_iff (codec : DeviceInfoCodec) (node : String) (config : Config)
    (interfaces : List String) (hdistinct : interfaces.Nodup) (calls : Nat)
    (dps after : VSfcPluginServer) (client : ClientInfo) (nad : Versioned NetAttachDef)
    (devices : List MountDevice) (hclient : dps.k8sclient = some client)
    (hnad : client.store.get? "default" dps.resource.name = some nad)
    (hfresh : nad.object.annotation? (nodeAnnotKey node) = none)
    (h : refreshes codec node config interfaces calls dps = (.ok devices, after)) :
    ∃ next, after.k8sclient = some next ∧
      ((∀ device ∈ devices, getParentInterface codec (.ok node) device.id dps.resource.name
          ⟨next.store, []⟩ = .ok device.nic) ↔
        (served config dps.resource interfaces).length ≤ 1) := by
  have hnone : storedRecords codec node dps.resource.name client.store = none := by
    simp [storedRecords, hnad, nodeRecords, hfresh]
  rcases refreshes_parent hdistinct hclient hnone h with ⟨hdevices, next, hnext, hparent⟩
  refine ⟨next, hnext, ?_⟩
  rw [← all_last_iff (served_nics_nodup config dps.resource hdistinct), ← hdevices]
  refine ⟨fun hall device hdevice => ?_, fun hall device hdevice => ?_⟩
  · have hown := hall device hdevice
    rw [hparent device hdevice] at hown
    exact Except.ok.inj hown
  · rw [hparent device hdevice, hall device hdevice]

theorem round_trip_one_nic :
    ∃ devices after next,
      refreshes canonicalCodec "node1" twoNics ["ens1"] 1 (freshServer "hft/a") =
        (.ok devices, after) ∧ after.k8sclient = some next ∧ devices.length = 8 ∧
      ∀ device ∈ devices, getParentInterface canonicalCodec (.ok "node1") device.id
        (freshServer "hft/a").resource.name ⟨next.store, []⟩ = .ok device.nic := by
  have hready := freshClient_ready canonicalCodec "node1" "hft/a"
  rcases refreshes_ready twoNics ["ens1"] (by decide) 1 (freshServer "hft/a") rfl hready with
    ⟨devices, after, hrun⟩
  have hdevices := (refreshes_parent (by decide) rfl (by decide) hrun).1
  rcases round_trip_iff canonicalCodec "node1" twoNics ["ens1"] (by decide) 1
    (freshServer "hft/a") after (freshClient "hft/a") ⟨0, "default", "a", some ∅⟩ devices rfl
    (by decide) (by decide) hrun with ⟨next, hnext, hiff⟩
  refine ⟨devices, after, next, hrun, hnext, ?_, hiff.mpr (by decide)⟩
  rw [hdevices]
  decide

theorem round_trip_fails_two_nics :
    ∃ devices after next,
      refreshes canonicalCodec "node1" twoNics ["ens1", "ens2"] 0 (freshServer "hft/a") =
        (.ok devices, after) ∧ after.k8sclient = some next ∧
      ¬ ∀ device ∈ devices, getParentInterface canonicalCodec (.ok "node1") device.id
        (freshServer "hft/a").resource.name ⟨next.store, []⟩ = .ok device.nic := by
  have hready := freshClient_ready canonicalCodec "node1" "hft/a"
  rcases refreshes_ready twoNics ["ens1", "ens2"] (by decide) 0 (freshServer "hft/a") rfl
    hready with ⟨devices, after, hrun⟩
  rcases refreshes_parent (by decide) rfl (by decide) hrun with
    ⟨hdevices, next, hnext, hparent⟩
  refine ⟨devices, after, next, hrun, hnext, fun hall => ?_⟩
  have hmem : (⟨0, "ens1", "hft/a"⟩ : Placement).device 1 ∈ devices := by
    rw [hdevices]
    apply List.mem_flatMap.mpr
    exact ⟨⟨0, "ens1", "hft/a"⟩, by decide, List.mem_map_of_mem (by decide)⟩
  have hresolved := hall _ hmem
  rw [hparent _ hmem] at hresolved
  exact absurd (Except.ok.inj hresolved) (by decide)

end VirtualSfc.Cni.Parent
