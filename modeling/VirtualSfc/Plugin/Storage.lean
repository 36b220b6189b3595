import VirtualSfc.Plugin.Client

/-! Device records in the annotations of a net-attach-def: `AddDeviceIDs` reads
the object, edits the annotation of its own node and writes the object back. The
last section runs many such calls against one object in any order. -/
namespace VirtualSfc.Plugin.Storage
open Base Base.Optimistic Client

def parseDeviceInfo (codec : DeviceInfoCodec) (raw : String) :
    Except Fault (List DeviceInfo) :=
  match codec.unmarshal raw with
  | .error message => .error (.error message)
  | .ok devices => .ok devices

def hasTargetDevice (ifName : String) : List DeviceInfo → Bool
  | [] => false
  | device :: devices => if device.name = ifName then true else hasTargetDevice ifName devices

/-- The assignment is to the range variable, not to the element. -/
def updateTargetDevice (ifName : String) (deviceIDs : List String)
    (devices : List DeviceInfo) : List DeviceInfo :=
  rangeCopies
    (fun device =>
      if device.name = ifName then { device with deviceIDs := deviceIDs } else device)
    devices

def nodeAnnotKey (node : String) : String := nodeResourceAnnotPrefix ++ node

def mergeDevices (ifName : String) (deviceIDs : List String)
    (devices : List DeviceInfo) : List DeviceInfo :=
  if !hasTargetDevice ifName devices then devices ++ [⟨ifName, deviceIDs⟩]
  else updateTargetDevice ifName deviceIDs devices

def addDeviceIeIDs (codec : DeviceInfoCodec) (node ifName : String) (deviceIDs : List String)
    (nad : NetAttachDef) : Except Fault NetAttachDef :=
  if node.length ≤ 0 then .error (.error "empty node name")
  else
    let annotation := nodeAnnotKey node
    match nad.annotation? annotation with
    | some content =>
        match parseDeviceInfo codec content with
        | .error fault => .error fault
        | .ok devices =>
            nad.annotate annotation (codec.marshal (mergeDevices ifName deviceIDs devices))
    | none => nad.annotate annotation (codec.marshal [⟨ifName, deviceIDs⟩])

def addDeviceIDs (codec : DeviceInfoCodec) (node netAttachDef ifName : String)
    (deviceIDs : List String) (k8sclient : Option ClientInfo) :
    Except Fault Unit × Option ClientInfo :=
  match k8sclient with
  | none => (.error (.error "empty k8s client"), none)
  | some client =>
      match client.getDefaultNetAttachDef netAttachDef with
      | (.error fault, client) => (.error fault, some client)
      | (.ok nad, client) =>
          match addDeviceIeIDs codec node ifName deviceIDs nad.object with
          | .error fault => (.error fault, some client)
          | .ok object =>
              match client.updateNetAttachDef { nad with object := object } with
              | (.error fault, client) => (.error fault, some client)
              | (.ok _, client) => (.ok (), some client)

@[simp] theorem updateTargetDevice_eq (ifName : String) (deviceIDs : List String)
    (devices : List DeviceInfo) : updateTargetDevice ifName deviceIDs devices = devices :=
  rangeCopies_eq _ devices

theorem hasTargetDevice_iff (ifName : String) (devices : List DeviceInfo) :
    hasTargetDevice ifName devices = true ↔ ifName ∈ devices.map (·.name) := by
  induction devices with
  | nil => simp [hasTargetDevice]
  | cons device devices ih =>
      by_cases hname : device.name = ifName
      · simp [hasTargetDevice, hname]
      · simp only [hasTargetDevice, hname, if_false, ih, List.map_cons, List.mem_cons]
        simp [Ne.symm hname]

/-- Publishing an interface a second time changes nothing, because the update
loop writes to a copy. -/
theorem mergeDevices_eq (ifName : String) (deviceIDs : List String)
    (devices : List DeviceInfo) :
    mergeDevices ifName deviceIDs devices =
      if ifName ∈ devices.map (·.name) then devices else devices ++ [⟨ifName, deviceIDs⟩] := by
  unfold mergeDevices
  rw [updateTargetDevice_eq]
  by_cases hname : ifName ∈ devices.map (·.name)
  · rw [(hasTargetDevice_iff ifName devices).mpr hname, if_pos hname]
    rfl
  · have hmissing : hasTargetDevice ifName devices = false := by
      rw [← Bool.not_eq_true, hasTargetDevice_iff]
      exact hname
    rw [hmissing, if_neg hname]
    rfl

theorem mem_mergeDevices_self (ifName : String) (deviceIDs : List String)
    (devices : List DeviceInfo) :
    ifName ∈ (mergeDevices ifName deviceIDs devices).map (·.name) := by
  rw [mergeDevices_eq]
  split
  · assumption
  · simp

theorem mem_mergeDevices_of_mem (ifName : String) (deviceIDs : List String)
    {devices : List DeviceInfo} {name : String} (h : name ∈ devices.map (·.name)) :
    name ∈ (mergeDevices ifName deviceIDs devices).map (·.name) := by
  rw [mergeDevices_eq]
  split
  · exact h
  · rw [List.map_append, List.mem_append]
    exact Or.inl h

theorem nodup_mergeDevices {ifName : String} {deviceIDs : List String}
    {devices : List DeviceInfo} (h : (devices.map (·.name)).Nodup) :
    ((mergeDevices ifName deviceIDs devices).map (·.name)).Nodup := by
  rw [mergeDevices_eq]
  split
  · exact h
  · rename_i hname
    rw [List.map_append, List.map_singleton, ← List.concat_eq_append]
    exact h.concat hname

/-- What the annotation of a node holds: nothing before the first publication,
afterwards the outcome of parsing it. -/
def nodeRecords (codec : DeviceInfoCodec) (node : String) (nad : NetAttachDef) :
    Option (Except String (List DeviceInfo)) :=
  (nad.annotation? (nodeAnnotKey node)).map codec.unmarshal

def parsedRecords : Option (Except String (List DeviceInfo)) → List DeviceInfo
  | some (.ok devices) => devices
  | _ => []

def recordsOf (codec : DeviceInfoCodec) (node : String) (nad : NetAttachDef) :
    List DeviceInfo :=
  parsedRecords (nodeRecords codec node nad)

theorem addDeviceIeIDs_annotate {codec : DeviceInfoCodec} {node ifName : String}
    {deviceIDs : List String} {nad next : NetAttachDef}
    (h : addDeviceIeIDs codec node ifName deviceIDs nad = .ok next) :
    nad.annotate (nodeAnnotKey node)
        (codec.marshal (mergeDevices ifName deviceIDs (recordsOf codec node nad))) = .ok next ∧
      (nodeRecords codec node nad = some (.ok (recordsOf codec node nad)) ∨
        nodeRecords codec node nad = none) := by
  unfold addDeviceIeIDs at h
  split at h
  · contradiction
  · cases hcontent : nad.annotation? (nodeAnnotKey node) with
    | none =>
        simp only [hcontent] at h
        have hrecords : nodeRecords codec node nad = none := by
          rw [nodeRecords, hcontent, Option.map_none]
        rw [recordsOf, hrecords]
        exact ⟨h, Or.inr rfl⟩
    | some content =>
        simp only [hcontent, parseDeviceInfo] at h
        cases hparse : codec.unmarshal content with
        | error message =>
            rw [hparse] at h
            contradiction
        | ok devices =>
            rw [hparse] at h
            have hrecords : nodeRecords codec node nad = some (.ok devices) := by
              rw [nodeRecords, hcontent, Option.map_some, hparse]
            rw [recordsOf, hrecords]
            exact ⟨h, Or.inl rfl⟩

theorem addDeviceIeIDs_recordsOf {codec : DeviceInfoCodec} {node ifName : String}
    {deviceIDs : List String} {nad next : NetAttachDef}
    (h : addDeviceIeIDs codec node ifName deviceIDs nad = .ok next) :
    nodeRecords codec node next =
      some (.ok (mergeDevices ifName deviceIDs (recordsOf codec node nad))) := by
  have hread := NetAttachDef.annotation?_annotate (addDeviceIeIDs_annotate h).1
  rw [nodeRecords, hread, if_pos rfl, Option.map_some, codec.unmarshal_marshal]

theorem addDeviceIeIDs_ok {codec : DeviceInfoCodec} {node ifName : String}
    {deviceIDs : List String} {nad next : NetAttachDef}
    (h : addDeviceIeIDs codec node ifName deviceIDs nad = .ok next) :
    next.key = nad.key ∧
      (∀ key, key ≠ nodeAnnotKey node → next.annotation? key = nad.annotation? key) ∧
      ∃ devices, nodeRecords codec node next =
          some (.ok (mergeDevices ifName deviceIDs devices)) ∧
        (nodeRecords codec node nad = some (.ok devices) ∨
          nodeRecords codec node nad = none ∧ devices = []) := by
  rcases addDeviceIeIDs_annotate h with ⟨hannotate, hbefore⟩
  have hread := NetAttachDef.annotation?_annotate hannotate
  refine ⟨NetAttachDef.annotate_key hannotate, ?_, recordsOf codec node nad, ?_, ?_⟩
  · intro key hkey
    rw [hread, if_neg hkey]
  · exact addDeviceIeIDs_recordsOf h
  · rcases hbefore with hparsed | hmissing
    · exact Or.inl hparsed
    · refine Or.inr ⟨hmissing, ?_⟩
      rw [recordsOf, hmissing]
      rfl

def storedRecords (codec : DeviceInfoCodec) (node netAttachDef : String) (store : Store) :
    Option (Except String (List DeviceInfo)) :=
  (store.get? "default" netAttachDef).bind fun nad => nodeRecords codec node nad.object

def Recorded (codec : DeviceInfoCodec) (node netAttachDef : String) (store : Store)
    (devices : List DeviceInfo) : Prop :=
  storedRecords codec node netAttachDef store = some (.ok devices) ∨
    storedRecords codec node netAttachDef store = none ∧ devices = []

theorem Recorded.unique {codec : DeviceInfoCodec} {node netAttachDef : String}
    {store : Store} {left right : List DeviceInfo}
    (hleft : Recorded codec node netAttachDef store left)
    (hright : Recorded codec node netAttachDef store right) : left = right := by
  cases hleft with
  | inl hfirst =>
      cases hright with
      | inl hsecond =>
          rw [hfirst] at hsecond
          exact Except.ok.inj (Option.some.inj hsecond)
      | inr hnone => simp [hfirst] at hnone
  | inr hmissing =>
      cases hright with
      | inl hsecond => simp [hsecond] at hmissing
      | inr hnone => rw [hmissing.2, hnone.2]

/-- Whether a node can publish into an object: the annotation map exists, and the
node's own entry, if there is one, parses. -/
def editable (codec : DeviceInfoCodec) (node : String) (nad : NetAttachDef) : Bool :=
  nad.annotations.isSome && (nodeRecords codec node nad).all (·.isOk)

def accepting (codec : DeviceInfoCodec) (node netAttachDef : String) (store : Store) : Bool :=
  (store.get? "default" netAttachDef).any fun nad => editable codec node nad.object

def answering (requests : Nat) (client : ClientInfo) : Bool :=
  (client.network.take requests).all fun delivery => delivery = .answered

theorem length_pos_iff (node : String) : ¬ node.length ≤ 0 ↔ node ≠ "" := by
  rw [Nat.le_zero, String.length_eq_zero_iff]

theorem annotate_ok_iff (nad : NetAttachDef) (key value : String) :
    (∃ next, nad.annotate key value = .ok next) ↔ nad.annotations.isSome = true := by
  cases hannotations : nad.annotations with
  | none => simp [NetAttachDef.annotate, hannotations]
  | some annotations => simp [NetAttachDef.annotate, hannotations]

theorem editable_of_nodeRecords {codec : DeviceInfoCodec} {node : String}
    {nad : NetAttachDef} {devices : List DeviceInfo}
    (h : nodeRecords codec node nad = some (.ok devices)) : editable codec node nad = true := by
  cases hmap : nad.annotations with
  | none => simp [nodeRecords, NetAttachDef.annotation?, hmap] at h
  | some annotations =>
      rw [editable, hmap, h]
      rfl

theorem addDeviceIeIDs_ok_iff (codec : DeviceInfoCodec) (node ifName : String)
    (deviceIDs : List String) (nad : NetAttachDef) :
    (∃ next, addDeviceIeIDs codec node ifName deviceIDs nad = .ok next) ↔
      node ≠ "" ∧ editable codec node nad = true := by
  unfold addDeviceIeIDs editable
  by_cases hnode : node = ""
  · simp [hnode]
  · rw [if_neg ((length_pos_iff node).mpr hnode), Bool.and_eq_true]
    simp only [nodeRecords, parseDeviceInfo]
    cases hcontent : nad.annotation? (nodeAnnotKey node) with
    | none => simp [hnode, annotate_ok_iff]
    | some content =>
        cases hparse : codec.unmarshal content with
        | error message => simp [hparse]
        | ok devices => simp [hparse, hnode, annotate_ok_iff]

/-- The call with the object behind its pointer, to which only the last statement
writes. -/
def addDeviceIeIDsTo (codec : DeviceInfoCodec) (node ifName : String)
    (deviceIDs : List String) (nad : NetAttachDef) : Except Fault Unit × NetAttachDef :=
  match addDeviceIeIDs codec node ifName deviceIDs nad with
  | .error fault => (.error fault, nad)
  | .ok next => (.ok (), next)

/-- What a call is meant to leave: one record of the interface with the new IDs,
the other records in their order, and the other annotations. -/
structure Upserted (codec : DeviceInfoCodec) (node ifName : String) (deviceIDs : List String)
    (nad next : NetAttachDef) : Prop where
  parses : nodeRecords codec node next = some (.ok (recordsOf codec node next))
  record : (recordsOf codec node next).filter (·.name = ifName) = [⟨ifName, deviceIDs⟩]
  kept : (recordsOf codec node next).filter (·.name ≠ ifName) =
    (recordsOf codec node nad).filter (·.name ≠ ifName)
  others : ∀ key, key ≠ nodeAnnotKey node → next.annotation? key = nad.annotation? key

theorem filter_name_eq_singleton {devices : List DeviceInfo} {device : DeviceInfo}
    (hdistinct : (devices.map (·.name)).Nodup) (hdevice : device ∈ devices) :
    devices.filter (·.name = device.name) = [device] := by
  induction devices with
  | nil => simp at hdevice
  | cons first rest ih =>
      rw [List.map_cons, List.nodup_cons] at hdistinct
      rw [List.mem_cons] at hdevice
      rcases hdevice with hfirst | hrest
      · subst hfirst
        have hothers : rest.filter (·.name = device.name) = [] := by
          rw [List.filter_eq_nil_iff]
          intro other hother hname
          exact hdistinct.1 (of_decide_eq_true hname ▸ List.mem_map_of_mem hother)
        simp [hothers]
      · have hname : first.name ≠ device.name := by
          intro hsame
          exact hdistinct.1 (hsame ▸ List.mem_map_of_mem hrest)
        simp [hname, ih hdistinct.2 hrest]

theorem mergeDevices_filter_iff (ifName : String) (deviceIDs : List String)
    {devices : List DeviceInfo} (hdistinct : (devices.map (·.name)).Nodup) :
    (mergeDevices ifName deviceIDs devices).filter (·.name = ifName) =
        [⟨ifName, deviceIDs⟩] ↔
      ∀ device ∈ devices, device.name = ifName → device.deviceIDs = deviceIDs := by
  rw [mergeDevices_eq]
  by_cases hname : ifName ∈ devices.map (·.name)
  · rw [if_pos hname]
    rcases List.mem_map.mp hname with ⟨device, hdevice, hdeviceName⟩
    have hsingle := filter_name_eq_singleton hdistinct hdevice
    rw [hdeviceName] at hsingle
    refine ⟨fun hfilter other hother hotherName => ?_, fun hsame => ?_⟩
    · have hmem : other ∈ devices.filter (·.name = ifName) := by
        simp [hother, hotherName]
      rw [hfilter, List.mem_singleton] at hmem
      rw [hmem]
    · rw [hsingle, ← hdeviceName, ← hsame device hdevice hdeviceName]
  · have hmissing : ∀ device ∈ devices, device.name ≠ ifName := by
      intro device hdevice hdeviceName
      exact hname (hdeviceName ▸ List.mem_map_of_mem hdevice)
    have hnone : devices.filter (·.name = ifName) = [] := by
      simpa [List.filter_eq_nil_iff] using hmissing
    rw [if_neg hname, List.filter_append, hnone]
    simp only [List.nil_append, List.filter_singleton, decide_true, cond_true, true_iff]
    intro device hdevice hdeviceName
    exact absurd hdeviceName (hmissing device hdevice)

theorem mergeDevices_filter_ne (ifName : String) (deviceIDs : List String)
    (devices : List DeviceInfo) :
    (mergeDevices ifName deviceIDs devices).filter (·.name ≠ ifName) =
      devices.filter (·.name ≠ ifName) := by
  rw [mergeDevices_eq]
  split
  · rfl
  · simp [List.filter_append]

theorem addDeviceIeIDs_error {codec : DeviceInfoCodec} {node ifName : String}
    {deviceIDs : List String} {nad : NetAttachDef} {fault : Fault}
    (h : addDeviceIeIDs codec node ifName deviceIDs nad = .error fault) :
    node = "" ∨ recordsOf codec node nad = [] := by
  by_contra hready
  rw [not_or] at hready
  have heditable : editable codec node nad = true := by
    unfold recordsOf parsedRecords at hready
    split at hready
    · rename_i devices hrecords
      exact editable_of_nodeRecords hrecords
    · simp at hready
  rcases (addDeviceIeIDs_ok_iff codec node ifName deviceIDs nad).mpr ⟨hready.1, heditable⟩ with
    ⟨next, hnext⟩
  rw [h] at hnext
  contradiction

/-- A successful call is an upsert, and a failed one changes nothing, exactly when
there is no node name or the interface's record, if there is one, already carries
the IDs. -/
theorem addDeviceIeIDsTo_upserted_iff (codec : DeviceInfoCodec) (node ifName : String)
    (deviceIDs : List String) (nad : NetAttachDef)
    (hdistinct : ((recordsOf codec node nad).map (·.name)).Nodup) :
    (((addDeviceIeIDsTo codec node ifName deviceIDs nad).1 = .ok () →
        Upserted codec node ifName deviceIDs nad
          (addDeviceIeIDsTo codec node ifName deviceIDs nad).2) ∧
      ∀ fault, (addDeviceIeIDsTo codec node ifName deviceIDs nad).1 = .error fault →
        (addDeviceIeIDsTo codec node ifName deviceIDs nad).2 = nad) ↔
    node = "" ∨ ∀ device ∈ recordsOf codec node nad,
      device.name = ifName → device.deviceIDs = deviceIDs := by
  unfold addDeviceIeIDsTo
  cases hedit : addDeviceIeIDs codec node ifName deviceIDs nad with
  | error fault =>
      rcases addDeviceIeIDs_error hedit with hnode | hempty
      · simp [hnode]
      · simp [hempty]
  | ok next =>
      have hnode : node ≠ "" :=
        ((addDeviceIeIDs_ok_iff codec node ifName deviceIDs nad).mp ⟨next, hedit⟩).1
      have hnext := addDeviceIeIDs_recordsOf hedit
      have hrecords : recordsOf codec node next =
          mergeDevices ifName deviceIDs (recordsOf codec node nad) := by
        rw [recordsOf, hnext, parsedRecords]
      have hfilter := mergeDevices_filter_iff ifName deviceIDs hdistinct
      rw [← hrecords] at hfilter
      simp only [hnode, false_or, forall_const, reduceCtorEq, false_implies, implies_true,
        and_true, ← hfilter]
      refine ⟨fun hupserted => hupserted.record, fun hrecord => ⟨?_, hrecord, ?_, ?_⟩⟩
      · rw [hnext, hrecords]
      · rw [hrecords]
        exact mergeDevices_filter_ne ifName deviceIDs (recordsOf codec node nad)
      · exact (addDeviceIeIDs_ok hedit).2.1

def publishedOnce : NetAttachDef where
  space := "default"
  name := "vsfc"
  annotations := some (Finmap.singleton (nodeAnnotKey "n1")
    (canonicalCodec.marshal [⟨"ens1", ["a"]⟩]))

theorem addDeviceIeIDsTo_upserted_second_interface :
    Upserted canonicalCodec "n1" "ens2" ["b"] publishedOnce
      (addDeviceIeIDsTo canonicalCodec "n1" "ens2" ["b"] publishedOnce).2 :=
  ((addDeviceIeIDsTo_upserted_iff canonicalCodec "n1" "ens2" ["b"] publishedOnce
    (by decide +kernel)).mpr (by decide +kernel)).1 (by decide +kernel)

theorem addDeviceIeIDsTo_not_upserted_same_interface :
    (addDeviceIeIDsTo canonicalCodec "n1" "ens1" ["b"] publishedOnce).1 = .ok () ∧
      ¬ Upserted canonicalCodec "n1" "ens1" ["b"] publishedOnce
        (addDeviceIeIDsTo canonicalCodec "n1" "ens1" ["b"] publishedOnce).2 := by
  refine ⟨by decide +kernel, fun hupserted => ?_⟩
  exact absurd hupserted.record (by decide +kernel)

theorem addDeviceIeIDs_editable {codec : DeviceInfoCodec} {node ifName : String}
    {deviceIDs : List String} {nad next : NetAttachDef}
    (h : addDeviceIeIDs codec node ifName deviceIDs nad = .ok next) :
    editable codec node next = true := by
  rcases addDeviceIeIDs_ok h with ⟨_, _, devices, hrecords, _⟩
  exact editable_of_nodeRecords hrecords

theorem answering_two (requests : Nat) (client : ClientInfo) :
    answering (requests + 2) client = true ↔ client.delivery = .answered ∧
      client.advance.delivery = .answered ∧
      answering requests client.advance.advance = true := by
  unfold answering ClientInfo.delivery ClientInfo.advance
  match client.network with
  | [] => simp
  | [first] => simp
  | first :: second :: rest => simp

theorem addDeviceIeIDs_key {codec : DeviceInfoCodec} {node netAttachDef ifName : String}
    {deviceIDs : List String} {store : Store} {nad : Versioned NetAttachDef}
    {object : NetAttachDef} (hget : store.get? "default" netAttachDef = some nad)
    (hedit : addDeviceIeIDs codec node ifName deviceIDs nad.object = .ok object) :
    object.key = ("default", netAttachDef) :=
  (addDeviceIeIDs_ok hedit).1.trans (store.keyed _ _ hget)

theorem addDeviceIDs_inv {codec : DeviceInfoCodec} {node netAttachDef ifName : String}
    {deviceIDs : List String} {client : ClientInfo} {after : Option ClientInfo}
    (h : addDeviceIDs codec node netAttachDef ifName deviceIDs (some client) =
      (.ok (), after)) :
    ∃ nad served, client.store.get? "default" netAttachDef = some nad ∧
      addDeviceIeIDs codec node ifName deviceIDs nad.object = .ok served.object ∧
      client.delivery = .answered ∧ client.advance.delivery = .answered ∧
      after = some { client.advance.advance with store := client.store.put served } := by
  unfold addDeviceIDs at h
  cases hget : client.getDefaultNetAttachDef netAttachDef with
  | mk result read =>
  cases result with
  | error fault => simp [hget] at h
  | ok nad =>
  have hread := ClientInfo.getNetAttachDef_ok hget
  cases hedit : addDeviceIeIDs codec node ifName deviceIDs nad.object with
  | error fault => simp [hget, hedit] at h
  | ok object =>
  cases hupdate : read.updateNetAttachDef { nad with object := object } with
  | mk result written =>
  cases result with
  | error fault => simp [hget, hedit, hupdate] at h
  | ok served =>
  have hwritten := ClientInfo.updateNetAttachDef_ok hupdate
  simp only [hget, hedit, hupdate, Prod.mk.injEq, true_and] at h
  rw [hread.2.2] at hwritten
  refine ⟨nad, served, hread.1, ?_, hread.2.1, hwritten.1, ?_⟩
  · rw [hedit, hwritten.2.1]
  · rw [← h, hwritten.2.2]
    rfl

theorem addDeviceIDs_ok {codec : DeviceInfoCodec} {node netAttachDef ifName : String}
    {deviceIDs : List String} {client : ClientInfo} {after : Option ClientInfo}
    (h : addDeviceIDs codec node netAttachDef ifName deviceIDs (some client) =
      (.ok (), after)) :
    ∃ next devices, after = some next ∧
      storedRecords codec node netAttachDef next.store =
        some (.ok (mergeDevices ifName deviceIDs devices)) ∧
      Recorded codec node netAttachDef client.store devices := by
  rcases addDeviceIDs_inv h with ⟨nad, served, hget, hedit, _, _, hafter⟩
  rcases addDeviceIeIDs_ok hedit with ⟨_, _, devices, hrecords, hbefore⟩
  refine ⟨_, devices, hafter, ?_, ?_⟩
  · rw [storedRecords, Store.get?_put, addDeviceIeIDs_key hget hedit, if_pos rfl,
      Option.bind_some]
    exact hrecords
  · rw [Recorded, storedRecords, hget, Option.bind_some]
    exact hbefore

theorem addDeviceIDs_update {codec : DeviceInfoCodec} {node netAttachDef ifName : String}
    {deviceIDs : List String} {client : ClientInfo} {nad : Versioned NetAttachDef}
    {object : NetAttachDef} (hdelivery : client.delivery = .answered)
    (hget : client.store.get? "default" netAttachDef = some nad)
    (hedit : addDeviceIeIDs codec node ifName deviceIDs nad.object = .ok object) :
    ∃ served : Versioned NetAttachDef, replace? nad { nad with object := object } = some served ∧
      addDeviceIDs codec node netAttachDef ifName deviceIDs (some client) =
        match client.advance.delivery with
        | .unreachable => (.error (.error "request failed"), some client.advance.advance)
        | .replyLost => (.error (.error "request failed"),
            some { client.advance.advance with store := client.store.put served })
        | .answered => (.ok (),
            some { client.advance.advance with store := client.store.put served }) := by
  have hcurrent : client.store.get? object.space object.name = some nad := by
    have hkey := Prod.mk.inj (addDeviceIeIDs_key hget hedit)
    rw [hkey.1, hkey.2]
    exact hget
  rcases replace?_self nad object with ⟨served, hreplace⟩
  refine ⟨served, hreplace, ?_⟩
  cases hupdate : client.advance.delivery <;>
    simp [addDeviceIDs, ClientInfo.getDefaultNetAttachDef, ClientInfo.getNetAttachDef,
      ClientInfo.updateNetAttachDef, Store.update, hdelivery, hupdate, hget, hedit, hcurrent,
      hreplace]

theorem addDeviceIDs_ok_iff (codec : DeviceInfoCodec) (node netAttachDef ifName : String)
    (deviceIDs : List String) (client : ClientInfo) (requests : Nat) :
    (∃ next, addDeviceIDs codec node netAttachDef ifName deviceIDs (some client) =
        (.ok (), some next) ∧ answering requests next = true) ↔
      node ≠ "" ∧ accepting codec node netAttachDef client.store = true ∧
        answering (requests + 2) client = true := by
  rw [answering_two, accepting, Option.any_eq_true]
  refine ⟨fun hsuccess => ?_, fun hready => ?_⟩
  · rcases hsuccess with ⟨next, hadd, hnext⟩
    rcases addDeviceIDs_inv hadd with ⟨nad, served, hget, hedit, hfirst, hsecond, hafter⟩
    have hready := (addDeviceIeIDs_ok_iff codec node ifName deviceIDs nad.object).mp ⟨_, hedit⟩
    rw [Option.some.inj hafter] at hnext
    exact ⟨hready.1, ⟨nad, hget, hready.2⟩, hfirst, hsecond, hnext⟩
  · rcases hready with ⟨hnode, ⟨nad, hget, heditable⟩, hfirst, hsecond, hrest⟩
    rcases (addDeviceIeIDs_ok_iff codec node ifName deviceIDs nad.object).mpr
      ⟨hnode, heditable⟩ with ⟨object, hedit⟩
    rcases addDeviceIDs_update hfirst hget hedit with ⟨served, _, hadd⟩
    rw [hsecond] at hadd
    exact ⟨_, hadd, hrest⟩

theorem addDeviceIDs_accepting {codec : DeviceInfoCodec} {node netAttachDef ifName : String}
    {deviceIDs : List String} {client next : ClientInfo}
    (h : addDeviceIDs codec node netAttachDef ifName deviceIDs (some client) =
      (.ok (), some next)) : accepting codec node netAttachDef next.store = true := by
  rcases addDeviceIDs_inv h with ⟨nad, served, hget, hedit, _, _, hafter⟩
  rw [Option.some.inj hafter, accepting, Store.get?_put, addDeviceIeIDs_key hget hedit,
    if_pos rfl]
  exact addDeviceIeIDs_editable hedit

def Ready (codec : DeviceInfoCodec) (node netAttachDef : String) (client : ClientInfo) :
    Prop :=
  client.network = [] ∧ accepting codec node netAttachDef client.store = true

theorem addDeviceIDs_ready {codec : DeviceInfoCodec} {node netAttachDef : String}
    {client : ClientInfo} (hnode : node ≠ "") (h : Ready codec node netAttachDef client)
    (ifName : String) (deviceIDs : List String) :
    ∃ next, addDeviceIDs codec node netAttachDef ifName deviceIDs (some client) =
        (.ok (), some next) ∧ Ready codec node netAttachDef next := by
  have hanswering : answering (0 + 2) client = true := by simp [answering, h.1]
  rcases (addDeviceIDs_ok_iff codec node netAttachDef ifName deviceIDs client 0).mpr
    ⟨hnode, h.2, hanswering⟩ with ⟨next, hadd, _⟩
  rcases addDeviceIDs_inv hadd with ⟨_, _, _, _, _, _, hafter⟩
  refine ⟨next, hadd, ?_, addDeviceIDs_accepting hadd⟩
  simp [Option.some.inj hafter, ClientInfo.advance, h.1]

/-! Many nodes publish into one net-attach-def. A call is in flight between its
GET and its UPDATE; events of different calls interleave freely. -/

structure Publication where
  node : String
  ifName : String
  deviceIDs : List String
deriving DecidableEq, Repr

def publish (codec : DeviceInfoCodec) (call : Publication) (nad : NetAttachDef) :
    Option NetAttachDef :=
  (addDeviceIeIDs codec call.node call.ifName call.deviceIDs nad).toOption

theorem publish_eq_some {codec : DeviceInfoCodec} {call : Publication}
    {nad next : NetAttachDef} (h : publish codec call nad = some next) :
    addDeviceIeIDs codec call.node call.ifName call.deviceIDs nad = .ok next := by
  unfold publish at h
  cases hresult : addDeviceIeIDs codec call.node call.ifName call.deviceIDs nad with
  | error fault => simp [hresult, Except.toOption] at h
  | ok object =>
      rw [hresult] at h
      rw [Option.some.inj h]

/-- The steps of `AddDeviceIDs` when it runs alone. Without the answer to its GET it makes
no further request. -/
def requests (call : Publication) (client : ClientInfo) : List (Event Publication) :=
  if client.delivery = .answered then [.read call, .write 0 client.advance.delivery] else []

/-- `AddDeviceIDs` takes these steps, whatever the network does with its requests. -/
theorem addDeviceIDs_eq_steps (codec : DeviceInfoCodec) (node netAttachDef ifName : String)
    (deviceIDs : List String) (client : ClientInfo) {nad : Versioned NetAttachDef}
    (hnad : client.store.get? "default" netAttachDef = some nad) :
    let call : Publication := ⟨node, ifName, deviceIDs⟩
    let after := Run.final (step (publish codec)) (initial nad) (requests call client)
    let result := addDeviceIDs codec node netAttachDef ifName deviceIDs (some client)
    (result.1 = .ok () ↔ call ∈ after.confirmed) ∧
      result.2.bind (fun client => client.store.get? "default" netAttachDef) =
        some after.current := by
  intro call after result
  by_cases hget : client.delivery = .answered
  · cases hedit : addDeviceIeIDs codec node ifName deviceIDs nad.object with
    | error fault =>
        have hpublish : publish codec call nad.object = none := by
          simp [publish, call, hedit, Except.toOption]
        have hafter : after = ⟨nad, [], []⟩ := by
          simp [after, requests, hget, Run.final, step, initial, hpublish]
        have hresult : result = (.error fault, some client.advance) := by
          simp [result, addDeviceIDs, ClientInfo.getDefaultNetAttachDef,
            ClientInfo.getNetAttachDef, hget, hnad, hedit]
        rw [hafter, hresult]
        exact ⟨by simp, hnad⟩
    | ok object =>
        have hpublish : publish codec call nad.object = some object := by
          simp [publish, call, hedit, Except.toOption]
        rcases addDeviceIDs_update hget hnad hedit with ⟨next, hreplace, hresult⟩
        have hafter : after =
            deliver ⟨nad, [], []⟩ call ⟨nad.resourceVersion, object⟩ client.advance.delivery := by
          simp [after, requests, hget, Run.final, step, initial, hpublish]
        have hnext : (client.store.put next).get? "default" netAttachDef = some next := by
          rw [Store.get?_put, replace?_object hreplace, addDeviceIeIDs_key hnad hedit, if_pos rfl]
        rw [hafter, show result = _ from hresult]
        cases client.advance.delivery with
        | answered => simp [deliver, hreplace, hnext]
        | replyLost => simp [deliver, hreplace, hnext]
        | unreachable => simp [deliver, hnad]
  · have hafter : after = initial nad := by simp [after, requests, hget, Run.final]
    have hresult : result = (.error (.error "request failed"), some client.advance) := by
      simp [result, addDeviceIDs, ClientInfo.getDefaultNetAttachDef, ClientInfo.getNetAttachDef]
    rw [hafter, hresult]
    exact ⟨by simp [initial], hnad⟩

def Published (codec : DeviceInfoCodec) (call : Publication) (nad : NetAttachDef) : Prop :=
  ∃ devices, nodeRecords codec call.node nad = some (.ok devices) ∧
    ∃ device ∈ devices, device.name = call.ifName

def DistinctRecords (codec : DeviceInfoCodec) (node : String) (nad : NetAttachDef) : Prop :=
  ∀ devices, nodeRecords codec node nad = some (.ok devices) →
    (devices.map (·.name)).Nodup

theorem publish_frame {codec : DeviceInfoCodec} {call : Publication}
    {nad next : NetAttachDef} (h : publish codec call nad = some next) (key : String)
    (hkey : key ≠ nodeAnnotKey call.node) : next.annotation? key = nad.annotation? key :=
  (addDeviceIeIDs_ok (publish_eq_some h)).2.1 key hkey

theorem nodeAnnotKey_inj {left right : String} :
    nodeAnnotKey left = nodeAnnotKey right ↔ left = right :=
  String.append_right_inj _

theorem publish_nodeRecords_other {codec : DeviceInfoCodec} {call : Publication}
    {nad next : NetAttachDef} (h : publish codec call nad = some next) {node : String}
    (hnode : node ≠ call.node) :
    nodeRecords codec node next = nodeRecords codec node nad := by
  unfold nodeRecords
  rw [publish_frame h]
  intro hkey
  exact hnode (nodeAnnotKey_inj.mp hkey)

theorem publish_own (codec : DeviceInfoCodec) (call : Publication)
    (nad next : NetAttachDef) (h : publish codec call nad = some next) :
    Published codec call next := by
  rcases addDeviceIeIDs_ok (publish_eq_some h) with ⟨_, _, devices, hrecords, _⟩
  refine ⟨_, hrecords, ?_⟩
  simpa using mem_mergeDevices_self call.ifName call.deviceIDs devices

theorem publish_keeps (codec : DeviceInfoCodec) (call confirmed : Publication)
    (nad next : NetAttachDef) (h : publish codec call nad = some next)
    (hconfirmed : Published codec confirmed nad) : Published codec confirmed next := by
  rcases hconfirmed with ⟨old, hold, hdevice⟩
  by_cases hnode : confirmed.node = call.node
  · rcases addDeviceIeIDs_ok (publish_eq_some h) with ⟨_, _, devices, hrecords, hbefore⟩
    rw [← hnode] at hrecords hbefore
    have hsame : devices = old := by
      rw [hold] at hbefore
      cases hbefore with
      | inl hparsed => exact (Except.ok.inj (Option.some.inj hparsed)).symm
      | inr hfirst => cases hfirst.1
    refine ⟨_, hrecords, ?_⟩
    have hmem : confirmed.ifName ∈ devices.map (·.name) := by
      rw [hsame]
      simpa using hdevice
    simpa using mem_mergeDevices_of_mem call.ifName call.deviceIDs hmem
  · refine ⟨old, ?_, hdevice⟩
    rw [publish_nodeRecords_other h hnode]
    exact hold

theorem publish_distinct (codec : DeviceInfoCodec) (node : String) (call : Publication)
    (nad next : NetAttachDef) (h : publish codec call nad = some next)
    (hdistinct : DistinctRecords codec node nad) : DistinctRecords codec node next := by
  intro after hafter
  by_cases hnode : node = call.node
  · rcases addDeviceIeIDs_ok (publish_eq_some h) with ⟨_, _, devices, hrecords, hbefore⟩
    rw [← hnode] at hrecords hbefore
    rw [hrecords] at hafter
    rw [← Except.ok.inj (Option.some.inj hafter)]
    apply nodup_mergeDevices
    cases hbefore with
    | inl hparsed => exact hdistinct devices hparsed
    | inr hfirst =>
        rw [hfirst.2]
        simp
  · rw [publish_nodeRecords_other h hnode] at hafter
    exact hdistinct after hafter

/-- Publication by any number of nodes in any interleaving. An UPDATE touches
only its own node's annotation; a publication whose caller was told of success
stays readable from then on; and no node's records ever contain an interface
twice unless they did at the start. -/
theorem publications_kept (codec : DeviceInfoCodec) (start : Versioned NetAttachDef) :
    (∀ events, ∀ move ∈ Run.moves (step (publish codec)) (initial start) events,
      ∀ index delivery call snapshot, move.2 = .write index delivery →
        move.1.inflight[index]? = some (call, snapshot) →
        ∀ key, key ≠ nodeAnnotKey call.node →
          (step (publish codec) move.1 move.2).current.object.annotation? key =
            move.1.current.object.annotation? key) ∧
    (∀ earlier later,
      ∀ call ∈ (Run.final (step (publish codec)) (initial start) earlier).confirmed,
      ∀ state ∈ Run.states (step (publish codec))
          (Run.final (step (publish codec)) (initial start) earlier) later,
        Published codec call state.current.object) ∧
    (∀ node, DistinctRecords codec node start.object →
      ∀ events, ∀ state ∈ Run.states (step (publish codec)) (initial start) events,
        DistinctRecords codec node state.current.object) := by
  refine ⟨?_, ?_, ?_⟩
  · intro events
    exact write_frame
      (fun call before after => ∀ key, key ≠ nodeAnnotKey call.node →
        after.annotation? key = before.annotation? key)
      (fun _ _ _ _ => rfl) (fun _ _ _ h key hkey => publish_frame h key hkey) start events
  · intro earlier later call hcall
    exact confirmed_forever (publish_own codec) (publish_keeps codec) start earlier later
      call hcall
  · intro node hdistinct events
    exact object_invariant (publish_distinct codec node) start hdistinct events

def ens1OnA : Publication := ⟨"a", "ens1", ["1"]⟩

def ens1OnB : Publication := ⟨"b", "ens1", ["2"]⟩

def racingNodes : List (Event Publication) :=
  [.read ens1OnA, .read ens1OnB, .write 0 .answered, .write 0 .answered,
    .read ens1OnB, .write 0 .answered]

theorem publications_kept_racing :
    let start : Versioned NetAttachDef := ⟨0, "default", "sfc", some ∅⟩
    let after := Run.final (step (publish canonicalCodec)) (initial start) racingNodes
    after.confirmed = [ens1OnA, ens1OnB] ∧
      Published canonicalCodec ens1OnA after.current.object ∧
      Published canonicalCodec ens1OnB after.current.object := by
  have hconfirmed : (Run.final (step (publish canonicalCodec))
      (initial ⟨0, "default", "sfc", some ∅⟩) racingNodes).confirmed = [ens1OnA, ens1OnB] := by
    decide +kernel
  have hkept := (publications_kept canonicalCodec ⟨0, "default", "sfc", some ∅⟩).2.1
    racingNodes []
  refine ⟨hconfirmed, ?_, ?_⟩
  · exact hkept ens1OnA (by simp [hconfirmed]) _ (by simp [Run.states])
  · exact hkept ens1OnB (by simp [hconfirmed]) _ (by simp [Run.states])

end VirtualSfc.Plugin.Storage
