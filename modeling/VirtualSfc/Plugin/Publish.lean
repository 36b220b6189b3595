import VirtualSfc.Plugin.VsfcServer

/-! What `RefreshDevices` publishes: the lists that its loop hands to
`AddDeviceIDs`, and what a call leaves in the annotations of the node, also in
those of other resources. -/
namespace VirtualSfc.Plugin.Publish
open Base.Optimistic Client Storage VsfcServer

section Loop

variable {σ : Type} (add : String → List String → σ → Except Fault Unit × σ)
  (config : Config)

def recording (ifName : String) (deviceIDs : List String) (state : σ × List DeviceInfo) :
    Except Fault Unit × σ × List DeviceInfo :=
  let (result, next) := add ifName deviceIDs state.1
  (result, next, state.2 ++ [⟨ifName, deviceIDs⟩])

def passed (state : σ) (places : List Placement) : List DeviceInfo :=
  (discoverWith (recording add) config [] (state, []) places).2.2

theorem discoverWith_recording (devices : List MountDevice) (state : σ)
    (log : List DeviceInfo) (places : List Placement) :
    (discoverWith (recording add) config devices (state, log) places).1 =
        (discoverWith add config devices state places).1 ∧
      (discoverWith (recording add) config devices (state, log) places).2.1 =
        (discoverWith add config devices state places).2 := by
  induction places generalizing devices state log with
  | nil => exact ⟨rfl, rfl⟩
  | cons place rest ih =>
      simp only [discoverWith, recording]
      split
      · exact ih devices state log
      · cases add place.nic ((devices ++ place.devices).map (·.id)) state with
        | mk result next =>
            cases result with
            | error fault => exact ⟨rfl, rfl⟩
            | ok done => exact ih _ next _

theorem log_grows (devices : List MountDevice) (state : σ × List DeviceInfo)
    (places : List Placement) :
    state.2 <+: (discoverWith (recording add) config devices state places).2.2 := by
  induction places generalizing devices state with
  | nil => exact List.prefix_rfl
  | cons place rest ih =>
      simp only [discoverWith, recording]
      split
      · exact ih devices state
      · cases add place.nic ((devices ++ place.devices).map (·.id)) state.1 with
        | mk result next =>
            cases result with
            | error fault => exact List.prefix_append _ _
            | ok done => exact (List.prefix_append _ _).trans (ih _ (next, _))

theorem passed_filter (state : σ) (places : List Placement) :
    passed add config state places = passed add config state (places.filter (found config)) := by
  rw [passed, discoverWith_filter, passed]

variable {add config}

theorem passed_error {place : Placement} (hfound : found config place = true)
    {state next : σ} {fault : Fault}
    (hadd : add place.nic (place.devices.map (·.id)) state = (.error fault, next))
    (rest : List Placement) :
    passed add config state (place :: rest) = [⟨place.nic, place.devices.map (·.id)⟩] := by
  simp [passed, discoverWith, hfound, recording, hadd]

theorem passed_singleton {place : Placement} (hfound : found config place = true)
    (state : σ) :
    passed add config state [place] = [⟨place.nic, place.devices.map (·.id)⟩] := by
  cases hadd : add place.nic (place.devices.map (·.id)) state with
  | mk result next =>
      cases result with
      | error fault => exact passed_error hfound hadd []
      | ok done => simp [passed, discoverWith, hfound, recording, hadd]

theorem mem_log {place : Placement} (hfound : found config place = true)
    (devices : List MountDevice) (state : σ × List DeviceInfo) (rest : List Placement) :
    ⟨place.nic, (devices ++ place.devices).map (·.id)⟩ ∈
      (discoverWith (recording add) config devices state (place :: rest)).2.2 := by
  simp only [discoverWith, recording, hfound, Bool.not_true, Bool.false_eq_true, if_false]
  cases add place.nic ((devices ++ place.devices).map (·.id)) state.1 with
  | mk result next =>
      cases result with
      | error fault => exact List.mem_append_right _ List.mem_cons_self
      | ok done =>
          apply (log_grows add config (devices ++ place.devices) (next, _) rest).subset
          exact List.mem_append_right _ List.mem_cons_self

theorem passed_second {first second : Placement} (hfirst : found config first = true)
    (hsecond : found config second = true) {state next : σ}
    (hadd : add first.nic (first.devices.map (·.id)) state = (.ok (), next))
    (rest : List Placement) :
    ⟨second.nic, (first.devices ++ second.devices).map (·.id)⟩ ∈
      passed add config state (first :: second :: rest) := by
  rw [passed, discoverWith]
  simp only [hfirst, recording, hadd, Bool.not_true, Bool.false_eq_true, if_false,
    List.nil_append]
  exact mem_log hsecond first.devices (next, _) rest

end Loop

def publishesFirst (codec : DeviceInfoCodec) (node : String) (dps : VSfcPluginServer) : Bool :=
  decide (node ≠ "") && dps.k8sclient.any fun client =>
    accepting codec node dps.resource.name client.store && answering 2 client

theorem addDeviceIDs_isOk (codec : DeviceInfoCodec) (node ifName : String)
    (deviceIDs : List String) (dps : VSfcPluginServer) :
    (addDeviceIDs codec node dps.resource.name ifName deviceIDs dps.k8sclient).1.isOk =
      publishesFirst codec node dps := by
  unfold publishesFirst
  cases dps.k8sclient with
  | none => simp [addDeviceIDs]
  | some client =>
      have hiff := addDeviceIDs_ok_iff codec node dps.resource.name ifName deviceIDs client 0
      cases hadd : addDeviceIDs codec node dps.resource.name ifName deviceIDs (some client) with
      | mk result after =>
          rw [hadd] at hiff
          cases result with
          | error fault =>
              have hrefused : ¬ (node ≠ "" ∧
                  accepting codec node dps.resource.name client.store = true ∧
                  answering 2 client = true) := by
                intro hready
                rcases hiff.mpr hready with ⟨next, hnext, _⟩
                simp at hnext
              simpa using hrefused
          | ok done =>
              rcases addDeviceIDs_ok hadd with ⟨next, _, hafter, _⟩
              have hready := hiff.mp ⟨next, by rw [hafter], rfl⟩
              simp [hready]

def publications (codec : DeviceInfoCodec) (node : String) (config : Config)
    (interfaces : List String) (dps : VSfcPluginServer) : List DeviceInfo :=
  passed (addDeviceIDs codec node dps.resource.name) config dps.k8sclient
    (placements dps.resource interfaces)

/-- What a call is meant to publish: for each interface the IDs of its own
devices, so that the lists are disjoint and cover what is returned. -/
structure OwnDevices (places : List Placement) (result : Except Fault (List MountDevice))
    (lists : List DeviceInfo) : Prop where
  own : ∀ record ∈ lists, record.deviceIDs =
    ((places.flatMap Placement.devices).filter (·.nic = record.name)).map (·.id)
  disjoint : lists.Pairwise fun left right => left.deviceIDs.Disjoint right.deviceIDs
  returned : ∀ devices, result = .ok devices →
    (∀ record ∈ lists, record.deviceIDs =
      (devices.filter (·.nic = record.name)).map (·.id)) ∧
    ∀ id, (∃ record ∈ lists, id ∈ record.deviceIDs) ↔ id ∈ devices.map (·.id)

theorem OwnDevices.singleton {places : List Placement} {place : Placement}
    {result : Except Fault (List MountDevice)} (hdistinct : (places.map (·.nic)).Nodup)
    (hplace : place ∈ places) (hresult : ∀ devices, result = .ok devices →
      devices = places.flatMap Placement.devices ∧ places = [place]) :
    OwnDevices places result [⟨place.nic, place.devices.map (·.id)⟩] where
  own := by
    intro record hrecord
    rw [List.mem_singleton.mp hrecord, devices_filter_nic hdistinct hplace]
  disjoint := List.pairwise_singleton _ _
  returned := by
    intro devices hdevices
    rcases hresult devices hdevices with ⟨hall, hsingle⟩
    refine ⟨fun record hrecord => ?_, fun id => ?_⟩
    · rw [List.mem_singleton.mp hrecord, hall, devices_filter_nic hdistinct hplace]
    · simp [hall, hsingle]

theorem own_many_iff (codec : DeviceInfoCodec) (node : String) {config : Config}
    (dps : VSfcPluginServer) {first second : Placement} {rest : List Placement}
    (hfound : ∀ place ∈ first :: second :: rest, found config place = true)
    (hdistinct : ((first :: second :: rest).map (·.nic)).Nodup) :
    OwnDevices (first :: second :: rest)
        (discover codec node config dps.resource [] dps.k8sclient
          (first :: second :: rest)).1
        (passed (addDeviceIDs codec node dps.resource.name) config dps.k8sclient
          (first :: second :: rest)) ↔
      publishesFirst codec node dps = false := by
  have hok := addDeviceIDs_isOk codec node first.nic (first.devices.map (·.id)) dps
  have hfirst := hfound first List.mem_cons_self
  have hsecondMem : second ∈ first :: second :: rest :=
    List.mem_cons_of_mem _ List.mem_cons_self
  cases hadd : addDeviceIDs codec node dps.resource.name first.nic
      (first.devices.map (·.id)) dps.k8sclient with
  | mk result next =>
      rw [hadd] at hok
      cases result with
      | error fault =>
          rw [passed_error hfirst hadd, ← hok]
          refine iff_of_true (OwnDevices.singleton hdistinct List.mem_cons_self ?_) rfl
          intro devices hresult
          simp [discover, hfirst, hadd] at hresult
      | ok done =>
          rw [← hok]
          refine iff_of_false (fun hown => ?_) (by simp)
          have hlist := hown.own _ (passed_second hfirst (hfound second hsecondMem) hadd rest)
          rw [devices_filter_nic hdistinct hsecondMem] at hlist
          have hlength := congrArg List.length hlist
          simp [vNicPerNic] at hlength

/-- A call publishes for each interface exactly its own devices if and only if at
most one interface is configured, or the first publication already fails. -/
theorem publications_own_iff (codec : DeviceInfoCodec) (node : String) (config : Config)
    (interfaces : List String) (hdistinct : interfaces.Nodup) (dps : VSfcPluginServer) :
    OwnDevices (served config dps.resource interfaces)
        (dps.refreshDevices codec node config interfaces).1
        (publications codec node config interfaces dps) ↔
      (served config dps.resource interfaces).length ≤ 1 ∨
        publishesFirst codec node dps = false := by
  have hnics := served_nics_nodup config dps.resource hdistinct
  have hfound := served_found config dps.resource interfaces
  rw [publications, passed_filter, ← served, refreshDevices_fst]
  cases hserved : served config dps.resource interfaces with
  | nil =>
      simp only [List.length_nil, Nat.zero_le, true_or, iff_true]
      refine ⟨by simp [passed, discoverWith], by simp [passed, discoverWith], ?_⟩
      intro devices hresult
      rw [← Except.ok.inj hresult]
      simp [passed, discoverWith]
  | cons first rest =>
      rw [hserved] at hfound hnics
      cases rest with
      | nil =>
          rw [passed_singleton (hfound first List.mem_cons_self)]
          simp only [List.length_singleton, Nat.le_refl, true_or, iff_true]
          refine OwnDevices.singleton hnics List.mem_cons_self fun devices hresult => ?_
          rw [discover_eq_discoverWith] at hresult
          have hall := discoverWith_devices _ config hfound (Prod.ext hresult rfl)
          exact ⟨by simpa using hall, rfl⟩
      | cons second rest =>
          have hmany : ¬ (first :: second :: rest).length ≤ 1 := by simp
          rw [own_many_iff codec node dps hfound hnics]
          simp only [hmany, false_or]

theorem publications_own_one_nic :
    OwnDevices [⟨0, "ens1", "hft/a"⟩]
      ((freshServer "hft/a").refreshDevices canonicalCodec "n1" twoNics ["ens1"]).1
      (publications canonicalCodec "n1" twoNics ["ens1"] (freshServer "hft/a")) := by
  have hserved : served twoNics (freshServer "hft/a").resource ["ens1"] =
      [⟨0, "ens1", "hft/a"⟩] := by decide
  rw [← hserved]
  refine (publications_own_iff canonicalCodec "n1" twoNics ["ens1"] (by decide)
    (freshServer "hft/a")).mpr (Or.inl ?_)
  rw [hserved]
  decide

theorem publications_not_own_two_nics :
    ¬ OwnDevices (served twoNics "hft/a" ["ens1", "ens2"])
      ((freshServer "hft/a").refreshDevices canonicalCodec "n1" twoNics ["ens1", "ens2"]).1
      (publications canonicalCodec "n1" twoNics ["ens1", "ens2"] (freshServer "hft/a")) := by
  intro hown
  have hserved : served twoNics (freshServer "hft/a").resource ["ens1", "ens2"] =
      [⟨0, "ens1", "hft/a"⟩, ⟨1, "ens2", "hft/a"⟩] := by decide
  rw [publications, passed_filter, ← served, refreshDevices_fst, hserved] at hown
  have hfails := (own_many_iff canonicalCodec "n1" (freshServer "hft/a") (by decide)
    (by decide)).mp hown
  exact absurd hfails (by decide +kernel)

/-! What a call leaves in the annotations of the node. -/

def annotationText (node netAttachDef : String) (store : Store) : Option String :=
  (store.get? "default" netAttachDef).bind fun nad => nad.object.annotation? (nodeAnnotKey node)

section Effect

variable (codec : DeviceInfoCodec) (node netAttachDef : String)

def stores (client : ClientInfo) : Bool :=
  decide (node ≠ "") && accepting codec node netAttachDef client.store &&
    decide (client.delivery = .answered) && decide (client.advance.delivery ≠ .unreachable)

def publishedText (ifName : String) (deviceIDs : List String) (text : Option String) : String :=
  codec.marshal (mergeDevices ifName deviceIDs (parsedRecords (text.map codec.unmarshal)))

variable {codec node netAttachDef}

theorem addDeviceIDs_refused {client : ClientInfo}
    (h : stores codec node netAttachDef client = false) (ifName : String)
    (deviceIDs : List String) :
    ∃ fault next, addDeviceIDs codec node netAttachDef ifName deviceIDs (some client) =
      (.error fault, some next) ∧ next.store = client.store := by
  by_cases hdelivery : client.delivery = .answered
  · cases hget : client.store.get? "default" netAttachDef with
    | none =>
        simp [addDeviceIDs, ClientInfo.getDefaultNetAttachDef, ClientInfo.getNetAttachDef,
          hdelivery, hget]
    | some nad =>
        cases hedit : addDeviceIeIDs codec node ifName deviceIDs nad.object with
        | error fault =>
            simp [addDeviceIDs, ClientInfo.getDefaultNetAttachDef, ClientInfo.getNetAttachDef,
              hdelivery, hget, hedit]
        | ok object =>
            have hready := (addDeviceIeIDs_ok_iff codec node ifName deviceIDs nad.object).mp
              ⟨object, hedit⟩
            have hlost : client.advance.delivery = .unreachable := by
              simpa [stores, accepting, hget, hready, hdelivery] using h
            rcases addDeviceIDs_update hdelivery hget hedit with ⟨_, _, hadd⟩
            rw [hlost] at hadd
            exact ⟨_, _, hadd, rfl⟩
  · simp [addDeviceIDs, ClientInfo.getDefaultNetAttachDef, ClientInfo.getNetAttachDef]

theorem annotationText_put {store : Store} {nad served : Versioned NetAttachDef}
    {ifName : String} {deviceIDs : List String}
    (hget : store.get? "default" netAttachDef = some nad)
    (hedit : addDeviceIeIDs codec node ifName deviceIDs nad.object = .ok served.object)
    (host other : String) :
    annotationText host other (store.put served) =
      if host = node ∧ other = netAttachDef then
        some (publishedText codec ifName deviceIDs (annotationText node netAttachDef store))
      else annotationText host other store := by
  have hread := NetAttachDef.annotation?_annotate (addDeviceIeIDs_annotate hedit).1
  rw [annotationText, Store.get?_put, addDeviceIeIDs_key hget hedit]
  by_cases hother : other = netAttachDef
  · subst hother
    rw [if_pos rfl, Option.bind_some, hread]
    by_cases hhost : host = node
    · simp [hhost, publishedText, annotationText, hget, recordsOf, nodeRecords]
    · simp [hhost, nodeAnnotKey_inj, annotationText, hget]
  · rw [if_neg (by simp [hother]), if_neg (by simp [hother]), annotationText]

theorem addDeviceIDs_stored {client : ClientInfo}
    (h : stores codec node netAttachDef client = true) (ifName : String)
    (deviceIDs : List String) :
    ∃ result next, addDeviceIDs codec node netAttachDef ifName deviceIDs (some client) =
        (result, some next) ∧ next.network = client.network.tail.tail ∧
      (result.isOk = true ↔ client.advance.delivery = .answered) ∧
      ∀ host other, annotationText host other next.store =
        if host = node ∧ other = netAttachDef then
          some (publishedText codec ifName deviceIDs
            (annotationText node netAttachDef client.store))
        else annotationText host other client.store := by
  simp only [stores, Bool.and_eq_true, decide_eq_true_eq, accepting, Option.any_eq_true] at h
  rcases h with ⟨⟨⟨hnode, nad, hget, heditable⟩, hdelivery⟩, hreached⟩
  rcases (addDeviceIeIDs_ok_iff codec node ifName deviceIDs nad.object).mpr
    ⟨hnode, heditable⟩ with ⟨object, hedit⟩
  rcases addDeviceIDs_update hdelivery hget hedit with ⟨served, hreplace, hadd⟩
  have hserved : served.object = object := replace?_object hreplace
  rw [← hserved] at hedit
  have hput := annotationText_put hget hedit
  cases hupdate : client.advance.delivery with
  | unreachable => exact absurd hupdate hreached
  | replyLost =>
      rw [hupdate] at hadd
      exact ⟨_, _, hadd, rfl, by simp, hput⟩
  | answered =>
      rw [hupdate] at hadd
      exact ⟨_, _, hadd, rfl, by simp, hput⟩

/-- A text that a publication of the interface leaves as it is: the marshalled
form of records among which there is one of the interface. -/
def UpToDate (codec : DeviceInfoCodec) (ifName : String) (text : Option String) : Prop :=
  ∃ devices, text = some (codec.marshal devices) ∧ ifName ∈ devices.map (·.name)

theorem publishedText_eq_iff (ifName : String) (deviceIDs : List String)
    (text : Option String) :
    some (publishedText codec ifName deviceIDs text) = text ↔ UpToDate codec ifName text := by
  refine ⟨fun hsame => ?_, fun hdate => ?_⟩
  · exact ⟨_, hsame.symm, mem_mergeDevices_self ifName deviceIDs _⟩
  · rcases hdate with ⟨devices, htext, hname⟩
    rw [htext, publishedText, Option.map_some, codec.unmarshal_marshal, parsedRecords,
      mergeDevices_eq, if_pos hname]

/-- How a text changes under publications: not at all, or into the marshalled
form of records that start with the old ones. -/
def Grown (codec : DeviceInfoCodec) (before after : Option String) : Prop :=
  after = before ∨ ∃ devices, after = some (codec.marshal devices) ∧
    parsedRecords (before.map codec.unmarshal) <+: devices

theorem grown_publishedText (ifName : String) (deviceIDs : List String)
    (text : Option String) :
    Grown codec text (some (publishedText codec ifName deviceIDs text)) := by
  refine Or.inr ⟨_, rfl, ?_⟩
  rw [mergeDevices_eq]
  split
  · exact List.prefix_rfl
  · exact List.prefix_append _ _

theorem Grown.trans {first second third : Option String} (hfirst : Grown codec first second)
    (hsecond : Grown codec second third) : Grown codec first third := by
  rcases hsecond with hsame | ⟨devices, hthird, hlonger⟩
  · rwa [hsame]
  · rcases hfirst with hsame | ⟨between, hbetween, hlong⟩
    · rw [hsame] at hlonger
      exact Or.inr ⟨devices, hthird, hlonger⟩
    · rw [hbetween, Option.map_some, codec.unmarshal_marshal, parsedRecords] at hlonger
      exact Or.inr ⟨devices, hthird, hlong.trans hlonger⟩

theorem Grown.antisymm {left right : Option String} (hthere : Grown codec left right)
    (hback : Grown codec right left) : right = left := by
  rcases hthere with hsame | ⟨devices, hright, hlonger⟩
  · exact hsame
  · rcases hback with hsame | ⟨others, hleft, hshorter⟩
    · exact hsame.symm
    · rw [hleft, Option.map_some, codec.unmarshal_marshal, parsedRecords] at hlonger
      rw [hright, Option.map_some, codec.unmarshal_marshal, parsedRecords] at hshorter
      rw [hright, hleft, hlonger.eq_of_length_le hshorter.length_le]

theorem Grown.unchanged_iff {first second third : Option String}
    (hfirst : Grown codec first second) (hsecond : Grown codec second third) :
    third = first ↔ second = first ∧ third = second := by
  refine ⟨fun hsame => ?_, fun hsame => hsame.2.trans hsame.1⟩
  rw [hsame] at hsecond ⊢
  have hback := hfirst.antisymm hsecond
  exact ⟨hback, hback.symm⟩

variable (codec node netAttachDef) in
theorem addDeviceIDs_grown (client : ClientInfo) (ifName : String) (deviceIDs : List String) :
    ∃ result next, addDeviceIDs codec node netAttachDef ifName deviceIDs (some client) =
        (result, some next) ∧
      Grown codec (annotationText node netAttachDef client.store)
        (annotationText node netAttachDef next.store) ∧
      ∀ host other, ¬ (host = node ∧ other = netAttachDef) →
        annotationText host other next.store = annotationText host other client.store := by
  cases hstores : stores codec node netAttachDef client with
  | false =>
      rcases addDeviceIDs_refused hstores ifName deviceIDs with ⟨fault, next, hadd, hstore⟩
      exact ⟨_, next, hadd, Or.inl (by rw [hstore]), fun host other _ => by rw [hstore]⟩
  | true =>
      rcases addDeviceIDs_stored hstores ifName deviceIDs with
        ⟨result, next, hadd, _, _, hread⟩
      refine ⟨result, next, hadd, ?_, fun host other hdifferent => ?_⟩
      · rw [hread, if_pos ⟨rfl, rfl⟩]
        exact grown_publishedText ifName deviceIDs _
      · rw [hread, if_neg hdifferent]

end Effect

/-- The interfaces whose publication reaches the server: each takes a GET and an
UPDATE, and the call goes on only if both are answered. -/
def reaching : List Delivery → List Placement → List Placement
  | _, [] => []
  | network, place :: rest =>
      match network.headD .answered, network.tail.headD .answered with
      | .answered, .answered => place :: reaching network.tail.tail rest
      | .answered, .replyLost => [place]
      | _, _ => []

theorem reaching_cons (client : ClientInfo) (place : Placement) (rest : List Placement) :
    reaching client.network (place :: rest) =
      match client.delivery, client.advance.delivery with
      | .answered, .answered => place :: reaching client.network.tail.tail rest
      | .answered, .replyLost => [place]
      | _, _ => [] := rfl

section Refresh

variable {codec : DeviceInfoCodec} {node : String} {config : Config} {resource : Resource}

variable (codec node config resource) in
theorem discover_grown (devices : List MountDevice) (client : ClientInfo)
    (places : List Placement) :
    ∃ result next, discover codec node config resource devices (some client) places =
        (result, some next) ∧
      Grown codec (annotationText node resource.name client.store)
        (annotationText node resource.name next.store) ∧
      ∀ host other, ¬ (host = node ∧ other = resource.name) →
        annotationText host other next.store = annotationText host other client.store := by
  induction places generalizing devices client with
  | nil => exact ⟨_, client, rfl, Or.inl rfl, fun _ _ _ => rfl⟩
  | cons place rest ih =>
      cases hfound : found config place with
      | false =>
          simp only [discover, hfound, Bool.not_false, if_true]
          exact ih devices client
      | true =>
          rcases addDeviceIDs_grown codec node resource.name client place.nic
            ((devices ++ place.devices).map (·.id)) with ⟨result, next, hadd, hgrown, hframe⟩
          simp only [discover, hfound, Bool.not_true, Bool.false_eq_true, if_false, hadd]
          cases result with
          | error fault => exact ⟨_, next, rfl, hgrown, hframe⟩
          | ok done =>
              rcases ih (devices ++ place.devices) next with
                ⟨last, final, hdiscover, hlater, hframeLater⟩
              refine ⟨last, final, hdiscover, hgrown.trans hlater, fun host other hne => ?_⟩
              rw [hframeLater host other hne, hframe host other hne]

theorem Grown.of_discover {devices : List MountDevice} {client final : ClientInfo}
    {places : List Placement} {result : Except Fault (List MountDevice)}
    (h : discover codec node config resource devices (some client) places =
      (result, some final)) :
    Grown codec (annotationText node resource.name client.store)
      (annotationText node resource.name final.store) := by
  rcases discover_grown codec node config resource devices client places with
    ⟨_, _, hdiscover, hgrown, _⟩
  cases hdiscover.symm.trans h
  exact hgrown

theorem publication_cases (hnode : node ≠ "") {client : ClientInfo}
    (h : accepting codec node resource.name client.store = true) (place : Placement)
    (deviceIDs : List String) (rest : List Placement) :
    (∃ fault next, addDeviceIDs codec node resource.name place.nic deviceIDs (some client) =
        (.error fault, some next) ∧ next.store = client.store ∧
      reaching client.network (place :: rest) = []) ∨
    ∃ result next, addDeviceIDs codec node resource.name place.nic deviceIDs (some client) =
        (result, some next) ∧
      annotationText node resource.name next.store =
        some (publishedText codec place.nic deviceIDs
          (annotationText node resource.name client.store)) ∧
      reaching client.network (place :: rest) =
        place :: if result.isOk then reaching next.network rest else [] := by
  cases hstores : stores codec node resource.name client with
  | false =>
      rcases addDeviceIDs_refused hstores place.nic deviceIDs with ⟨fault, next, hadd, hstore⟩
      have hlost : client.delivery = .answered → client.advance.delivery = .unreachable := by
        simpa [stores, hnode, h] using hstores
      refine Or.inl ⟨fault, next, hadd, hstore, ?_⟩
      rw [reaching_cons]
      split <;> simp_all
  | true =>
      rcases addDeviceIDs_stored hstores place.nic deviceIDs with
        ⟨result, next, hadd, hnetwork, hanswered, hread⟩
      simp only [stores, Bool.and_eq_true, decide_eq_true_eq] at hstores
      refine Or.inr ⟨result, next, hadd, ?_, ?_⟩
      · rw [hread, if_pos ⟨rfl, rfl⟩]
      · rw [reaching_cons, hstores.1.2, hnetwork]
        cases hupdate : client.advance.delivery with
        | answered => rw [if_pos (hanswered.mpr hupdate)]
        | replyLost => rw [if_neg (by simp [hanswered, hupdate])]
        | unreachable => exact absurd hupdate hstores.2

theorem discover_unchanged_iff (hnode : node ≠ "") {places : List Placement}
    (hfound : ∀ place ∈ places, found config place = true) (devices : List MountDevice)
    {client : ClientInfo} (h : accepting codec node resource.name client.store = true)
    {result : Except Fault (List MountDevice)} {final : ClientInfo}
    (hdiscover : discover codec node config resource devices (some client) places =
      (result, some final)) :
    annotationText node resource.name final.store =
        annotationText node resource.name client.store ↔
      ∀ place ∈ reaching client.network places,
        UpToDate codec place.nic (annotationText node resource.name client.store) := by
  induction places generalizing devices client with
  | nil =>
      cases hdiscover
      simp [reaching]
  | cons place rest ih =>
      rw [List.forall_mem_cons] at hfound
      simp only [discover, hfound.1, Bool.not_true, Bool.false_eq_true, if_false] at hdiscover
      rcases publication_cases hnode h place ((devices ++ place.devices).map (·.id)) rest with
        ⟨fault, next, hadd, hstore, hreaching⟩ | ⟨published, next, hadd, htext, hreaching⟩
      · rw [hadd] at hdiscover
        cases hdiscover
        simp [hreaching, hstore]
      · rw [hadd] at hdiscover
        rw [hreaching, List.forall_mem_cons, ← publishedText_eq_iff, ← htext]
        cases published with
        | error fault =>
            cases hdiscover
            simp
        | ok done =>
            have hgrown : Grown codec (annotationText node resource.name client.store)
                (annotationText node resource.name next.store) := by
              rw [htext]
              exact grown_publishedText place.nic _ _
            rw [hgrown.unchanged_iff (Grown.of_discover hdiscover)]
            refine and_congr_right fun hsame => ?_
            rw [ih hfound.2 _ (addDeviceIDs_accepting hadd) hdiscover, hsame]
            rfl

theorem discover_none {places : List Placement}
    (hfound : ∀ place ∈ places, found config place = true) (devices : List MountDevice) :
    (discover codec node config resource devices none places).2 = none := by
  cases places with
  | nil => rfl
  | cons place rest => simp [discover, hfound place List.mem_cons_self, addDeviceIDs]

theorem discover_refused {places : List Placement}
    (hfound : ∀ place ∈ places, found config place = true) (devices : List MountDevice)
    {client final : ClientInfo} {result : Except Fault (List MountDevice)}
    (h : ¬ (node ≠ "" ∧ accepting codec node resource.name client.store = true))
    (hdiscover : discover codec node config resource devices (some client) places =
      (result, some final)) : final.store = client.store := by
  cases places with
  | nil =>
      cases hdiscover
      rfl
  | cons place rest =>
      have hstores : stores codec node resource.name client = false := by
        rw [← Bool.not_eq_true]
        intro hstores
        simp only [stores, Bool.and_eq_true, decide_eq_true_eq] at hstores
        exact h hstores.1.1
      rcases addDeviceIDs_refused hstores place.nic
        ((devices ++ place.devices).map (·.id)) with ⟨fault, next, hadd, hstore⟩
      simp only [discover, hfound place List.mem_cons_self, Bool.not_true, Bool.false_eq_true,
        if_false, hadd] at hdiscover
      cases hdiscover
      exact hstore

end Refresh

def Call.after (codec : DeviceInfoCodec) (node : String) (call : Call) : VSfcPluginServer :=
  match call.impl with
  | .vSfc => (call.dps.refreshDevices codec node call.config call.interfaces).2
  | .memVSfc => (memRefreshDevices codec node call.config call.interfaces call.dps).2

theorem Call.after_k8sclient (codec : DeviceInfoCodec) (node : String) (call : Call) :
    (Call.after codec node call).k8sclient =
      (discover codec node call.config call.dps.resource [] call.dps.k8sclient
        (served call.config call.dps.resource call.interfaces)).2 := by
  have hinner : (call.dps.refreshDevices codec node call.config call.interfaces).2.k8sclient =
      (discover codec node call.config call.dps.resource [] call.dps.k8sclient
        (served call.config call.dps.resource call.interfaces)).2 := by
    rw [VSfcPluginServer.refreshDevices, discover_filter, served]
    split
    · rename_i hdiscover
      rw [hdiscover]
    · rename_i hdiscover
      rw [hdiscover]
  rw [← hinner]
  unfold Call.after memRefreshDevices
  split
  · rfl
  · split
    · rename_i hrefresh
      rw [hrefresh]
    · rename_i hrefresh
      rw [hrefresh]
    · rename_i hrefresh
      rw [hrefresh]

def publishedFor (host : String) (resource : Resource) (k8sclient : Option ClientInfo) :
    Option String :=
  k8sclient.bind fun client => annotationText host resource.name client.store

/-- A call leaves what a host reads for another resource unchanged if and only if
the host is not the node, the two resources have different names, or the
annotation is up to date for every interface whose publication gets through. -/
theorem publishedFor_unchanged_iff (codec : DeviceInfoCodec) (node host : String)
    (call : Call) (other : Resource) :
    publishedFor host other (Call.after codec node call).k8sclient =
        publishedFor host other call.dps.k8sclient ↔
      host ≠ node ∨ call.dps.resource.name ≠ other.name ∨
        ∀ client, call.dps.k8sclient = some client → node ≠ "" →
          accepting codec node other.name client.store = true →
            ∀ place ∈ reaching client.network
              (served call.config call.dps.resource call.interfaces),
              UpToDate codec place.nic (annotationText node other.name client.store) := by
  have hfound := served_found call.config call.dps.resource call.interfaces
  rw [Call.after_k8sclient]
  cases hclient : call.dps.k8sclient with
  | none =>
      rw [discover_none hfound]
      simp
  | some client =>
      rcases discover_grown codec node call.config call.dps.resource [] client
        (served call.config call.dps.resource call.interfaces) with
          ⟨result, final, hdiscover, _, hframe⟩
      simp only [hdiscover, publishedFor, Option.bind_some, Option.some.injEq, forall_eq']
      by_cases hhost : host = node
      · by_cases hname : call.dps.resource.name = other.name
        · subst hhost
          simp only [ne_eq, not_true_eq_false, false_or, hname]
          rw [← hname]
          by_cases hready : host ≠ "" ∧
              accepting codec host call.dps.resource.name client.store = true
          · rw [discover_unchanged_iff hready.1 hfound [] hready.2 hdiscover]
            exact ⟨fun hdate _ _ => hdate, fun hdate => hdate hready.1 hready.2⟩
          · rw [discover_refused hfound [] hready hdiscover]
            exact iff_of_true rfl fun hnode haccepting =>
              absurd ⟨hnode, haccepting⟩ hready
        · refine iff_of_true (hframe host other.name fun hsame => hname hsame.2.symm) ?_
          exact Or.inr (Or.inl hname)
      · exact iff_of_true (hframe host other.name fun hsame => hhost hsame.1) (Or.inl hhost)

theorem publishedFor_changed_same_name :
    "hft/a" ≠ "lab/a" ∧
      publishedFor "n1" "lab/a" (Call.after canonicalCodec "n1"
        ⟨.vSfc, freshServer "hft/a", twoNics, ["ens1"]⟩).k8sclient ≠
      publishedFor "n1" "lab/a" (freshServer "hft/a").k8sclient := by
  refine ⟨by decide, fun hsame => ?_⟩
  have hserved : served twoNics "hft/a" ["ens1"] = [⟨0, "ens1", "hft/a"⟩] := by decide
  rcases discover_grown canonicalCodec "n1" twoNics "hft/a" [] (freshClient "hft/a")
    [⟨0, "ens1", "hft/a"⟩] with ⟨result, final, hdiscover, _, _⟩
  have hafter : (Call.after canonicalCodec "n1"
      ⟨.vSfc, freshServer "hft/a", twoNics, ["ens1"]⟩).k8sclient = some final := by
    rw [Call.after_k8sclient]
    exact congrArg Prod.snd (hserved ▸ hdiscover)
  rw [hafter] at hsame
  have hdate := (discover_unchanged_iff (by decide) (by decide) []
    (freshClient_ready canonicalCodec "n1" "hft/a").2 hdiscover).mp hsame
  rcases hdate ⟨0, "ens1", "hft/a"⟩ (by decide) with ⟨devices, htext, _⟩
  have hempty : annotationText "n1" (Resource.name "hft/a") (freshClient "hft/a").store =
      none := by decide +kernel
  rw [hempty] at htext
  contradiction

end VirtualSfc.Plugin.Publish
