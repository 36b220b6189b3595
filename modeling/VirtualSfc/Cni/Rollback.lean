import VirtualSfc.Cni.Calls

/-! What a failed `cmdAdd` leaves behind: which of its calls may fail without a
leak of the macvlan link or of an IPAM allocation. -/
namespace VirtualSfc.Cni.Rollback
open Netlink CmdAdd Calls
open Plugin (canonicalCodec)
open Plugin.Client (Annotations Store)
open Plugin.Storage (nodeAnnotKey)

def NoNewLink (before after : Netns) : Prop :=
  ∀ name link, after.links name = some link → before.links name = some link

theorem noNewLink_set_iff {netns : Netns} {name : String} (h : netns.links name = none)
    (link : Option Link) : NoNewLink netns (netns.set name link) ↔ link = none := by
  refine ⟨fun hnew => ?_, fun hnone => ?_⟩
  · cases link with
    | none => rfl
    | some link =>
        have hold := hnew name link (Netns.set_self netns name (some link))
        rw [h] at hold
        contradiction
  · rw [hnone, Netns.set_eq_self h]
    exact fun _ _ hlink => hlink

structure Clean (before after : Scope) (obtained : List Lease) : Prop where
  host : NoNewLink before.host after.host
  container : NoNewLink before.container after.container
  released : ∀ lease ∈ obtained, lease ∉ after.leases

theorem Clean.refl (scope : Scope) : Clean scope scope [] :=
  ⟨fun _ _ h => h, fun _ _ h => h, by simp⟩

/-- Whether the IPAM plugin keeps an allocation that it gives to this ADD. -/
def keepsAllocation (env : Env) (n : NetConf) (args : CmdArgs) (leases : List Lease) : Bool :=
  n.ipamType != "" &&
    match execAdd env n args leases with
    | (.ok obtained, held) => obtained.any (· ∈ held)
    | (.error _, _) => false

def rollsBack (kept : Bool) : Site → Bool
  | .loadConf | .getParentInterface | .getNS | .modeFromString | .lookupMaster
  | .randomVethName | .parseMAC | .linkAdd | .getAddrsFromInterface => true
  | .lookupLink | .addrAdd _ | .linkSetUp => !kept
  | .linkSetNsFd | .renameLink | .refetchLink | .execAdd | .newResultFromResult
  | .printResult => false

theorem prepareMacvlan_error {env : Env} {conf : NetConf} {parentIfName : String}
    {host : Netns} {failure : Failure}
    (h : prepareMacvlan env conf parentIfName host = .error failure) (kept : Bool) :
    rollsBack kept failure.site = true := by
  unfold prepareMacvlan at h
  split at h
  · rw [← Except.error.inj h]; rfl
  · split at h
    · rw [← Except.error.inj h]; rfl
    · split at h
      · rw [← Except.error.inj h]; rfl
      · split at h
        · rw [← Except.error.inj h]; rfl
        · contradiction

theorem renameMacvlan_error {env : Env} {ifName : String} {netns after : Netns} {link : Link}
    {failure : Failure} (hname : netns.links env.tmpName = none)
    (h : renameMacvlan env ifName (netns.set env.tmpName (some link)) =
      (.error failure, after)) :
    ¬ NoNewLink netns after ∧ ∀ kept, rollsBack kept failure.site = false := by
  unfold renameMacvlan at h
  split at h
  · have hpair := Prod.mk.inj h
    rw [← Except.error.inj hpair.1, ← hpair.2, noNewLink_set_iff hname]
    exact ⟨by simp, fun _ => rfl⟩
  · rename_i renamed hrename
    have hspec := renameLink_ok hname (attempt_ok hrename)
    split at h
    · have hpair := Prod.mk.inj h
      rw [← Except.error.inj hpair.1, ← hpair.2, hspec.2, noNewLink_set_iff hspec.1]
      exact ⟨by simp, fun _ => rfl⟩
    · simp at h

theorem createMacvlan_error {env : Env} {conf : NetConf} {ifName parentIfName netns : String}
    {scope after : Scope} {failure : Failure}
    (h : createMacvlan env conf ifName parentIfName netns scope = (.error failure, after))
    (kept : Bool) : Clean scope after [] ↔ rollsBack kept failure.site = true := by
  unfold createMacvlan at h
  split at h
  · rename_i hprepare
    have hpair := Prod.mk.inj h
    rw [← Except.error.inj hpair.1, ← hpair.2, prepareMacvlan_error hprepare kept]
    simp [Clean.refl]
  · split at h
    · have hpair := Prod.mk.inj h
      rw [← Except.error.inj hpair.1, ← hpair.2]
      simp [Clean.refl, rollsBack]
    · rename_i mv added hadd
      have hlinkAdd := attempt_ok hadd
      split at h
      · have hpair := Prod.mk.inj h
        have hadded := linkAdd_ok hlinkAdd
        rw [← Except.error.inj hpair.1, ← hpair.2, hadded.2.2]
        refine ⟨fun hclean => ?_, fun hfalse => by simp [rollsBack] at hfalse⟩
        have hnone := (noNewLink_set_iff hadded.1 _).mp hclean.host
        contradiction
      · rename_i moved hmove
        have hmoved := moved_scope hlinkAdd (attempt_ok hmove)
        split at h
        · rename_i failed container hrename
          rw [hmoved.2] at hrename
          have hleft := renameMacvlan_error hmoved.1 hrename
          have hpair := Prod.mk.inj h
          rw [← Except.error.inj hpair.1, hleft.2 kept]
          refine ⟨fun hclean => absurd ?_ hleft.1, fun hfalse => by simp at hfalse⟩
          obtain ⟨host, hdeleted⟩ := linkDel_host _ _ _
          rw [← hpair.2, hdeleted] at hclean
          exact hclean.container
        · simp at h

theorem execIPAM_error_keeps {env : Env} {n : NetConf} {args : CmdArgs} {frame after : Frame}
    {failure : Failure} (h : execIPAM env n args frame = (.error failure, after)) :
    after.err = frame.err ∧ after.scope.container = frame.scope.container ∧
      ∀ kept, rollsBack kept failure.site = false := by
  rcases execIPAM_error h with ⟨hsite, _, _, hafter⟩ | ⟨hsite, _, _, _, hafter⟩
  · rw [hsite, hafter]
    exact ⟨rfl, rfl, fun _ => rfl⟩
  · rw [hsite, hafter]
    exact ⟨rfl, rfl, fun _ => rfl⟩

theorem addAddrs_set {env : Env} {ifName : String} {index : Nat} {ips : List IPConfig}
    {container after : Netns} {result : Except Failure Unit}
    (h : addAddrs env ifName index ips container = (result, after)) (link : Option Link) :
    after.set ifName link = container.set ifName link := by
  rcases addAddrs_after h with hsame | ⟨_, hset⟩
  · rw [hsame]
  · rw [hset, Netns.set_set]

theorem addAddrs_error {env : Env} {ifName : String} {index : Nat} {ips : List IPConfig}
    {container after : Netns} {failure : Failure}
    (h : addAddrs env ifName index ips container = (.error failure, after)) (kept : Bool) :
    rollsBack kept failure.site = !kept := by
  induction ips generalizing index container with
  | nil => simp [addAddrs] at h
  | cons ipc rest ih =>
      unfold addAddrs at h
      split at h
      · exact ih h
      · split at h
        · rw [← Except.error.inj (Prod.mk.inj h).1]
          rfl
        · exact ih h

theorem configure_error {env : Env} {ifName : String} {ips : List IPConfig}
    {container after : Netns} {failure : Failure}
    (h : configure env ifName ips container = (.error failure, after)) :
    after.set ifName none = container.set ifName none ∧
      ∀ kept, rollsBack kept failure.site = !kept := by
  unfold configure at h
  split at h
  · have hpair := Prod.mk.inj h
    rw [← Except.error.inj hpair.1, ← hpair.2]
    exact ⟨rfl, fun _ => rfl⟩
  · split at h
    · rename_i failed next hadd
      have hpair := Prod.mk.inj h
      rw [← Except.error.inj hpair.1, ← hpair.2]
      exact ⟨addAddrs_set hadd none, addAddrs_error hadd⟩
    · rename_i next hadd
      split at h
      · have hpair := Prod.mk.inj h
        rw [← Except.error.inj hpair.1, ← hpair.2]
        exact ⟨addAddrs_set hadd none, fun _ => rfl⟩
      · simp at h

theorem unwind_container {frame : Frame} (h : frame.err = none) (env : Env) (n : NetConf)
    (args : CmdArgs) : (frame.unwind env n args).container = frame.scope.container := by
  have hfold : ∀ (defers : List Deferred) (scope : Scope),
      (defers.foldl (frame.runDeferred env n args) scope).container = scope.container := by
    intro defers
    induction defers with
    | nil => exact fun _ => rfl
    | cons deferred rest ih =>
        intro scope
        rw [List.foldl_cons, ih]
        cases deferred with
        | deleteLink => simp [Frame.runDeferred, h]
        | execDel =>
            simp only [Frame.runDeferred]
            split
            · rfl
            · rfl
  exact hfold frame.defers frame.scope

theorem unwind_deleteLink {frame : Frame} (herr : frame.err.isSome)
    (hipam : frame.ipamErr = none)
    (hdefers : frame.defers = [.deleteLink] ∨ frame.defers = [.execDel, .deleteLink])
    (env : Env) (n : NetConf) (args : CmdArgs) :
    frame.unwind env n args =
      { frame.scope with container := frame.scope.container.set args.ifName none } := by
  cases hdefers with
  | inl honly => simp [Frame.unwind, Frame.runDeferred, honly, herr]
  | inr hboth => simp [Frame.unwind, Frame.runDeferred, hboth, herr, hipam]

theorem not_clean_of_link {before after : Scope} {obtained : List Lease} {name : String}
    {link : Link}
    (hbefore : before.container.links name = none)
    (hafter : after.container.links name = some link) : ¬ Clean before after obtained := by
  intro hclean
  have hold := hclean.container name link hafter
  rw [hbefore] at hold
  contradiction

/-- After the IPAM block: a failed configuration deletes the link but keeps an
allocation, and a failed `PrintResult` keeps both. -/
theorem finishAdd_failed {env : Env} {n : NetConf} {args : CmdArgs} {inter : Interface}
    {ips : List IPConfig} {routes : List Route} {before after : Scope} {link : Link}
    {obtained leases : List Lease} {defers : List Deferred} {value : Return} {site : Site}
    (hfree : before.container.links args.ifName = none)
    (hdefers : defers = [.deleteLink] ∨ defers = [.execDel, .deleteLink])
    (h : finishAdd env n args inter ips routes
      ⟨{ before with
          container := before.container.set args.ifName (some link)
          leases := leases
          nextIndex := before.nextIndex + 1 }, none, none, defers, obtained⟩ = (value, after))
    (hfailed : value.failed = some site) (kept : Bool)
    (hkept : kept = false ↔ ∀ lease ∈ obtained, lease ∉ leases) :
    Clean before after value.obtained ↔ rollsBack kept site = true := by
  unfold finishAdd at h
  split at h
  · rename_i failure container hconfigure
    have hconf := configure_error hconfigure
    have hpair := Prod.mk.inj h
    rw [← hpair.1] at hfailed
    rw [← Option.some.inj hfailed, ← hpair.1, ← hpair.2, unwind_deleteLink rfl rfl hdefers,
      hconf.2, Bool.not_eq_true', hkept]
    refine ⟨fun hclean => hclean.released, fun hleases => ⟨fun _ _ hlink => hlink, ?_, hleases⟩⟩
    simp only [hconf.1, Netns.set_set]
    rw [noNewLink_set_iff hfree]
  · rename_i container hconfigure
    rcases configure_ok hconfigure with ⟨found, _, hcontainer⟩
    split at h
    · have hpair := Prod.mk.inj h
      rw [← hpair.1] at hfailed
      rw [← Option.some.inj hfailed, ← hpair.2]
      simp only [rollsBack, Bool.false_eq_true, iff_false]
      apply not_clean_of_link hfree
      rw [unwind_container rfl, hcontainer]
      exact Netns.set_self _ _ _
    · have hpair := Prod.mk.inj h
      rw [← hpair.1] at hfailed
      contradiction

theorem addInNetns_failed {env : Env} {n : NetConf} {args : CmdArgs} {parentIfName : String}
    {scope after : Scope} {value : Return} {site : Site}
    (h : addInNetns env n args parentIfName scope = (value, after))
    (hfailed : value.failed = some site) :
    Clean scope after value.obtained ↔
      rollsBack (keepsAllocation env n args scope.leases) site = true := by
  cases addInNetns_exit h with
  | createMacvlan hcreate =>
      rw [← Option.some.inj hfailed]
      exact createMacvlan_error hcreate _
  | getAddrsFromInterface message hcreate =>
      -- the address lookup stores its error in `err`, so the link is deleted
      rcases createMacvlan_ok hcreate with ⟨_, hfree, _, link, _, _, _, hcreated⟩
      rw [← Option.some.inj hfailed, unwind_deleteLink rfl rfl (Or.inl rfl), Frame.start, hcreated]
      simp only [rollsBack, iff_true]
      refine ⟨fun _ _ hlink => hlink, ?_, by simp⟩
      simp only [Netns.set_set]
      rw [noNewLink_set_iff hfree]
  | execIPAM hcreate hipam =>
      -- the IPAM block has an `err` of its own
      rcases createMacvlan_ok hcreate with ⟨_, hfree, _, link, _, _, _, hcreated⟩
      have hspec := execIPAM_error_keeps hipam
      rw [← Option.some.inj hfailed, hspec.2.2]
      simp only [Bool.false_eq_true, iff_false]
      apply not_clean_of_link hfree
      rw [unwind_container hspec.1, hspec.2.1, Frame.start, hcreated]
      exact Netns.set_self _ _ (some link)
  | finishAdd hcreate _ hipam hfinish =>
      rcases createMacvlan_ok hcreate with ⟨_, hfree, _, link, _, _, _, hcreated⟩
      subst hcreated
      cases execIPAM_ok hipam with
      | inl hnone =>
          rw [hnone.2] at hfinish
          apply finishAdd_failed hfree (Or.inl rfl) hfinish hfailed
          simp [keepsAllocation, hnone.1]
      | inr hsome =>
          rcases hsome with ⟨htype, obtained, leases, hexec, hframe⟩
          rw [hframe] at hfinish
          apply finishAdd_failed hfree (Or.inr rfl) hfinish hfailed
          simp only [Frame.start] at hexec
          simp [keepsAllocation, htype, hexec]

structure CleanWorld (before after : World) (obtained : List Lease) : Prop where
  host : NoNewLink before.host after.host
  namespaces : ∀ path netns, after.namespaces path = some netns →
    ∃ old, before.namespaces path = some old ∧ NoNewLink old netns
  released : ∀ lease ∈ obtained, lease ∉ after.leases

theorem CleanWorld.refl (world : World) : CleanWorld world world [] :=
  ⟨fun _ _ h => h, fun _ netns h => ⟨netns, h, fun _ _ hlink => hlink⟩, by simp⟩

theorem cleanWorld_update_iff {world : World} {path : String} {container : Netns}
    (h : world.namespaces path = some container) (scope : Scope) (obtained : List Lease) :
    CleanWorld world (world.update path scope) obtained ↔
      Clean (world.scope container) scope obtained := by
  refine ⟨fun hclean => ⟨hclean.host, ?_, hclean.released⟩,
    fun hclean => ⟨hclean.host, ?_, hclean.released⟩⟩
  · rcases hclean.namespaces path scope.container (by simp [World.update]) with
      ⟨old, hold, hnew⟩
    rw [h] at hold
    rw [← Option.some.inj hold] at hnew
    exact hnew
  · intro other netns hother
    by_cases hpath : other = path
    · subst hpath
      simp only [World.update, Function.update_self] at hother
      rw [← Option.some.inj hother]
      exact ⟨container, h, hclean.container⟩
    · simp only [World.update, Function.update_of_ne hpath] at hother
      exact ⟨netns, hother, fun _ _ hlink => hlink⟩

theorem cmdAdd_failed {env : Env} {n : NetConf} {args : CmdArgs} {world : World} {site : Site}
    (h : (cmdAdd env (.ok n) args world).1.failed = some site) :
    CleanWorld world (cmdAdd env (.ok n) args world).2 (cmdAdd env (.ok n) args world).1.obtained ↔
      rollsBack (keepsAllocation env n args world.leases) site = true := by
  unfold cmdAdd at h ⊢
  simp only [loadConf] at h ⊢
  split at h
  · rw [← Option.some.inj h]
    simp [CleanWorld.refl, rollsBack]
  · split at h
    · rw [← Option.some.inj h]
      simp [CleanWorld.refl, rollsBack]
    · rename_i container hns
      have hpath := getNS_ok (attempt_ok hns)
      rw [cleanWorld_update_iff hpath]
      exact addInNetns_failed rfl h

/-- When a call of `cmdAdd` fails, no link and no allocation of this `cmdAdd` is left
exactly when the first failing call is one of those that roll back. -/
theorem rollback_iff (env : Env) (n : NetConf) (args : CmdArgs) (world : World) :
    ((cmdAdd env (.ok n) args world).1.failed ≠ none →
      CleanWorld world (cmdAdd env (.ok n) args world).2
        (cmdAdd env (.ok n) args world).1.obtained) ↔
    ∀ site, firstFailure env n args world = some site →
      rollsBack (keepsAllocation env n args world.leases) site = true := by
  rw [← cmdAdd_failed_eq]
  refine ⟨fun hclean site hsite => ?_, fun hsites hfailed => ?_⟩
  · apply (cmdAdd_failed hsite).mp
    apply hclean
    simp [hsite]
  · rcases Option.ne_none_iff_exists'.mp hfailed with ⟨site, hsite⟩
    exact (cmdAdd_failed hsite).mpr (hsites site hsite)

def oneContainer : World where
  host := ⟨fun name => if name = "ens1" then
    some ⟨2, 0, 1500, "00:0f:53:00:00:01", none, [⟨.v4 0xC0A80105#32, 24⟩], true⟩ else none, []⟩
  namespaces := fun path => if path = "/var/run/netns/c1" then some ⟨fun _ => none, []⟩ else none
  leases := []
  nextIndex := 3

def oneAddress : IpamPlugin where
  execAdd _ args leases :=
    if leases = [] then
      let lease : Lease := ⟨args.containerID, args.ifName, "10.1.0.7/24"⟩
      (.ok [lease], [lease])
    else (.error "no address available", leases)
  execDel _ args leases :=
    leases.filter fun lease => ¬ (lease.containerID = args.containerID ∧ lease.ifName = args.ifName)

def oneDevice (faults : Site → Option String) : Env where
  codec := canonicalCodec
  hostname := .ok "node1"
  k8sclient := ⟨Store.empty.put ⟨0, "default", "sfc", some ((∅ : Annotations).insert
    (nodeAnnotKey "node1") (canonicalCodec.marshal [⟨"ens1", ["dev1"]⟩]))⟩, []⟩
  parseMAC := .ok
  tmpName := "veth0a1b2c3d"
  randomMac := "02:00:00:00:00:01"
  ipam := oneAddress
  routes := []
  formatIPConfig := fun _ => "192.168.1.5/24"
  faults := faults

def noFault (_ : Site) : Option String := none

def hostLocal : NetConf := ⟨"1.0.0", "sfc", "host-local", [], "bridge", 1500, "", "dev1"⟩

def net1OfC1 : CmdArgs := ⟨"c1", "/var/run/netns/c1", "net1"⟩

def noPlugin (site : Site) : Option String :=
  if site = .execAdd then some "failed to find plugin" else none

theorem rollback_fails_execAdd :
    ¬ ((cmdAdd (oneDevice noPlugin) (.ok hostLocal) net1OfC1 oneContainer).1.failed ≠ none →
      CleanWorld oneContainer
        (cmdAdd (oneDevice noPlugin) (.ok hostLocal) net1OfC1 oneContainer).2
        (cmdAdd (oneDevice noPlugin) (.ok hostLocal) net1OfC1 oneContainer).1.obtained) := by
  intro hclean
  have hfailed : (cmdAdd (oneDevice noPlugin) (.ok hostLocal) net1OfC1
      oneContainer).1.failed = some .execAdd := by
    decide +kernel
  have hlinked : (((cmdAdd (oneDevice noPlugin) (.ok hostLocal) net1OfC1
      oneContainer).2.namespaces net1OfC1.netns).bind (·.links net1OfC1.ifName)).isSome := by
    decide +kernel
  rcases Option.isSome_iff_exists.mp hlinked with ⟨link, hlink⟩
  rcases Option.bind_eq_some_iff.mp hlink with ⟨netns, hnetns, hname⟩
  rcases (hclean (by simp [hfailed])).namespaces _ netns hnetns with ⟨old, hold, hnew⟩
  have hempty : old = ⟨fun _ => none, []⟩ := (Option.some.inj hold).symm
  have hlost := hnew _ link hname
  simp [hempty] at hlost

end VirtualSfc.Cni.Rollback
