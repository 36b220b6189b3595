import VirtualSfc.Cni.Rollback

/-! What the return value of `cmdAdd` says about the pod's network. An error of
the function that configures the link ends in `return nil`, so the container
runtime is told of success although the link is gone and nothing was printed. -/
namespace VirtualSfc.Cni.Report
open Netlink CmdAdd Calls Rollback Parent

def configures : Site → Bool
  | .lookupLink | .addrAdd _ | .linkSetUp => true
  | _ => false

theorem configures_eq (site : Site) :
    configures site = (rollsBack false site && !rollsBack true site) := by
  cases site <;> rfl

/-- A value returned together with what it says: a result is printed when no call
failed, and nil is returned then and after a failed configuration. -/
structure Reports (value : Return) : Prop where
  printed : value.printed.isSome ↔ value.failed = none
  error : value.error = none ↔ ∀ site, value.failed = some site → configures site = true

theorem reports_error {site : Site} (h : configures site = false) (message : String)
    (obtained : List Lease) : Reports ⟨some message, none, some site, obtained⟩ :=
  ⟨by simp, by simp [h]⟩

theorem createMacvlan_site {env : Env} {conf : NetConf} {ifName parentIfName netns : String}
    {scope after : Scope} {failure : Failure}
    (h : createMacvlan env conf ifName parentIfName netns scope = (.error failure, after)) :
    configures failure.site = false := by
  have hsame : rollsBack false failure.site = rollsBack true failure.site := by
    rw [Bool.eq_iff_iff, ← createMacvlan_error h false, ← createMacvlan_error h true]
  rw [configures_eq, hsame, Bool.and_not_self]

theorem finishAdd_reports {env : Env} {n : NetConf} {args : CmdArgs} {inter : Interface}
    {ips : List IPConfig} {routes : List Route} {frame : Frame} {value : Return} {after : Scope}
    (h : finishAdd env n args inter ips routes frame = (value, after)) : Reports value := by
  unfold finishAdd at h
  split at h
  · rename_i failure container hconfigure
    cases h
    have hsite := (configure_error hconfigure).2
    exact ⟨by simp, by simp [configures_eq, hsite]⟩
  · split at h
    · cases h
      exact reports_error rfl _ _
    · cases h
      exact ⟨by simp, by simp⟩

theorem addInNetns_reports {env : Env} {n : NetConf} {args : CmdArgs} {parentIfName : String}
    {scope after : Scope} {value : Return}
    (h : addInNetns env n args parentIfName scope = (value, after)) : Reports value := by
  cases addInNetns_exit h with
  | createMacvlan hcreate => exact reports_error (createMacvlan_site hcreate) _ _
  | getAddrsFromInterface message hcreate => exact reports_error rfl _ _
  | execIPAM hcreate hipam =>
      apply reports_error
      rw [configures_eq, (execIPAM_error_keeps hipam).2.2, Bool.false_and]
  | finishAdd hcreate _ hipam hfinish => exact finishAdd_reports hfinish

theorem cmdAdd_reports (env : Env) (stdinData : Except String NetConf) (args : CmdArgs)
    (world : World) : Reports (cmdAdd env stdinData args world).1 := by
  unfold cmdAdd
  split
  · exact reports_error rfl _ _
  · split
    · exact reports_error rfl _ _
    · split
      · exact reports_error rfl _ _
      · exact addInNetns_reports rfl

/-! A call without a failure. -/

structure Attached (env : Env) (n : NetConf) (args : CmdArgs) (before after : Scope)
    (master link : Link) : Prop where
  free : before.container.links args.ifName = none
  host : after.host = before.host
  moved : after.container = before.container.set args.ifName (some link)
  parent : link.parentIndex = master.index
  addrs : link.addrs = ipv4Addrs (master.addrs.filter fun addr => !addr.ip.isLoopback)
  up : link.up = true
  ipam : if n.ipamType = "" then after.leases = before.leases
    else ∃ obtained, execAdd env n args before.leases = (.ok obtained, after.leases)

theorem unwind_quiet {frame : Frame} (herr : frame.err = none) (hipam : frame.ipamErr = none)
    (env : Env) (n : NetConf) (args : CmdArgs) : frame.unwind env n args = frame.scope := by
  have hstep : frame.runDeferred env n args = fun scope _ => scope := by
    funext scope deferred
    cases deferred with
    | deleteLink => simp [Frame.runDeferred, herr]
    | execDel => simp [Frame.runDeferred, hipam]
  unfold Frame.unwind
  rw [hstep]
  exact List.foldl_fixed _

theorem finishAdd_attached {env : Env} {n : NetConf} {args : CmdArgs} {inter : Interface}
    {addrs : List IPNet} {routes : List Route} {frame : Frame} {link : Link} {value : Return}
    {after : Scope} (herr : frame.err = none) (hipam : frame.ipamErr = none)
    (hlink : frame.scope.container.links args.ifName = some link) (haddrs : link.addrs = [])
    (h : finishAdd env n args inter (getIPsOfIPAM addrs) routes frame = (value, after))
    (hdone : value.failed = none) :
    after = { frame.scope with
      container := frame.scope.container.set args.ifName (some { link with
        addrs := ipv4Addrs addrs
        up := true }) } := by
  unfold finishAdd at h
  split at h
  · cases h
    contradiction
  · rename_i container hconfigure
    split at h
    · cases h
      contradiction
    · cases h
      obtain ⟨found, hfound, hcontainer⟩ := configure_ok hconfigure
      rw [hlink] at hfound
      have hips : (getIPsOfIPAM addrs).map (·.address) = addrs := by
        simp [getIPsOfIPAM, Function.comp_def]
      rw [← Option.some.inj hfound, haddrs, List.nil_append, hips] at hcontainer
      rw [← hcontainer]
      exact @unwind_quiet { frame with scope := { frame.scope with container := container } }
        herr hipam env n args

theorem addInNetns_attached {env : Env} {n : NetConf} {args : CmdArgs} {parentIfName : String}
    {scope after : Scope} {value : Return}
    (h : addInNetns env n args parentIfName scope = (value, after))
    (hdone : value.failed = none) :
    ∃ master link, scope.host.links parentIfName = some master ∧
      Attached env n args scope after master link := by
  cases addInNetns_exit h with
  | createMacvlan hcreate => contradiction
  | getAddrsFromInterface message hcreate => contradiction
  | execIPAM hcreate hipam => contradiction
  | @finishAdd inter created _ addrs _ frame _ hcreate hget hipam hfinish =>
      obtain ⟨hparent, hfree, master, link, hmaster, hindex, haddrs, hcreated⟩ :=
        createMacvlan_ok hcreate
      have hframe : frame.err = none ∧ frame.ipamErr = none ∧
          frame.scope.host = scope.host ∧
          frame.scope.container = scope.container.set args.ifName (some link) ∧
          if n.ipamType = "" then frame.scope.leases = scope.leases
          else ∃ obtained,
            execAdd env n args scope.leases = (.ok obtained, frame.scope.leases) := by
        rcases execIPAM_ok hipam with ⟨htype, hsame⟩ | ⟨htype, obtained, leases, hexec, hadded⟩
        · simp [hsame, Frame.start, hcreated, htype]
        · simp only [Frame.start, hcreated] at hexec
          simp [hadded, Frame.start, hcreated, htype, hexec]
      obtain ⟨herr, hipamErr, hhost, hcontainer, hleases⟩ := hframe
      have hlink : frame.scope.container.links args.ifName = some link := by
        rw [hcontainer, Netns.set_self]
      simp only [hparent, hcreated, CmdAdd.getAddrsFromInterface, hmaster] at hget
      rw [finishAdd_attached herr hipamErr hlink haddrs hfinish hdone]
      refine ⟨master, { link with addrs := ipv4Addrs addrs, up := true }, hmaster,
        hfree, hhost, ?_, hindex, ?_, rfl, hleases⟩
      · simp only [hcontainer, Netns.set_set]
      · rw [← Except.ok.inj hget]

def Completed (env : Env) (stdinData : Except String NetConf) (args : CmdArgs) (world : World)
    (outcome : Return × World) : Prop :=
  ∃ n parentIfName container master link after,
    stdinData = .ok n ∧
      getParentInterface env.codec env.hostname n.deviceID n.name env.k8sclient =
        .ok parentIfName ∧
      world.namespaces args.netns = some container ∧
      world.host.links parentIfName = some master ∧
      Attached env n args (world.scope container) after master link ∧
      outcome.2 = world.update args.netns after ∧ outcome.1.printed.isSome

theorem cmdAdd_completed {env : Env} {stdinData : Except String NetConf} {args : CmdArgs}
    {world : World} (hdone : (cmdAdd env stdinData args world).1.failed = none) :
    Completed env stdinData args world (cmdAdd env stdinData args world) := by
  have hprinted := (cmdAdd_reports env stdinData args world).printed.mpr hdone
  cases stdinData with
  | error message => simp [cmdAdd, loadConf] at hdone
  | ok n =>
  cases hparent : getParentInterface env.codec env.hostname n.deviceID n.name env.k8sclient with
  | error message => simp [cmdAdd, loadConf, hparent] at hdone
  | ok parentIfName =>
  cases hns : attempt env.faults .getNS (getNS world args.netns) with
  | error message => simp [cmdAdd, loadConf, hparent, hns] at hdone
  | ok container =>
  simp only [cmdAdd, loadConf, hparent, hns] at hdone hprinted ⊢
  obtain ⟨master, link, hmaster, hattached⟩ := addInNetns_attached rfl hdone
  exact ⟨n, parentIfName, container, master, link, _, rfl, hparent, getNS_ok (attempt_ok hns),
    hmaster, hattached, rfl, hprinted⟩

/-- `cmdAdd` reports faithfully unless the first call to fail is one that
configures the link. -/
theorem cmdAdd_faithful_iff (env : Env) (stdinData : Except String NetConf) (args : CmdArgs)
    (world : World) :
    ((cmdAdd env stdinData args world).1.error = none ↔
      Completed env stdinData args world (cmdAdd env stdinData args world)) ↔
    ∀ n, stdinData = .ok n → ∀ site, firstFailure env n args world = some site →
      configures site = false := by
  have hreports := cmdAdd_reports env stdinData args world
  have hcompleted : Completed env stdinData args world (cmdAdd env stdinData args world) ↔
      (cmdAdd env stdinData args world).1.failed = none := by
    constructor
    · rintro ⟨_, _, _, _, _, _, _, _, _, _, _, _, hprinted⟩
      exact hreports.printed.mp hprinted
    · exact cmdAdd_completed
  rw [hcompleted, hreports.error]
  cases stdinData with
  | error message => simp [cmdAdd, loadConf, configures]
  | ok n =>
  rw [cmdAdd_failed_eq]
  cases hfailure : firstFailure env n args world with
  | none => simp [hfailure]
  | some site => simp [hfailure]

def noAddress (site : Site) : Option String :=
  if site = .addrAdd 0 then some "operation not permitted" else none

theorem cmdAdd_silent :
    (cmdAdd (oneDevice noAddress) (.ok hostLocal) net1OfC1 oneContainer).1 =
        ⟨none, none, some (.addrAdd 0), [⟨"c1", "net1", "10.1.0.7/24"⟩]⟩ ∧
      ((cmdAdd (oneDevice noAddress) (.ok hostLocal) net1OfC1 oneContainer).2.namespaces
        net1OfC1.netns).bind (·.links net1OfC1.ifName) = none ∧
      ¬ ((cmdAdd (oneDevice noAddress) (.ok hostLocal) net1OfC1 oneContainer).1.error = none ↔
        Completed (oneDevice noAddress) (.ok hostLocal) net1OfC1 oneContainer
          (cmdAdd (oneDevice noAddress) (.ok hostLocal) net1OfC1 oneContainer)) := by
  have hvalue : (cmdAdd (oneDevice noAddress) (.ok hostLocal) net1OfC1 oneContainer).1 =
      ⟨none, none, some (.addrAdd 0), [⟨"c1", "net1", "10.1.0.7/24"⟩]⟩ := by
    decide +kernel
  refine ⟨hvalue, by decide +kernel, fun h => ?_⟩
  obtain ⟨_, _, _, _, _, _, _, _, _, _, _, _, hprinted⟩ := h.mp (by rw [hvalue])
  rw [hvalue] at hprinted
  contradiction

end VirtualSfc.Cni.Report
