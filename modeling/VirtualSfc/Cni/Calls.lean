import VirtualSfc.Cni.CmdAdd

/-! The calls of `cmdAdd` in program order, and which of them fails first, told
from the configuration, the machine and the faults alone. -/
namespace VirtualSfc.Cni.Calls
open Netlink CmdAdd Parent

def failedAt : Except Failure α → Option Site
  | .error failure => some failure.site
  | .ok _ => none

def hostAddrs (host : Netns) (parentIfName : String) : List IPNet :=
  match getAddrsFromInterface host parentIfName with
  | .ok addrs => addrs
  | .error _ => []

def ipv4Addrs (addrs : List IPNet) : List IPNet :=
  (addrs.filter (·.ip.isV4)).map IPNet.inFamily

def addrCalls : Nat → List IPNet → List Site
  | _, [] => []
  | index, addr :: rest =>
      if addr.ip.isV4 then .addrAdd index :: addrCalls (index + 1) rest
      else addrCalls (index + 1) rest

section

variable (env : Env) (n : NetConf) (args : CmdArgs) (parentIfName : String) (scope : Scope)

/-- Whether a call fails without a fault, told from the machine before `cmdAdd` and
from what the IPAM plugin answers then. An address can be added once only. -/
def impossible : Site → Bool
  | .modeFromString => !(modeFromString n.mode).isOk
  | .lookupMaster => (scope.host.links parentIfName).isNone
  | .parseMAC => !(env.parseMAC n.mac).isOk
  | .linkAdd => (scope.host.links env.tmpName).isSome
  | .linkSetNsFd => (scope.container.links env.tmpName).isSome
  | .renameLink => (scope.container.links args.ifName).isSome
  | .execAdd => !(env.ipam.execAdd n args scope.leases).1.isOk
  | .addrAdd index =>
      let addrs := hostAddrs scope.host parentIfName
      addrs[index]?.any fun addr =>
        decide (32 < addr.ones) || decide (addr.inFamily ∈ ipv4Addrs (addrs.take index))
  | _ => false

def fails (site : Site) : Bool :=
  (env.faults site).isSome || impossible env n args parentIfName scope site

def prepareCalls : List Site :=
  [.modeFromString, .lookupMaster, .randomVethName] ++ if n.mac ≠ "" then [.parseMAC] else []

def createCalls : List Site :=
  prepareCalls n ++ [.linkAdd, .linkSetNsFd, .renameLink, .refetchLink]

def ipamCalls : List Site :=
  if n.ipamType ≠ "" then [.execAdd, .newResultFromResult] else []

def configureCalls : List Site :=
  .lookupLink :: (addrCalls 0 (hostAddrs scope.host parentIfName) ++ [.linkSetUp])

def calls : List Site :=
  createCalls n ++ (.getAddrsFromInterface ::
    (ipamCalls n ++ (configureCalls parentIfName scope ++ [.printResult])))

end

def firstFailure (env : Env) (n : NetConf) (args : CmdArgs) (world : World) : Option Site :=
  match getParentInterface env.codec env.hostname n.deviceID n.name env.k8sclient with
  | .error _ => some .getParentInterface
  | .ok parentIfName =>
      match world.namespaces args.netns with
      | none => some .getNS
      | some container =>
          if (env.faults .getNS).isSome then some .getNS
          else (calls n parentIfName (world.scope container)).find?
            (fails env n args parentIfName (world.scope container))

section

variable {env : Env} {n : NetConf} {args : CmdArgs} {parentIfName : String} {scope : Scope}

theorem find?_call {site : Site} {result : Except String α}
    (h : impossible env n args parentIfName scope site = !result.isOk) (rest : List Site) :
    (site :: rest).find? (fails env n args parentIfName scope) =
      match attempt env.faults site result with
      | .error _ => some site
      | .ok _ => rest.find? (fails env n args parentIfName scope) := by
  rw [List.find?_cons]
  unfold fails attempt
  rw [h]
  cases env.faults site with
  | some message => rfl
  | none =>
    cases result with
    | error message => rfl
    | ok value => rfl

theorem isOk_linkByName (netns : Netns) (name : String) :
    (linkByName netns name).isOk = (netns.links name).isSome := by
  unfold linkByName
  cases netns.links name with
  | none => rfl
  | some link => rfl

theorem isOk_linkAdd (scope : Scope) (name : String) (link : Link) :
    (scope.linkAdd name link).isOk = !(scope.host.links name).isSome := by
  unfold Scope.linkAdd
  cases (scope.host.links name).isSome with
  | false => rfl
  | true => rfl

theorem isOk_linkSetNsFd {name : String} {link : Link} (h : scope.host.links name = some link) :
    (scope.linkSetNsFd name).isOk = !(scope.container.links name).isSome := by
  unfold Scope.linkSetNsFd
  rw [h]
  cases (scope.container.links name).isSome with
  | false => rfl
  | true => rfl

theorem isOk_renameLink {netns : Netns} {name : String} (h : netns.links name = none)
    (newName : String) (link : Link) :
    (renameLink (netns.set name (some link)) name newName).isOk =
      !(netns.links newName).isSome := by
  unfold renameLink
  rw [Netns.set_self]
  by_cases hsame : newName = name
  · rw [hsame, h]
    simp only [ne_eq, not_true_eq_false, false_and, if_false]
    rfl
  · rw [Netns.set_other netns hsame]
    simp only [ne_eq, hsame, not_false_eq_true, true_and]
    cases (netns.links newName).isSome with
    | false => rfl
    | true => rfl

theorem prepareMacvlan_failedAt :
    failedAt (prepareMacvlan env n parentIfName scope.host) =
      (prepareCalls n).find? (fails env n args parentIfName scope) := by
  have hmaster : impossible env n args parentIfName scope .lookupMaster =
      !(linkByName scope.host parentIfName).isOk := by
    rw [isOk_linkByName, Option.not_isSome]
    rfl
  have hname : impossible env n args parentIfName scope .randomVethName =
      !(.ok env.tmpName : Except String String).isOk := rfl
  have hmac : impossible env n args parentIfName scope .parseMAC =
      !(env.parseMAC n.mac).isOk := rfl
  unfold prepareMacvlan prepareCalls
  simp only [List.cons_append, List.nil_append]
  rw [find?_call rfl]
  cases attempt env.faults .modeFromString (modeFromString n.mode) with
  | error message => rfl
  | ok mode =>
  simp only [find?_call hmaster]
  cases attempt env.faults .lookupMaster (linkByName scope.host parentIfName) with
  | error message => rfl
  | ok m =>
  simp only [find?_call hname]
  cases attempt env.faults .randomVethName (.ok env.tmpName) with
  | error message => rfl
  | ok tmpName =>
  by_cases hempty : n.mac = ""
  · simp [hempty, failedAt]
  · simp only [ne_eq, hempty, not_false_eq_true, if_true, find?_call hmac]
    cases attempt env.faults .parseMAC (env.parseMAC n.mac) with
    | error message => rfl
    | ok mac => rfl

theorem renameMacvlan_failedAt (hname : scope.container.links env.tmpName = none) (link : Link) :
    failedAt (renameMacvlan env args.ifName (scope.container.set env.tmpName (some link))).1 =
      [.renameLink, .refetchLink].find? (fails env n args parentIfName scope) := by
  have hrename : impossible env n args parentIfName scope .renameLink =
      !(renameLink (scope.container.set env.tmpName (some link)) env.tmpName args.ifName).isOk := by
    rw [isOk_renameLink hname, Bool.not_not]
    rfl
  unfold renameMacvlan
  rw [find?_call hrename]
  cases hresult : attempt env.faults .renameLink
      (renameLink (scope.container.set env.tmpName (some link)) env.tmpName args.ifName) with
  | error message => rfl
  | ok renamed =>
  have hrefetch : impossible env n args parentIfName scope .refetchLink =
      !(linkByName renamed args.ifName).isOk := by
    rw [isOk_linkByName, (renameLink_ok hname (attempt_ok hresult)).2, Netns.set_self]
    rfl
  simp only [find?_call hrefetch]
  cases attempt env.faults .refetchLink (linkByName renamed args.ifName) with
  | error message => rfl
  | ok contMacvlan => rfl

theorem createMacvlan_failedAt (netns : String) :
    failedAt (createMacvlan env n args.ifName parentIfName netns scope).1 =
      (createCalls n).find? (fails env n args parentIfName scope) := by
  unfold createMacvlan createCalls
  rw [List.find?_append, ← prepareMacvlan_failedAt]
  cases prepareMacvlan env n parentIfName scope.host with
  | error failure => rfl
  | ok link =>
  have hadd : impossible env n args parentIfName scope .linkAdd =
      !(scope.linkAdd env.tmpName link).isOk := by
    rw [isOk_linkAdd, Bool.not_not]
    rfl
  simp only [failedAt, Option.none_or, find?_call hadd]
  cases hadded : attempt env.faults .linkAdd (scope.linkAdd env.tmpName link) with
  | error message => rfl
  | ok created =>
  rcases created with ⟨mv, added⟩
  rcases linkAdd_ok (attempt_ok hadded) with ⟨_, _, hscope⟩
  have hmove : impossible env n args parentIfName scope .linkSetNsFd =
      !(added.linkSetNsFd env.tmpName).isOk := by
    rw [hscope, isOk_linkSetNsFd (Netns.set_self _ _ _), Bool.not_not]
    rfl
  simp only [find?_call hmove]
  cases hmoved : attempt env.faults .linkSetNsFd (added.linkSetNsFd env.tmpName) with
  | error message => rfl
  | ok moved =>
  rcases moved_scope (attempt_ok hadded) (attempt_ok hmoved) with ⟨hfree, hcontainer⟩
  simp only [← renameMacvlan_failedAt hfree mv, hcontainer]
  cases renameMacvlan env args.ifName (scope.container.set env.tmpName (some mv)) with
  | mk result container =>
  cases result with
  | error failure => rfl
  | ok contMacvlan => rfl

theorem execAdd_fst (env : Env) (n : NetConf) (args : CmdArgs) (leases : List Lease) :
    (execAdd env n args leases).1 =
      attempt env.faults .execAdd (env.ipam.execAdd n args leases).1 := by
  unfold execAdd attempt
  cases env.faults .execAdd with
  | none => rfl
  | some message => rfl

theorem execIPAM_failedAt {frame : Frame} (hleases : frame.scope.leases = scope.leases) :
    failedAt (execIPAM env n args frame).1 =
      (ipamCalls n).find? (fails env n args parentIfName scope) := by
  unfold execIPAM ipamCalls
  by_cases hipam : n.ipamType = ""
  · simp [hipam, failedAt]
  have hexec : impossible env n args parentIfName scope .execAdd =
      !(env.ipam.execAdd n args scope.leases).1.isOk := rfl
  have hresult : impossible env n args parentIfName scope .newResultFromResult =
      !(.ok env.routes : Except String (List Route)).isOk := rfl
  simp only [ne_eq, hipam, not_false_eq_true, if_true, find?_call hexec, ← execAdd_fst, hleases]
  rcases execAdd env n args scope.leases with ⟨answer, leases⟩
  cases answer with
  | error message => rfl
  | ok obtained =>
  simp only [find?_call hresult]
  cases attempt env.faults .newResultFromResult (.ok env.routes) with
  | error message => rfl
  | ok routes => rfl

theorem addAddrs_after {ifName : String} {index : Nat} {ips : List IPConfig}
    {container after : Netns} {result : Except Failure Unit}
    (h : addAddrs env ifName index ips container = (result, after)) :
    after = container ∨ ∃ link, after = container.set ifName (some link) := by
  induction ips generalizing index container with
  | nil => exact Or.inl (Prod.mk.inj h).2.symm
  | cons ipc rest ih =>
      unfold addAddrs at h
      split at h
      · exact ih h
      · split at h
        · exact Or.inl (Prod.mk.inj h).2.symm
        · rename_i next hadd
          rcases addrAdd_ok (attempt_ok hadd) with ⟨link, _, hnext⟩
          refine Or.inr ?_
          cases ih h with
          | inl hsame => exact ⟨_, hsame.trans hnext⟩
          | inr hset =>
              rcases hset with ⟨last, hlast⟩
              exact ⟨last, by rw [hlast, hnext, Netns.set_set]⟩

theorem addAddrs_ok {ifName : String} {index : Nat} {ips : List IPConfig}
    {container after : Netns} {link : Link}
    (hlink : container.links ifName = some link)
    (h : addAddrs env ifName index ips container = (.ok (), after)) :
    after = container.set ifName
      (some { link with addrs := link.addrs ++ ipv4Addrs (ips.map (·.address)) }) := by
  induction ips generalizing index container link with
  | nil => simp [ipv4Addrs, ← (Prod.mk.inj h).2, Netns.set_eq_self hlink]
  | cons ipc rest ih =>
      unfold addAddrs at h
      split at h
      · rename_i hv4
        rw [ih hlink h]
        simp_all [ipv4Addrs]
      · rename_i hv4
        split at h
        · simp at h
        · rename_i next hadd
          rcases addrAdd_ok (attempt_ok hadd) with ⟨found, hfound, hnext⟩
          rw [hlink] at hfound
          rw [← Option.some.inj hfound] at hnext
          rw [ih (by rw [hnext, Netns.set_self]) h, hnext, Netns.set_set]
          simp_all [ipv4Addrs]

theorem configure_ok {ifName : String} {ips : List IPConfig} {container after : Netns}
    (h : configure env ifName ips container = (.ok (), after)) :
    ∃ link, container.links ifName = some link ∧ after = container.set ifName (some { link with
      addrs := link.addrs ++ ipv4Addrs (ips.map (·.address))
      up := true }) := by
  unfold configure at h
  split at h
  · simp at h
  · rename_i link hlookup
    have hlink := linkByName_ok (attempt_ok hlookup)
    split at h
    · simp at h
    · rename_i next hadds
      have hnext := addAddrs_ok hlink hadds
      split at h
      · simp at h
      · rename_i final hup
        rcases linkSetUp_ok (attempt_ok hup) with ⟨found, hfound, hfinal⟩
        rw [hnext, Netns.set_self] at hfound
        refine ⟨link, hlink, ?_⟩
        rw [← (Prod.mk.inj h).2, hfinal, hnext, ← Option.some.inj hfound, Netns.set_set]

theorem addAddrs_linked {ifName : String} {index : Nat} {ips : List IPConfig}
    {container after : Netns}
    {result : Except Failure Unit}
    (h : addAddrs env ifName index ips container = (result, after))
    (hlinked : (container.links ifName).isSome) : (after.links ifName).isSome := by
  rcases addAddrs_after h with hsame | ⟨link, hset⟩
  · rwa [hsame]
  · rw [hset, Netns.set_self, Option.isSome_some]

/-- `before` are the addresses that the loop has passed; the link holds those of
them that are IPv4. -/
theorem addAddrs_failedAt {before rest : List IPNet} {container : Netns} {link : Link}
    (hall : hostAddrs scope.host parentIfName = before ++ rest)
    (hlink : container.links args.ifName = some link)
    (haddrs : link.addrs = ipv4Addrs before) :
    failedAt (addAddrs env args.ifName before.length (getIPsOfIPAM rest) container).1 =
      (addrCalls before.length rest).find? (fails env n args parentIfName scope) := by
  induction rest generalizing before container link with
  | nil => rfl
  | cons addr rest ih =>
  have hpassed : hostAddrs scope.host parentIfName = (before ++ [addr]) ++ rest := by
    rw [hall, List.append_assoc]
    rfl
  have hlength : (before ++ [addr]).length = before.length + 1 := by simp
  unfold addrCalls
  simp only [getIPsOfIPAM, List.map_cons, addAddrs]
  by_cases hv4 : addr.ip.isV4 = true
  · have hadd : impossible env n args parentIfName scope (.addrAdd before.length) =
        !(addrAdd container args.ifName addr).isOk := by
      unfold impossible addrAdd
      rw [hall, hlink]
      by_cases hones : 32 < addr.ones
      · simp [hv4, hones]
      by_cases hmem : addr.inFamily ∈ ipv4Addrs before
      · simp [haddrs, hv4, hones, hmem]
      · simp [haddrs, hv4, hones, hmem]
    simp only [hv4, Bool.not_true, Bool.false_eq_true, if_false, if_true, find?_call hadd]
    cases hresult : attempt env.faults (.addrAdd before.length)
        (addrAdd container args.ifName addr) with
    | error message => rfl
    | ok next =>
    rcases addrAdd_ok (attempt_ok hresult) with ⟨old, hold, hnext⟩
    rw [hlink] at hold
    simp only [← hlength]
    apply ih hpassed
    · rw [hnext, Netns.set_self]
    · simp [← Option.some.inj hold, haddrs, ipv4Addrs, hv4]
  · simp only [hv4, Bool.not_false, if_true, Bool.false_eq_true, if_false, ← hlength]
    apply ih hpassed hlink
    simp [haddrs, ipv4Addrs, hv4]

theorem configure_failedAt {container : Netns} {link : Link}
    (hlink : container.links args.ifName = some link) (haddrs : link.addrs = []) :
    failedAt (configure env args.ifName (getIPsOfIPAM (hostAddrs scope.host parentIfName))
        container).1 =
      (configureCalls parentIfName scope).find? (fails env n args parentIfName scope) := by
  have hlookup : impossible env n args parentIfName scope .lookupLink =
      !(linkByName container args.ifName).isOk := by
    rw [isOk_linkByName, hlink]
    rfl
  unfold configure configureCalls
  rw [find?_call hlookup]
  cases attempt env.faults .lookupLink (linkByName container args.ifName) with
  | error message => rfl
  | ok found =>
  have hadds : failedAt (addAddrs env args.ifName 0
        (getIPsOfIPAM (hostAddrs scope.host parentIfName)) container).1 =
      (addrCalls 0 (hostAddrs scope.host parentIfName)).find?
        (fails env n args parentIfName scope) :=
    addAddrs_failedAt (List.nil_append _).symm hlink haddrs
  simp only [List.find?_append, ← hadds]
  cases hresult : addAddrs env args.ifName 0
      (getIPsOfIPAM (hostAddrs scope.host parentIfName)) container with
  | mk result next =>
  cases result with
  | error failure => rfl
  | ok value =>
  have hup : impossible env n args parentIfName scope .linkSetUp =
      !(linkSetUp next args.ifName).isOk := by
    rcases Option.isSome_iff_exists.mp (addAddrs_linked hresult (by simp [hlink])) with
      ⟨added, hadded⟩
    unfold linkSetUp
    rw [hadded]
    rfl
  simp only [failedAt, Option.none_or, find?_call hup]
  cases attempt env.faults .linkSetUp (linkSetUp next args.ifName) with
  | error message => rfl
  | ok final => rfl

theorem finishAdd_failed_eq {frame : Frame} {link : Link}
    (hlink : frame.scope.container.links args.ifName = some link) (haddrs : link.addrs = [])
    (inter : Interface) (routes : List Route) :
    (finishAdd env n args inter (getIPsOfIPAM (hostAddrs scope.host parentIfName)) routes
        frame).1.failed =
      (configureCalls parentIfName scope ++ [Site.printResult]).find?
        (fails env n args parentIfName scope) := by
  have hprint : impossible env n args parentIfName scope .printResult =
      !(.ok () : Except String Unit).isOk := rfl
  unfold finishAdd
  rw [List.find?_append, ← configure_failedAt hlink haddrs]
  cases configure env args.ifName (getIPsOfIPAM (hostAddrs scope.host parentIfName))
      frame.scope.container with
  | mk result container =>
  cases result with
  | error failure => rfl
  | ok value =>
  simp only [failedAt, Option.none_or, find?_call hprint]
  cases attempt env.faults .printResult (.ok ()) with
  | error message => rfl
  | ok value => rfl

theorem addInNetns_failed_eq :
    (addInNetns env n args parentIfName scope).1.failed =
      (calls n parentIfName scope).find? (fails env n args parentIfName scope) := by
  unfold addInNetns calls
  rw [List.find?_append, ← createMacvlan_failedAt args.netns]
  cases hcreate : createMacvlan env n args.ifName parentIfName args.netns scope with
  | mk result created =>
  cases result with
  | error failure => rfl
  | ok inter =>
  rcases createMacvlan_ok hcreate with ⟨hparent, _, m, link, hm, _, haddrs, hcreated⟩
  have hlookup : getAddrsFromInterface scope.host parentIfName =
      .ok (hostAddrs scope.host parentIfName) := by
    unfold hostAddrs getAddrsFromInterface
    rw [hm]
  have hget : impossible env n args parentIfName scope .getAddrsFromInterface =
      !(getAddrsFromInterface created.host inter.parentName).isOk := by
    rw [hparent, hcreated, hlookup]
    rfl
  simp only [failedAt, Option.none_or, find?_call hget]
  cases hresult : attempt env.faults .getAddrsFromInterface
      (getAddrsFromInterface created.host inter.parentName) with
  | error message => rfl
  | ok addrs =>
  have hvalue := attempt_ok hresult
  rw [hparent, hcreated, hlookup] at hvalue
  rw [← Except.ok.inj hvalue]
  have hipam : failedAt (execIPAM env n args (.start created)).1 =
      (ipamCalls n).find? (fails env n args parentIfName scope) := by
    apply execIPAM_failedAt
    rw [Frame.start, hcreated]
  dsimp only
  rw [List.find?_append, ← hipam]
  cases hexec : execIPAM env n args (.start created) with
  | mk result frame =>
  cases result with
  | error failure => rfl
  | ok routes =>
  have hlink : frame.scope.container.links args.ifName = some link := by
    cases execIPAM_ok hexec with
    | inl hnone => rw [hnone.2, Frame.start, hcreated, Netns.set_self]
    | inr hsome =>
        rcases hsome with ⟨_, _, _, _, hframe⟩
        rw [hframe, Frame.start, hcreated, Netns.set_self]
  exact finishAdd_failed_eq hlink haddrs inter.interface routes

/-- The first failing call is the one that the inputs tell. -/
theorem cmdAdd_failed_eq (env : Env) (n : NetConf) (args : CmdArgs) (world : World) :
    (cmdAdd env (.ok n) args world).1.failed = firstFailure env n args world := by
  unfold cmdAdd firstFailure
  simp only [loadConf]
  cases getParentInterface env.codec env.hostname n.deviceID n.name env.k8sclient with
  | error message => rfl
  | ok parentIfName =>
  unfold getNS
  cases world.namespaces args.netns with
  | none =>
      unfold attempt
      cases env.faults .getNS with
      | none => rfl
      | some message => rfl
  | some container =>
      simp only [attempt]
      cases env.faults .getNS with
      | none => exact addInNetns_failed_eq
      | some message => rfl

end

end VirtualSfc.Cni.Calls
