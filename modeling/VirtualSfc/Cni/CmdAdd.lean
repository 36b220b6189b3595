import VirtualSfc.Cni.Netlink
import VirtualSfc.Cni.Parent

/-! `cmdAdd` with every call that can fail. The clean-up depends on which `err`
variable a deferred function reads, so both variables and the list of deferred
functions are part of the frame, and a return runs that list. -/
namespace VirtualSfc.Cni.CmdAdd
open Base.Text (quote)
open Netlink Parent Plugin Plugin.Client

structure NetConf where
  cniVersion : String
  name : String
  ipamType : String
  dns : List String
  mode : String
  mtu : Int
  mac : String
  deviceID : String
deriving DecidableEq, Repr

structure CmdArgs where
  containerID : String
  netns : String
  ifName : String
deriving DecidableEq, Repr

/-- The IPAM plugin that `ipam.ExecAdd` and `ipam.ExecDel` run is another program. To an ADD
it answers with the allocations that it gives to the interface, or with an error; beside the
answer stands what it holds afterwards. -/
structure IpamPlugin where
  execAdd : NetConf → CmdArgs → List Lease → Except String (List Lease) × List Lease
  execDel : NetConf → CmdArgs → List Lease → List Lease

/-- The calls of `cmdAdd` that can fail, in program order. -/
inductive Site where
  | loadConf
  | getParentInterface
  | getNS
  | modeFromString
  | lookupMaster
  | randomVethName
  | parseMAC
  | linkAdd
  | linkSetNsFd
  | renameLink
  | refetchLink
  | getAddrsFromInterface
  | execAdd
  | newResultFromResult
  | lookupLink
  | addrAdd (index : Nat)
  | linkSetUp
  | printResult
deriving DecidableEq, Repr

structure Failure where
  site : Site
  message : String
deriving DecidableEq, Repr

structure Interface where
  name : String
  mac : String
  sandbox : String
deriving DecidableEq, Repr

structure IPConfig where
  interface : Nat
  address : IPNet
deriving DecidableEq, Repr

structure Result where
  cniVersion : String
  interfaces : List Interface
  ips : List IPConfig
  routes : List Route
  dns : List String
deriving DecidableEq, Repr

/-- What the outside decides: answers of the API server, random choices, the
IPAM plugin, and which calls fail although they could succeed. -/
structure Env where
  codec : DeviceInfoCodec
  hostname : Except String String
  k8sclient : ClientInfo
  parseMAC : String → Except String String
  tmpName : String
  randomMac : String
  ipam : IpamPlugin
  routes : List Route
  formatIPConfig : IPConfig → String
  faults : Site → Option String

structure SolarflareInterface where
  interface : Interface
  parentName : String
deriving DecidableEq, Repr

def loadConf (stdinData : Except String NetConf) : Except String NetConf :=
  match stdinData with
  | .error message => .error ("failed to load conf: " ++ message)
  | .ok n => .ok n

def prepareMacvlan (env : Env) (conf : NetConf) (parentIfName : String) (host : Netns) :
    Except Failure Link :=
  match attempt env.faults .modeFromString (modeFromString conf.mode) with
  | .error message => .error ⟨.modeFromString, message⟩
  | .ok mode =>
      match attempt env.faults .lookupMaster (linkByName host parentIfName) with
      | .error message =>
          .error ⟨.lookupMaster,
            "failed to lookup master " ++ quote parentIfName ++ ": " ++ message⟩
      | .ok m =>
          match attempt env.faults .randomVethName (.ok env.tmpName) with
          | .error message => .error ⟨.randomVethName, message⟩
          | .ok _ =>
              match (if conf.mac ≠ "" then attempt env.faults .parseMAC (env.parseMAC conf.mac)
                  else .ok env.randomMac) with
              | .error message =>
                  .error ⟨.parseMAC,
                    "invalid args " ++ conf.mac ++ " for MAC addr: " ++ message⟩
              | .ok mac => .ok ⟨0, m.index, conf.mtu, mac, some mode, [], false⟩

theorem prepareMacvlan_ok {env : Env} {conf : NetConf} {parentIfName : String} {host : Netns}
    {link : Link} (h : prepareMacvlan env conf parentIfName host = .ok link) :
    ∃ m, host.links parentIfName = some m ∧ link.parentIndex = m.index ∧ link.addrs = [] := by
  unfold prepareMacvlan at h
  split at h
  · contradiction
  · split at h
    · contradiction
    · rename_i m hmaster
      split at h
      · contradiction
      · split at h
        · contradiction
        · rw [← Except.ok.inj h]
          exact ⟨m, linkByName_ok (attempt_ok hmaster), rfl, rfl⟩

def renameMacvlan (env : Env) (ifName : String) (container : Netns) :
    Except Failure Link × Netns :=
  match attempt env.faults .renameLink (renameLink container env.tmpName ifName) with
  | .error message =>
      (.error ⟨.renameLink, "failed to rename macvlan to " ++ quote ifName ++ ": " ++ message⟩,
        container)
  | .ok container =>
      match attempt env.faults .refetchLink (linkByName container ifName) with
      | .error message =>
          (.error ⟨.refetchLink,
            "failed to refetch macvlan " ++ quote ifName ++ ": " ++ message⟩, container)
      | .ok contMacvlan => (.ok contMacvlan, container)

theorem renameMacvlan_ok {env : Env} {ifName : String} {netns after : Netns}
    {link contMacvlan : Link} (hname : netns.links env.tmpName = none)
    (h : renameMacvlan env ifName (netns.set env.tmpName (some link)) =
      (.ok contMacvlan, after)) :
    netns.links ifName = none ∧ after = netns.set ifName (some link) := by
  unfold renameMacvlan at h
  split at h
  · simp at h
  · rename_i renamed hrename
    have hspec := renameLink_ok hname (attempt_ok hrename)
    split at h
    · simp at h
    · rw [← (Prod.mk.inj h).2]
      exact hspec

/-- The `LinkDel` after a failure runs in the host namespace, which the link has
left by then. -/
def createMacvlan (env : Env) (conf : NetConf) (ifName parentIfName netns : String)
    (scope : Scope) : Except Failure SolarflareInterface × Scope :=
  match prepareMacvlan env conf parentIfName scope.host with
  | .error failure => (.error failure, scope)
  | .ok link =>
      match attempt env.faults .linkAdd (scope.linkAdd env.tmpName link) with
      | .error message =>
          (.error ⟨.linkAdd, "failed to create macvlan pareIndex: " ++ toString link.parentIndex ++
            " mode: " ++ quote conf.mode ++ " err: " ++ message⟩, scope)
      | .ok (mv, scope) =>
          match attempt env.faults .linkSetNsFd (scope.linkSetNsFd env.tmpName) with
          | .error _ => (.error ⟨.linkSetNsFd, "failed to set namespace"⟩, scope)
          | .ok scope =>
              match renameMacvlan env ifName scope.container with
              | (.error failure, container) =>
                  (.error failure,
                    { scope with container := container }.linkDel env.tmpName mv.index)
              | (.ok contMacvlan, container) =>
                  (.ok ⟨⟨ifName, contMacvlan.hardwareAddr, netns⟩, parentIfName⟩,
                    { scope with container := container })

theorem createMacvlan_ok {env : Env} {conf : NetConf} {ifName parentIfName netns : String}
    {scope after : Scope} {inter : SolarflareInterface}
    (h : createMacvlan env conf ifName parentIfName netns scope = (.ok inter, after)) :
    inter.parentName = parentIfName ∧ scope.container.links ifName = none ∧
      ∃ m link, scope.host.links parentIfName = some m ∧ link.parentIndex = m.index ∧
        link.addrs = [] ∧ after = { scope with
          container := scope.container.set ifName (some link)
          nextIndex := scope.nextIndex + 1 } := by
  unfold createMacvlan at h
  split at h
  · simp at h
  · rename_i link hprepare
    obtain ⟨m, hm, hparent, haddrs⟩ := prepareMacvlan_ok hprepare
    split at h
    · simp at h
    · rename_i mv added hadd
      have hadded := linkAdd_ok (attempt_ok hadd)
      split at h
      · simp at h
      · rename_i moved hmove
        have hmoved := moved_scope (attempt_ok hadd) (attempt_ok hmove)
        split at h
        · simp at h
        · rename_i contMacvlan container hrename
          rw [hmoved.2] at hrename
          have hcontainer := renameMacvlan_ok hmoved.1 hrename
          have hpair := Prod.mk.inj h
          refine ⟨?_, hcontainer.1, m, mv, hm, ?_, ?_, ?_⟩
          · rw [← Except.ok.inj hpair.1]
          · rw [hadded.2.1, hparent]
          · rw [hadded.2.1, haddrs]
          · rw [← hpair.2, hmoved.2, hcontainer.2]

def getAddrsFromInterface (host : Netns) (interfaceName : String) :
    Except String (List IPNet) :=
  match host.links interfaceName with
  | none => .error "route ip+net: no such network interface"
  | some inter => .ok (inter.addrs.filter fun ipNet => !ipNet.ip.isLoopback)

def getIPsOfIPAM (addrs : List IPNet) : List IPConfig :=
  addrs.map fun addr => ⟨0, addr⟩

inductive Deferred where
  | deleteLink
  | execDel
deriving DecidableEq, Repr

/-- `err` is the variable of the function body, `ipamErr` the one that the IPAM
block declares anew. The last deferred function is first in the list. `obtained`
are the allocations that the IPAM plugin has given to this call. -/
structure Frame where
  scope : Scope
  err : Option String
  ipamErr : Option String
  defers : List Deferred
  obtained : List Lease

structure Return where
  error : Option String
  printed : Option Result
  failed : Option Site
  obtained : List Lease
deriving DecidableEq, Repr

def Frame.start (scope : Scope) : Frame := ⟨scope, none, none, [.deleteLink], []⟩

section Ipam

variable (env : Env) (n : NetConf) (args : CmdArgs)

def Frame.runDeferred (frame : Frame) (scope : Scope) : Deferred → Scope
  | .deleteLink =>
      if frame.err.isSome then
        { scope with container := scope.container.set args.ifName none }
      else scope
  | .execDel =>
      if frame.ipamErr.isSome then { scope with leases := env.ipam.execDel n args scope.leases }
      else scope

def Frame.unwind (frame : Frame) : Scope :=
  frame.defers.foldl (frame.runDeferred env n args) frame.scope

def Frame.leave (frame : Frame) (error : Option String) (printed : Option Result)
    (failed : Option Site) : Return × Scope :=
  (⟨error, printed, failed, frame.obtained⟩, frame.unwind env n args)

/-- After a fault the plugin has not run. -/
def execAdd (leases : List Lease) : Except String (List Lease) × List Lease :=
  match env.faults .execAdd with
  | some message => (.error message, leases)
  | none => env.ipam.execAdd n args leases

/-- The block `if n.IPAM.Type != ""`, with an `err` of its own. -/
def execIPAM (frame : Frame) : Except Failure (List Route) × Frame :=
  if n.ipamType ≠ "" then
    match execAdd env n args frame.scope.leases with
    | (.error message, leases) =>
        (.error ⟨.execAdd, message⟩, { frame with
          scope := { frame.scope with leases := leases }
          ipamErr := some message })
    | (.ok obtained, leases) =>
        let frame := { frame with
          scope := { frame.scope with leases := leases }
          defers := .execDel :: frame.defers
          obtained := obtained }
        match attempt env.faults .newResultFromResult (.ok env.routes) with
        | .error message =>
            (.error ⟨.newResultFromResult, message⟩, { frame with ipamErr := some message })
        | .ok routes => (.ok routes, frame)
  else (.ok [], frame)

end Ipam

theorem execIPAM_ok {env : Env} {n : NetConf} {args : CmdArgs} {frame after : Frame}
    {routes : List Route} (h : execIPAM env n args frame = (.ok routes, after)) :
    (n.ipamType = "" ∧ after = frame) ∨
      (n.ipamType ≠ "" ∧ ∃ obtained leases,
        execAdd env n args frame.scope.leases = (.ok obtained, leases) ∧ after = { frame with
          scope := { frame.scope with leases := leases }
          defers := .execDel :: frame.defers
          obtained := obtained }) := by
  unfold execIPAM at h
  split at h
  · rename_i hipam
    split at h
    · simp at h
    · rename_i obtained leases hexec
      split at h
      · simp at h
      · exact .inr ⟨hipam, obtained, leases, hexec, (Prod.mk.inj h).2.symm⟩
  · rename_i hipam
    exact .inl ⟨not_not.mp hipam, (Prod.mk.inj h).2.symm⟩

theorem execIPAM_error {env : Env} {n : NetConf} {args : CmdArgs} {frame after : Frame}
    {failure : Failure} (h : execIPAM env n args frame = (.error failure, after)) :
    (failure.site = .execAdd ∧ ∃ leases,
      execAdd env n args frame.scope.leases = (.error failure.message, leases) ∧
        after = { frame with
          scope := { frame.scope with leases := leases }
          ipamErr := some failure.message }) ∨
      (failure.site = .newResultFromResult ∧ ∃ obtained leases,
        execAdd env n args frame.scope.leases = (.ok obtained, leases) ∧ after = { frame with
          scope := { frame.scope with leases := leases }
          ipamErr := some failure.message
          defers := .execDel :: frame.defers
          obtained := obtained }) := by
  unfold execIPAM at h
  split at h
  · split at h
    · rename_i message leases hexec
      cases h
      exact .inl ⟨rfl, leases, hexec, rfl⟩
    · rename_i obtained leases hexec
      split at h
      · cases h
        exact .inr ⟨rfl, obtained, leases, hexec, rfl⟩
      · simp at h
  · simp at h

/-- Addresses without an IPv4 form are skipped. -/
def addAddrs (env : Env) (ifName : String) :
    Nat → List IPConfig → Netns → Except Failure Unit × Netns
  | _, [], container => (.ok (), container)
  | index, ipc :: rest, container =>
      if !ipc.address.ip.isV4 then addAddrs env ifName (index + 1) rest container
      else
        match attempt env.faults (.addrAdd index) (addrAdd container ifName ipc.address) with
        | .error message =>
            (.error ⟨.addrAdd index, "failed to add IP addr " ++ env.formatIPConfig ipc ++
              " to " ++ quote ifName ++ ": " ++ message⟩, container)
        | .ok container => addAddrs env ifName (index + 1) rest container

def configure (env : Env) (ifName : String) (ips : List IPConfig) (container : Netns) :
    Except Failure Unit × Netns :=
  match attempt env.faults .lookupLink (linkByName container ifName) with
  | .error message =>
      (.error ⟨.lookupLink, "failed to lookup " ++ quote ifName ++ ": " ++ message⟩, container)
  | .ok _ =>
      match addAddrs env ifName 0 ips container with
      | (.error failure, container) => (.error failure, container)
      | (.ok (), container) =>
          match attempt env.faults .linkSetUp (linkSetUp container ifName) with
          | .error message =>
              (.error ⟨.linkSetUp, "failed to set " ++ quote ifName ++ " UP: " ++ message⟩,
                container)
          | .ok container => (.ok (), container)

/-- `cmdAdd` after the IPAM block. A failed configuration is stored in `err` but
the function returns nil; the error of `PrintResult` is returned but not stored. -/
def finishAdd (env : Env) (n : NetConf) (args : CmdArgs) (inter : Interface)
    (ips : List IPConfig) (routes : List Route) (frame : Frame) : Return × Scope :=
  match configure env args.ifName ips frame.scope.container with
  | (.error failure, container) =>
      { frame with
        scope := { frame.scope with container := container }
        err := some failure.message }.leave env n args none none (some failure.site)
  | (.ok (), container) =>
      let frame := { frame with scope := { frame.scope with container := container } }
      match attempt env.faults .printResult (.ok ()) with
      | .error message => frame.leave env n args (some message) none (some .printResult)
      | .ok () =>
          frame.leave env n args none (some ⟨n.cniVersion, [inter], ips, routes, n.dns⟩) none

def addInNetns (env : Env) (n : NetConf) (args : CmdArgs) (parentIfName : String)
    (scope : Scope) : Return × Scope :=
  match createMacvlan env n args.ifName parentIfName args.netns scope with
  | (.error failure, scope) => (⟨some failure.message, none, some failure.site, []⟩, scope)
  | (.ok macvlanInterface, scope) =>
      let frame : Frame := .start scope
      match attempt env.faults .getAddrsFromInterface
          (getAddrsFromInterface scope.host macvlanInterface.parentName) with
      | .error message =>
          { frame with err := some message }.leave env n args (some message) none
            (some .getAddrsFromInterface)
      | .ok addrs =>
          match execIPAM env n args frame with
          | (.error failure, frame) =>
              frame.leave env n args (some failure.message) none (some failure.site)
          | (.ok routes, frame) =>
              finishAdd env n args macvlanInterface.interface (getIPsOfIPAM addrs) routes frame

section Exits

variable (env : Env) (n : NetConf) (args : CmdArgs) (parentIfName : String) (scope : Scope)

inductive Exit : Return → Scope → Prop
  | createMacvlan {failure : Failure} {after : Scope}
      (hcreate : createMacvlan env n args.ifName parentIfName args.netns scope =
        (.error failure, after)) :
      Exit ⟨some failure.message, none, some failure.site, []⟩ after
  | getAddrsFromInterface {inter : SolarflareInterface} {created : Scope} (message : String)
      (hcreate : createMacvlan env n args.ifName parentIfName args.netns scope =
        (.ok inter, created)) :
      Exit ⟨some message, none, some .getAddrsFromInterface, []⟩
        (Frame.unwind env n args { Frame.start created with err := some message })
  | execIPAM {inter : SolarflareInterface} {created : Scope} {failure : Failure} {frame : Frame}
      (hcreate : createMacvlan env n args.ifName parentIfName args.netns scope =
        (.ok inter, created))
      (hipam : execIPAM env n args (.start created) = (.error failure, frame)) :
      Exit ⟨some failure.message, none, some failure.site, frame.obtained⟩
        (frame.unwind env n args)
  | finishAdd {inter : SolarflareInterface} {created after : Scope} {addrs : List IPNet}
      {routes : List Route} {frame : Frame} {value : Return}
      (hcreate : createMacvlan env n args.ifName parentIfName args.netns scope =
        (.ok inter, created))
      (haddrs : getAddrsFromInterface created.host inter.parentName = .ok addrs)
      (hipam : execIPAM env n args (.start created) = (.ok routes, frame))
      (hfinish : finishAdd env n args inter.interface (getIPsOfIPAM addrs) routes frame =
        (value, after)) :
      Exit value after

variable {env n args parentIfName scope}

theorem addInNetns_exit {value : Return} {after : Scope}
    (h : addInNetns env n args parentIfName scope = (value, after)) :
    Exit env n args parentIfName scope value after := by
  unfold addInNetns at h
  split at h
  · rename_i hcreate
    cases h
    exact .createMacvlan hcreate
  · rename_i hcreate
    simp only at h
    split at h
    · cases h
      exact .getAddrsFromInterface _ hcreate
    · rename_i haddrs
      split at h
      · rename_i hipam
        cases h
        exact .execIPAM hcreate hipam
      · rename_i hipam
        exact .finishAdd hcreate (attempt_ok haddrs) hipam h

end Exits

structure World where
  host : Netns
  namespaces : String → Option Netns
  leases : List Lease
  nextIndex : Nat

def World.scope (world : World) (container : Netns) : Scope :=
  ⟨world.host, container, world.leases, world.nextIndex⟩

def World.update (world : World) (path : String) (scope : Scope) : World :=
  ⟨scope.host, Function.update world.namespaces path (some scope.container), scope.leases,
    scope.nextIndex⟩

def getNS (world : World) (path : String) : Except String Netns :=
  match world.namespaces path with
  | none => .error ("failed to Statfs " ++ quote path ++ ": no such file or directory")
  | some netns => .ok netns

theorem getNS_ok {world : World} {path : String} {container : Netns}
    (h : getNS world path = .ok container) : world.namespaces path = some container := by
  unfold getNS at h
  split at h
  · contradiction
  · rename_i netns hnetns
    rw [hnetns, Except.ok.inj h]

def cmdAdd (env : Env) (stdinData : Except String NetConf) (args : CmdArgs) (world : World) :
    Return × World :=
  match loadConf stdinData with
  | .error message => (⟨some message, none, some .loadConf, []⟩, world)
  | .ok n =>
      match getParentInterface env.codec env.hostname n.deviceID n.name env.k8sclient with
      | .error message => (⟨some message, none, some .getParentInterface, []⟩, world)
      | .ok parentIfName =>
          match attempt env.faults .getNS (getNS world args.netns) with
          | .error message =>
              (⟨some ("failed to open netns %!q(<nil>): " ++ message), none, some .getNS, []⟩,
                world)
          | .ok container =>
              let (value, scope) := addInNetns env n args parentIfName (world.scope container)
              (value, world.update args.netns scope)

end VirtualSfc.Cni.CmdAdd
