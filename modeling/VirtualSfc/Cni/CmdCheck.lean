import VirtualSfc.Cni.Report

/-! `cmdCheck`, as a whole, and what becomes of a CHECK that follows an ADD. -/
namespace VirtualSfc.Cni.CmdCheck
open Base.Text (quote)
open Netlink Parent CmdAdd Rollback Report
open Plugin (DeviceInfoCodec)
open Plugin.Client (ClientInfo)

inductive Site where
  | getNS
  | parsePrevResult
  | newResultFromResult
  | lookupParent
  | lookupContainer
deriving DecidableEq, Repr

structure Env where
  codec : DeviceInfoCodec
  hostname : Except String String
  k8sclient : ClientInfo
  faults : Site → Option String

/-- The loop over the interfaces of the previous result, which assigns
`containerInterface` and never `contMap`. -/
def findInterfaces (args : CmdArgs) (interfaces : List Interface) : Interface × Interface :=
  interfaces.foldl
    (fun (containerInterface, contMap) intf =>
      if args.ifName = intf.name then
        if args.netns = intf.sandbox then (intf, contMap) else (containerInterface, contMap)
      else (containerInterface, contMap))
    (⟨"", "", ""⟩, ⟨"", "", ""⟩)

/-- The error of an unknown mode is overwritten, and the mode is then zero. -/
def validateMode (mode : MacvlanMode) (modeExpected : String) : Except String Unit :=
  let expected := match modeFromString modeExpected with
    | .ok expected => expected
    | .error _ => .modeDefault
  if mode = expected then .ok ()
  else
    match modeToString mode, modeToString expected with
    | .error message, _ => .error message
    | _, .error message => .error message
    | .ok currString, .ok confString =>
        .error ("containter macvlan mode " ++ currString ++
          " does not match expected value: " ++ confString)

def validateCniContainerInterface (env : Env) (container : Netns) (intf : Interface)
    (modeExpected : String) : Except String Unit :=
  if intf.name = "" then
    .error ("containter Interface name misssing in prevResult: " ++ intf.name)
  else
    match attempt env.faults .lookupContainer (linkByName container intf.name) with
    | .error _ =>
        .error ("containter Interface name in prevResult: " ++ intf.name ++ " not found")
    | .ok link =>
        if intf.sandbox = "" then
          .error ("container interface " ++ intf.name ++ " should not be in host namespace")
        else
          match link.macvlan with
          | none => .error ("container interface " ++ intf.name ++ " not of type macvlan")
          | some mode => validateMode mode modeExpected

/-- The two validators of the library accept exactly when all is present. -/
def validateExpectedInterfaceIPs (container : Netns) (ifName : String) (ips : List IPConfig) :
    Except String Unit :=
  match container.links ifName with
  | none => .error ("cannot find container link " ++ ifName)
  | some link =>
      if ∀ ipc ∈ ips, ipc.address.inFamily ∈ link.addrs.map IPNet.inFamily then .ok ()
      else .error ("Failed to match addr on interface " ++ ifName)

def validateExpectedRoute (container : Netns) (routes : List Route) : Except String Unit :=
  if ∀ route ∈ routes, route ∈ container.routes then .ok ()
  else .error "expected route not found"

def checkContainer (env : Env) (n : NetConf) (args : CmdArgs) (result : Result)
    (containerInterface : Interface) (container : Netns) : Except String Unit :=
  match validateCniContainerInterface env container containerInterface n.mode with
  | .error message => .error message
  | .ok () =>
      match validateExpectedInterfaceIPs container args.ifName result.ips with
      | .error message => .error message
      | .ok () => validateExpectedRoute container result.routes

def sandboxMismatch (sandbox netns : String) : String :=
  "Sandbox in prevResult " ++ sandbox ++ " doesn't match configured netns: " ++ netns

def cmdCheck (env : Env) (stdinData : Except String NetConf) (prevResult : Option Result)
    (args : CmdArgs) (world : World) : Except String Unit :=
  match loadConf stdinData with
  | .error message => .error message
  | .ok n =>
      match attempt env.faults .getNS (getNS world args.netns) with
      | .error message => .error ("failed to open netns %!q(<nil>): " ++ message)
      | .ok container =>
          match prevResult with
          | none => .error "Required prevResult missing"
          | some prevResult =>
              match attempt env.faults .parsePrevResult (.ok prevResult) with
              | .error message => .error message
              | .ok prevResult =>
                  match attempt env.faults .newResultFromResult (.ok prevResult) with
                  | .error message => .error message
                  | .ok result =>
                      let (containerInterface, contMap) := findInterfaces args result.interfaces
                      if args.netns ≠ contMap.sandbox then
                        .error (sandboxMismatch contMap.sandbox args.netns)
                      else
                        match getParentInterface env.codec env.hostname n.deviceID n.name
                            env.k8sclient with
                        | .error message => .error message
                        | .ok parentIfName =>
                            match attempt env.faults .lookupParent
                                (linkByName world.host parentIfName) with
                            | .error message =>
                                .error ("failed to lookup interface " ++ quote parentIfName ++
                                  ": " ++ message)
                            | .ok _ =>
                                checkContainer env n args result containerInterface container

theorem findInterfaces_contMap (args : CmdArgs) (interfaces : List Interface) :
    (findInterfaces args interfaces).2 = ⟨"", "", ""⟩ := by
  have hfold : ∀ (rest : List Interface) (containerInterface contMap : Interface),
      (rest.foldl
        (fun (containerInterface, contMap) intf =>
          if args.ifName = intf.name then
            if args.netns = intf.sandbox then (intf, contMap) else (containerInterface, contMap)
          else (containerInterface, contMap))
        (containerInterface, contMap)).2 = contMap := by
    intro rest
    induction rest with
    | nil => exact fun _ _ => rfl
    | cons intf rest ih =>
        intro containerInterface contMap
        simp only [List.foldl_cons]
        split
        · split
          · exact ih _ _
          · exact ih _ _
        · exact ih _ _
  exact hfold interfaces _ _

theorem cmdCheck_sandbox {env : Env} {n : NetConf} {result : Result} {args : CmdArgs}
    {world : World} {container : Netns} (hfaults : ∀ site, env.faults site = none)
    (hnetns : args.netns ≠ "") (hcontainer : world.namespaces args.netns = some container) :
    cmdCheck env (.ok n) (some result) args world = .error (sandboxMismatch "" args.netns) := by
  have hcontMap := findInterfaces_contMap args result.interfaces
  simp [cmdCheck, loadConf, attempt, hfaults, getNS, hcontainer, hcontMap, hnetns]

theorem cmdAdd_printed {env : CmdAdd.Env} {n : NetConf} {args : CmdArgs} {world : World}
    (h : (cmdAdd env (.ok n) args world).1.failed = none) :
    (∃ result, (cmdAdd env (.ok n) args world).1.printed = some result) ∧
      ∃ container, (cmdAdd env (.ok n) args world).2.namespaces args.netns =
        some container := by
  obtain ⟨_, _, _, _, _, after, _, _, _, _, _, hworld, hprinted⟩ := cmdAdd_completed h
  refine ⟨Option.isSome_iff_exists.mp hprinted, after.container, ?_⟩
  rw [hworld]
  exact Function.update_self args.netns _ world.namespaces

/-- CHECK after ADD never succeeds: for every successful ADD with a namespace
path, CHECK with the printed result on the unchanged machine returns an error. -/
theorem check_after_add (env : CmdAdd.Env) (checkEnv : Env) (n : NetConf) (args : CmdArgs)
    (world : World) (hnetns : args.netns ≠ "")
    (hadd : (cmdAdd env (.ok n) args world).1.failed = none)
    (hfaults : ∀ site, checkEnv.faults site = none) :
    ∃ result, (cmdAdd env (.ok n) args world).1.printed = some result ∧
      cmdCheck checkEnv (.ok n) (some result) args (cmdAdd env (.ok n) args world).2 =
        .error (sandboxMismatch "" args.netns) := by
  rcases cmdAdd_printed hadd with ⟨⟨result, hresult⟩, container, hcontainer⟩
  exact ⟨result, hresult, cmdCheck_sandbox hfaults hnetns hcontainer⟩

def sameNode : Env where
  codec := (oneDevice noFault).codec
  hostname := (oneDevice noFault).hostname
  k8sclient := (oneDevice noFault).k8sclient
  faults := fun _ => none

def withoutIPAM : NetConf := { hostLocal with ipamType := "" }

theorem check_after_add_without_ipam :
    (cmdAdd (oneDevice noFault) (.ok withoutIPAM) net1OfC1 oneContainer).1.failed = none ∧
    ∃ result,
      (cmdAdd (oneDevice noFault) (.ok withoutIPAM) net1OfC1 oneContainer).1.printed =
        some result ∧
      cmdCheck sameNode (.ok withoutIPAM) (some result) net1OfC1
        (cmdAdd (oneDevice noFault) (.ok withoutIPAM) net1OfC1 oneContainer).2 =
          .error (sandboxMismatch "" net1OfC1.netns) := by
  have hadd : (cmdAdd (oneDevice noFault) (.ok withoutIPAM) net1OfC1
      oneContainer).1.failed = none := by
    decide +kernel
  exact ⟨hadd, check_after_add (oneDevice noFault) sameNode withoutIPAM net1OfC1 oneContainer
    (by decide) hadd (fun _ => rfl)⟩

theorem check_rejects_own_add :
    ¬ ∀ result,
      (cmdAdd (oneDevice noFault) (.ok hostLocal) net1OfC1 oneContainer).1.printed =
        some result →
      cmdCheck sameNode (.ok hostLocal) (some result) net1OfC1
        (cmdAdd (oneDevice noFault) (.ok hostLocal) net1OfC1 oneContainer).2 = .ok () := by
  intro hall
  have hadd : (cmdAdd (oneDevice noFault) (.ok hostLocal) net1OfC1
      oneContainer).1.failed = none := by
    decide +kernel
  rcases cmdAdd_printed hadd with ⟨⟨result, hresult⟩, container, hcontainer⟩
  have haccepted := hall result hresult
  rw [cmdCheck_sandbox (fun _ => rfl) (by decide) hcontainer] at haccepted
  contradiction

end VirtualSfc.Cni.CmdCheck
