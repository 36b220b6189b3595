import VirtualSfc.Plugin.Types

/-! `getAllocAddr` and `NewMemVSfcPlugin`. In the Go version of `go.mod` all
iterations of a loop share its variable, and `getAllocAddr` keeps the address of
that variable: what it returns is what the last iteration left there. -/
namespace VirtualSfc.Plugin.VsfcPlugin

/-- A `*config.Interface` within `getAllocAddr`. -/
inductive Pointer where
  | null
  | configed
deriving DecidableEq, Repr

structure Locals where
  configed : Interface
  inter : Pointer
deriving DecidableEq, Repr

def Locals.zero : Locals := ⟨⟨"", "", "", 0, ""⟩, .null⟩

def Locals.visit (resource : String) (locals : Locals) (configed : Interface) : Locals :=
  if configed.resource = resource then ⟨configed, .configed⟩
  else { locals with configed := configed }

def getAllocAddr (conf : Config) (resource : String) : String :=
  let locals := conf.interfaces.foldl (Locals.visit resource) .zero
  match locals.inter with
  | .null => ""
  | .configed => locals.configed.allocServiceAddr

def cleanElement (rooted : Bool) (kept : List (List Char)) (element : List Char) :
    List (List Char) :=
  if element = [] ∨ element = ['.'] then kept
  else if element = ['.', '.'] then
    match kept.getLast? with
    | none => if rooted then kept else [element]
    | some last => if last = ['.', '.'] then kept ++ [element] else kept.dropLast
  else kept ++ [element]

def clean (path : List Char) : List Char :=
  let rooted := path.head? == some '/'
  let kept := (path.splitOn '/').foldl (cleanElement rooted) []
  let cleaned := (if rooted then ['/'] else []) ++ ['/'].intercalate kept
  if cleaned = [] then ['.'] else cleaned

def joinPath (directory name : List Char) : List Char :=
  if directory = [] then clean name else clean (directory ++ '/' :: name)

def makeUnixSockPath (pluginDir resource : String) (now : Int) : String :=
  let name := resource.toList.map fun c => if c = '/' then '~' else c
  String.ofList (joinPath pluginDir.toList
    (name ++ '-' :: (toString now).toList ++ ".sock".toList))

example : makeUnixSockPath "/var/lib/kubelet/./device-plugins/" "highfortfunds.com/vsfc" 9 =
    "/var/lib/kubelet/device-plugins/highfortfunds.com~vsfc-9.sock" := by
  decide

/-- `PluginBase` of a `MemVSfcPlugin`, and the address its server is given. -/
structure MemVSfcPlugin where
  resource : Resource
  pluginDir : String
  socket : String
  allocAddr : String
deriving DecidableEq, Repr

def newMemVSfcPlugin (conf : Config) (resource pluginDir : String) (now : Int) :
    Except String MemVSfcPlugin :=
  let allocServiceAddr := getAllocAddr conf resource
  if allocServiceAddr.length ≤ 0 then .error "invalid allocServiceAddr"
  else .ok ⟨resource, pluginDir, makeUnixSockPath pluginDir resource now, allocServiceAddr⟩

/-! The address that is meant: that of the last entry of the resource. -/

def lastEntry (conf : Config) (resource : String) : Option Interface :=
  (conf.interfaces.filter fun inter => inter.resource = resource).getLast?

theorem foldl_visit (resource : String) (interfaces : List Interface) (locals : Locals) :
    interfaces.foldl (Locals.visit resource) locals =
      ⟨interfaces.getLast?.getD locals.configed,
        if interfaces.filter (fun inter => inter.resource = resource) = [] then locals.inter
        else .configed⟩ := by
  induction interfaces generalizing locals with
  | nil => rfl
  | cons configed interfaces ih =>
      rw [List.foldl_cons, ih, List.getLast?_cons, Option.getD_some]
      by_cases hresource : configed.resource = resource
      · simp [Locals.visit, hresource]
      · simp [Locals.visit, hresource]

/-- Any match selects the variable, which then holds the last entry of all. -/
theorem getAllocAddr_eq (conf : Config) (resource : String) :
    getAllocAddr conf resource =
      match lastEntry conf resource with
      | none => ""
      | some _ => (conf.interfaces.getLast?.getD Locals.zero.configed).allocServiceAddr := by
  simp only [getAllocAddr, foldl_visit]
  cases hlast : lastEntry conf resource with
  | none =>
      rw [if_pos (List.getLast?_eq_none_iff.mp hlast)]
      rfl
  | some inter =>
      have hfound : conf.interfaces.filter (fun inter => inter.resource = resource) ≠ [] := by
        intro hempty
        simp [lastEntry, hempty] at hlast
      rw [if_neg hfound]

theorem newMemVSfcPlugin_isOk (conf : Config) (resource pluginDir : String) (now : Int) :
    (newMemVSfcPlugin conf resource pluginDir now).isOk ↔ getAllocAddr conf resource ≠ "" := by
  unfold newMemVSfcPlugin
  by_cases hempty : getAllocAddr conf resource = ""
  · simp [hempty]
  · have hlength : ¬ (getAllocAddr conf resource).length ≤ 0 := by
      rwa [Nat.le_zero, String.length_eq_zero_iff]
    simp [hempty, hlength]

/-- The lookup depends on the entries of the resource alone, the last one decides. -/
structure LooksUp (conf : Config) (resource : String) : Prop where
  address : getAllocAddr conf resource =
    match lastEntry conf resource with
    | none => ""
    | some inter => inter.allocServiceAddr
  constructs : ∀ pluginDir now,
    (newMemVSfcPlugin conf resource pluginDir now).isOk ↔
      ∃ inter, lastEntry conf resource = some inter ∧ inter.allocServiceAddr ≠ ""

theorem getAllocAddr_iff (conf : Config) (resource : String) :
    LooksUp conf resource ↔
      ∀ inter, lastEntry conf resource = some inter →
        ∀ last, conf.interfaces.getLast? = some last →
          last.allocServiceAddr = inter.allocServiceAddr := by
  have haddress := getAllocAddr_eq conf resource
  constructor
  · intro h inter hinter last hlast
    have hmeant := h.address
    rw [haddress, hinter, hlast] at hmeant
    exact hmeant
  · intro h
    have hmeant : getAllocAddr conf resource =
        match lastEntry conf resource with
        | none => ""
        | some inter => inter.allocServiceAddr := by
      rw [haddress]
      cases hentry : lastEntry conf resource with
      | none => rfl
      | some inter =>
          cases hlast : conf.interfaces.getLast? with
          | none => simp [lastEntry, List.getLast?_eq_none_iff.mp hlast] at hentry
          | some last => exact h inter hentry last hlast
    refine ⟨hmeant, fun pluginDir now => ?_⟩
    rw [newMemVSfcPlugin_isOk, hmeant]
    cases lastEntry conf resource with
    | none => simp
    | some inter => simp

def mixed : Config where
  pluginDir := ""
  interfaces := [⟨"ens1", virtualMemSfc, "", 4, "10.0.0.1:7000"⟩, ⟨"ens2", virtualSfc, "", 4, ""⟩]

theorem getAllocAddr_mixed :
    (lastEntry mixed virtualMemSfc).map (·.allocServiceAddr) = some "10.0.0.1:7000" ∧
      getAllocAddr mixed virtualMemSfc = "" ∧
      newMemVSfcPlugin mixed virtualMemSfc "/plugins" 0 = .error "invalid allocServiceAddr" ∧
      ¬ LooksUp mixed virtualMemSfc := by
  refine ⟨rfl, rfl, rfl, fun h => ?_⟩
  exact absurd h.address (by decide)

end VirtualSfc.Plugin.VsfcPlugin
