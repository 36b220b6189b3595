import VirtualSfc.Base.Inheritance
import VirtualSfc.Base.Run
import VirtualSfc.Plugin.Types

/-! `registry.syncLoop` and `pluginMgr.syncLoop` on one update of the
configuration after another. The registry inherits constructors from parents,
the manager starts a plugin for every resource it can construct. -/
namespace VirtualSfc.Plugin.Registry
open Base.Inheritance Base.Run

inductive Constructor where
  | newPlugin
  | newMemVSfcPlugin
deriving DecidableEq, Repr

def builtIns : List Resource := [virtualSfc, virtualMemSfc, virtualSfcHandle]

abbrev ResourceRegistry := Resource → Option Constructor

def resourceRegistry : ResourceRegistry := fun resource =>
  if resource = virtualSfc then some .newPlugin
  else if resource = virtualMemSfc then some .newMemVSfcPlugin
  else if resource = virtualSfcHandle then some .newPlugin
  else none

def hasResource (registry : ResourceRegistry) (resource : Resource) : Bool :=
  (registry resource).isSome

def inheritFrom (registry : ResourceRegistry) (inter : Interface) : ResourceRegistry :=
  if hasResource registry inter.resource then registry
  else if inter.parent = "" then registry
  else if hasResource registry inter.parent then
    Function.update registry inter.resource (registry inter.parent)
  else registry

def registrySync (registry : ResourceRegistry) (conf : Config) : ResourceRegistry :=
  conf.interfaces.foldl inheritFrom registry

/-- `plugins` are the keys of the map, `running` the calls of `runPlugin`, and
`attempts` the calls of constructors with their success. -/
structure PluginMgr where
  plugins : List Resource
  running : List Resource
  attempts : List (Resource × Bool)
deriving DecidableEq, Repr

/-- The loop body of `pluginMgr.syncLoop`, where `fails` says whether a
constructor called at a position of the list returns an error. -/
def PluginMgr.visit (registry : ResourceRegistry) (fails : Nat → Bool) (mgr : PluginMgr)
    (entry : Interface × Nat) : PluginMgr :=
  let resource := entry.1.resource
  match registry resource with
  | none => mgr
  | some _ =>
      if resource ∈ mgr.plugins then mgr
      else if fails entry.2 then { mgr with attempts := mgr.attempts ++ [(resource, false)] }
      else
        { plugins := mgr.plugins ++ [resource]
          running := mgr.running ++ [resource]
          attempts := mgr.attempts ++ [(resource, true)] }

def PluginMgr.sync (registry : ResourceRegistry) (conf : Config) (fails : Nat → Bool)
    (mgr : PluginMgr) : PluginMgr :=
  conf.interfaces.zipIdx.foldl (PluginMgr.visit registry fails) mgr

structure State where
  registry : ResourceRegistry
  mgr : PluginMgr

def State.start : State := ⟨resourceRegistry, ⟨[], [], []⟩⟩

structure Update where
  conf : Config
  fails : Nat → Bool

/-- Both loops handle an update to completion, the registry first. -/
def step (state : State) (update : Update) : State :=
  let registry := registrySync state.registry update.conf
  ⟨registry, state.mgr.sync registry update.conf update.fails⟩

/-! The registry. -/

def Extends (earlier later : ResourceRegistry) : Prop :=
  ∀ resource constructor, earlier resource = some constructor →
    later resource = some constructor

def BuiltIn (registry : ResourceRegistry) : Prop :=
  ∀ resource constructor, registry resource = some constructor →
    ∃ builtIn ∈ builtIns, resourceRegistry builtIn = some constructor

theorem Extends.trans {first second third : ResourceRegistry} (h : Extends first second)
    (h' : Extends second third) : Extends first third :=
  fun resource constructor hentry => h' resource constructor (h resource constructor hentry)

theorem Extends.hasResource {earlier later : ResourceRegistry} (h : Extends earlier later)
    {resource : Resource} (hentry : hasResource earlier resource) :
    hasResource later resource := by
  obtain ⟨constructor, hconstructor⟩ := Option.isSome_iff_exists.mp hentry
  exact Option.isSome_iff_exists.mpr ⟨constructor, h resource constructor hconstructor⟩

theorem resourceRegistry_builtIn : BuiltIn resourceRegistry := by
  intro resource constructor h
  refine ⟨resource, ?_, h⟩
  unfold resourceRegistry at h
  split at h
  · simp_all [builtIns]
  · split at h
    · simp_all [builtIns]
    · split at h
      · simp_all [builtIns]
      · contradiction

theorem inheritFrom_eq_adopt (registry : ResourceRegistry) (inter : Interface) :
    inheritFrom registry inter =
      if inter.parent = "" then registry
      else adopt registry ⟨inter.resource, inter.parent⟩ := by
  unfold inheritFrom adopt hasResource
  by_cases hparent : inter.parent = ""
  · simp [hparent]
  · simp [hparent]

theorem inheritFrom_spec (registry : ResourceRegistry) (inter : Interface) :
    Extends registry (inheritFrom registry inter) ∧
      (BuiltIn registry → BuiltIn (inheritFrom registry inter)) := by
  rw [inheritFrom_eq_adopt]
  split
  · exact ⟨fun _ _ h => h, id⟩
  · constructor
    · intro resource constructor h
      exact (adopt_eq_some registry _ resource constructor).mpr (Or.inl h)
    · intro hbuiltIn resource constructor h
      rcases (adopt_eq_some registry _ resource constructor).mp h with hown | ⟨_, _, hparent⟩
      · exact hbuiltIn _ _ hown
      · exact hbuiltIn _ _ hparent

theorem foldl_inheritFrom (interfaces : List Interface) (registry : ResourceRegistry) :
    Extends registry (interfaces.foldl inheritFrom registry) ∧
      (BuiltIn registry → BuiltIn (interfaces.foldl inheritFrom registry)) := by
  induction interfaces generalizing registry with
  | nil => exact ⟨fun _ _ h => h, id⟩
  | cons inter interfaces ih =>
      have hfirst := inheritFrom_spec registry inter
      have hrest := ih (inheritFrom registry inter)
      exact ⟨hfirst.1.trans hrest.1, fun h => hrest.2 (hfirst.2 h)⟩

/-! The manager. -/

structure PluginMgr.Valid (registry : ResourceRegistry) (mgr : PluginMgr) : Prop where
  keys : ∀ resource, resource ∈ mgr.plugins ↔ resource ∈ mgr.running
  once : mgr.running.Nodup
  registered : ∀ resource ∈ mgr.running, hasResource registry resource
  succeeded : ∀ resource, (resource, true) ∈ mgr.attempts → resource ∈ mgr.running

theorem PluginMgr.Valid.extend {earlier later : ResourceRegistry} {mgr : PluginMgr}
    (h : mgr.Valid earlier) (hextends : Extends earlier later) : mgr.Valid later :=
  ⟨h.keys, h.once, fun resource hmem => hextends.hasResource (h.registered resource hmem),
    h.succeeded⟩

/-- A plugin runs for the resource, or its constructor was called at this position in vain. -/
def PluginMgr.Tried (fails : Nat → Bool) (mgr : PluginMgr) (entry : Interface × Nat) : Prop :=
  entry.1.resource ∈ mgr.running ∨
    (entry.1.resource, false) ∈ mgr.attempts ∧ fails entry.2 = true

structure PluginMgr.Grows (mgr after : PluginMgr) : Prop where
  running : ∀ resource ∈ mgr.running, resource ∈ after.running
  attempts : ∀ attempt ∈ mgr.attempts, attempt ∈ after.attempts

theorem PluginMgr.Grows.refl (mgr : PluginMgr) : mgr.Grows mgr :=
  ⟨fun _ hmem => hmem, fun _ hmem => hmem⟩

theorem PluginMgr.Grows.trans {first second third : PluginMgr} (h : first.Grows second)
    (h' : second.Grows third) : first.Grows third :=
  ⟨fun resource hmem => h'.running resource (h.running resource hmem),
    fun attempt hmem => h'.attempts attempt (h.attempts attempt hmem)⟩

theorem PluginMgr.Grows.tried {fails : Nat → Bool} {mgr after : PluginMgr} (h : mgr.Grows after)
    {entry : Interface × Nat} (htried : mgr.Tried fails entry) : after.Tried fails entry :=
  htried.imp (h.running _) (And.imp_left (h.attempts _))

theorem PluginMgr.Valid.failed {registry : ResourceRegistry} {mgr : PluginMgr}
    (h : mgr.Valid registry) (resource : Resource) :
    { mgr with attempts := mgr.attempts ++ [(resource, false)] }.Valid registry := by
  refine ⟨h.keys, h.once, h.registered, fun other hmem => ?_⟩
  exact h.succeeded other (by simpa using hmem)

theorem PluginMgr.Valid.started {registry : ResourceRegistry} {mgr : PluginMgr}
    (h : mgr.Valid registry) {resource : Resource} (hnew : resource ∉ mgr.plugins)
    (hregistered : hasResource registry resource) :
    PluginMgr.Valid registry
      { plugins := mgr.plugins ++ [resource]
        running := mgr.running ++ [resource]
        attempts := mgr.attempts ++ [(resource, true)] } := by
  have hfresh : resource ∉ mgr.running := fun hmem => hnew ((h.keys _).mpr hmem)
  refine ⟨fun other => by simp [h.keys], ?_, fun other hmem => ?_, fun other hmem => ?_⟩
  · exact List.nodup_append_comm.mp (by simpa using ⟨hfresh, h.once⟩)
  · rw [List.mem_append, List.mem_singleton] at hmem
    rcases hmem with hold | hresource
    · exact h.registered other hold
    · rw [hresource]
      exact hregistered
  · rw [List.mem_append, List.mem_singleton, Prod.mk.injEq] at hmem
    rcases hmem with hold | ⟨hresource, _⟩
    · exact List.mem_append_left _ (h.succeeded other hold)
    · simp [hresource]

theorem visit_spec {registry : ResourceRegistry} (fails : Nat → Bool) {mgr : PluginMgr}
    (h : mgr.Valid registry) (entry : Interface × Nat) :
    (mgr.visit registry fails entry).Valid registry ∧
      mgr.Grows (mgr.visit registry fails entry) ∧
      (hasResource registry entry.1.resource →
        (mgr.visit registry fails entry).Tried fails entry) := by
  simp only [PluginMgr.visit]
  split
  · rename_i hnone
    exact ⟨h, .refl mgr, by simp [hasResource, hnone]⟩
  · rename_i constructor hconstructor
    split
    · rename_i hmem
      exact ⟨h, .refl mgr, fun _ => .inl ((h.keys _).mp hmem)⟩
    · rename_i hnew
      split
      · rename_i hfails
        refine ⟨h.failed _, ⟨fun _ hmem => hmem, ?_⟩, fun _ => .inr ⟨?_, hfails⟩⟩
        · exact fun _ hmem => List.mem_append_left _ hmem
        · exact List.mem_append_right _ (List.mem_singleton_self _)
      · refine ⟨h.started hnew (by simp [hasResource, hconstructor]), ⟨?_, ?_⟩, fun _ => .inl ?_⟩
        · exact fun _ hmem => List.mem_append_left _ hmem
        · exact fun _ hmem => List.mem_append_left _ hmem
        · exact List.mem_append_right _ (List.mem_singleton_self _)

theorem foldl_visit {registry : ResourceRegistry} (fails : Nat → Bool)
    (entries : List (Interface × Nat)) {mgr : PluginMgr} (h : mgr.Valid registry) :
    (entries.foldl (PluginMgr.visit registry fails) mgr).Valid registry ∧
      mgr.Grows (entries.foldl (PluginMgr.visit registry fails) mgr) ∧
      ∀ entry ∈ entries, hasResource registry entry.1.resource →
        (entries.foldl (PluginMgr.visit registry fails) mgr).Tried fails entry := by
  induction entries generalizing mgr with
  | nil => exact ⟨h, .refl mgr, by simp⟩
  | cons first entries ih =>
      rcases visit_spec fails h first with ⟨hvalid, hgrows, htried⟩
      rcases ih hvalid with ⟨hvalid', hgrows', htried'⟩
      refine ⟨hvalid', hgrows.trans hgrows', ?_⟩
      intro entry hentry hregistered
      rcases List.mem_cons.mp hentry with rfl | hrest
      · exact hgrows'.tried (htried hregistered)
      · exact htried' entry hrest hregistered

/-! Runs. -/

structure State.Valid (state : State) : Prop where
  builtIn : BuiltIn state.registry
  mgr : state.mgr.Valid state.registry

theorem start_valid : State.start.Valid :=
  ⟨resourceRegistry_builtIn, ⟨by simp [State.start], by simp [State.start],
    by simp [State.start], by simp [State.start]⟩⟩

theorem step_spec {state : State} (h : state.Valid) (update : Update) :
    (step state update).Valid ∧ Extends state.registry (step state update).registry ∧
      ∀ inter index, update.conf.interfaces[index]? = some inter →
        hasResource (step state update).registry inter.resource →
          (step state update).mgr.Tried update.fails (inter, index) := by
  have hregistry := foldl_inheritFrom update.conf.interfaces state.registry
  rcases foldl_visit update.fails update.conf.interfaces.zipIdx (h.mgr.extend hregistry.1) with
    ⟨hvalid, _, htried⟩
  refine ⟨⟨hregistry.2 h.builtIn, hvalid⟩, hregistry.1, ?_⟩
  intro inter index hindex hregistered
  exact htried (inter, index) (List.mem_zipIdx_iff_getElem?.mpr hindex) hregistered

theorem run_valid (updates : List Update) : (final step State.start updates).Valid :=
  final_invariant step State.Valid (fun _ update h => (step_spec h update).1) updates _ start_valid

/-- After every update of any run: entries stay, all constructors are built in,
`runPlugin` is called once for a resource and for registered ones only, and an
interface with a registered resource has its plugin unless all attempts failed, that
of this update included. -/
theorem updates_handled (updates : List Update) (update : Update) :
    let before := final step State.start updates
    let after := step before update
    (∀ resource constructor, before.registry resource = some constructor →
        after.registry resource = some constructor) ∧
      (∀ resource constructor, after.registry resource = some constructor →
        ∃ builtIn ∈ builtIns, resourceRegistry builtIn = some constructor) ∧
      after.mgr.running.Nodup ∧
      (∀ resource ∈ after.mgr.running, hasResource after.registry resource) ∧
      ∀ inter ∈ update.conf.interfaces, hasResource after.registry inter.resource →
        inter.resource ∈ after.mgr.running ∨
          ((inter.resource, false) ∈ after.mgr.attempts ∧
            (∀ attempt ∈ after.mgr.attempts, attempt.1 = inter.resource → attempt.2 = false) ∧
            ∀ index, update.conf.interfaces[index]? = some inter →
              update.fails index = true) := by
  intro before after
  rcases step_spec (run_valid updates) update with ⟨hvalid, hextends, htried⟩
  refine ⟨hextends, hvalid.builtIn, hvalid.mgr.once, hvalid.mgr.registered, ?_⟩
  intro inter hinter hregistered
  by_cases hrunning : inter.resource ∈ after.mgr.running
  · exact .inl hrunning
  · have hfailed (index : Nat) (hindex : update.conf.interfaces[index]? = some inter) :=
      (htried inter index hindex hregistered).resolve_left hrunning
    obtain ⟨index, hindex⟩ := List.mem_iff_getElem?.mp hinter
    refine .inr ⟨(hfailed index hindex).1, ?_, fun index hindex => (hfailed index hindex).2⟩
    rintro ⟨resource, success⟩ hattempt rfl
    cases success with
    | false => rfl
    | true => exact absurd (hvalid.mgr.succeeded _ hattempt) hrunning

end VirtualSfc.Plugin.Registry
