import VirtualSfc.Plugin.Registry

/-! What one event of `registry.syncLoop` registers, against the inheritance that
the parents in the configuration describe. The single pass follows a chain of
parents only where the file lists the ancestors first. -/
namespace VirtualSfc.Plugin.Inheritance
open Base.Inheritance Registry

def entries (interfaces : List Interface) : List (Entry Resource) :=
  interfaces.map fun inter => ⟨inter.resource, inter.parent⟩

/-- The entries that the loop does not skip for want of a parent. -/
def considered (interfaces : List Interface) : List (Entry Resource) :=
  entries (interfaces.filter fun inter => inter.parent ≠ "")

def OneParent (interfaces : List Interface) : Prop :=
  ∀ inter ∈ interfaces, ∀ other ∈ interfaces,
    inter.resource = other.resource → inter.parent = other.parent

theorem registrySync_eq_sweep (registry : ResourceRegistry) (conf : Config) :
    registrySync registry conf = sweep registry (considered conf.interfaces) := by
  unfold registrySync
  induction conf.interfaces generalizing registry with
  | nil => rfl
  | cons inter interfaces ih =>
      rw [List.foldl_cons, ih, inheritFrom_eq_adopt]
      by_cases hparent : inter.parent = ""
      · simp [considered, hparent]
      · simp [considered, entries, sweep, hparent]

theorem considered_subset (interfaces : List Interface) :
    considered interfaces ⊆ entries interfaces :=
  List.map_subset _ (List.filter_subset_self _)

theorem OneParent.unique {interfaces : List Interface} (h : OneParent interfaces) :
    UniqueParents (entries interfaces) := by
  intro entry hentry other hother
  obtain ⟨inter, hinter, rfl⟩ := List.mem_map.mp hentry
  obtain ⟨inter', hinter', rfl⟩ := List.mem_map.mp hother
  exact h inter hinter inter' hinter'

/-- A resource that an event has to register, with its constructor and the
resources that inherit it. -/
abbrev Chain (registry : ResourceRegistry) (conf : Config) :
    List Resource → Resource → Constructor → Prop :=
  Inherits registry (entries conf.interfaces)

theorem registrySync_eq_some {registry : ResourceRegistry} {conf : Config}
    (hparents : OneParent conf.interfaces) (resource : Resource) (constructor : Constructor) :
    registrySync registry conf resource = some constructor ↔
      ∃ path, Chain registry conf path resource constructor ∧
        path.Sublist ((considered conf.interfaces).map Entry.key) := by
  rw [registrySync_eq_sweep]
  exact sweep_eq_some registry hparents.unique _ (considered_subset _) resource constructor

/-- An event registers what the chains of parents say. -/
def Lawful (registry : ResourceRegistry) (conf : Config) : Prop :=
  ∀ resource constructor, registrySync registry conf resource = some constructor ↔
    ∃ path, Chain registry conf path resource constructor

def OrderFree (registry : ResourceRegistry) (conf : Config) : Prop :=
  ∀ other : Config, other.interfaces.Perm conf.interfaces →
    registrySync registry other = registrySync registry conf

def Idempotent (registry : ResourceRegistry) (conf : Config) : Prop :=
  registrySync (registrySync registry conf) conf = registrySync registry conf

/-- The entries of every chain are listed in order, ancestors first, and name a parent. -/
def Ordered (registry : ResourceRegistry) (conf : Config) : Prop :=
  ∀ path resource constructor, Chain registry conf path resource constructor →
    path.Sublist ((considered conf.interfaces).map Entry.key)

def OneLevel (registry : ResourceRegistry) (conf : Config) : Prop :=
  ∀ path resource constructor, Chain registry conf path resource constructor → path.length ≤ 1

variable {registry : ResourceRegistry} {conf : Config}

theorem lawful_iff_ordered (hparents : OneParent conf.interfaces) :
    Lawful registry conf ↔ Ordered registry conf := by
  constructor
  · intro h path resource constructor hchain
    have hregistered := (h resource constructor).mpr ⟨path, hchain⟩
    obtain ⟨path', hchain', hsublist⟩ := (registrySync_eq_some hparents _ _).mp hregistered
    rw [(hchain.functional hparents.unique hchain').1]
    exact hsublist
  · intro h resource constructor
    rw [registrySync_eq_some hparents]
    constructor
    · rintro ⟨path, hchain, _⟩
      exact ⟨path, hchain⟩
    · rintro ⟨path, hchain⟩
      exact ⟨path, hchain, h path resource constructor hchain⟩

theorem Lawful.idempotent (hparents : OneParent conf.interfaces) (h : Lawful registry conf) :
    Idempotent registry conf := by
  funext resource
  apply Option.ext
  intro constructor
  constructor
  · intro hagain
    obtain ⟨path, hchain, _⟩ := (registrySync_eq_some hparents _ _).mp hagain
    apply (h resource constructor).mpr
    apply hchain.flatten (fun key value => (h key value).mp)
    intro key hnone
    rw [registrySync_eq_sweep] at hnone
    exact eq_none_of_sweep hnone
  · intro hregistered
    rw [registrySync_eq_sweep (registrySync registry conf)]
    exact sweep_extends _ _ hregistered

theorem Chain.perm {other : Config} (hperm : other.interfaces.Perm conf.interfaces)
    {path : List Resource} {resource : Resource} {constructor : Constructor}
    (h : Chain registry other path resource constructor) :
    Chain registry conf path resource constructor :=
  Inherits.mono (hperm.map _).subset h

theorem OneParent.perm {other : Config} (hperm : other.interfaces.Perm conf.interfaces)
    (h : OneParent conf.interfaces) : OneParent other.interfaces :=
  fun inter hinter inter' hinter' =>
    h inter (hperm.mem_iff.mp hinter) inter' (hperm.mem_iff.mp hinter')

def promote (conf : Config) (resource : Resource) : Config :=
  { conf with
    interfaces := conf.interfaces.filter (fun inter => inter.resource = resource) ++
      conf.interfaces.filter fun inter => !decide (inter.resource = resource) }

theorem promote_perm (conf : Config) (resource : Resource) :
    (promote conf resource).interfaces.Perm conf.interfaces :=
  List.filter_append_perm _ _

theorem promote_path {resource mid : Resource} {path : List Resource}
    (h : (path ++ [mid, resource]).Sublist
      ((considered (promote conf resource).interfaces).map Entry.key)) : mid = resource := by
  simp only [considered, promote, entries, List.filter_append, List.map_append,
    List.map_map] at h
  obtain ⟨first, rest, hpath, hfirst, hrest⟩ := List.sublist_append_iff.mp h
  have hall : ∀ key ∈ first, key = resource := by
    intro key hkey
    have hmem := hfirst.subset hkey
    simp only [List.mem_map, List.mem_filter, decide_eq_true_eq] at hmem
    obtain ⟨inter, ⟨⟨_, hresource⟩, _⟩, hkey⟩ := hmem
    exact hkey.symm.trans hresource
  have hnone : resource ∉ rest := by
    intro hmem
    have hmem := hrest.subset hmem
    simp only [List.mem_map, List.mem_filter, Bool.not_eq_true', decide_eq_false_iff_not] at hmem
    obtain ⟨inter, ⟨⟨_, hresource⟩, _⟩, hkey⟩ := hmem
    exact hresource hkey
  have hempty : rest = [] := by
    cases hlast : rest.getLast? with
    | none => exact List.getLast?_eq_none_iff.mp hlast
    | some last =>
        have hend : resource = last := by
          simpa [hlast] using congrArg List.getLast? hpath
        exact absurd (hend ▸ List.mem_of_getLast? hlast) hnone
  apply hall mid
  rw [hempty, List.append_nil] at hpath
  simp [← hpath]

theorem OrderFree.oneLevel (hparents : OneParent conf.interfaces) (hlawful : Lawful registry conf)
    (h : OrderFree registry conf) : OneLevel registry conf := by
  intro path resource constructor hchain
  rcases hchain.path_cases with ⟨hpath, _⟩ | ⟨entry, _, path', _, hpath, _, hparent⟩
  · simp [hpath]
  · rcases hparent.path_cases with ⟨hpath', _⟩ | ⟨_, _, path'', _, hpath', _, _⟩
    · simp [hpath, hpath']
    · have hperm := promote_perm conf resource
      have hregistered := (hlawful resource constructor).mpr ⟨path, hchain⟩
      rw [← h _ hperm, registrySync_eq_some (hparents.perm hperm)] at hregistered
      obtain ⟨other, hother, hsublist⟩ := hregistered
      have hsame := (hchain.functional hparents.unique (Chain.perm hperm hother)).1
      rw [← hsame, hpath, hpath', List.append_assoc] at hsublist
      have hmid : entry.parent = resource := promote_path hsublist
      rw [hmid] at hparent
      have hlength := congrArg List.length (hchain.functional hparents.unique hparent).1
      simp [hpath] at hlength

theorem Ordered.orderFree (hparents : OneParent conf.interfaces) (h : Ordered registry conf)
    (hlevel : OneLevel registry conf) : OrderFree registry conf := by
  intro other hperm
  have hother : Ordered registry other := by
    intro path resource constructor hchain
    have hkeys : ((considered other.interfaces).map Entry.key).Perm
        ((considered conf.interfaces).map Entry.key) :=
      ((hperm.filter _).map _).map _
    have hsublist := h path resource constructor (hchain.perm hperm)
    have hlength := hlevel path resource constructor (hchain.perm hperm)
    cases path with
    | nil => exact List.nil_sublist _
    | cons key rest =>
        cases rest with
        | nil =>
            rw [List.singleton_sublist] at hsublist ⊢
            exact hkeys.mem_iff.mpr hsublist
        | cons key' rest => simp at hlength
  have hlawful := (lawful_iff_ordered hparents).mpr h
  have hlawful' := (lawful_iff_ordered (hparents.perm hperm)).mpr hother
  funext resource
  apply Option.ext
  intro constructor
  rw [hlawful' resource constructor, hlawful resource constructor]
  constructor
  · rintro ⟨path, hchain⟩
    exact ⟨path, hchain.perm hperm⟩
  · rintro ⟨path, hchain⟩
    exact ⟨path, hchain.perm hperm.symm⟩

/-- The order in which a file has to list its entries, and the files whose order
does not matter. -/
theorem registrySync_law (registry : ResourceRegistry) (conf : Config)
    (hparents : OneParent conf.interfaces) :
    (Lawful registry conf ∧ Idempotent registry conf ↔ Ordered registry conf) ∧
      (Lawful registry conf ∧ OrderFree registry conf ∧ Idempotent registry conf ↔
        Ordered registry conf ∧ OneLevel registry conf) := by
  have hlaw : Lawful registry conf ↔ Ordered registry conf := lawful_iff_ordered hparents
  constructor
  · constructor
    · intro h
      exact hlaw.mp h.1
    · intro h
      exact ⟨hlaw.mpr h, (hlaw.mpr h).idempotent hparents⟩
  · constructor
    · rintro ⟨hlawful, hfree, _⟩
      exact ⟨hlaw.mp hlawful, hfree.oneLevel hparents hlawful⟩
    · rintro ⟨hordered, hlevel⟩
      have hlawful := hlaw.mpr hordered
      exact ⟨hlawful, hordered.orderFree hparents hlevel, hlawful.idempotent hparents⟩

def forward : Config where
  pluginDir := ""
  interfaces := [⟨"ens1", "child", "mid", 4, ""⟩, ⟨"ens2", "mid", virtualSfc, 4, ""⟩]

theorem forward_oneParent : OneParent forward.interfaces := by
  unfold OneParent
  decide

theorem registrySync_law_forward :
    OneParent forward.interfaces ∧
      (Lawful resourceRegistry forward ∧ Idempotent resourceRegistry forward ↔
        Ordered resourceRegistry forward) ∧
      (Lawful resourceRegistry forward ∧ OrderFree resourceRegistry forward ∧
        Idempotent resourceRegistry forward ↔
          Ordered resourceRegistry forward ∧ OneLevel resourceRegistry forward) :=
  ⟨forward_oneParent, registrySync_law resourceRegistry forward forward_oneParent⟩

def backward : Config := { forward with interfaces := forward.interfaces.reverse }

/-- The parent is registered, the child only by a second event or in another order. -/
theorem registrySync_forward :
    OneParent forward.interfaces ∧
      Chain resourceRegistry forward ["mid", "child"] "child" .newPlugin ∧
      registrySync resourceRegistry forward "child" = none ∧
      registrySync (registrySync resourceRegistry forward) forward "child" = some .newPlugin ∧
      registrySync resourceRegistry backward "child" = some .newPlugin ∧
      ¬ Lawful resourceRegistry forward ∧ ¬ OrderFree resourceRegistry forward ∧
      ¬ Idempotent resourceRegistry forward := by
  have hchain : Chain resourceRegistry forward ["mid", "child"] "child" .newPlugin := by
    have hmid : Chain resourceRegistry forward ["mid"] "mid" .newPlugin :=
      @Inherits.inherit _ _ _ _ ⟨"mid", virtualSfc⟩ [] _ (by simp [entries, forward]) (by decide)
        (.own (by decide))
    exact @Inherits.inherit _ _ _ _ ⟨"child", "mid"⟩ ["mid"] _ (by simp [entries, forward])
      (by decide) hmid
  have hnone : registrySync resourceRegistry forward "child" = none := by decide
  have htwice : registrySync (registrySync resourceRegistry forward) forward "child" =
      some .newPlugin := by decide
  have hbackward : registrySync resourceRegistry backward "child" = some .newPlugin := by decide
  refine ⟨forward_oneParent, hchain, hnone, htwice, hbackward, ?_, ?_, ?_⟩
  · intro h
    simp [(h "child" .newPlugin).mpr ⟨_, hchain⟩] at hnone
  · intro h
    simp [h backward (List.reverse_perm _), hnone] at hbackward
  · intro h
    simp [congrFun h "child", hnone] at htwice

end VirtualSfc.Plugin.Inheritance
