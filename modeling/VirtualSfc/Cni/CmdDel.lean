import VirtualSfc.Base.Run
import VirtualSfc.Cni.Report

/-! `cmdDel`, and the life of one container interface: ADD and DEL in any order,
with faults, an empty namespace argument or a namespace that has disappeared.
`cmdDel` never calls the IPAM plugin, so only a later ADD that fails can give an
allocation back. -/
namespace VirtualSfc.Cni.CmdDel
open Base Netlink CmdAdd Calls Rollback Report

/-- The error and the world afterwards. A missing namespace and a missing link
count as success; `fault` is any other error of entering or deleting. -/
def cmdDel (fault : Option String) (stdinData : Except String NetConf) (args : CmdArgs)
    (world : World) : Option String × World :=
  match loadConf stdinData with
  | .error message => (some message, world)
  | .ok _ =>
      if args.netns = "" then (none, world)
      else
        match world.namespaces args.netns with
        | none => (none, world)
        | some container =>
            match fault with
            | some message => (some message, world)
            | none =>
                match delLinkByName container args.ifName with
                | .error _ => (none, world)
                | .ok container =>
                    (none, { world with
                      namespaces := Function.update world.namespaces args.netns
                        (some container) })

inductive Event where
  | add (env : Env)
  | del (emptyNetns : Bool) (fault : Option String)
  | namespaceGone

/-- The machine, and the allocations that successful ADD calls obtained and that have
been held ever since. -/
structure State where
  world : World
  granted : List Lease

def Event.args (args : CmdArgs) : Event → CmdArgs
  | del true _ => { args with netns := "" }
  | _ => args

def stillHeld (world : World) (leases : List Lease) : List Lease :=
  leases.filter fun lease => lease ∈ world.leases

def step (n : NetConf) (args : CmdArgs) (state : State) (event : Event) : State :=
  match event with
  | .add env =>
      let (value, world) := cmdAdd env (.ok n) args state.world
      ⟨world, stillHeld world
        (state.granted ++ if value.error = none then value.obtained else [])⟩
  | .del _ fault =>
      let world := (cmdDel fault (.ok n) (event.args args) state.world).2
      ⟨world, stillHeld world state.granted⟩
  | .namespaceGone =>
      ⟨{ state.world with namespaces := Function.update state.world.namespaces args.netns none },
        stillHeld state.world state.granted⟩

def DelSucceeds (n : NetConf) (args : CmdArgs) (state : State) : Event → Prop
  | .del emptyNetns fault =>
      (cmdDel fault (.ok n) (Event.args args (.del emptyNetns fault)) state.world).1 = none
  | _ => False

def Unhindered (args : CmdArgs) (world : World) : Event → Prop
  | .del emptyNetns fault =>
      (Event.args args (.del emptyNetns fault)).netns = "" ∨
        world.namespaces args.netns = none ∨ fault = none
  | _ => False

theorem delSucceeds_iff (n : NetConf) (args : CmdArgs) (state : State) (event : Event) :
    DelSucceeds n args state event ↔ Unhindered args state.world event := by
  cases event with
  | add env => rfl
  | namespaceGone => rfl
  | del emptyNetns fault =>
      simp only [DelSucceeds, Unhindered, cmdDel, loadConf]
      by_cases hempty : (Event.args args (.del emptyNetns fault)).netns = ""
      · simp [hempty]
      have hsame : Event.args args (.del emptyNetns fault) = args := by
        cases emptyNetns with
        | true => exact absurd rfl hempty
        | false => rfl
      rw [hsame] at hempty ⊢
      simp only [hempty, if_false, false_or]
      cases state.world.namespaces args.netns with
      | none => simp
      | some container =>
          cases fault with
          | some message => simp
          | none =>
              cases hdelete : delLinkByName container args.ifName with
              | error message => simp [hdelete]
              | ok deleted => simp [hdelete]

def Unlinked (args : CmdArgs) (world : World) : Prop :=
  ∀ netns, world.namespaces args.netns = some netns → netns.links args.ifName = none

def Released (state : State) : Prop := ∀ lease ∈ state.granted, lease ∉ state.world.leases

theorem cmdDel_leases (fault : Option String) (n : NetConf) (args : CmdArgs) (world : World) :
    (cmdDel fault (.ok n) args world).2.leases = world.leases := by
  unfold cmdDel
  simp only [loadConf]
  split
  · rfl
  · split
    · rfl
    · split
      · rfl
      · split
        · rfl
        · rfl

theorem cmdDel_unlinks {fault : Option String} {n : NetConf} {args : CmdArgs} {world : World}
    (hnetns : args.netns ≠ "") (h : (cmdDel fault (.ok n) args world).1 = none) :
    Unlinked args (cmdDel fault (.ok n) args world).2 := by
  unfold cmdDel at h ⊢
  simp only [loadConf, if_neg hnetns] at h ⊢
  intro netns hfound
  split at h
  · rename_i hmissing
    simp only [hmissing] at hfound
    contradiction
  · rename_i container hcontainer
    split at h
    · contradiction
    · unfold delLinkByName at hfound
      cases hlink : container.links args.ifName with
      | none =>
          simp only [hcontainer, hlink] at hfound
          rw [← Option.some.inj hfound]
          exact hlink
      | some link =>
          simp only [hcontainer, hlink, Function.update_self] at hfound
          rw [← Option.some.inj hfound, Netns.set_self]

theorem released_stillHeld (state : State) (world : World)
    (h : world.leases = state.world.leases) :
    Released ⟨world, stillHeld world state.granted⟩ ↔ Released state := by
  simp only [Released, stillHeld, List.mem_filter, decide_eq_true_eq, h]
  refine ⟨fun hall lease hlease hheld => ?_, fun hall lease hlease => ?_⟩
  · exact hall lease ⟨hlease, hheld⟩ hheld
  · exact hall lease hlease.1

theorem del_step_iff {n : NetConf} {args : CmdArgs} {state : State} {event : Event}
    (h : DelSucceeds n args state event) :
    (Unlinked args (step n args state event).world ∧ Released (step n args state event)) ↔
      ((event.args args).netns = "" → Unlinked args state.world) ∧ Released state := by
  cases event with
  | add env => exact h.elim
  | namespaceGone => exact h.elim
  | del emptyNetns fault =>
      have hleases := cmdDel_leases fault n (Event.args args (.del emptyNetns fault)) state.world
      simp only [step]
      rw [released_stillHeld state _ hleases]
      apply and_congr_left
      intro _
      by_cases hempty : (Event.args args (.del emptyNetns fault)).netns = ""
      · simp [cmdDel, loadConf, hempty]
      · refine ⟨fun _ hnetns => absurd hnetns hempty, fun _ => ?_⟩
        have hunlinked := cmdDel_unlinks hempty h
        cases emptyNetns with
        | true => exact absurd rfl hempty
        | false => exact hunlinked

/-! The allocations of a run. -/

/-- What an IPAM plugin is trusted with: an ADD drops nothing that is held and gives
allocations of the interface it is asked for, and a DEL releases all of them. -/
structure Lawful (ipam : IpamPlugin) (n : NetConf) (args : CmdArgs) : Prop where
  add_keeps : ∀ leases, ∀ lease ∈ leases, lease ∈ (ipam.execAdd n args leases).2
  add_own : ∀ leases obtained held, ipam.execAdd n args leases = (.ok obtained, held) →
    ∀ lease ∈ obtained, lease.containerID = args.containerID ∧ lease.ifName = args.ifName
  del_releases : ∀ leases, ∀ lease ∈ ipam.execDel n args leases,
    ¬ (lease.containerID = args.containerID ∧ lease.ifName = args.ifName)

def Grants (n : NetConf) (args : CmdArgs) (world : World) : Event → Prop
  | .add env =>
      (∀ site, firstFailure env n args world = some site → configures site = true) ∧
        keepsAllocation env n args world.leases = true
  | _ => False

/-- The event is an ADD whose IPAM result cannot be converted; it calls `ipam.ExecDel`. -/
def Withdraws (n : NetConf) (args : CmdArgs) (world : World) : Event → Prop
  | .add env => firstFailure env n args world = some .newResultFromResult
  | _ => False

def worldAfter (n : NetConf) (args : CmdArgs) (start : World) (events : List Event) : World :=
  (Run.final (step n args) ⟨start, []⟩ events).world

/-- An ADD has granted an allocation and no ADD has withdrawn it since. -/
inductive Outstanding (n : NetConf) (args : CmdArgs) (start : World) : List Event → Prop
  | granted {events : List Event} {event : Event}
      (hgrants : Grants n args (worldAfter n args start events) event) :
      Outstanding n args start (events ++ [event])
  | kept {events : List Event} {event : Event} (hrest : Outstanding n args start events)
      (hkeeps : ¬ Withdraws n args (worldAfter n args start events) event) :
      Outstanding n args start (events ++ [event])

theorem outstanding_append_iff {n : NetConf} {args : CmdArgs} {start : World}
    {events : List Event} {event : Event} :
    Outstanding n args start (events ++ [event]) ↔
      Grants n args (worldAfter n args start events) event ∨
        Outstanding n args start events ∧
          ¬ Withdraws n args (worldAfter n args start events) event := by
  constructor
  · intro h
    generalize hall : events ++ [event] = all at h
    cases h with
    | granted hgrants =>
        obtain ⟨rfl, hlast⟩ := List.append_inj' hall rfl
        rw [List.singleton_inj.mp hlast]
        exact .inl hgrants
    | kept hrest hkeeps =>
        obtain ⟨rfl, hlast⟩ := List.append_inj' hall rfl
        rw [List.singleton_inj.mp hlast]
        exact .inr ⟨hrest, hkeeps⟩
  · rintro (hgrants | ⟨hrest, hkeeps⟩)
    · exact .granted hgrants
    · exact .kept hrest hkeeps

theorem not_outstanding_nil (n : NetConf) (args : CmdArgs) (start : World) :
    ¬ Outstanding n args start [] := by
  intro h
  generalize hnil : ([] : List Event) = events at h
  cases h with
  | granted _ => simp at hnil
  | kept _ _ => simp at hnil

structure Leases (env : Env) (n : NetConf) (args : CmdArgs) (before : List Lease)
    (value : Return) (after : List Lease) : Prop where
  withdrawn : value.failed = some .newResultFromResult →
    ∃ held, after = env.ipam.execDel n args held
  kept : value.failed ≠ some .newResultFromResult →
    after = before ∨ after = (execAdd env n args before).2
  obtained : value.obtained = [] ∨
    ∃ held, execAdd env n args before = (.ok value.obtained, held)
  reported : value.error = none → ((∃ lease ∈ value.obtained, lease ∈ after) ↔
    keepsAllocation env n args before = true)

theorem leases_unchanged {env : Env} {n : NetConf} {args : CmdArgs} {leases : List Lease}
    {site : Site} (hsite : site ≠ .newResultFromResult) (message : String) :
    Leases env n args leases ⟨some message, none, some site, []⟩ leases where
  withdrawn h := absurd (Option.some.inj h) hsite
  kept _ := .inl rfl
  obtained := .inl rfl
  reported h := by simp at h

theorem unwind_leases (env : Env) (n : NetConf) (args : CmdArgs) (frame : Frame)
    (h : frame.ipamErr = none ∨ .execDel ∉ frame.defers) :
    (frame.unwind env n args).leases = frame.scope.leases := by
  have hfold : ∀ (defers : List Deferred) (scope : Scope),
      (frame.ipamErr = none ∨ .execDel ∉ defers) →
        (defers.foldl (frame.runDeferred env n args) scope).leases = scope.leases := by
    intro defers
    induction defers with
    | nil => exact fun _ _ => rfl
    | cons deferred rest ih =>
        intro scope hdefers
        have hrest : frame.ipamErr = none ∨ .execDel ∉ rest :=
          hdefers.imp_right fun hall hrest => hall (List.mem_cons_of_mem _ hrest)
        rw [List.foldl_cons, ih _ hrest]
        cases deferred with
        | deleteLink =>
            simp only [Frame.runDeferred]
            split
            · rfl
            · rfl
        | execDel =>
            have hnone : frame.ipamErr = none :=
              hdefers.resolve_right fun hall => hall List.mem_cons_self
            simp [Frame.runDeferred, hnone]
  exact hfold frame.defers frame.scope h

theorem createMacvlan_leases {env : Env} {conf : NetConf}
    {ifName parentIfName netns : String} {scope after : Scope}
    {result : Except Failure SolarflareInterface}
    (h : createMacvlan env conf ifName parentIfName netns scope = (result, after)) :
    after.leases = scope.leases := by
  unfold createMacvlan at h
  split at h
  · rw [← (Prod.mk.inj h).2]
  · split at h
    · rw [← (Prod.mk.inj h).2]
    · rename_i mv added hadd
      have hadded := (linkAdd_ok (attempt_ok hadd)).2.2
      split at h
      · rw [← (Prod.mk.inj h).2, hadded]
      · rename_i moved hmove
        have hmoved := (moved_scope (attempt_ok hadd) (attempt_ok hmove)).2
        split at h
        · obtain ⟨host, hdeleted⟩ := linkDel_host _ _ _
          rw [← (Prod.mk.inj h).2, hdeleted, hmoved]
        · rw [← (Prod.mk.inj h).2, hmoved]

theorem createMacvlan_site_ne {env : Env} {n : NetConf} {args : CmdArgs}
    {parentIfName netns : String} {scope after : Scope} {failure : Failure}
    (h : createMacvlan env n args.ifName parentIfName netns scope = (.error failure, after)) :
    failure.site ≠ .newResultFromResult := by
  have hfind := @createMacvlan_failedAt env n args parentIfName scope netns
  rw [h] at hfind
  have hmem := List.mem_of_find?_eq_some hfind.symm
  intro hsite
  simp only [hsite, createCalls, prepareCalls] at hmem
  split at hmem <;> simp at hmem

theorem finishAdd_leases {env : Env} {n : NetConf} {args : CmdArgs} {inter : Interface}
    {ips : List IPConfig} {routes : List Route} {frame : Frame} {value : Return} {after : Scope}
    (hipam : frame.ipamErr = none)
    (h : finishAdd env n args inter ips routes frame = (value, after)) :
    after.leases = frame.scope.leases ∧ value.obtained = frame.obtained ∧
      value.failed ≠ some .newResultFromResult := by
  unfold finishAdd at h
  split at h
  · rename_i failure container hconfigure
    have hsite := (configure_error hconfigure).2
    rw [← (Prod.mk.inj h).1, ← (Prod.mk.inj h).2]
    refine ⟨unwind_leases env n args _ (Or.inl hipam), rfl, fun hfailed => ?_⟩
    have hkept := hsite false
    rw [Option.some.inj hfailed] at hkept
    contradiction
  · split at h
    · rw [← (Prod.mk.inj h).1, ← (Prod.mk.inj h).2]
      exact ⟨unwind_leases env n args _ (Or.inl hipam), rfl, by simp⟩
    · rw [← (Prod.mk.inj h).1, ← (Prod.mk.inj h).2]
      exact ⟨unwind_leases env n args _ (Or.inl hipam), rfl, by simp⟩

theorem addInNetns_leases {env : Env} {n : NetConf} {args : CmdArgs} {parentIfName : String}
    {scope after : Scope} {value : Return}
    (h : addInNetns env n args parentIfName scope = (value, after)) :
    Leases env n args scope.leases value after.leases := by
  cases addInNetns_exit h with
  | createMacvlan hcreate =>
      rw [createMacvlan_leases hcreate]
      exact leases_unchanged (createMacvlan_site_ne hcreate) _
  | getAddrsFromInterface message hcreate =>
      rw [unwind_leases env n args _ (Or.inl rfl), Frame.start, createMacvlan_leases hcreate]
      exact leases_unchanged (by simp) _
  | execIPAM hcreate hipam =>
      have hcreated := createMacvlan_leases hcreate
      rcases execIPAM_error hipam with
        ⟨hsite, leases, hexec, rfl⟩ | ⟨hsite, obtained, leases, hexec, rfl⟩
      · simp only [Frame.start, hcreated] at hexec
        rw [unwind_leases env n args _ (Or.inr (by simp [Frame.start]))]
        refine ⟨?_, fun _ => .inr (by rw [hexec]), .inl rfl, ?_⟩
        · simp [hsite]
        · simp
      · simp only [Frame.start, hcreated] at hexec
        refine ⟨fun _ => ⟨leases, ?_⟩, ?_, .inr ⟨leases, hexec⟩, ?_⟩
        · simp [Frame.unwind, Frame.runDeferred, Frame.start]
        · simp [hsite]
        · simp
  | finishAdd hcreate _ hipam hfinish =>
      have hcreated := createMacvlan_leases hcreate
      cases execIPAM_ok hipam with
      | inl hnone =>
          rw [hnone.2] at hfinish
          obtain ⟨hleases, hobtained, hfailed⟩ := finishAdd_leases rfl hfinish
          simp only [Frame.start, hcreated] at hleases hobtained
          refine ⟨fun h => absurd h hfailed, fun _ => .inl hleases, .inl hobtained, fun _ => ?_⟩
          simp [hobtained, keepsAllocation, hnone.1]
      | inr hsome =>
          rcases hsome with ⟨htype, obtained, leases, hexec, hframe⟩
          rw [hframe] at hfinish
          obtain ⟨hleases, hobtained, hfailed⟩ := finishAdd_leases rfl hfinish
          simp only [Frame.start, hcreated] at hexec hleases hobtained
          refine ⟨fun h => absurd h hfailed, fun _ => .inr ?_, .inr ⟨leases, ?_⟩, fun _ => ?_⟩
          · rw [hleases, hexec]
          · rw [hobtained, hexec]
          · simp [hobtained, hleases, keepsAllocation, htype, hexec]

theorem cmdAdd_leases (env : Env) (n : NetConf) (args : CmdArgs) (world : World) :
    Leases env n args world.leases (cmdAdd env (.ok n) args world).1
      (cmdAdd env (.ok n) args world).2.leases := by
  unfold cmdAdd
  simp only [loadConf]
  split
  · exact leases_unchanged (by simp) _
  · split
    · exact leases_unchanged (by simp) _
    · rename_i parentIfName _ _ container _
      cases hadd : addInNetns env n args parentIfName (world.scope container) with
      | mk value scope => exact addInNetns_leases hadd

section Lawful

variable {env : Env} {n : NetConf} {args : CmdArgs} {before after : List Lease} {value : Return}

theorem Leases.keeps (h : Leases env n args before value after) (hipam : Lawful env.ipam n args)
    (hfailed : value.failed ≠ some .newResultFromResult) : ∀ lease ∈ before, lease ∈ after := by
  intro lease hlease
  rcases h.kept hfailed with hsame | hadded
  · rwa [hsame]
  · rw [hadded]
    unfold execAdd
    split
    · exact hlease
    · exact hipam.add_keeps before lease hlease

theorem Leases.own (h : Leases env n args before value after) (hipam : Lawful env.ipam n args) :
    ∀ lease ∈ value.obtained,
      lease.containerID = args.containerID ∧ lease.ifName = args.ifName := by
  rcases h.obtained with hnone | ⟨held, hexec⟩
  · simp [hnone]
  · unfold execAdd at hexec
    split at hexec
    · simp at hexec
    · exact hipam.add_own before _ held hexec

theorem Leases.releases (h : Leases env n args before value after)
    (hipam : Lawful env.ipam n args) (hfailed : value.failed = some .newResultFromResult) :
    ∀ lease ∈ after, ¬ (lease.containerID = args.containerID ∧ lease.ifName = args.ifName) := by
  obtain ⟨held, hafter⟩ := h.withdrawn hfailed
  rw [hafter]
  exact hipam.del_releases held

end Lawful

structure Tidy (args : CmdArgs) (state : State) : Prop where
  own : ∀ lease ∈ state.granted,
    lease.containerID = args.containerID ∧ lease.ifName = args.ifName
  held : ∀ lease ∈ state.granted, lease ∈ state.world.leases

theorem Tidy.released_iff {args : CmdArgs} {state : State} (h : Tidy args state) :
    Released state ↔ ¬ ∃ lease, lease ∈ state.granted := by
  rw [not_exists]
  exact ⟨fun hall lease hlease => hall lease hlease (h.held lease hlease),
    fun hnone lease hlease => absurd hlease (hnone lease)⟩

theorem mem_stillHeld {world : World} {leases : List Lease} {lease : Lease} :
    lease ∈ stillHeld world leases ↔ lease ∈ leases ∧ lease ∈ world.leases := by
  simp [stillHeld]

def Event.Lawful (n : NetConf) (args : CmdArgs) : Event → Prop
  | .add env => CmdDel.Lawful env.ipam n args
  | _ => True

theorem grants_iff (env : Env) (n : NetConf) (args : CmdArgs) (world : World) :
    Grants n args world (.add env) ↔ (cmdAdd env (.ok n) args world).1.error = none ∧
      ∃ lease ∈ (cmdAdd env (.ok n) args world).1.obtained,
        lease ∈ (cmdAdd env (.ok n) args world).2.leases := by
  rw [Grants, ← cmdAdd_failed_eq, ← (cmdAdd_reports env (.ok n) args world).error]
  exact and_congr_right fun hnil =>
    ((cmdAdd_leases env n args world).reported hnil).symm

theorem Tidy.frame {args : CmdArgs} {state : State} (h : Tidy args state) {world : World}
    (hleases : world.leases = state.world.leases) :
    Tidy args ⟨world, stillHeld world state.granted⟩ ∧
      ((∃ lease, lease ∈ stillHeld world state.granted) ↔ ∃ lease, lease ∈ state.granted) := by
  have hmem (lease : Lease) : lease ∈ stillHeld world state.granted ↔ lease ∈ state.granted := by
    rw [mem_stillHeld, hleases]
    exact and_iff_left_of_imp (h.held lease)
  refine ⟨⟨fun lease hlease => h.own lease ((hmem lease).mp hlease), fun lease hlease => ?_⟩, ?_⟩
  · exact (mem_stillHeld.mp hlease).2
  · simp only [hmem]

theorem mem_granted_add (env : Env) (n : NetConf) (args : CmdArgs) (state : State)
    (lease : Lease) :
    lease ∈ (step n args state (.add env)).granted ↔
      (lease ∈ state.granted ∨ (cmdAdd env (.ok n) args state.world).1.error = none ∧
        lease ∈ (cmdAdd env (.ok n) args state.world).1.obtained) ∧
      lease ∈ (cmdAdd env (.ok n) args state.world).2.leases := by
  simp only [step, mem_stillHeld, List.mem_append]
  split
  · rename_i hnil
    simp [hnil]
  · rename_i hnil
    simp [hnil]

theorem add_granted {env : Env} (n : NetConf) (args : CmdArgs) {state : State}
    (hlawful : Lawful env.ipam n args) (h : Tidy args state) :
    Tidy args (step n args state (.add env)) ∧
      ((∃ lease, lease ∈ (step n args state (.add env)).granted) ↔
        Grants n args state.world (.add env) ∨
          (∃ lease, lease ∈ state.granted) ∧ ¬ Withdraws n args state.world (.add env)) := by
  have hleases := cmdAdd_leases env n args state.world
  have hwithdraws : Withdraws n args state.world (.add env) ↔
      (cmdAdd env (.ok n) args state.world).1.failed = some .newResultFromResult := by
    rw [cmdAdd_failed_eq]
    rfl
  have hmem := mem_granted_add env n args state
  refine ⟨⟨fun lease hlease => ?_, fun lease hlease => ((hmem lease).mp hlease).2⟩, ?_⟩
  · rcases ((hmem lease).mp hlease).1 with hold | hnew
    · exact h.own lease hold
    · exact hleases.own hlawful lease hnew.2
  · rw [grants_iff, hwithdraws]
    constructor
    · rintro ⟨lease, hlease⟩
      obtain ⟨hold | hnew, hheld⟩ := (hmem lease).mp hlease
      · refine .inr ⟨⟨lease, hold⟩, fun hfailed => ?_⟩
        exact hleases.releases hlawful hfailed lease hheld (h.own lease hold)
      · exact .inl ⟨hnew.1, lease, hnew.2, hheld⟩
    · rintro (⟨hnil, lease, hnew, hheld⟩ | ⟨⟨lease, hold⟩, hfailed⟩)
      · exact ⟨lease, (hmem lease).mpr ⟨.inr ⟨hnil, hnew⟩, hheld⟩⟩
      · have hkept := hleases.keeps hlawful hfailed lease (h.held lease hold)
        exact ⟨lease, (hmem lease).mpr ⟨.inl hold, hkept⟩⟩

theorem step_granted (n : NetConf) (args : CmdArgs) {state : State} {event : Event}
    (hevent : event.Lawful n args) (h : Tidy args state) :
    Tidy args (step n args state event) ∧
      ((∃ lease, lease ∈ (step n args state event).granted) ↔
        Grants n args state.world event ∨
          (∃ lease, lease ∈ state.granted) ∧ ¬ Withdraws n args state.world event) := by
  cases event with
  | add env => exact add_granted n args hevent h
  | del emptyNetns fault =>
      simp only [Grants, Withdraws, false_or, not_false_eq_true, and_true]
      exact h.frame (cmdDel_leases fault n (Event.args args (.del emptyNetns fault)) state.world)
  | namespaceGone =>
      simp only [Grants, Withdraws, false_or, not_false_eq_true, and_true]
      exact h.frame (show World.leases { state.world with
        namespaces := Function.update state.world.namespaces args.netns none } = _ from rfl)

theorem run_released_iff (n : NetConf) (args : CmdArgs) (start : World) (events : List Event)
    (hevents : ∀ event ∈ events, event.Lawful n args) :
    Tidy args (Run.final (step n args) ⟨start, []⟩ events) ∧
      ((∃ lease, lease ∈ (Run.final (step n args) ⟨start, []⟩ events).granted) ↔
        Outstanding n args start events) := by
  induction events using List.reverseRecOn with
  | nil =>
      refine ⟨⟨by simp [Run.final], by simp [Run.final]⟩, ?_⟩
      simp [Run.final, not_outstanding_nil]
  | append_singleton before event ih =>
      rw [List.forall_mem_append, List.forall_mem_singleton] at hevents
      obtain ⟨htidy, hgranted⟩ := ih hevents.1
      have hfinal : Run.final (step n args) ⟨start, []⟩ (before ++ [event]) =
          step n args (Run.final (step n args) ⟨start, []⟩ before) event := by
        rw [Run.final, List.foldl_append]
        rfl
      rw [hfinal, outstanding_append_iff, ← hgranted]
      exact step_granted n args hevents.2 htidy

/-- In a run of commands for one interface, every DEL that returns nil has removed the
interface and left no allocation of a successful ADD exactly when none is outstanding at
any DEL that nothing hinders, and no interface is there if its namespace argument is empty. -/
theorem lifecycle_iff (n : NetConf) (args : CmdArgs) (start : World) (events : List Event)
    (hipam : ∀ event ∈ events, event.Lawful n args) :
    (∀ move ∈ Run.moves (step n args) ⟨start, []⟩ events, DelSucceeds n args move.1 move.2 →
      Unlinked args (step n args move.1 move.2).world ∧
        Released (step n args move.1 move.2)) ↔
    ∀ before event after, events = before ++ event :: after →
      Unhindered args (worldAfter n args start before) event →
        ((event.args args).netns = "" → Unlinked args (worldAfter n args start before)) ∧
          ¬ Outstanding n args start before := by
  rw [Run.moves_forall_iff (step n args) fun state event => DelSucceeds n args state event →
    Unlinked args (step n args state event).world ∧ Released (step n args state event)]
  refine forall₃_congr fun before event after => forall_congr' fun hevents => ?_
  have hbefore : ∀ event ∈ before, event.Lawful n args := by
    intro other hother
    apply hipam
    rw [hevents]
    exact List.mem_append_left _ hother
  obtain ⟨htidy, houtstanding⟩ := run_released_iff n args start before hbefore
  rw [← houtstanding, ← htidy.released_iff, delSucceeds_iff]
  refine forall_congr' fun hdel => ?_
  exact del_step_iff ((delSucceeds_iff n args _ _).mpr hdel)

theorem oneAddress_lawful (n : NetConf) (args : CmdArgs) : Lawful oneAddress n args where
  add_keeps leases lease hlease := by
    simp only [oneAddress]
    split
    · rename_i hnone
      rw [hnone] at hlease
      contradiction
    · exact hlease
  add_own leases obtained held h := by
    simp only [oneAddress] at h
    split at h
    · cases h
      simp
    · simp at h
  del_releases leases lease hlease := by
    simp only [oneAddress, List.mem_filter, decide_eq_true_eq] at hlease
    exact hlease.2

def noAllocation : IpamPlugin := ⟨fun _ _ leases => (.ok [], leases), fun _ _ _ => []⟩

theorem noAllocation_lawful (n : NetConf) (args : CmdArgs) : Lawful noAllocation n args :=
  ⟨fun _ _ h => h, fun _ _ _ h => by cases h; simp, by simp [noAllocation]⟩

theorem lifecycle_static :
    let added := step hostLocal net1OfC1 ⟨oneContainer, []⟩
      (.add { oneDevice noFault with ipam := noAllocation })
    DelSucceeds hostLocal net1OfC1 added (.del false none) ∧
      Unlinked net1OfC1 (step hostLocal net1OfC1 added (.del false none)).world ∧
      Released (step hostLocal net1OfC1 added (.del false none)) := by
  intro added
  have hdel : DelSucceeds hostLocal net1OfC1 added (.del false none) := by
    unfold DelSucceeds
    decide +kernel
  refine ⟨hdel, (lifecycle_iff hostLocal net1OfC1 oneContainer
    [.add { oneDevice noFault with ipam := noAllocation }, .del false none] ?_).mpr ?_
    (added, .del false none) (List.mem_cons_of_mem _ List.mem_cons_self) hdel⟩
  · simp [Event.Lawful, noAllocation_lawful]
  · intro before event after hevents hdel
    rcases before with _ | ⟨first, _ | ⟨second, rest⟩⟩
    · rw [List.nil_append, List.cons.injEq] at hevents
      rw [← hevents.1] at hdel
      exact hdel.elim
    · simp only [List.cons_append, List.nil_append, List.cons.injEq] at hevents
      rw [← hevents.1, ← hevents.2.1]
      refine ⟨fun hempty => absurd hempty (by decide), fun h => ?_⟩
      rw [← List.nil_append [_], outstanding_append_iff] at h
      rcases h with hgrants | hrest
      · exact absurd hgrants.2 (by decide)
      · exact not_outstanding_nil _ _ _ hrest.1
    · simp at hevents

def addThenDel : List Event := [.add (oneDevice noFault), .del false none]

theorem lifecycle_fails_add_del :
    ¬ ∀ move ∈ Run.moves (step hostLocal net1OfC1) ⟨oneContainer, []⟩ addThenDel,
      DelSucceeds hostLocal net1OfC1 move.1 move.2 →
        Unlinked net1OfC1 (step hostLocal net1OfC1 move.1 move.2).world ∧
          Released (step hostLocal net1OfC1 move.1 move.2) := by
  intro hall
  have hmoves : (step hostLocal net1OfC1 ⟨oneContainer, []⟩ (.add (oneDevice noFault)),
      Event.del false none) ∈
        Run.moves (step hostLocal net1OfC1) ⟨oneContainer, []⟩ addThenDel :=
    List.mem_cons_of_mem _ List.mem_cons_self
  have hdel : DelSucceeds hostLocal net1OfC1
      (step hostLocal net1OfC1 ⟨oneContainer, []⟩ (.add (oneDevice noFault)))
      (.del false none) := by
    unfold DelSucceeds
    decide +kernel
  have hreleased := ((del_step_iff hdel).mp (hall _ hmoves hdel)).2
  have hgranted : (⟨"c1", "net1", "10.1.0.7/24"⟩ : Lease) ∈
      (step hostLocal net1OfC1 ⟨oneContainer, []⟩ (.add (oneDevice noFault))).granted := by
    decide +kernel
  apply hreleased _ hgranted
  decide +kernel

end VirtualSfc.Cni.CmdDel
