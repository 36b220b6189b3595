import VirtualSfc.Base.Text

/-! The kernel objects the CNI plugin works on: links and routes of network
namespaces. An operation fails when its precondition fails; faults of the
environment are added by the callers. -/
namespace VirtualSfc.Cni.Netlink
open Base.Text (quote)

/-- `modeDefault` is the zero value, which no name stands for. -/
inductive MacvlanMode where
  | modeDefault
  | modeBridge
  | modePrivate
  | modeVepa
  | modePassthru
deriving DecidableEq, Repr

def modeFromString (s : String) : Except String MacvlanMode :=
  if s = "" ∨ s = "bridge" then .ok .modeBridge
  else if s = "private" then .ok .modePrivate
  else if s = "vepa" then .ok .modeVepa
  else if s = "passthru" then .ok .modePassthru
  else .error ("unknown macvlan mode: " ++ quote s)

def modeToString : MacvlanMode → Except String String
  | .modeDefault => .error "unknown macvlan mode: '\\x00'"
  | .modeBridge => .ok "bridge"
  | .modePrivate => .ok "private"
  | .modeVepa => .ok "vepa"
  | .modePassthru => .ok "passthru"

inductive IP where
  | v4 (address : BitVec 32)
  | v6 (address : BitVec 128)
deriving DecidableEq, Repr

/-- An IPv6 address can hold an IPv4 address, as in `::ffff:192.168.1.5`. -/
def IP.to4 : IP → Option (BitVec 32)
  | v4 address => some address
  | v6 address =>
      if address.extractLsb' 32 96 = 0xffff#96 then some (address.extractLsb' 0 32) else none

def IP.isV4 (ip : IP) : Bool := ip.to4.isSome

def IP.isLoopback (ip : IP) : Bool :=
  match ip.to4 with
  | some address => address.extractLsb' 24 8 == 127#8
  | none => ip == v6 1#128

example : (IP.v6 0xffff7f000001#128).isV4 ∧ (IP.v6 0xffff7f000001#128).isLoopback := by decide

structure IPNet where
  ip : IP
  ones : Nat
deriving DecidableEq, Repr

/-- The form in which the kernel keeps an address, by its family. -/
def IPNet.inFamily (addr : IPNet) : IPNet :=
  match addr.ip.to4 with
  | some address => ⟨.v4 address, addr.ones⟩
  | none => addr

structure Route where
  dst : IPNet
  gw : Option IP
deriving DecidableEq, Repr

structure Link where
  index : Nat
  parentIndex : Nat
  mtu : Int
  hardwareAddr : String
  macvlan : Option MacvlanMode
  addrs : List IPNet
  up : Bool
deriving DecidableEq, Repr

structure Netns where
  links : String → Option Link
  routes : List Route

def Netns.set (netns : Netns) (name : String) (link : Option Link) : Netns :=
  { netns with links := Function.update netns.links name link }

@[simp] theorem Netns.set_self (netns : Netns) (name : String) (link : Option Link) :
    (netns.set name link).links name = link := by
  simp [set]

theorem Netns.set_other (netns : Netns) {name other : String} (h : other ≠ name)
    (link : Option Link) : (netns.set name link).links other = netns.links other := by
  simp [set, h]

theorem Netns.set_set (netns : Netns) (name : String) (first second : Option Link) :
    (netns.set name first).set name second = netns.set name second := by
  simp [set]

theorem Netns.set_eq_self {netns : Netns} {name : String} {link : Option Link}
    (h : netns.links name = link) : netns.set name link = netns := by
  simp [set, ← h]

def linkByName (netns : Netns) (name : String) : Except String Link :=
  match netns.links name with
  | none => .error "Link not found"
  | some link => .ok link

theorem linkByName_ok {netns : Netns} {name : String} {link : Link}
    (h : linkByName netns name = .ok link) : netns.links name = some link := by
  unfold linkByName at h
  split at h
  · contradiction
  · rename_i found hfound
    rw [hfound, Except.ok.inj h]

/-- Whoever deletes a link twice is told that it does not exist. -/
def delLinkByName (netns : Netns) (name : String) : Except String Netns :=
  match netns.links name with
  | none => .error "Link not found"
  | some _ => .ok (netns.set name none)

def renameLink (netns : Netns) (name newName : String) : Except String Netns :=
  match netns.links name with
  | none => .error "Link not found"
  | some link =>
      if newName ≠ name ∧ (netns.links newName).isSome then .error "file exists"
      else .ok ((netns.set name none).set newName (some link))

theorem renameLink_ok {netns after : Netns} {name newName : String} {link : Link}
    (hname : netns.links name = none)
    (h : renameLink (netns.set name (some link)) name newName = .ok after) :
    netns.links newName = none ∧ after = netns.set newName (some link) := by
  unfold renameLink at h
  rw [Netns.set_self] at h
  simp only at h
  split at h
  · contradiction
  · rename_i hfree
    rw [Netns.set_set, Netns.set_eq_self hname] at h
    refine ⟨?_, (Except.ok.inj h).symm⟩
    by_cases hsame : newName = name
    · rw [hsame, hname]
    · rw [Netns.set_other netns hsame] at hfree
      simpa [hsame] using hfree

def addrAdd (netns : Netns) (name : String) (addr : IPNet) : Except String Netns :=
  match netns.links name with
  | none => .error "no such device"
  | some link =>
      if addr.ip.isV4 ∧ 32 < addr.ones then .error "invalid argument"
      else if addr.inFamily ∈ link.addrs then .error "file exists"
      else .ok (netns.set name (some { link with addrs := link.addrs ++ [addr.inFamily] }))

theorem addrAdd_ok {netns after : Netns} {name : String} {addr : IPNet}
    (h : addrAdd netns name addr = .ok after) :
    ∃ link, netns.links name = some link ∧
      after = netns.set name (some { link with addrs := link.addrs ++ [addr.inFamily] }) := by
  unfold addrAdd at h
  split at h
  · contradiction
  · rename_i link hlink
    split at h
    · contradiction
    · split at h
      · contradiction
      · exact ⟨link, hlink, (Except.ok.inj h).symm⟩

def linkSetUp (netns : Netns) (name : String) : Except String Netns :=
  match netns.links name with
  | none => .error "no such device"
  | some link => .ok (netns.set name (some { link with up := true }))

theorem linkSetUp_ok {netns after : Netns} {name : String}
    (h : linkSetUp netns name = .ok after) :
    ∃ link, netns.links name = some link ∧
      after = netns.set name (some { link with up := true }) := by
  unfold linkSetUp at h
  split at h
  · contradiction
  · rename_i link hlink
    exact ⟨link, hlink, (Except.ok.inj h).symm⟩

/-- A call that fails if the environment says so, and otherwise gives its result. -/
def attempt (faults : Site → Option String) (site : Site) (result : Except String α) :
    Except String α :=
  match faults site with
  | some message => .error message
  | none => result

theorem attempt_ok {faults : Site → Option String} {site : Site} {result : Except String α}
    {value : α} (h : attempt faults site result = .ok value) : result = .ok value := by
  unfold attempt at h
  split at h
  · contradiction
  · exact h

structure Lease where
  containerID : String
  ifName : String
  address : String
deriving DecidableEq, Repr

/-- What a plugin process sees while it has a container namespace open. -/
structure Scope where
  host : Netns
  container : Netns
  leases : List Lease
  nextIndex : Nat

def Scope.linkAdd (scope : Scope) (name : String) (link : Link) : Except String (Link × Scope) :=
  if (scope.host.links name).isSome then .error "file exists"
  else
    let link := { link with index := scope.nextIndex }
    .ok (link, { scope with
      host := scope.host.set name (some link), nextIndex := scope.nextIndex + 1 })

theorem linkAdd_ok {scope after : Scope} {name : String} {link mv : Link}
    (h : scope.linkAdd name link = .ok (mv, after)) :
    scope.host.links name = none ∧ mv = { link with index := scope.nextIndex } ∧
      after = { scope with
        host := scope.host.set name (some mv), nextIndex := scope.nextIndex + 1 } := by
  unfold Scope.linkAdd at h
  split at h
  · contradiction
  · rename_i hname
    have hpair := Prod.mk.inj (Except.ok.inj h)
    refine ⟨by simpa using hname, hpair.1.symm, ?_⟩
    rw [← hpair.1, ← hpair.2]

def Scope.linkSetNsFd (scope : Scope) (name : String) : Except String Scope :=
  match scope.host.links name with
  | none => .error "no such device"
  | some link =>
      if (scope.container.links name).isSome then .error "file exists"
      else .ok { scope with
        host := scope.host.set name none
        container := scope.container.set name (some link) }

theorem linkSetNsFd_ok {scope after : Scope} {name : String}
    (h : scope.linkSetNsFd name = .ok after) :
    scope.container.links name = none ∧ ∃ link, scope.host.links name = some link ∧
      after = { scope with
        host := scope.host.set name none
        container := scope.container.set name (some link) } := by
  unfold Scope.linkSetNsFd at h
  split at h
  · contradiction
  · rename_i link hlink
    split at h
    · contradiction
    · rename_i hname
      exact ⟨by simpa using hname, link, hlink, (Except.ok.inj h).symm⟩

theorem moved_scope {scope added moved : Scope} {name : String} {link mv : Link}
    (hadd : scope.linkAdd name link = .ok (mv, added))
    (hmove : added.linkSetNsFd name = .ok moved) :
    scope.container.links name = none ∧ moved = { scope with
      container := scope.container.set name (some mv), nextIndex := scope.nextIndex + 1 } := by
  rcases linkAdd_ok hadd with ⟨hname, _, hadded⟩
  rcases linkSetNsFd_ok hmove with ⟨hfree, found, hfound, hmoved⟩
  rw [hadded] at hfree hfound hmoved
  rw [Netns.set_self] at hfound
  refine ⟨hfree, ?_⟩
  rw [hmoved, ← Option.some.inj hfound, Netns.set_set, Netns.set_eq_self hname]

def Scope.linkDel (scope : Scope) (name : String) (index : Nat) : Scope :=
  match scope.host.links name with
  | none => scope
  | some link =>
      if link.index = index then { scope with host := scope.host.set name none } else scope

theorem linkDel_host (scope : Scope) (name : String) (index : Nat) :
    ∃ host, scope.linkDel name index = { scope with host := host } := by
  unfold Scope.linkDel
  split
  · exact ⟨_, rfl⟩
  · split
    · exact ⟨_, rfl⟩
    · exact ⟨_, rfl⟩

end VirtualSfc.Cni.Netlink
