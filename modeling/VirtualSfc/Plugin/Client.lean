import Mathlib.Data.Finmap
import VirtualSfc.Base.Optimistic
import VirtualSfc.Plugin.Types

/-! `ClientInfo` and the API server behind it. The server keeps every object
under its own namespace and name and refuses stale updates; the network may lose
a reply or a request. Fields of a net-attach-def that neither plugin reads are
left out. -/
namespace VirtualSfc.Plugin.Client
open Base.Optimistic

abbrev Annotations := Finmap fun _ : String => String

/-- `ObjectMeta` of a net-attach-def. A nil annotation map is `none`. -/
structure NetAttachDef where
  space : String
  name : String
  annotations : Option Annotations
deriving DecidableEq

/-- `nad.Annotations[key]`, which also reads from a nil map. -/
def NetAttachDef.annotation? (nad : NetAttachDef) (key : String) : Option String :=
  nad.annotations.bind fun annotations => annotations.lookup key

/-- `nad.Annotations[key] = value`, which panics on a nil map. -/
def NetAttachDef.annotate (nad : NetAttachDef) (key value : String) :
    Except Fault NetAttachDef :=
  match nad.annotations with
  | none => .error (.panic "assignment to entry in nil map")
  | some annotations => .ok { nad with annotations := some (annotations.insert key value) }

def NetAttachDef.key (nad : NetAttachDef) : String × String := (nad.space, nad.name)

theorem NetAttachDef.annotate_key {nad next : NetAttachDef} {key value : String}
    (h : nad.annotate key value = .ok next) : next.key = nad.key := by
  unfold annotate at h
  split at h
  · contradiction
  · rw [← Except.ok.inj h]
    rfl

theorem NetAttachDef.annotation?_annotate {nad next : NetAttachDef} {key value : String}
    (h : nad.annotate key value = .ok next) (other : String) :
    next.annotation? other = if other = key then some value else nad.annotation? other := by
  unfold annotate at h
  split at h
  · contradiction
  · rename_i annotations hannotations
    rw [← Except.ok.inj h]
    by_cases hkey : other = key
    · subst hkey
      simp [annotation?]
    · simp [annotation?, hkey, hannotations, Finmap.lookup_insert_of_ne]

/-- Stored objects, each under the key its own metadata names. -/
structure Store where
  objects : Finmap fun _ : String × String => Versioned NetAttachDef
  keyed : ∀ key nad, objects.lookup key = some nad → nad.object.key = key

def Store.empty : Store where
  objects := ∅
  keyed := by
    intro key nad h
    simp at h

def Store.put (store : Store) (nad : Versioned NetAttachDef) : Store where
  objects := store.objects.insert nad.object.key nad
  keyed := by
    intro key found h
    by_cases hkey : key = nad.object.key
    · rw [hkey, Finmap.lookup_insert] at h
      rw [← Option.some.inj h, hkey]
    · rw [Finmap.lookup_insert_of_ne _ hkey] at h
      exact store.keyed key found h

def Store.get? (store : Store) (space name : String) : Option (Versioned NetAttachDef) :=
  store.objects.lookup (space, name)

theorem Store.get?_put (store : Store) (nad : Versioned NetAttachDef) (space name : String) :
    (store.put nad).get? space name =
      if (space, name) = nad.object.key then some nad else store.get? space name := by
  unfold get? put
  split
  · rename_i hkey
    rw [hkey, Finmap.lookup_insert]
  · rename_i hkey
    rw [Finmap.lookup_insert_of_ne _ hkey]

def Store.update (store : Store) (nad : Versioned NetAttachDef) :
    Except Fault (Versioned NetAttachDef × Store) :=
  match store.get? nad.object.space nad.object.name with
  | none => .error (.error "not found")
  | some current =>
      match replace? current nad with
      | none => .error (.error "the object has been modified")
      | some next => .ok (next, store.put next)

/-- The server's answer to a creation: it refuses, or stores the object under its
own namespace and name unless there is one. -/
def Store.create (store : Store) (answer : Except String Nat) (nad : NetAttachDef) :
    Except Fault (Versioned NetAttachDef × Store) :=
  match answer with
  | .error message => .error (.error message)
  | .ok version =>
      match store.get? nad.space nad.name with
      | some _ => .error (.error "already exists")
      | none => .ok (⟨version, nad⟩, store.put ⟨version, nad⟩)

def Store.delete (store : Store) (space name : String) : Store where
  objects := store.objects.erase (space, name)
  keyed := by
    intro key nad h
    by_cases hkey : key = (space, name)
    · rw [hkey, Finmap.lookup_erase] at h
      contradiction
    · rw [Finmap.lookup_erase_ne hkey] at h
      exact store.keyed key nad h

theorem Store.get?_delete (store : Store) (space name space' name' : String) :
    (store.delete space name).get? space' name' =
      if (space', name') = (space, name) then none else store.get? space' name' := by
  unfold get? delete
  split
  · rename_i hkey
    rw [hkey, Finmap.lookup_erase]
  · rename_i hkey
    rw [Finmap.lookup_erase_ne hkey]

theorem Store.create_get? {store after : Store} {answer : Except String Nat}
    {nad : NetAttachDef} {stored : Versioned NetAttachDef}
    (h : store.create answer nad = .ok (stored, after)) (space name : String) :
    after.get? space name =
      if (space, name) = nad.key then some stored else store.get? space name := by
  unfold create at h
  split at h
  · contradiction
  · split at h
    · contradiction
    · have hpair := Prod.mk.inj (Except.ok.inj h)
      rw [← hpair.1, ← hpair.2, get?_put]

/-- A client: the server it talks to, and what the network will do with its
next requests. Requests past the end of the list are answered. -/
structure ClientInfo where
  store : Store
  network : List Delivery

def ClientInfo.advance (client : ClientInfo) : ClientInfo :=
  { client with network := client.network.tail }

@[simp] theorem ClientInfo.advance_store (client : ClientInfo) :
    client.advance.store = client.store := rfl

def ClientInfo.delivery (client : ClientInfo) : Delivery :=
  client.network.headD .answered

def ClientInfo.getNetAttachDef (client : ClientInfo) (space name : String) :
    Except Fault (Versioned NetAttachDef) × ClientInfo :=
  match client.delivery with
  | .answered =>
      match client.store.get? space name with
      | none => (.error (.error "not found"), client.advance)
      | some nad => (.ok nad, client.advance)
  | _ => (.error (.error "request failed"), client.advance)

def ClientInfo.getDefaultNetAttachDef (client : ClientInfo) (name : String) :
    Except Fault (Versioned NetAttachDef) × ClientInfo :=
  client.getNetAttachDef "default" name

def ClientInfo.updateNetAttachDef (client : ClientInfo) (nad : Versioned NetAttachDef) :
    Except Fault (Versioned NetAttachDef) × ClientInfo :=
  match client.delivery, client.store.update nad with
  | .unreachable, _ => (.error (.error "request failed"), client.advance)
  | _, .error fault => (.error fault, client.advance)
  | .replyLost, .ok (_, store) =>
      (.error (.error "request failed"), { client.advance with store := store })
  | .answered, .ok (next, store) => (.ok next, { client.advance with store := store })

def ClientInfo.addNetAttachDef (client : ClientInfo) (answer : Except String Nat)
    (nad : NetAttachDef) : Except Fault (Versioned NetAttachDef) × ClientInfo :=
  match client.delivery, client.store.create answer nad with
  | .unreachable, _ => (.error (.error "request failed"), client.advance)
  | _, .error fault => (.error fault, client.advance)
  | .replyLost, .ok (_, store) =>
      (.error (.error "request failed"), { client.advance with store := store })
  | .answered, .ok (next, store) => (.ok next, { client.advance with store := store })

def resourceNameAnnot : String := "k8s.v1.cni.cncf.io/resourceName"

/-- The object is built without a namespace. -/
def ClientInfo.addNetAttachDefByResource (client : ClientInfo) (answer : Except String Nat)
    (resource : Resource) (resourceName : String) :
    Except Fault (Versioned NetAttachDef) × ClientInfo :=
  client.addNetAttachDef answer
    ⟨"", resourceName, some (Finmap.singleton resourceNameAnnot resource)⟩

theorem ClientInfo.addNetAttachDef_get? (client : ClientInfo) (answer : Except String Nat)
    {nad : NetAttachDef} {space name : String} (hkey : (space, name) ≠ nad.key) :
    (client.addNetAttachDef answer nad).2.store.get? space name =
      client.store.get? space name := by
  unfold addNetAttachDef
  split
  · rfl
  · rfl
  · rename_i hcreate
    rw [Store.create_get? hcreate, if_neg hkey]
  · rename_i hcreate
    rw [Store.create_get? hcreate, if_neg hkey]

theorem ClientInfo.getNetAttachDef_ok {client after : ClientInfo} {space name : String}
    {nad : Versioned NetAttachDef} (h : client.getNetAttachDef space name = (.ok nad, after)) :
    client.store.get? space name = some nad ∧ client.delivery = .answered ∧
      after = client.advance := by
  unfold getNetAttachDef at h
  split at h
  · rename_i hdelivery
    split at h
    · simp at h
    · rename_i found hfound
      rw [Prod.mk.injEq] at h
      rw [hfound, Except.ok.inj h.1, ← h.2]
      exact ⟨rfl, hdelivery, rfl⟩
  · simp at h

theorem ClientInfo.updateNetAttachDef_ok {client after : ClientInfo}
    {nad next : Versioned NetAttachDef}
    (h : client.updateNetAttachDef nad = (.ok next, after)) :
    client.delivery = .answered ∧ next.object = nad.object ∧
      after = { client.advance with store := client.store.put next } := by
  unfold updateNetAttachDef at h
  split at h
  · simp at h
  · simp at h
  · simp at h
  · rename_i served store hdelivery hupdate
    rw [Prod.mk.injEq] at h
    unfold Store.update at hupdate
    split at hupdate
    · contradiction
    · split at hupdate
      · contradiction
      · rename_i replaced hreplaced
        have hpair := Prod.mk.inj (Except.ok.inj hupdate)
        rw [← Except.ok.inj h.1, ← hpair.1]
        refine ⟨hdelivery, replace?_object hreplaced, ?_⟩
        rw [← h.2, ← hpair.2]

end VirtualSfc.Plugin.Client
