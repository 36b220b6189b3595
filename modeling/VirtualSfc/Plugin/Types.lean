import VirtualSfc.Base.Json

/-! Data shared by the device plugin and the CNI plugin: Go errors and panics,
resource names, device records with their JSON form, and the configuration. -/
namespace VirtualSfc.Plugin

/-- How a Go call fails: it returns an error, or it panics. -/
inductive Fault where
  | error (message : String)
  | panic (message : String)
deriving DecidableEq, Repr

def Fault.message : Fault → String
  | error message => message
  | panic message => message

@[simp] theorem isOk_ok (value : β) : (Except.ok value : Except α β).isOk = true := rfl

@[simp] theorem isOk_error (failure : α) : (Except.error failure : Except α β).isOk = false :=
  rfl

/-- `for _, element := range slice` with a body that assigns to `element`: the
loop variable is a copy, so the loop state is the slice and the last copy, and
only the copy ever changes. -/
def rangeCopies (body : α → α) (slice : List α) : List α :=
  (slice.foldl (fun state element => (state.1, some (body element)))
    (slice, (none : Option α))).1

@[simp] theorem rangeCopies_eq (body : α → α) (slice : List α) :
    rangeCopies body slice = slice := by
  have hslice : ∀ (rest kept : List α) (copy : Option α),
      (rest.foldl (fun state element => (state.1, some (body element)))
        (kept, copy)).1 = kept := by
    intro rest
    induction rest with
    | nil => intro kept copy; rfl
    | cons element rest ih => intro kept copy; exact ih kept _
  exact hslice slice slice none

abbrev Resource := String

/-- Everything after the first slash, or the whole string without one:
`string(r)[strings.Index(string(r), "/")+1:]`. -/
def Resource.name (resource : Resource) : String :=
  match resource.toList.dropWhile (· ≠ '/') with
  | [] => resource
  | _ :: rest => String.ofList rest

def virtualSfc : Resource := "highfortfunds.com/vsfc"

def virtualMemSfc : Resource := "highfortfunds.com/vsfc-mem"

def virtualSfcHandle : Resource := "highfortfunds.com/vsfc-handle"

def defaultResources : List Resource := [virtualSfc, virtualMemSfc, virtualSfcHandle]

def nodeResourceAnnotPrefix : String := "resource.highfortfunds.com/"

structure DeviceInfo where
  name : String
  deviceIDs : List String
deriving DecidableEq, Repr

/-- `json.Marshal` and `json.Unmarshal` on `[]DeviceInfo`. Marshalling string
records cannot fail; unmarshalling reports a message. The round trip is all
that the callers rely on. A nil and an empty list of IDs are one value, so a codec
stands for a run in which at most one of the two is stored. -/
structure DeviceInfoCodec where
  marshal : List DeviceInfo → String
  unmarshal : String → Except String (List DeviceInfo)
  unmarshal_marshal : ∀ devices, unmarshal (marshal devices) = .ok devices

section Json

open Base.Json

private theorem not_close_string (value : String) (rest : List Char) :
    dropToken [']'] (string.print value ++ rest) = none := by
  simp only [string, List.cons_append, dropToken]
  exact if_neg (by decide)

private theorem not_close_object (first second : String) (value : String × List String)
    (rest : List Char) :
    dropToken [']'] ((object first second string (array string not_close_string)).print
      value ++ rest) = none := by
  simp only [object, List.cons_append, dropToken]
  exact if_neg (by decide)

def deviceInfoFormat : Format (List DeviceInfo) :=
  (array (object "name" "deviceIDs" string (array string not_close_string))
    (not_close_object _ _)).map
    (List.map fun pair => ⟨pair.1, pair.2⟩)
    (List.map fun device => (device.name, device.deviceIDs))
    (by intro devices; simp [Function.comp_def])

/-- The codec on canonical documents, without optional white space. -/
def canonicalCodec : DeviceInfoCodec where
  marshal := deviceInfoFormat.encode
  unmarshal text := match deviceInfoFormat.decode text with
    | some devices => .ok devices
    | none => .error "invalid character in annotation"
  unmarshal_marshal := by
    intro devices
    rw [deviceInfoFormat.decode_encode]

example : canonicalCodec.marshal [⟨"ens1", ["a", "b"]⟩] =
    "[\x7b\"name\":\"ens1\",\"deviceIDs\":[\"a\",\"b\"]\x7d]" := by
  decide

end Json

structure Interface where
  name : String
  resource : String
  parent : String
  splits : Int
  allocServiceAddr : String
deriving DecidableEq, Repr

structure Config where
  pluginDir : String
  interfaces : List Interface
deriving DecidableEq, Repr

end VirtualSfc.Plugin
