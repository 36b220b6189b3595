import VirtualSfc.Base.Poll

/-! `wait_event` and `fetch_message`. Both use one cursor into the array of polled
events; `wait_event` moves it behind the event it returns for, and `fetch_message`
reads the event that it finds there. -/
namespace VirtualSfc.Efvi.WaitEvent
open Base Base.Poll

inductive EventType where
  | rx
  | tx
  | txAlt
  | rxMulti
  | rxMultiDiscard
  | rxDiscard
  | other
deriving DecidableEq, Repr

/-- `ef_event`: the bits in the place of `rx.rq_id`, of whatever type the event is,
and the ids that `ef_vi_receive_unbundle` takes from the ring for it. -/
structure EfEvent where
  type : EventType
  rqId : UInt32
  ids : List UInt32
deriving DecidableEq, Repr

def arrives (event : EfEvent) : Bool :=
  match event.type with
  | .rx | .rxMulti | .rxMultiDiscard => true
  | .tx | .txAlt | .rxDiscard | .other => false

def idle (events : Nat → EfEvent) : Reader EfEvent := ⟨events, 0, 0⟩

def waitEvent (socket : Reader EfEvent) (polls : List (List EfEvent)) :
    Option (Reader EfEvent × List (List EfEvent)) :=
  socket.next arrives polls

structure Fetch where
  latest : Bool
  index : UInt32
deriving DecidableEq, Repr

def fetchMessage (socket : Reader EfEvent) : Fetch :=
  ⟨decide (socket.cursor < socket.count), (socket.entries socket.cursor).rqId⟩

def client (socket : Reader EfEvent) (polls : List (List EfEvent)) : List Fetch :=
  (socket.returns arrives polls).map fetchMessage

theorem client_eq (socket : Reader EfEvent) (polls : List (List EfEvent)) :
    client socket polls =
      match waitEvent socket polls with
      | none => []
      | some (after, rest) => fetchMessage after :: client after rest := by
  rw [client, returns_eq, waitEvent]
  cases socket.next arrives polls with
  | none => rfl
  | some returned => rfl

def packets (event : EfEvent) : List UInt32 :=
  match event.type with
  | .rx => [event.rqId]
  | .rxMulti => event.ids
  | _ => []

/-- Each packet is presented once and in order, out of the latest poll. -/
structure Presents (fetches : List Fetch) (polls : List (List EfEvent)) : Prop where
  indices : fetches.map Fetch.index = polls.flatten.flatMap packets
  latest : ∀ fetch ∈ fetches, fetch.latest = true

/-- What stands behind the events that `wait_event` returns for, if anything does. -/
def followers (batch : List EfEvent) : List (Option UInt32) :=
  (hits arrives batch).map fun hit => hit.2.head?.map (·.rqId)

def Fetch.value (fetch : Fetch) : Option UInt32 :=
  if fetch.latest then some fetch.index else none

theorem fetchMessage_value (socket : Reader EfEvent) :
    (fetchMessage socket).value = socket.left.head?.map (·.rqId) := by
  rw [List.head?_eq_getElem?, Reader.left, Memory.getElem?_load]
  by_cases hlatest : socket.cursor < socket.count
  · rw [if_pos (by omega)]
    simp [fetchMessage, Fetch.value, hlatest]
  · rw [if_neg (by omega)]
    simp [fetchMessage, Fetch.value, hlatest]

theorem client_values (events : Nat → EfEvent) (polls : List (List EfEvent)) :
    (client (idle events) polls).map Fetch.value = polls.flatMap followers := by
  have hfetch : Fetch.value ∘ fetchMessage =
      (fun left => left.head?.map (·.rqId)) ∘ Reader.left := by
    funext socket
    exact fetchMessage_value socket
  have hidle : (idle events).ahead arrives polls = polls.flatMap (hits arrives) := rfl
  rw [client, List.map_map, hfetch, ← List.map_map, returns_left, hidle, List.map_map,
    List.map_flatMap]
  rfl

theorem values_eq_iff (fetches : List Fetch) (indices : List UInt32) :
    fetches.map Fetch.value = indices.map some ↔
      fetches.map Fetch.index = indices ∧ ∀ fetch ∈ fetches, fetch.latest = true := by
  induction fetches generalizing indices with
  | nil => cases indices <;> simp
  | cons fetch fetches ih =>
      cases indices with
      | nil => simp
      | cons index indices =>
          have hrest := ih indices
          by_cases hlatest : fetch.latest = true
          · simp [Fetch.value, hlatest, hrest, and_assoc]
          · simp [Fetch.value, hlatest]

/-- Packets are presented correctly just when the event behind each one, in the
same poll, happens to carry the index. -/
theorem client_presents_iff (events : Nat → EfEvent) (polls : List (List EfEvent)) :
    Presents (client (idle events) polls) polls ↔
      polls.flatMap followers = (polls.flatten.flatMap packets).map some := by
  rw [← client_values events, values_eq_iff]
  exact ⟨fun h => ⟨h.indices, h.latest⟩, fun h => ⟨h.1, h.2⟩⟩

theorem client_pair :
    (client (idle fun _ => ⟨.other, 0, []⟩) [[⟨.rx, 1, []⟩, ⟨.rx, 2, []⟩]]).map Fetch.value =
        [some 2, none] ∧
      ¬ Presents (client (idle fun _ => ⟨.other, 0, []⟩) [[⟨.rx, 1, []⟩, ⟨.rx, 2, []⟩]])
        [[⟨.rx, 1, []⟩, ⟨.rx, 2, []⟩]] := by
  have hvalues : (client (idle fun _ => ⟨.other, 0, []⟩)
      [[⟨.rx, 1, []⟩, ⟨.rx, 2, []⟩]]).map Fetch.value = [some 2, none] := by
    rw [client_values]
    decide
  refine ⟨hvalues, fun h => ?_⟩
  have hpresented := (values_eq_iff _ _).mpr ⟨h.indices, h.latest⟩
  rw [hvalues] at hpresented
  exact absurd hpresented (by decide)

end VirtualSfc.Efvi.WaitEvent
