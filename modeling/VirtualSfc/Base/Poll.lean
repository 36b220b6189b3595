import VirtualSfc.Base.Memory

/-! Reading entries that are polled in batches. A reader keeps the entries of the
latest poll in an array with a cursor. It passes over entries until one stops it,
polls again when the batch is used up, and goes on from the cursor when it is
called the next time. -/
namespace VirtualSfc.Base.Poll
open Memory

universe u

variable {α : Type u}

structure Reader (α : Type u) where
  entries : Nat → α
  count : Nat
  cursor : Nat

def Reader.left (reader : Reader α) : List α :=
  load reader.entries reader.cursor (reader.count - reader.cursor)

/-- A poll leaves in the array what it does not overwrite. -/
def Reader.poll (reader : Reader α) (batch : List α) : Reader α :=
  ⟨store reader.entries 0 batch, batch.length, 0⟩

@[simp] theorem Reader.left_poll (reader : Reader α) (batch : List α) :
    (reader.poll batch).left = batch :=
  load_store_self _ 0 batch

def Reader.current (reader : Reader α) : α := reader.entries (reader.cursor - 1)

section Stops

variable (stops : α → Bool)

def scan (entries : Nat → α) : Nat → Nat → Option Nat
  | 0, _ => none
  | count + 1, cursor =>
      if stops (entries cursor) then some (cursor + 1) else scan entries count (cursor + 1)

/-- One call, on the batches that are polled while it lasts. A call that runs out
of them does not return. -/
def Reader.next (reader : Reader α) : List (List α) → Option (Reader α × List (List α))
  | [] =>
      match scan stops reader.entries (reader.count - reader.cursor) reader.cursor with
      | some cursor => some ({ reader with cursor := cursor }, [])
      | none => none
  | batch :: batches =>
      match scan stops reader.entries (reader.count - reader.cursor) reader.cursor with
      | some cursor => some ({ reader with cursor := cursor }, batch :: batches)
      | none => (reader.poll batch).next batches

/-- The entries of a batch that stop a reader, each with those that follow it. -/
def hits : List α → List (α × List α)
  | [] => []
  | entry :: rest => if stops entry then (entry, rest) :: hits rest else hits rest

def Reader.ahead (reader : Reader α) (batches : List (List α)) : List (α × List α) :=
  hits stops reader.left ++ batches.flatMap (hits stops)

variable {stops}

theorem hits_eq_nil {batch : List α} (h : ∀ entry ∈ batch, stops entry = false) :
    hits stops batch = [] := by
  induction batch with
  | nil => rfl
  | cons entry rest ih =>
      rw [List.forall_mem_cons] at h
      rw [hits, if_neg (by simp [h.1]), ih h.2]

theorem hits_append {passed : List α} (hpassed : ∀ entry ∈ passed, stops entry = false)
    {entry : α} (hstops : stops entry = true) (rest : List α) :
    hits stops (passed ++ entry :: rest) = (entry, rest) :: hits stops rest := by
  induction passed with
  | nil => rw [List.nil_append, hits, if_pos hstops]
  | cons first passed ih =>
      rw [List.forall_mem_cons] at hpassed
      rw [List.cons_append, hits, if_neg (by simp [hpassed.1]), ih hpassed.2]

theorem scan_eq_none {entries : Nat → α} {count cursor : Nat}
    (h : scan stops entries count cursor = none) :
    ∀ entry ∈ load entries cursor count, stops entry = false := by
  induction count generalizing cursor with
  | zero => simp [load]
  | succ count ih =>
      rw [scan] at h
      split at h
      · contradiction
      · rename_i hpass
        rw [load_succ, List.forall_mem_cons]
        exact ⟨by simpa using hpass, ih h⟩

theorem scan_eq_some {entries : Nat → α} {count cursor next : Nat}
    (h : scan stops entries count cursor = some next) :
    stops (entries (next - 1)) = true ∧ ∃ passed,
      (∀ entry ∈ passed, stops entry = false) ∧
      load entries cursor count =
        passed ++ entries (next - 1) :: load entries next (cursor + count - next) := by
  induction count generalizing cursor with
  | zero => simp [scan] at h
  | succ count ih =>
      rw [scan] at h
      split at h
      · rename_i hstops
        rw [← Option.some.inj h]
        refine ⟨hstops, [], by simp, ?_⟩
        rw [load_succ, List.nil_append, Nat.add_sub_cancel,
          show cursor + (count + 1) - (cursor + 1) = count by omega]
      · rename_i hpass
        obtain ⟨hstops, passed, hpassed, hload⟩ := ih h
        refine ⟨hstops, entries cursor :: passed, ?_, ?_⟩
        · rw [List.forall_mem_cons]
          exact ⟨by simpa using hpass, hpassed⟩
        · rw [load_succ, hload, List.cons_append,
            show cursor + 1 + count - next = cursor + (count + 1) - next by omega]

structure Reader.Returned (stops : α → Bool) (reader : Reader α) (batches : List (List α))
    (after : Reader α) (rest : List (List α)) : Prop where
  stopped : stops after.current = true
  ahead : reader.ahead stops batches =
    (after.current, after.left) :: after.ahead stops rest
  consumed : ∃ passed, (∀ entry ∈ passed, stops entry = false) ∧
    reader.left ++ batches.flatten = passed ++ after.current :: (after.left ++ rest.flatten)

theorem scan_returned {reader : Reader α} {cursor : Nat}
    (h : scan stops reader.entries (reader.count - reader.cursor) reader.cursor = some cursor)
    (batches : List (List α)) :
    reader.Returned stops batches { reader with cursor := cursor } batches := by
  have hlt : reader.cursor < reader.count := by
    by_contra hge
    rw [Nat.sub_eq_zero_of_le (by omega)] at h
    contradiction
  obtain ⟨hentry, passed, hpassed, hload⟩ := scan_eq_some h
  rw [Nat.add_sub_cancel' (Nat.le_of_lt hlt)] at hload
  have hleft : reader.left = passed ++ { reader with cursor := cursor }.current ::
      { reader with cursor := cursor }.left := hload
  have hstops : stops { reader with cursor := cursor }.current = true := hentry
  refine ⟨hstops, ?_, passed, hpassed, ?_⟩
  · rw [Reader.ahead, hleft, hits_append hpassed hstops]
    rfl
  · rw [hleft, List.append_assoc, List.cons_append]

theorem poll_returned {reader after : Reader α} {batch : List α} {batches rest : List (List α)}
    (hleft : ∀ entry ∈ reader.left, stops entry = false)
    (h : (reader.poll batch).Returned stops batches after rest) :
    reader.Returned stops (batch :: batches) after rest := by
  obtain ⟨passed, hpassed, hconsumed⟩ := h.consumed
  refine ⟨h.stopped, ?_, reader.left ++ passed, ?_, ?_⟩
  · rw [← h.ahead, Reader.ahead, Reader.ahead, hits_eq_nil hleft, Reader.left_poll]
    rfl
  · exact List.forall_mem_append.mpr ⟨hleft, hpassed⟩
  · rw [List.append_assoc, ← hconsumed, Reader.left_poll, List.flatten_cons]

theorem next_eq_some {batches rest : List (List α)} {reader after : Reader α}
    (h : reader.next stops batches = some (after, rest)) :
    reader.Returned stops batches after rest := by
  induction batches generalizing reader with
  | nil =>
      rw [Reader.next] at h
      split at h
      · rename_i cursor hscan
        cases h
        exact scan_returned hscan []
      · contradiction
  | cons batch batches ih =>
      rw [Reader.next] at h
      split at h
      · rename_i cursor hscan
        cases h
        exact scan_returned hscan _
      · rename_i hscan
        exact poll_returned (scan_eq_none hscan) (ih h)

theorem next_eq_none {batches : List (List α)} {reader : Reader α}
    (h : reader.next stops batches = none) :
    ∀ entry ∈ reader.left ++ batches.flatten, stops entry = false := by
  induction batches generalizing reader with
  | nil =>
      rw [Reader.next] at h
      split at h
      · contradiction
      · rename_i hscan
        rw [List.flatten_nil, List.append_nil]
        exact scan_eq_none hscan
  | cons batch batches ih =>
      rw [Reader.next] at h
      split at h
      · contradiction
      · rename_i hscan
        rw [List.flatten_cons]
        have hrest := ih h
        rw [Reader.left_poll] at hrest
        exact List.forall_mem_append.mpr ⟨scan_eq_none hscan, hrest⟩

theorem ahead_eq_nil {batches : List (List α)} {reader : Reader α}
    (h : ∀ entry ∈ reader.left ++ batches.flatten, stops entry = false) :
    reader.ahead stops batches = [] := by
  rw [List.forall_mem_append] at h
  rw [Reader.ahead, hits_eq_nil h.1, List.nil_append, List.flatMap_eq_nil_iff]
  intro batch hbatch
  apply hits_eq_nil
  intro entry hentry
  exact h.2 entry (List.mem_flatten.mpr ⟨batch, hbatch, hentry⟩)

theorem Reader.Returned.shorter {reader after : Reader α} {batches rest : List (List α)}
    (h : reader.Returned stops batches after rest) :
    (after.ahead stops rest).length < (reader.ahead stops batches).length := by
  rw [h.ahead]
  exact Nat.lt_succ_self _

variable (stops)

def Reader.returns (reader : Reader α) (batches : List (List α)) : List (Reader α) :=
  match _h : reader.next stops batches with
  | none => []
  | some (after, rest) => after :: after.returns rest
termination_by (reader.ahead stops batches).length
decreasing_by exact (next_eq_some _h).shorter

theorem returns_eq (reader : Reader α) (batches : List (List α)) :
    reader.returns stops batches =
      match reader.next stops batches with
      | none => []
      | some (after, rest) => after :: after.returns stops rest := by
  rw [Reader.returns.eq_1]
  cases reader.next stops batches with
  | none => rfl
  | some returned => rfl

/-- The calls return once for each entry that stops the reader, and find the cursor
at the entry behind it. -/
theorem returns_left (reader : Reader α) (batches : List (List α)) :
    (reader.returns stops batches).map Reader.left =
      (reader.ahead stops batches).map Prod.snd := by
  induction reader, batches using Reader.returns.induct stops with
  | case1 reader batches hnone =>
      rw [returns_eq, hnone, ahead_eq_nil (next_eq_none hnone)]
      rfl
  | case2 reader batches after rest hsome ih =>
      rw [returns_eq, hsome, (next_eq_some hsome).ahead, List.map_cons, List.map_cons, ih]

end Stops

end VirtualSfc.Base.Poll
