import Mathlib.Data.Option.Basic

/-! A source is polled, and a value is passed on when it is not the one of the
poll before. Whoever keeps the last value passed on always has the current one. -/
namespace VirtualSfc.Base.Changes

variable {α β : Type*}

def latest (last : Option α) (sent : List (Option α)) : Option α :=
  sent.foldl (fun last sent => sent.or last) last

theorem latest_cons (last sent : Option α) (rest : List (Option α)) :
    latest last (sent :: rest) = latest (sent.or last) rest := rfl

theorem latest_map (f : α → β) (last : Option α) (sent : List (Option α)) :
    latest (last.map f) (sent.map (Option.map f)) = (latest last sent).map f := by
  induction sent generalizing last with
  | nil => rfl
  | cons first rest ih => rw [List.map_cons, latest_cons, ← Option.map_or, ih, latest_cons]

variable [DecidableEq α]

/-- What is passed on at each poll, after a poll that gave `last`. -/
def changes : Option α → List α → List (Option α)
  | _, [] => []
  | last, current :: rest =>
      (if last = some current then none else some current) :: changes (some current) rest

theorem take_changes (last : Option α) (values : List α) (n : Nat) :
    (changes last values).take n = changes last (values.take n) := by
  induction values generalizing last n with
  | nil => simp [changes]
  | cons current rest ih =>
      cases n with
      | zero => rfl
      | succ n => rw [changes, List.take_succ_cons, ih, List.take_succ_cons, changes]

theorem latest_changes (last : Option α) (values : List α) :
    latest last (changes last values) = values.getLast?.or last := by
  induction values generalizing last with
  | nil => rfl
  | cons current rest ih =>
      have hstep : (if last = some current then none else some current).or last =
          some current := by
        split
        · rename_i hsame
          rw [hsame, Option.none_or]
        · rw [Option.some_or]
      rw [changes, latest_cons, hstep, ih]
      cases rest with
      | nil => rfl
      | cons next rest => simp [List.getLast?_eq_some_getLast]

end VirtualSfc.Base.Changes
