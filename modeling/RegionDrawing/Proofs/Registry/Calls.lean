import RegionDrawing.Registry

/-! # Runs of a registry

What can be asked of a registry, one call at a time. A registration may be answered by subscribers
with switches of their own; the log of a run has these calls too, so that the entries of a registry
follow from the log alone.
-/
namespace RegionDrawing

inductive RegistryCall (α : Type) where
  | register (r : Registration α)
  | unregister (id : String)
  | setEnabled (id : String) (enabled : Bool)
  | subscribe (answer : Bool → Option Bool)
  | unsubscribe (number : Nat)

variable {α : Type}

def RegistryCall.onEntries (entries : List (Registration α)) :
    RegistryCall α → List (Registration α)
  | register r => Registry.putEntry r entries
  | unregister id => entries.filter fun r => r.id ≠ id
  | setEnabled id enabled => entries.map fun r => if r.id = id then { r with enabled } else r
  | subscribe _ | unsubscribe _ => entries

namespace Registry

def after (registry : Registry α) : RegistryCall α → Registry α
  | .register r => (registry.register r).1
  | .unregister id => (registry.unregister id).1
  | .setEnabled id enabled => (registry.setEnabled id enabled).1
  | .subscribe answer => (registry.subscribe answer).1
  | .unsubscribe number => registry.unsubscribe number

def run (registry : Registry α) (calls : List (RegistryCall α)) : Registry α :=
  calls.foldl after registry

/-- The switches that subscribers set in answer to a registration. -/
def answers (registry : Registry α) (r : Registration α) : List Bool :=
  registry.subscribers.filterMap fun subscriber => subscriber.answer (registry.contains r.id)

/-- A call and the calls by which subscribers answer it. -/
def logged (registry : Registry α) : RegistryCall α → List (RegistryCall α)
  | .register r => .register r :: (registry.answers r).map fun enabled => .setEnabled r.id enabled
  | call => [call]

/-- All calls of a run in the order in which they take effect. -/
def log : Registry α → List (RegistryCall α) → List (RegistryCall α)
  | _, [] => []
  | registry, call :: calls => registry.logged call ++ (registry.after call).log calls

theorem contains_iff {registry : Registry α} {id : String} :
    registry.contains id ↔ ∃ r ∈ registry.entries, r.id = id := by
  simp [contains, registration?, List.find?_isSome]

theorem entries_setEnabled (registry : Registry α) (id : String) (enabled : Bool) :
    (registry.setEnabled id enabled).1.entries =
      (RegistryCall.setEnabled id enabled).onEntries registry.entries := by
  rw [setEnabled]
  split
  · rfl
  · next hcontains =>
    refine (List.map_id' _).symm.trans (List.map_congr_left fun r hr => (if_neg fun hid => ?_).symm)
    exact hcontains (contains_iff.mpr ⟨r, hr, hid⟩)

theorem entries_announce (id : String) (replaced : Bool) (subscribers : List Subscriber)
    (registry : Registry α) :
    (announce id replaced subscribers registry).1.entries =
      ((subscribers.filterMap fun subscriber => subscriber.answer replaced).map
        fun enabled => RegistryCall.setEnabled id enabled).foldl
          RegistryCall.onEntries registry.entries := by
  induction subscribers generalizing registry with
  | nil => rfl
  | cons subscriber rest ih =>
    rw [announce, List.filterMap_cons]
    cases subscriber.answer replaced with
    | none => exact ih registry
    | some enabled =>
      rw [List.map_cons, List.foldl_cons, ← entries_setEnabled]
      exact ih _

theorem entries_after (registry : Registry α) (call : RegistryCall α) :
    (registry.after call).entries =
      (registry.logged call).foldl RegistryCall.onEntries registry.entries := by
  cases call with
  | register r => exact entries_announce r.id _ _ _
  | setEnabled id enabled => exact registry.entries_setEnabled id enabled
  | unregister | subscribe | unsubscribe => rfl

theorem entries_run (registry : Registry α) (calls : List (RegistryCall α)) :
    (registry.run calls).entries =
      (registry.log calls).foldl RegistryCall.onEntries registry.entries := by
  induction calls generalizing registry with
  | nil => rfl
  | cons call calls ih =>
    rw [log, List.foldl_append, ← entries_after]
    exact ih _

end Registry

end RegionDrawing
