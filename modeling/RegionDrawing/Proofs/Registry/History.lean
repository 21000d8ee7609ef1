import RegionDrawing.Binary64.Scalar
import RegionDrawing.Proofs.Lists
import RegionDrawing.Proofs.Registry.Calls
import RegionDrawing.Proofs.Registry.Ranking

/-! # What a registry holds behind a run

The registration of an id is the last one that the log of a run has for it, unless the id was
unregistered since, with the switch that was set last. All queries agree with that and with each
other in whatever order the entries are kept.
-/
namespace RegionDrawing

variable {α : Type}

namespace RegistryCall

def replaces (id : String) : RegistryCall α → Bool
  | register r => r.id = id
  | unregister other => other = id
  | _ => false

def brings? (id : String) : RegistryCall α → Option (Registration α)
  | register r => if r.id = id then some r else none
  | _ => none

def switch? (id : String) : RegistryCall α → Option Bool
  | setEnabled other enabled => if other = id then some enabled else none
  | _ => none

theorem brings?_eq_some_iff {call : RegistryCall α} {id : String} {r : Registration α} :
    call.brings? id = some r ↔ call = register r ∧ r.id = id := by
  cases call with
  | register s =>
    simp only [brings?, Option.ite_none_right_eq_some, Option.some.injEq, register.injEq]
    constructor
    · rintro ⟨hid, rfl⟩
      exact ⟨rfl, hid⟩
    · rintro ⟨rfl, hid⟩
      exact ⟨hid, rfl⟩
  | unregister | setEnabled | subscribe | unsubscribe => simp [brings?]

theorem brings?_eq_none {call : RegistryCall α} {id : String} (h : ¬ call.replaces id) :
    call.brings? id = none := by
  refine Option.eq_none_iff_forall_ne_some.mpr fun r hr => h ?_
  obtain ⟨rfl, rfl⟩ := brings?_eq_some_iff.mp hr
  exact decide_eq_true rfl

end RegistryCall

/-- A registration with the switch that calls set last. -/
def Registration.behind (calls : List (RegistryCall α)) (r : Registration α) : Registration α :=
  { r with enabled := (calls.filterMap (·.switch? r.id)).getLastD r.enabled }

/-- Whether calls leave an id with a registration: the last one of the id, which no later call has
taken out, with the switch that was set last since. -/
def Registered (calls : List (RegistryCall α)) (id : String) (r : Registration α) : Prop :=
  ∃ earlier first later, calls = earlier ++ .register first :: later ∧ first.id = id ∧
    (∀ call ∈ later, ¬ call.replaces id) ∧ r = first.behind later

def Live (calls : List (RegistryCall α)) (id : String) : Prop := ∃ r, Registered calls id r

theorem Registration.behind_cons (call : RegistryCall α) (calls : List (RegistryCall α))
    (r : Registration α) :
    r.behind (call :: calls) =
      { r with enabled := (call.switch? r.id).getD r.enabled }.behind calls := by
  rw [behind, List.filterMap_cons]
  cases call.switch? r.id with
  | none => rfl
  | some enabled =>
    dsimp only
    rw [List.getLastD_cons]
    rfl

theorem registered_cons {call : RegistryCall α} {calls : List (RegistryCall α)} {id : String}
    {r : Registration α} :
    Registered (call :: calls) id r ↔
      Registered calls id r ∨ (∀ later ∈ calls, ¬ later.replaces id) ∧
        ∃ first, call.brings? id = some first ∧ r = first.behind calls := by
  constructor
  · rintro ⟨earlier, first, later, heq, hid, hlater, hr⟩
    cases earlier with
    | nil =>
      obtain ⟨rfl, rfl⟩ := List.cons.inj heq
      exact .inr ⟨hlater, first, RegistryCall.brings?_eq_some_iff.mpr ⟨rfl, hid⟩, hr⟩
    | cons _ earlier =>
      obtain ⟨rfl, rfl⟩ := List.cons.inj heq
      exact .inl ⟨earlier, first, later, rfl, hid, hlater, hr⟩
  · rintro (⟨earlier, first, later, rfl, hfirst⟩ | ⟨hlater, first, hbrings, hr⟩)
    · exact ⟨call :: earlier, first, later, rfl, hfirst⟩
    · obtain ⟨rfl, hid⟩ := RegistryCall.brings?_eq_some_iff.mp hbrings
      exact ⟨[], first, calls, rfl, hid, hlater, hr⟩

namespace Registry

def withId? (entries : List (Registration α)) (id : String) : Option (Registration α) :=
  entries.find? fun r => r.id = id

variable {entries : List (Registration α)} {id : String} {r : Registration α}

theorem withId?_putEntry_self (r : Registration α) (entries : List (Registration α)) :
    withId? (putEntry r entries) r.id = some r := by
  induction entries with
  | nil => simp [putEntry, withId?]
  | cons s rest ih =>
    rw [putEntry]
    split
    · simp [withId?]
    · next hne => simpa [withId?, hne] using ih

theorem withId?_putEntry_of_ne (h : r.id ≠ id) (entries : List (Registration α)) :
    withId? (putEntry r entries) id = withId? entries id := by
  induction entries with
  | nil => simp [putEntry, withId?, h]
  | cons s rest ih =>
    rw [putEntry]
    split
    · next heq => simp [withId?, h, heq]
    · simp only [withId?, List.find?_cons] at ih ⊢
      rw [ih]

theorem withId?_filter_of_ne {other : String} (h : other ≠ id) (entries : List (Registration α)) :
    withId? (entries.filter fun r => r.id ≠ other) id = withId? entries id := by
  rw [withId?, List.find?_filter, withId?]
  congr 1
  funext r
  by_cases hr : r.id = id
  · simp [hr, Ne.symm h]
  · simp [hr]

theorem withId?_filter_self (id : String) (entries : List (Registration α)) :
    withId? (entries.filter fun r => r.id ≠ id) id = none := by
  simp [withId?]

theorem withId?_switched (entries : List (Registration α)) (id other : String) (enabled : Bool) :
    withId? (entries.map fun r => if r.id = other then { r with enabled } else r) id =
      (withId? entries id).map fun r => if r.id = other then { r with enabled } else r := by
  have hid : ∀ r : Registration α, (if r.id = other then { r with enabled } else r).id = r.id := by
    intro r
    split <;> rfl
  simp only [withId?, List.find?_map, Function.comp_def, hid]

theorem withId?_onEntries_of_replaces (entries : List (Registration α)) {call : RegistryCall α}
    (h : call.replaces id) : withId? (call.onEntries entries) id = call.brings? id := by
  cases call with
  | register s =>
    obtain rfl : s.id = id := by simpa [RegistryCall.replaces] using h
    exact (withId?_putEntry_self s entries).trans (if_pos rfl).symm
  | unregister other =>
    obtain rfl : other = id := by simpa [RegistryCall.replaces] using h
    exact withId?_filter_self other entries
  | setEnabled | subscribe | unsubscribe => cases h

theorem withId?_onEntries (entries : List (Registration α)) {call : RegistryCall α}
    (h : ¬ call.replaces id) :
    withId? (call.onEntries entries) id =
      (withId? entries id).map fun r =>
        { r with enabled := (call.switch? r.id).getD r.enabled } := by
  cases call with
  | register s =>
    rw [RegistryCall.onEntries, withId?_putEntry_of_ne (by simpa [RegistryCall.replaces] using h)]
    exact Option.map_id'.symm
  | unregister other =>
    rw [RegistryCall.onEntries, withId?_filter_of_ne (by simpa [RegistryCall.replaces] using h)]
    exact Option.map_id'.symm
  | setEnabled other enabled =>
    rw [RegistryCall.onEntries, withId?_switched]
    congr 1
    funext r
    by_cases hr : r.id = other
    · simp [RegistryCall.switch?, hr]
    · simp [RegistryCall.switch?, hr, Ne.symm hr]
  | subscribe | unsubscribe => exact Option.map_id'.symm

/-- What calls leave an id with: the last of their registrations, or the entry that was there. -/
theorem withId?_foldl_onEntries {calls : List (RegistryCall α)} :
    withId? (calls.foldl RegistryCall.onEntries entries) id = some r ↔
      Registered calls id r ∨ (∀ call ∈ calls, ¬ call.replaces id) ∧
        ∃ first, withId? entries id = some first ∧ r = first.behind calls := by
  induction calls generalizing entries with
  | nil =>
    constructor
    · exact fun h => .inr ⟨nofun, r, h, rfl⟩
    · rintro (⟨earlier, _, _, heq, _⟩ | ⟨_, first, hfirst, rfl⟩)
      · simp at heq
      · exact hfirst
  | cons call calls ih =>
    rw [List.foldl_cons, ih, registered_cons, or_assoc]
    refine or_congr_right ?_
    by_cases hreplaces : call.replaces id
    · have hnot : ¬ ((∀ later ∈ call :: calls, ¬ later.replaces id) ∧
          ∃ first, withId? entries id = some first ∧ r = first.behind (call :: calls)) :=
        fun h => h.1 call List.mem_cons_self hreplaces
      rw [withId?_onEntries_of_replaces entries hreplaces, or_iff_left hnot]
    · rw [withId?_onEntries entries hreplaces, RegistryCall.brings?_eq_none hreplaces,
        List.forall_mem_cons, and_iff_right hreplaces]
      cases withId? entries id with
      | none => simp
      | some first => simp [Registration.behind_cons]

theorem mem_map_id_putEntry {r : Registration α} :
    id ∈ (putEntry r entries).map (·.id) ↔ id = r.id ∨ id ∈ entries.map (·.id) := by
  induction entries with
  | nil => simp [putEntry]
  | cons s rest ih =>
    rw [putEntry]
    split
    · next heq => simp [heq]
    · simp only [List.map_cons, List.mem_cons, ih]
      exact or_left_comm

theorem nodup_putEntry (r : Registration α) (h : (entries.map (·.id)).Nodup) :
    ((putEntry r entries).map (·.id)).Nodup := by
  induction entries with
  | nil => simp [putEntry]
  | cons s rest ih =>
    obtain ⟨hfirst, hrest⟩ := List.nodup_cons.mp h
    rw [putEntry]
    split
    · next heq =>
      rw [List.map_cons, ← heq]
      exact h
    · next hne =>
      refine List.nodup_cons.mpr ⟨fun hmem => ?_, ih hrest⟩
      rcases mem_map_id_putEntry.mp hmem with heq | hmem
      · exact hne heq
      · exact hfirst hmem

theorem map_id_switched (entries : List (Registration α)) (id : String) (enabled : Bool) :
    (entries.map fun r => if r.id = id then { r with enabled } else r).map (·.id) =
      entries.map (·.id) := by
  rw [List.map_map]
  refine List.map_congr_left fun r _ => ?_
  simp only [Function.comp_apply]
  split <;> rfl

theorem nodup_onEntries (call : RegistryCall α) (h : (entries.map (·.id)).Nodup) :
    ((call.onEntries entries).map (·.id)).Nodup := by
  cases call with
  | register r => exact nodup_putEntry r h
  | unregister id => exact h.sublist (List.filter_sublist.map _)
  | setEnabled other enabled =>
    rw [RegistryCall.onEntries, map_id_switched]
    exact h
  | subscribe | unsubscribe => exact h

theorem nodup_foldl_onEntries (calls : List (RegistryCall α)) (h : (entries.map (·.id)).Nodup) :
    ((calls.foldl RegistryCall.onEntries entries).map (·.id)).Nodup :=
  List.foldlRecOn (motive := fun entries : List (Registration α) => (entries.map (·.id)).Nodup)
    calls _ h fun _ h call _ => nodup_onEntries call h

theorem nodup_entries_run (calls : List (RegistryCall α)) :
    ((({} : Registry α).run calls).entries.map (·.id)).Nodup := by
  rw [entries_run]
  exact nodup_foldl_onEntries _ List.nodup_nil

/-- The entries behind a run are the registrations that its log leaves. -/
theorem registered_log_iff {calls : List (RegistryCall α)} :
    Registered (({} : Registry α).log calls) id r ↔
      r ∈ (({} : Registry α).run calls).entries ∧ r.id = id := by
  have hnone : ¬ ∃ first, withId? ([] : List (Registration α)) id = some first ∧
      r = first.behind (({} : Registry α).log calls) := by
    rintro ⟨_, hfirst, _⟩
    cases hfirst
  rw [← find?_key_eq_some_iff (nodup_entries_run calls), ← withId?, entries_run,
    withId?_foldl_onEntries, or_iff_left fun h => hnone h.2]

/-- Behind every run, and in whatever order the entries are kept: an id has the registration that
the log leaves it, calls tell whether it has one and do nothing to one that is not there, the
listing has each of them once and in the order of priority and name, and the other queries are
searches of the listing. -/
theorem queries_follow_log (calls : List (RegistryCall α)) {entries : List (Registration α)}
    (hperm : entries.Perm (({} : Registry α).run calls).entries) :
    let log := ({} : Registry α).log calls
    let registry : Registry α := { ({} : Registry α).run calls with entries }
    (∀ id r, registry.registration? id = some r ↔ Registered log id r) ∧
      (∀ r, (registry.register r).2.1 ↔ Live log r.id) ∧
      (∀ id, (registry.unregister id).2.1 ↔ Live log id) ∧
      (∀ id enabled, ((registry.setEnabled id enabled).2.1 ↔ Live log id) ∧
        (¬ Live log id → registry.setEnabled id enabled = (registry, false, []))) ∧
      ((registry.all.map (·.id)).Nodup ∧ (∀ r, r ∈ registry.all ↔ Registered log r.id r) ∧
        Ranked registry.all) ∧
      registry.enabled = (registry.all.filter (·.enabled)).map (·.drawer) ∧
      (∀ category, registry.ofCategory category =
        (registry.all.filter fun r => r.drawer.info.category = category).map (·.drawer)) ∧
      (∀ key, registry.ofShortcut? key =
        registry.enabled.find? fun drawer => drawer.info.shortcut.toLower = key.toLower) ∧
      ∀ kind, registry.drawerFor? kind =
        (registry.all.find? fun r => r.drawer.info.kind = kind).map (·.drawer) := by
  intro log registry
  have hnodup : (entries.map (·.id)).Nodup :=
    (hperm.map _).nodup_iff.mpr (nodup_entries_run calls)
  have hregistered : ∀ id r, registry.registration? id = some r ↔ Registered log id r := by
    intro id r
    rw [registered_log_iff, ← hperm.mem_iff]
    exact find?_key_eq_some_iff hnodup
  have hlive : ∀ id, registry.contains id ↔ Live log id := by
    intro id
    rw [contains, Option.isSome_iff_exists]
    exact exists_congr (hregistered id)
  refine ⟨hregistered, fun r => hlive r.id, hlive, fun id enabled => ⟨?_, ?_⟩, ⟨?_, ?_, ?_⟩, rfl,
    fun _ => rfl, fun _ => rfl, registry.drawerFor?_eq⟩
  · rw [← hlive, setEnabled]
    split
    · next h => exact iff_of_true rfl h
    · next h => exact iff_of_false Bool.false_ne_true h
  · intro hdead
    rw [setEnabled, if_neg fun h => hdead ((hlive id).mp h)]
  · exact (registry.perm_all.map _).nodup_iff.mpr hnodup
  · intro r
    rw [registry.perm_all.mem_iff, ← hregistered]
    exact ⟨fun h => (find?_key_eq_some_iff hnodup).mpr ⟨h, rfl⟩, List.mem_of_find?_eq_some⟩
  · exact registry.ranked_all

/-- Three drawers that tie, with a subscriber that switches replaced ones off. One is unregistered
again and another one replaced. -/
def tiedCalls : List (RegistryCall Float) :=
  let drawer := rectangleDrawer Settings.default
  let tied (id : String) : Registration Float :=
    ⟨{ drawer with info := { drawer.info with id } }, 5, true⟩
  [.register (tied "first"), .subscribe fun replaced => if replaced then some false else none,
    .register (tied "second"), .register (tied "third"), .unregister "first",
    .register (tied "second"), .setEnabled "first" true]

theorem tiedCalls_queries :
    let entries := (({} : Registry Float).run tiedCalls).entries
    let registry : Registry Float :=
      { ({} : Registry Float).run tiedCalls with entries := entries.reverse }
    entries.reverse.Perm entries ∧
      registry.all.map (fun r => (r.id, r.enabled)) = [("third", true), ("second", false)] ∧
      (registry.drawerFor? .rect).map (·.info.id) = some "third" := by
  intro entries registry
  have hperm : entries.reverse.Perm entries := entries.reverse_perm
  obtain ⟨_, _, _, _, _, _, _, _, hdrawer⟩ := queries_follow_log tiedCalls hperm
  have hall : registry.all.map (fun r => (r.id, r.enabled)) =
      [("third", true), ("second", false)] := by decide +kernel
  refine ⟨hperm, hall, ?_⟩
  rw [hdrawer]
  decide +kernel

end Registry

end RegionDrawing
