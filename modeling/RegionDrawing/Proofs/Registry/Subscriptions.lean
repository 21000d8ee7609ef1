import Mathlib.Data.Finset.Dedup
import Mathlib.Data.Finset.Insert
import Mathlib.Data.Finset.Erase
import RegionDrawing.Proofs.Registry.History

/-! # What subscribers of a registry hear

A registry shares its drawers and its subscribers with all its clones, so the calls on any of them
are one list. Subscribers that only listen hear of each change once, from the beginning of their
subscription to its end, whoever else comes and goes. What they hear is enough to know at any time
which ids have a drawer.
-/
namespace RegionDrawing

variable {α : Type}

namespace RegistryCall

/-- Whether a call brings no subscriber but one that listens: it sets no switch in answer to a
registration. -/
def Listens : RegistryCall α → Prop
  | subscribe answer => ∀ replaced, answer replaced = none
  | _ => True

def Subscribes : RegistryCall α → Bool
  | subscribe _ => true
  | _ => false

def onSubscribers (registry : Registry α) : RegistryCall α → List Subscriber
  | subscribe answer => registry.subscribers ++ [⟨registry.nextSubscription, answer⟩]
  | unsubscribe number => registry.subscribers.filter fun s => s.number ≠ number
  | _ => registry.subscribers

def event? (ids : Finset String) : RegistryCall α → Option RegistryEvent
  | register r => some (.registered r.id (r.id ∈ ids))
  | unregister id => some (.unregistered id (id ∈ ids))
  | setEnabled id enabled => if id ∈ ids then some (.enabledChanged id enabled) else none
  | subscribe _ | unsubscribe _ => none

theorem event?_eq_enabledChanged {call : RegistryCall α} {ids : Finset String} {id : String}
    {enabled : Bool} (h : call.event? ids = some (.enabledChanged id enabled)) :
    call = setEnabled id enabled ∧ id ∈ ids := by
  cases call with
  | setEnabled other switch =>
    rw [event?, Option.ite_none_right_eq_some] at h
    obtain ⟨hmem, heq⟩ := h
    cases heq
    exact ⟨rfl, hmem⟩
  | register | unregister | subscribe | unsubscribe => cases h

end RegistryCall

/-- The ids that have a drawer behind an event, given those that have one before it. -/
def RegistryEvent.replayed (ids : Finset String) : RegistryEvent → Finset String
  | registered id _ => insert id ids
  | unregistered id _ => ids.erase id
  | enabledChanged _ _ => ids

namespace Registry

def ids (registry : Registry α) : Finset String := (registry.entries.map (·.id)).toFinset

def numbers (registry : Registry α) : List Nat := registry.subscribers.map (·.number)

def delivered (registry : Registry α) : RegistryCall α → List Delivery
  | .register r => (registry.register r).2.2
  | .unregister id => (registry.unregister id).2.2
  | .setEnabled id enabled => (registry.setEnabled id enabled).2.2
  | .subscribe _ | .unsubscribe _ => []

def deliveredBy (registry : Registry α) : List (RegistryCall α) → List Delivery
  | [] => []
  | call :: calls => registry.delivered call ++ (registry.after call).deliveredBy calls

def changes (registry : Registry α) : List (RegistryCall α) → List RegistryEvent
  | [] => []
  | call :: calls => (call.event? registry.ids).toList ++ (registry.after call).changes calls

def heard (number : Nat) (deliveries : List Delivery) : List RegistryEvent :=
  deliveries.filterMap fun delivery =>
    if delivery.subscription = number then some delivery.event else none

/-- Whether subscribers are told apart by their numbers, the next one included, and only listen. -/
structure Orderly (registry : Registry α) : Prop where
  nodup : registry.numbers.Nodup
  below : ∀ number ∈ registry.numbers, number < registry.nextSubscription
  silent : ∀ subscriber ∈ registry.subscribers, ∀ replaced, subscriber.answer replaced = none

variable {registry other : Registry α} {call : RegistryCall α} {calls : List (RegistryCall α)}
  {number : Nat} {id : String}

theorem mem_ids : id ∈ registry.ids ↔ registry.contains id := by
  simp only [ids, List.mem_toFinset, List.mem_map, contains_iff]

theorem orderly_empty : ({} : Registry α).Orderly := ⟨List.nodup_nil, nofun, nofun⟩

theorem announce_of_silent {subscribers : List Subscriber}
    (h : ∀ subscriber ∈ subscribers, ∀ replaced, subscriber.answer replaced = none)
    (id : String) (replaced : Bool) (registry : Registry α) :
    announce id replaced subscribers registry =
      (registry, subscribers.map fun subscriber =>
        ⟨subscriber.number, .registered id replaced, registry.size⟩) := by
  induction subscribers with
  | nil => rfl
  | cons subscriber rest ih =>
    obtain ⟨hfirst, hrest⟩ := List.forall_mem_cons.mp h
    simp only [announce, hfirst replaced, ih hrest, List.map_cons]

theorem heard_deliveries (registry : Registry α) (event : RegistryEvent) (number : Nat) :
    heard number (registry.deliveries event) =
      List.replicate (registry.numbers.count number) event := by
  rw [heard, deliveries, List.filterMap_map, numbers]
  induction registry.subscribers with
  | nil => rfl
  | cons subscriber rest ih =>
    rw [List.map_cons, List.filterMap_cons, ih, List.count_cons]
    by_cases hnumber : subscriber.number = number
    · simp [hnumber, List.replicate_succ]
    · simp [hnumber]

namespace Orderly

variable (h : registry.Orderly)

include h

theorem register_eq (r : Registration α) :
    registry.register r =
      let registered := { registry with entries := putEntry r registry.entries }
      (registered, registry.contains r.id,
        registered.deliveries (.registered r.id (registry.contains r.id))) := by
  simp only [register, announce_of_silent h.silent]
  rfl

theorem entries_after (call : RegistryCall α) :
    (registry.after call).entries = call.onEntries registry.entries := by
  cases call with
  | register r => rw [after, h.register_eq]; rfl
  | setEnabled id enabled => exact registry.entries_setEnabled id enabled
  | unregister | subscribe | unsubscribe => rfl

theorem delivered_eq (call : RegistryCall α) :
    registry.delivered call =
      (call.event? registry.ids).elim [] (registry.after call).deliveries := by
  have hmem : ∀ id, decide (id ∈ registry.ids) = registry.contains id := by
    intro id
    rw [Bool.eq_iff_iff, decide_eq_true_iff, mem_ids]
  cases call with
  | register r =>
    rw [delivered, after, h.register_eq, RegistryCall.event?, hmem]
    rfl
  | unregister id =>
    rw [RegistryCall.event?, hmem]
    rfl
  | setEnabled id enabled =>
    rw [delivered, after, RegistryCall.event?, setEnabled]
    by_cases hid : registry.contains id
    · rw [if_pos hid, if_pos (mem_ids.mpr hid)]
      rfl
    · rw [if_neg hid, if_neg (mt mem_ids.mp hid)]
      rfl
  | subscribe | unsubscribe => rfl

theorem ids_after (call : RegistryCall α) :
    (registry.after call).ids =
      (call.event? registry.ids).elim registry.ids (RegistryEvent.replayed registry.ids) := by
  rw [ids, h.entries_after]
  cases call with
  | register r =>
    ext id
    rw [RegistryCall.onEntries, List.mem_toFinset, mem_map_id_putEntry, ← List.mem_toFinset]
    exact Finset.mem_insert.symm
  | unregister other =>
    ext id
    simp only [RegistryCall.onEntries, RegistryCall.event?, Option.elim_some,
      RegistryEvent.replayed, ids, Finset.mem_erase, List.mem_toFinset, List.mem_map,
      List.mem_filter, decide_eq_true_eq]
    constructor
    · rintro ⟨r, ⟨hr, hne⟩, rfl⟩
      exact ⟨hne, r, hr, rfl⟩
    · rintro ⟨hne, r, hr, rfl⟩
      exact ⟨r, ⟨hr, hne⟩, rfl⟩
  | setEnabled other enabled =>
    rw [RegistryCall.onEntries, map_id_switched, RegistryCall.event?]
    split <;> rfl
  | subscribe | unsubscribe => rfl

theorem subscribers_after (call : RegistryCall α) :
    (registry.after call).subscribers = call.onSubscribers registry := by
  cases call with
  | register r => rw [after, h.register_eq]; rfl
  | setEnabled id enabled => rw [after, setEnabled]; split <;> rfl
  | unregister | subscribe | unsubscribe => rfl

theorem nextSubscription_after (call : RegistryCall α) :
    (registry.after call).nextSubscription =
      registry.nextSubscription + if call.Subscribes then 1 else 0 := by
  cases call with
  | register r => rw [after, h.register_eq]; rfl
  | setEnabled id enabled => rw [after, setEnabled]; split <;> rfl
  | unregister | subscribe | unsubscribe => rfl

theorem mem_numbers_after :
    number ∈ (registry.after call).numbers ↔
      number ∈ registry.numbers ∧ call ≠ .unsubscribe number ∨
        number = registry.nextSubscription ∧ call.Subscribes := by
  rw [numbers, h.subscribers_after]
  cases call with
  | subscribe answer =>
    simp [RegistryCall.onSubscribers, RegistryCall.Subscribes, numbers]
  | unsubscribe other =>
    simp only [RegistryCall.onSubscribers, RegistryCall.Subscribes, numbers, List.mem_map,
      List.mem_filter]
    grind
  | register | unregister | setEnabled =>
    simp [RegistryCall.onSubscribers, RegistryCall.Subscribes, numbers]

theorem after (hlisten : call.Listens) : (registry.after call).Orderly := by
  refine ⟨?_, fun number hnumber => ?_, ?_⟩
  · rw [numbers, h.subscribers_after]
    cases call with
    | subscribe answer =>
      rw [RegistryCall.onSubscribers, List.map_append, List.map_singleton]
      exact List.nodup_append.mpr ⟨h.nodup, List.nodup_singleton _, fun number hnumber _ hnext =>
        List.mem_singleton.mp hnext ▸ (h.below number hnumber).ne⟩
    | unsubscribe => exact h.nodup.sublist (List.filter_sublist.map _)
    | register | unregister | setEnabled => exact h.nodup
  · rw [h.nextSubscription_after]
    rcases h.mem_numbers_after.mp hnumber with ⟨hnumber, _⟩ | ⟨rfl, hsubscribes⟩
    · exact Nat.lt_add_right _ (h.below number hnumber)
    · rw [if_pos hsubscribes]
      exact Nat.lt_succ_self _
  · rw [h.subscribers_after]
    cases call with
    | subscribe answer =>
      intro subscriber hmem
      rcases List.mem_append.mp hmem with hmem | hmem
      · exact h.silent subscriber hmem
      · obtain rfl := List.mem_singleton.mp hmem
        exact hlisten
    | unsubscribe => exact fun subscriber hmem => h.silent subscriber (List.mem_filter.mp hmem).1
    | register | unregister | setEnabled => exact h.silent

theorem heard_delivered (call : RegistryCall α) (number : Nat) :
    heard number (registry.delivered call) =
      if number ∈ registry.numbers then (call.event? registry.ids).toList else [] := by
  rw [h.delivered_eq]
  cases hevent : call.event? registry.ids with
  | none => exact (ite_self []).symm
  | some event =>
    have hnumbers : (registry.after call).numbers = registry.numbers := by
      rw [numbers, h.subscribers_after]
      cases call with
      | subscribe | unsubscribe => cases hevent
      | register | unregister | setEnabled => rfl
    rw [Option.elim_some, heard_deliveries, hnumbers, h.nodup.count]
    split <;> rfl

end Orderly

theorem deliveredBy_append (calls further : List (RegistryCall α)) :
    registry.deliveredBy (calls ++ further) =
      registry.deliveredBy calls ++ (registry.run calls).deliveredBy further := by
  induction calls generalizing registry with
  | nil => rfl
  | cons call calls ih =>
    rw [List.cons_append, deliveredBy, deliveredBy, ih, List.append_assoc]
    rfl

theorem changes_append (calls further : List (RegistryCall α)) :
    registry.changes (calls ++ further) =
      registry.changes calls ++ (registry.run calls).changes further := by
  induction calls generalizing registry with
  | nil => rfl
  | cons call calls ih =>
    rw [List.cons_append, changes, changes, ih, List.append_assoc]
    rfl

theorem heard_append (number : Nat) (deliveries further : List Delivery) :
    heard number (deliveries ++ further) = heard number deliveries ++ heard number further :=
  List.filterMap_append

namespace Orderly

variable (h : registry.Orderly) (hlisten : ∀ call ∈ calls, call.Listens)

include h hlisten

theorem run : (registry.run calls).Orderly :=
  List.foldlRecOn (motive := Orderly) calls Registry.after h
    fun _ h call hcall => h.after (hlisten call hcall)

theorem nextSubscription_le_run :
    registry.nextSubscription ≤ (registry.run calls).nextSubscription := by
  refine (List.foldlRecOn (motive := fun later : Registry α => later.Orderly ∧
    registry.nextSubscription ≤ later.nextSubscription) calls Registry.after ⟨h, le_rfl⟩
    fun later hlater call hcall => ⟨hlater.1.after (hlisten call hcall), ?_⟩).2
  rw [hlater.1.nextSubscription_after]
  exact Nat.le_add_right_of_le hlater.2

/-- Who replays the changes knows the ids behind them. -/
theorem foldl_replayed_changes :
    (registry.changes calls).foldl RegistryEvent.replayed registry.ids =
      (registry.run calls).ids := by
  induction calls generalizing registry with
  | nil => rfl
  | cons call calls ih =>
    obtain ⟨hcall, hcalls⟩ := List.forall_mem_cons.mp hlisten
    have hids : (call.event? registry.ids).toList.foldl RegistryEvent.replayed registry.ids =
        (registry.after call).ids := by
      rw [h.ids_after]
      cases call.event? registry.ids <;> rfl
    rw [changes, List.foldl_append, hids, ih (h.after hcall) hcalls]
    rfl

theorem heard_of_subscribed (hnumber : number ∈ registry.numbers)
    (hstays : RegistryCall.unsubscribe number ∉ calls) :
    heard number (registry.deliveredBy calls) = registry.changes calls := by
  induction calls generalizing registry with
  | nil => rfl
  | cons call calls ih =>
    obtain ⟨hcall, hcalls⟩ := List.forall_mem_cons.mp hlisten
    obtain ⟨hne, hstays⟩ := not_or.mp (mt List.mem_cons.mpr hstays)
    have hnumber' : number ∈ (registry.after call).numbers :=
      h.mem_numbers_after.mpr (.inl ⟨hnumber, Ne.symm hne⟩)
    rw [deliveredBy, heard_append, h.heard_delivered, if_pos hnumber,
      ih (h.after hcall) hcalls hnumber' hstays]
    rfl

/-- Nobody hears anything under a number that was given away and has no subscriber. -/
theorem heard_of_unsubscribed (hbelow : number < registry.nextSubscription)
    (hnumber : number ∉ registry.numbers) : heard number (registry.deliveredBy calls) = [] := by
  induction calls generalizing registry with
  | nil => rfl
  | cons call calls ih =>
    obtain ⟨hcall, hcalls⟩ := List.forall_mem_cons.mp hlisten
    have hbelow' : number < (registry.after call).nextSubscription := by
      rw [h.nextSubscription_after]
      exact Nat.lt_add_right _ hbelow
    have hnumber' : number ∉ (registry.after call).numbers := by
      rw [h.mem_numbers_after]
      rintro (⟨hmem, _⟩ | ⟨heq, _⟩)
      · exact hnumber hmem
      · exact hbelow.ne heq
    rw [deliveredBy, heard_append, h.heard_delivered, if_neg hnumber,
      ih (h.after hcall) hcalls hbelow' hnumber']
    rfl

/-- Nobody hears anything under a number that is not given away yet. -/
theorem heard_of_unissued (hnumber : (registry.run calls).nextSubscription ≤ number) :
    heard number (registry.deliveredBy calls) = [] := by
  induction calls generalizing registry with
  | nil => rfl
  | cons call calls ih =>
    obtain ⟨hcall, hcalls⟩ := List.forall_mem_cons.mp hlisten
    have hbelow : registry.nextSubscription ≤ number :=
      (h.nextSubscription_le_run hlisten).trans hnumber
    have hnot : number ∉ registry.numbers := fun hmem => (h.below number hmem).not_ge hbelow
    rw [deliveredBy, heard_append, h.heard_delivered, if_neg hnot,
      ih (h.after hcall) hcalls hnumber]
    rfl

end Orderly

namespace Orderly

variable {before during later : List (RegistryCall α)} {answer : Bool → Option Bool}

/-- What is heard under a number is what happens between its subscription and its
unsubscription. -/
theorem heard_between (h : registry.Orderly)
    (hlisten : ∀ call ∈ before ++ .subscribe answer :: (during ++ later), call.Listens)
    (hstays : .unsubscribe (registry.run before).nextSubscription ∉ during)
    (hlater : ∀ call ∈ later.head?, call = .unsubscribe (registry.run before).nextSubscription) :
    heard (registry.run before).nextSubscription
        (registry.deliveredBy (before ++ .subscribe answer :: (during ++ later))) =
      ((registry.run before).after (.subscribe answer)).changes during := by
  obtain ⟨hbefore, hrest⟩ := List.forall_mem_append.mp hlisten
  obtain ⟨hanswer, hrest⟩ := List.forall_mem_cons.mp hrest
  obtain ⟨hduring, hafter⟩ := List.forall_mem_append.mp hrest
  have hrun := h.run hbefore
  have hopened := hrun.after hanswer
  have hnumber : (registry.run before).nextSubscription ∈
      ((registry.run before).after (.subscribe answer)).numbers :=
    hrun.mem_numbers_after.mpr (.inr ⟨rfl, rfl⟩)
  have hbelow := (hopened.below _ hnumber).trans_le (hopened.nextSubscription_le_run hduring)
  have hclosed : heard (registry.run before).nextSubscription
      ((((registry.run before).after (.subscribe answer)).run during).deliveredBy later) = [] := by
    cases later with
    | nil => rfl
    | cons call later =>
      obtain rfl := hlater call rfl
      have hduring' := hopened.run hduring
      obtain ⟨hcall, hlater'⟩ := List.forall_mem_cons.mp hafter
      refine (hduring'.after hcall).heard_of_unsubscribed hlater' hbelow ?_
      rw [hduring'.mem_numbers_after]
      rintro (⟨_, hne⟩ | ⟨_, hsubscribes⟩)
      · exact hne rfl
      · cases hsubscribes
  rw [deliveredBy_append, heard_append, h.heard_of_unissued hbefore le_rfl, List.nil_append,
    deliveredBy, delivered, List.nil_append, deliveredBy_append, heard_append, hclosed,
    List.append_nil]
  exact hopened.heard_of_subscribed hduring hnumber hstays

end Orderly

/-- Whether two registries look alike to the subscriber with a number. -/
structure AlikeTo (number : Nat) (registry other : Registry α) : Prop where
  left : registry.Orderly
  right : other.Orderly
  entries_eq : registry.entries = other.entries
  next_eq : registry.nextSubscription = other.nextSubscription
  mem_iff : number ∈ registry.numbers ↔ number ∈ other.numbers

namespace AlikeTo

variable (h : AlikeTo number registry other)

include h

theorem after (hlisten : call.Listens) :
    AlikeTo number (registry.after call) (other.after call) where
  left := h.left.after hlisten
  right := h.right.after hlisten
  entries_eq := by rw [h.left.entries_after, h.right.entries_after, h.entries_eq]
  next_eq := by rw [h.left.nextSubscription_after, h.right.nextSubscription_after, h.next_eq]
  mem_iff := by rw [h.left.mem_numbers_after, h.right.mem_numbers_after, h.mem_iff, h.next_eq]

theorem heard_delivered (call : RegistryCall α) :
    heard number (registry.delivered call) = heard number (other.delivered call) := by
  have hids : registry.ids = other.ids := by rw [ids, ids, h.entries_eq]
  rw [h.left.heard_delivered, h.right.heard_delivered, hids]
  exact if_congr h.mem_iff rfl rfl

theorem heard_deliveredBy (hlisten : ∀ call ∈ calls, call.Listens) :
    heard number (registry.deliveredBy calls) = heard number (other.deliveredBy calls) := by
  induction calls generalizing registry other with
  | nil => rfl
  | cons call calls ih =>
    obtain ⟨hcall, hcalls⟩ := List.forall_mem_cons.mp hlisten
    rw [deliveredBy, deliveredBy, heard_append, heard_append, h.heard_delivered,
      ih (h.after hcall) hcalls]

end AlikeTo

theorem registration?_after_setEnabled (h : id ∈ registry.ids) (enabled : Bool) :
    ((registry.after (.setEnabled id enabled)).registration? id).map (·.enabled) =
      some enabled := by
  have hcontains : registry.contains id := mem_ids.mp h
  rw [contains, Option.isSome_iff_exists] at hcontains
  obtain ⟨r, hr⟩ := hcontains
  have hid : r.id = id := by simpa using List.find?_some hr
  change (withId? (registry.after _).entries id).map _ = _
  rw [after, entries_setEnabled, RegistryCall.onEntries, withId?_switched,
    show withId? registry.entries id = some r from hr]
  simp [hid]

/-- A subscriber that only listens hears of each call between its subscription and its
unsubscription that has an event, once and in their order, and of nothing else, whoever else
unsubscribes. Replaying what it heard gives it at any time the ids that have a drawer, and what it
hears next is the event that the call has by these ids. -/
theorem listeners_hear_changes (calls : List (RegistryCall α))
    (hlisten : ∀ call ∈ calls, call.Listens) :
    (∀ before answer during later, calls = before ++ .subscribe answer :: (during ++ later) →
      let (opened, number) := (({} : Registry α).run before).subscribe answer
      .unsubscribe number ∉ during → (∀ call ∈ later.head?, call = .unsubscribe number) →
        heard number (({} : Registry α).deliveredBy calls) = opened.changes during ∧
        ∀ earlier further, during = earlier ++ further →
          let known := (opened.changes earlier).foldl RegistryEvent.replayed opened.ids
          known = (opened.run earlier).ids ∧
          ∀ call ∈ further.head?,
            opened.changes (earlier ++ [call]) =
              opened.changes earlier ++ (call.event? known).toList ∧
            ∀ id enabled, call.event? known = some (.enabledChanged id enabled) → id ∈ known ∧
              ((opened.run (earlier ++ [call])).registration? id).map (·.enabled) =
                some enabled) ∧
    ∀ earlier left further, calls = earlier ++ .unsubscribe left :: further →
      ∀ number, number ≠ left →
        heard number (({} : Registry α).deliveredBy calls) =
          heard number (({} : Registry α).deliveredBy (earlier ++ further)) := by
  have hempty : ({} : Registry α).Orderly := orderly_empty
  constructor
  · rintro before answer during later rfl hstays hlater
    refine ⟨hempty.heard_between hlisten hstays hlater, ?_⟩
    rintro earlier further rfl known
    obtain ⟨hbefore, hrest⟩ := List.forall_mem_append.mp hlisten
    obtain ⟨hanswer, hrest⟩ := List.forall_mem_cons.mp hrest
    have hearlier : ∀ call ∈ earlier, call.Listens := fun call hcall =>
      hrest call (List.mem_append_left _ (List.mem_append_left _ hcall))
    have hopened := (hempty.run hbefore).after hanswer
    have hknown : known = _ := hopened.foldl_replayed_changes hearlier
    refine ⟨hknown, fun call _ => ⟨?_, ?_⟩⟩
    · rw [changes_append, hknown, changes]
      exact congrArg _ (List.append_nil _)
    · intro id enabled hevent
      obtain ⟨rfl, hid⟩ := RegistryCall.event?_eq_enabledChanged hevent
      refine ⟨hid, ?_⟩
      rw [run, List.foldl_append]
      exact registration?_after_setEnabled (hknown ▸ hid) enabled
  · rintro earlier left further rfl number hne
    obtain ⟨hearlier, hrest⟩ := List.forall_mem_append.mp hlisten
    obtain ⟨hleft, hfurther⟩ := List.forall_mem_cons.mp hrest
    have hrun := hempty.run hearlier
    have halike : AlikeTo number ((({} : Registry α).run earlier).after (.unsubscribe left))
        (({} : Registry α).run earlier) := by
      refine ⟨hrun.after hleft, hrun, rfl, rfl, ?_⟩
      rw [hrun.mem_numbers_after]
      simp [RegistryCall.Subscribes, Ne.symm hne]
    rw [deliveredBy_append, deliveredBy_append, heard_append, heard_append,
      ← halike.heard_deliveredBy hfurther]
    rfl

/-- Two subscribers, the first of which leaves, and a drawer that is replaced and taken out. -/
def sharedCalls : List (RegistryCall Float) :=
  let registration : Registration Float := ⟨rectangleDrawer Settings.default, defaultPriority, true⟩
  [.subscribe fun _ => none, .register registration, .subscribe fun _ => none,
    .setEnabled "rect" false, .unsubscribe 0, .register registration, .unregister "rect",
    .setEnabled "rect" true, .unregister "rect"]

theorem sharedCalls_heard :
    (∀ call ∈ sharedCalls, call.Listens) ∧
      heard 1 (({} : Registry Float).deliveredBy sharedCalls) =
        [.enabledChanged "rect" false, .registered "rect" true,
          .unregistered "rect" true, .unregistered "rect" false] := by
  have hlisten : ∀ call ∈ sharedCalls, call.Listens := by
    simp [sharedCalls, RegistryCall.Listens]
  refine ⟨hlisten, ?_⟩
  have hnumber : (({} : Registry Float).run (sharedCalls.take 2)).nextSubscription = 1 := by
    decide +kernel
  have hstays : ∀ number, number ≠ 0 → .unsubscribe number ∉ sharedCalls.drop 3 := by
    simp [sharedCalls]
  obtain ⟨hsubscribed, _⟩ := listeners_hear_changes sharedCalls hlisten
  obtain ⟨hheard, _⟩ := hsubscribed (sharedCalls.take 2) (fun _ => none) (sharedCalls.drop 3) []
    (by rw [List.append_nil]; rfl) (hstays _ (by rw [hnumber]; decide)) nofun
  rw [← hnumber, hheard]
  decide +kernel

end Registry

end RegionDrawing
