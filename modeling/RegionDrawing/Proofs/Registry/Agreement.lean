import Mathlib.Data.List.Sort
import RegionDrawing.Proofs.Registry.History

/-! # Registries that hold the same registrations

Listings and lookups go by priority and name. Between registrations that agree in both, nothing but
the order in which the entries are kept decides, which is not part of what is registered. Without
such ties two registries that hold the same registrations answer all queries alike.
-/
namespace RegionDrawing

variable {α : Type}

namespace Registration

/-- Whether two registrations agree in priority and name, so that either may stand first. -/
def Ties (r s : Registration α) : Prop :=
  r.priority = s.priority ∧ r.drawer.info.name = s.drawer.info.name

variable {r s x : Registration α}

theorem MayPrecede.refl (r : Registration α) : r.MayPrecede r := .inr ⟨rfl, String.le_refl _⟩

theorem Ties.mayPrecede (h : r.Ties s) : r.MayPrecede s := .inr ⟨h.1, h.2 ▸ String.le_refl _⟩

theorem Ties.symm (h : r.Ties s) : s.Ties r := ⟨h.1.symm, h.2.symm⟩

theorem MayPrecede.ties (h : r.MayPrecede s) (hback : s.MayPrecede r) : r.Ties s := by
  rcases h with h | ⟨heq, hname⟩ <;> rcases hback with hback | ⟨heq', hname'⟩
  · omega
  · omega
  · omega
  · exact ⟨heq, String.le_antisymm hname hname'⟩

end Registration

namespace Registry

/-- A registry with other entries, such as its own in another order. -/
def keeping (registry : Registry α) (entries : List (Registration α)) : Registry α :=
  { registry with entries }

variable {p : Registration α → Bool} {listed other : List (Registration α)} {r s : Registration α}

theorem Ranked.eq_of_perm (h : Ranked listed) (hother : Ranked other) (hperm : listed.Perm other)
    (huntied : ∀ r ∈ listed, ∀ s ∈ listed, r.Ties s → r = s) : listed = other := by
  refine hperm.eq_of_pairwise (fun r s hr hs hrs hsr => ?_) h hother
  exact huntied r hr s (hperm.mem_iff.mpr hs) (hrs.ties hsr)

/-- The priorities and names of a listing come in one order, ties or not. -/
theorem Ranked.map_eq_of_perm (h : Ranked listed) (hother : Ranked other)
    (hperm : listed.Perm other) :
    listed.map (fun r => (r.priority, r.drawer.info.name)) =
      other.map fun r => (r.priority, r.drawer.info.name) := by
  let before (a b : Int × String) : Prop := a.1 < b.1 ∨ a.1 = b.1 ∧ a.2 ≤ b.2
  have hantisymm : ∀ a b, before a b → before b a → a = b := by
    rintro ⟨a, name⟩ ⟨b, name'⟩ (hlt | ⟨heq, hname⟩) (hlt' | ⟨heq', hname'⟩)
    · exact absurd hlt (Int.lt_asymm hlt')
    · exact absurd heq' (Int.ne_of_gt hlt)
    · exact absurd heq (Int.ne_of_gt hlt')
    · exact Prod.ext heq (String.le_antisymm hname hname')
  have hlisted : (listed.map fun r => (r.priority, r.drawer.info.name)).Pairwise before :=
    List.pairwise_map.mpr h
  have hranked : (other.map fun r => (r.priority, r.drawer.info.name)).Pairwise before :=
    List.pairwise_map.mpr hother
  exact (hperm.map _).eq_of_pairwise (fun a b _ _ => hantisymm a b) hlisted hranked

theorem Ranked.mayPrecede_of_find? (h : Ranked listed) (hr : listed.find? p = some r)
    (hs : s ∈ listed) (hps : p s) : r.MayPrecede s := by
  obtain ⟨-, before, after, rfl, hbefore⟩ := List.find?_eq_some_iff_append.mp hr
  rcases List.mem_append.mp hs with hs | hs
  · simpa [hps] using hbefore s hs
  · rcases List.mem_cons.mp hs with rfl | hs
    · exact .refl s
    · exact (List.pairwise_cons.mp (List.pairwise_append.mp h).2.1).1 s hs

theorem Ranked.find?_eq_of_perm (h : Ranked listed) (hother : Ranked other)
    (hperm : listed.Perm other)
    (huntied : ∀ r ∈ listed, ∀ s ∈ listed, p r → p s → r.Ties s →
      (∀ x ∈ listed, p x → r.MayPrecede x) → r = s) :
    listed.find? p = other.find? p := by
  cases hr : listed.find? p with
  | none =>
    refine (List.find?_eq_none.mpr fun s hs => ?_).symm
    exact List.find?_eq_none.mp hr s (hperm.mem_iff.mpr hs)
  | some r =>
    have hmem := List.mem_of_find?_eq_some hr
    have hpr := List.find?_some hr
    cases hs : other.find? p with
    | none => exact absurd hpr (List.find?_eq_none.mp hs r (hperm.mem_iff.mp hmem))
    | some s =>
      have hmem' : s ∈ listed := hperm.mem_iff.mpr (List.mem_of_find?_eq_some hs)
      have hps := List.find?_some hs
      have hlead : ∀ x ∈ listed, p x → r.MayPrecede x := fun x hx hpx =>
        h.mayPrecede_of_find? hr hx hpx
      have hback : s.MayPrecede r := hother.mayPrecede_of_find? hs (hperm.mem_iff.mp hmem) hpr
      rw [huntied r hmem s hmem' hpr hps ((hlead s hmem' hps).ties hback) hlead]

theorem sublist_insertRanked (r : Registration α) (listed : List (Registration α)) :
    listed.Sublist (insertRanked r listed) := by
  induction listed with
  | nil => exact List.nil_sublist _
  | cons s rest ih =>
    rw [insertRanked]
    split
    · exact List.sublist_cons_self r (s :: rest)
    · exact ih.cons_cons s

theorem sublist_foldl_insertRanked (entries listed : List (Registration α)) :
    listed.Sublist (entries.foldl (fun ranked r => insertRanked r ranked) listed) := by
  induction entries generalizing listed with
  | nil => exact List.Sublist.refl listed
  | cons r rest ih => exact (sublist_insertRanked r listed).trans (ih _)

theorem Ties.sublist_all (registry : Registry α) (h : r.Ties s) (rest : List (Registration α)) :
    [r, s].Sublist (registry.keeping (r :: s :: rest)).all := by
  have hfirst : insertRanked s [r] = [r, s] := by
    rw [insertRanked, Registration.not_precedes_iff.mpr h.mayPrecede]
    rfl
  change [r, s].Sublist (rest.foldl _ (insertRanked s [r]))
  rw [hfirst]
  exact sublist_foldl_insertRanked rest [r, s]

theorem foldl_firstRanked_of_lead (h : ∀ s ∈ listed, r.MayPrecede s) :
    listed.foldl firstRanked (some r) = some r := by
  induction listed with
  | nil => rfl
  | cons s rest ih =>
    obtain ⟨hs, hrest⟩ := List.forall_mem_cons.mp h
    rw [List.foldl_cons, firstRanked, Registration.not_precedes_iff.mpr hs]
    exact ih hrest

theorem find?_all_of_lead (registry : Registry α) (hr : p r) {rest : List (Registration α)}
    (hlead : ∀ s ∈ rest, p s → r.MayPrecede s) :
    (registry.keeping (r :: rest)).all.find? p = some r := by
  rw [all, keeping, Ranked.find?_foldl_insertRanked .nil, List.filter_cons_of_pos hr]
  refine foldl_firstRanked_of_lead fun s hs => ?_
  obtain ⟨hmem, hps⟩ := List.mem_filter.mp hs
  exact hlead s hmem hps

theorem exists_perm_cons_cons {entries : List (Registration α)} (hr : r ∈ entries)
    (hs : s ∈ entries) (hne : r ≠ s) :
    ∃ rest, entries.Perm (r :: s :: rest) ∧ entries.Perm (s :: r :: rest) := by
  obtain ⟨before, after, rfl⟩ := List.append_of_mem hr
  have hs : s ∈ before ++ after := by simpa [Ne.symm hne] using hs
  obtain ⟨before', after', hsplit⟩ := List.append_of_mem hs
  have hrest : (before ++ after).Perm (s :: (before' ++ after')) := by
    rw [hsplit]
    exact List.perm_middle
  have hperm := List.perm_middle.trans (hrest.cons r)
  exact ⟨before' ++ after', hperm, hperm.trans (.swap s r _)⟩

theorem not_sublist_swap {ids : List String} (h : ids.Nodup) {a b : String}
    (hab : [a, b].Sublist ids) : ¬ [b, a].Sublist ids := by
  intro hba
  induction ids with
  | nil => cases hab
  | cons first rest ih =>
    obtain ⟨hfirst, hrest⟩ := List.nodup_cons.mp h
    have hout : ∀ {c d : String}, [c, d].Sublist rest → c ∈ rest ∧ d ∈ rest := fun hsub =>
      ⟨hsub.subset (by simp), hsub.subset (by simp)⟩
    cases hab with
    | cons _ hab =>
      cases hba with
      | cons _ hba => exact ih hrest hab hba
      | cons_cons _ _ => exact hfirst (hout hab).2
    | cons_cons _ hb =>
      cases hba with
      | cons _ hba => exact hfirst (hout hba).2
      | cons_cons _ _ => exact hfirst (hb.subset (by simp))

/-- Whether no two of the registrations of a sort that calls leave agree in priority and name. -/
def Untied (calls : List (RegistryCall α)) (p : Registration α → Bool) : Prop :=
  ∀ r s, Registered calls r.id r → Registered calls s.id s → p r → p s → r.Ties s → r = s

/-- Whether at most one of the registrations of a sort that calls leave can stand first. -/
def LeadUntied (calls : List (RegistryCall α)) (p : Registration α → Bool) : Prop :=
  ∀ r s, Registered calls r.id r → Registered calls s.id s → p r → p s → r.Ties s →
    (∀ x, Registered calls x.id x → p x → r.MayPrecede x) → r = s

variable {calls : List (RegistryCall α)} {entries entries' : List (Registration α)}

theorem mem_entries_iff (hperm : entries.Perm (({} : Registry α).run calls).entries) :
    r ∈ entries ↔ Registered (({} : Registry α).log calls) r.id r := by
  rw [hperm.mem_iff, registered_log_iff, and_iff_left rfl]

/-- Runs leave the same registrations exactly if they leave the same entries in some order. -/
theorem same_registrations_iff {calls' : List (RegistryCall α)} :
    (∀ id r, Registered (({} : Registry α).log calls) id r ↔
        Registered (({} : Registry α).log calls') id r) ↔
      (({} : Registry α).run calls).entries.Perm (({} : Registry α).run calls').entries := by
  constructor
  · intro hsame
    refine (List.perm_ext_iff_of_nodup (nodup_entries_run calls).of_map
      (nodup_entries_run calls').of_map).mpr fun r => ?_
    rw [mem_entries_iff (.refl _), mem_entries_iff (.refl _)]
    exact hsame r.id r
  · intro hperm id r
    rw [registered_log_iff, registered_log_iff, hperm.mem_iff]

theorem ofShortcut?_eq (registry : Registry α) (key : Char) :
    registry.ofShortcut? key =
      (registry.all.find? fun r =>
        r.enabled && r.drawer.info.shortcut.toLower = key.toLower).map (·.drawer) := by
  simp only [ofShortcut?, enabled, List.find?_map, List.find?_filter, Function.comp_apply,
    Bool.decide_and, Bool.decide_eq_true]

/-- Where registrations tie, the order in which they are kept shows in the listing. -/
theorem exists_listings_of_tied (hnodup : (entries.map (·.id)).Nodup) (registry : Registry α)
    (hr : r ∈ entries) (hs : s ∈ entries) (hpr : p r) (hps : p s) (hties : r.Ties s)
    (hne : r ≠ s) :
    ∃ first second : List (Registration α), first.Perm entries ∧ second.Perm entries ∧
      ((registry.keeping first).all.filter p).map (·.id) ≠
        ((registry.keeping second).all.filter p).map (·.id) := by
  obtain ⟨rest, hfirst, hsecond⟩ := exists_perm_cons_cons hr hs hne
  refine ⟨_, _, hfirst.symm, hsecond.symm, fun heq => ?_⟩
  have hlisted : ∀ {r s : Registration α}, p r → p s → r.Ties s →
      [r.id, s.id].Sublist
        (((registry.keeping (r :: s :: rest)).all.filter p).map (·.id)) := by
    intro r s hpr hps hties
    have hsub := ((Ties.sublist_all registry hties rest).filter p).map (·.id)
    simpa [hpr, hps] using hsub
  have hfiltered : (((registry.keeping (r :: s :: rest)).all.filter p).map (·.id)).Nodup :=
    (((perm_all _).trans hfirst.symm).map _ |>.nodup_iff.mpr hnodup).sublist
      (List.filter_sublist.map _)
  refine not_sublist_swap hfiltered (hlisted hpr hps hties) ?_
  rw [heq]
  exact hlisted hps hpr hties.symm

theorem exists_finds_of_tied (registry : Registry α) (hr : r ∈ entries) (hs : s ∈ entries)
    (hpr : p r) (hps : p s) (hties : r.Ties s) (hlead : ∀ x ∈ entries, p x → r.MayPrecede x)
    (hne : r ≠ s) :
    ∃ first second : List (Registration α), first.Perm entries ∧ second.Perm entries ∧
      (registry.keeping first).all.find? p ≠ (registry.keeping second).all.find? p := by
  obtain ⟨rest, hfirst, hsecond⟩ := exists_perm_cons_cons hr hs hne
  refine ⟨_, _, hfirst.symm, hsecond.symm, ?_⟩
  have hbehind : ∀ x ∈ s :: rest, p x → r.MayPrecede x := fun x hx =>
    hlead x (hfirst.mem_iff.mpr (.tail r hx))
  have hbehind' : ∀ x ∈ r :: rest, p x → s.MayPrecede x := fun x hx hpx =>
    hties.symm.mayPrecede.trans (hlead x (hsecond.mem_iff.mpr (.tail s hx)) hpx)
  rw [find?_all_of_lead registry hpr hbehind, find?_all_of_lead registry hps hbehind']
  exact fun heq => hne (Option.some.inj heq)

section
variable {registry other : Registry α}
  (hrun : registry.entries.Perm (({} : Registry α).run calls).entries)
  (hsame : registry.entries.Perm other.entries)
include hrun

theorem mem_all_iff : r ∈ registry.all ↔ Registered (({} : Registry α).log calls) r.id r :=
  registry.perm_all.mem_iff.trans (mem_entries_iff hrun)

include hsame

theorem filter_all_of_untied (h : Untied (({} : Registry α).log calls) p) :
    registry.all.filter p = other.all.filter p := by
  have hall : registry.all.Perm other.all :=
    registry.perm_all.trans (hsame.trans other.perm_all.symm)
  refine Ranked.eq_of_perm (registry.ranked_all.filter p) (other.ranked_all.filter p)
    (hall.filter p) fun r hr s hs hties => ?_
  obtain ⟨hr, hpr⟩ := List.mem_filter.mp hr
  obtain ⟨hs, hps⟩ := List.mem_filter.mp hs
  exact h r s ((mem_all_iff hrun).mp hr) ((mem_all_iff hrun).mp hs) hpr hps hties

theorem find?_all_of_untied (h : LeadUntied (({} : Registry α).log calls) p) :
    registry.all.find? p = other.all.find? p := by
  have hall : registry.all.Perm other.all :=
    registry.perm_all.trans (hsame.trans other.perm_all.symm)
  refine Ranked.find?_eq_of_perm registry.ranked_all other.ranked_all hall
    fun r hr s hs hpr hps hties hlead => ?_
  refine h r s ((mem_all_iff hrun).mp hr) ((mem_all_iff hrun).mp hs) hpr hps hties
    fun x hx hpx => ?_
  exact hlead x ((mem_all_iff hrun).mpr hx) hpx

end

/-- Two registries with the same registrations, whatever runs they come from and in whatever orders
they keep their entries, list the same ones with the same priorities and names in turn. A listing is
the same if no two of its registrations agree in priority and name, and a lookup if no two do that
could stand first; otherwise it depends on the order in which the entries are kept. -/
theorem queries_agree_without_ties {calls' : List (RegistryCall α)}
    (hperm : entries.Perm (({} : Registry α).run calls).entries)
    (hperm' : entries'.Perm (({} : Registry α).run calls').entries)
    (hsame : ∀ id r, Registered (({} : Registry α).log calls) id r ↔
      Registered (({} : Registry α).log calls') id r) :
    let log := ({} : Registry α).log calls
    let registry := (({} : Registry α).run calls).keeping entries
    let other := (({} : Registry α).run calls').keeping entries'
    (registry.all.Perm other.all ∧
      registry.all.map (fun r => (r.priority, r.drawer.info.name)) =
        other.all.map fun r => (r.priority, r.drawer.info.name)) ∧
    (Untied log (fun _ => true) → registry.all = other.all) ∧
    (Untied log (fun r => r.enabled) → registry.enabled = other.enabled) ∧
    (∀ category, Untied log (fun r => r.drawer.info.category = category) →
      registry.ofCategory category = other.ofCategory category) ∧
    (∀ key : Char,
      LeadUntied log (fun r => r.enabled && r.drawer.info.shortcut.toLower = key.toLower) →
        registry.ofShortcut? key = other.ofShortcut? key) ∧
    (∀ kind, LeadUntied log (fun r => r.drawer.info.kind = kind) →
      registry.drawerFor? kind = other.drawerFor? kind) ∧
    ∀ p : Registration α → Bool,
      (¬ Untied log p → ∃ first second : List (Registration α),
        first.Perm entries ∧ second.Perm entries ∧
        ((registry.keeping first).all.filter p).map (·.id) ≠
          ((registry.keeping second).all.filter p).map (·.id)) ∧
      (¬ LeadUntied log p → ∃ first second : List (Registration α),
        first.Perm entries ∧ second.Perm entries ∧
        (registry.keeping first).all.find? p ≠
          (registry.keeping second).all.find? p) := by
  intro log registry other
  have hentries : entries.Perm entries' :=
    hperm.trans ((same_registrations_iff.mp hsame).trans hperm'.symm)
  have hnodup : (entries.map (·.id)).Nodup :=
    (hperm.map _).nodup_iff.mpr (nodup_entries_run calls)
  have hall : registry.all.Perm other.all :=
    registry.perm_all.trans (hentries.trans other.perm_all.symm)
  have hlisted : ∀ p, Untied log p → registry.all.filter p = other.all.filter p :=
    fun _ huntied => filter_all_of_untied hperm hentries huntied
  have hfound : ∀ p, LeadUntied log p → registry.all.find? p = other.all.find? p :=
    fun _ huntied => find?_all_of_untied hperm hentries huntied
  refine ⟨⟨hall, registry.ranked_all.map_eq_of_perm other.ranked_all hall⟩, fun huntied => ?_,
    fun huntied => ?_, fun category huntied => ?_, fun key huntied => ?_, fun kind huntied => ?_,
    fun p => ⟨fun htied => ?_, fun htied => ?_⟩⟩
  · simpa using hlisted _ huntied
  · rw [enabled, enabled, hlisted _ huntied]
  · rw [ofCategory, ofCategory, hlisted _ huntied]
  · rw [ofShortcut?_eq, ofShortcut?_eq, hfound _ huntied]
  · rw [drawerFor?_eq, drawerFor?_eq, hfound _ huntied]
  · simp only [Untied, not_forall] at htied
    obtain ⟨r, s, hr, hs, hpr, hps, hties, hne⟩ := htied
    exact exists_listings_of_tied hnodup registry ((mem_entries_iff hperm).mpr hr)
      ((mem_entries_iff hperm).mpr hs) hpr hps hties hne
  · simp only [LeadUntied, not_forall] at htied
    obtain ⟨r, s, hr, hs, hpr, hps, hties, hlead, hne⟩ := htied
    exact exists_finds_of_tied registry ((mem_entries_iff hperm).mpr hr)
      ((mem_entries_iff hperm).mpr hs) hpr hps hties
      (fun x hx => hlead x ((mem_entries_iff hperm).mp hx)) hne

/-- A rectangle drawer under another id and with a priority. All of them have one name. -/
def rectangleAs (id : String) (priority : Int) : Registration Float :=
  let drawer := rectangleDrawer Settings.default
  ⟨{ drawer with info := { drawer.info with id } }, priority, true⟩

/-- Drawers of different priorities, of which one was unregistered in between, agree with the same
two in the other order. -/
theorem queries_agree_without_ties_two :
    let calls : List (RegistryCall Float) := [.register (rectangleAs "a" 1),
      .register (rectangleAs "b" 2), .unregister "a", .register (rectangleAs "a" 1)]
    let calls' : List (RegistryCall Float) :=
      [.register (rectangleAs "a" 1), .register (rectangleAs "b" 2)]
    let registry := ({} : Registry Float).run calls
    let other := ({} : Registry Float).run calls'
    (registry.entries.Perm registry.entries ∧ other.entries.reverse.Perm other.entries ∧
      ∀ id r, Registered (({} : Registry Float).log calls) id r ↔
        Registered (({} : Registry Float).log calls') id r) ∧
      Untied (({} : Registry Float).log calls) (fun _ => true) ∧
      registry.all = (other.keeping other.entries.reverse).all ∧
      (registry.all.map fun r => r.id) = ["a", "b"] := by
  intro calls calls' registry other
  have hperm : registry.entries.Perm registry.entries := .refl _
  have hperm' : other.entries.reverse.Perm other.entries := List.reverse_perm _
  have hsame : ∀ id r, Registered (({} : Registry Float).log calls) id r ↔
      Registered (({} : Registry Float).log calls') id r :=
    same_registrations_iff.mpr (.swap _ _ [])
  have huntied : Untied (({} : Registry Float).log calls) (fun _ => true) := by
    have hentries : registry.entries = [rectangleAs "b" 2, rectangleAs "a" 1] := rfl
    intro r s hr hs _ _ hties
    rw [← mem_entries_iff hperm, hentries, List.mem_pair] at hr hs
    rcases hr with rfl | rfl <;> rcases hs with rfl | rfl
    · rfl
    · exact absurd hties.1 (by decide)
    · exact absurd hties.1 (by decide)
    · rfl
  obtain ⟨-, hall, -⟩ := queries_agree_without_ties hperm hperm' hsame
  refine ⟨⟨hperm, hperm', hsame⟩, huntied, hall huntied, ?_⟩
  decide +kernel

/-- Two drawers that tie, registered in the one order and in the other: the same registrations, and
yet no listing and no lookup is the same. -/
theorem tied_registrations_disagree :
    let calls : List (RegistryCall Float) :=
      [.register (rectangleAs "a" 1), .register (rectangleAs "b" 1)]
    let registry := ({} : Registry Float).run calls
    let other := ({} : Registry Float).run calls.reverse
    (∀ id r, Registered (({} : Registry Float).log calls) id r ↔
        Registered (({} : Registry Float).log calls.reverse) id r) ∧
      registry.all.map (·.id) ≠ other.all.map (·.id) ∧
      registry.enabled.map (·.info.id) ≠ other.enabled.map (·.info.id) ∧
      (registry.ofCategory .shape).map (·.info.id) ≠ (other.ofCategory .shape).map (·.info.id) ∧
      (registry.ofShortcut? 'r').map (·.info.id) ≠ (other.ofShortcut? 'r').map (·.info.id) ∧
      (registry.drawerFor? .rect).map (·.info.id) ≠ (other.drawerFor? .rect).map (·.info.id) := by
  intro calls registry other
  refine ⟨same_registrations_iff.mpr (.swap _ _ []), ?_⟩
  decide +kernel

end Registry

end RegionDrawing
