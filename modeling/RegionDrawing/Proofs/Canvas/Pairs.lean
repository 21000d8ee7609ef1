import Mathlib.Data.List.Induction
import RegionDrawing.Canvas.Pen

/-! # Pairs of save and restore

Whatever changes a style or leaves a mark stands inside a pair of `save` and `restore`. Drawings
made of such pairs leave the state of a canvas as they find it, so that no style of one reaches the
next.
-/
namespace RegionDrawing.Canvas

variable {α : Type}

namespace Command

def isPairing : Command α → Bool
  | save | restore => true
  | _ => false

def paintsPath : Command α → Bool
  | fill | stroke => true
  | _ => false

/-- Whether a command sets a style or leaves a mark. -/
def needsPair : Command α → Bool
  | fill | stroke | text .. => true
  | strokeStyle _ | fillStyle _ | lineWidth _ | lineDash _ | font _ => true
  | _ => false

def isSegment : Command α → Bool
  | beginPath | moveTo _ | lineTo _ | bezierTo .. | closePath | circle .. => true
  | _ => false

def dash? : Command α → Option (List α)
  | lineDash segments => some segments
  | _ => none

/-- The open pairs behind a command. A pair is given by the commands in it, without those of pairs
inside it; the innermost comes first. -/
def opening : List (List (Command α)) → Command α → List (List (Command α))
  | pairs, save => [] :: pairs
  | pairs, restore => pairs.tail
  | [], _ => []
  | inside :: pairs, command => (inside ++ [command]) :: pairs

end Command

/-- The pairs that are open behind commands, the innermost first. -/
def opened (commands : List (Command α)) : List (List (Command α)) :=
  commands.foldl Command.opening []

def lastDash? (commands : List (Command α)) : Option (List α) :=
  (commands.filterMap Command.dash?).getLast?

/-- Whether a command may come where the given pairs are open. -/
structure Command.FitsIn (command : Command α) (pairs : List (List (Command α))) : Prop where
  /-- No pair stands inside another. -/
  unnested : command = .save → pairs = []
  /-- What is restored was saved, and the last dashes set since then are no dashes. -/
  restored : command = .restore →
    ∃ inside ∈ pairs.head?, ∀ segments ∈ lastDash? inside, segments = []
  enclosed : command.needsPair → pairs ≠ []
  /-- A path is painted inside the pair that it was begun in. -/
  pathBegun : command.paintsPath → ∃ inside ∈ pairs.head?, .beginPath ∈ inside

def AllFit (commands : List (Command α)) : Prop :=
  ∀ before command after, commands = before ++ command :: after → command.FitsIn (opened before)

/-- Whether pairs are matched and hold what needs one. -/
structure WellPaired (commands : List (Command α)) : Prop where
  allFit : AllFit commands
  /-- In the end no pair is open. -/
  closed : opened commands = []

theorem opened_concat (commands : List (Command α)) (command : Command α) :
    opened (commands ++ [command]) = Command.opening (opened commands) command := by
  rw [opened, List.foldl_append, ← opened, List.foldl_cons, List.foldl_nil]

theorem opened_append_of_closed {commands : List (Command α)} (h : opened commands = [])
    (further : List (Command α)) : opened (commands ++ further) = opened further := by
  rw [opened, List.foldl_append, ← opened, h, ← opened]

theorem allFit_concat {commands : List (Command α)} {command : Command α} :
    AllFit (commands ++ [command]) ↔ AllFit commands ∧ command.FitsIn (opened commands) := by
  constructor
  · intro h
    refine ⟨fun before other after hsplit => h before other (after ++ [command]) ?_, ?_⟩
    · rw [hsplit, List.append_assoc, List.cons_append]
    · exact h commands command [] rfl
  · rintro ⟨hall, hlast⟩ before other after hsplit
    obtain rfl | ⟨after, last, rfl⟩ := after.eq_nil_or_concat
    · obtain ⟨rfl, hcommand⟩ := List.append_inj' hsplit rfl
      obtain rfl := List.singleton_inj.mp hcommand
      exact hlast
    · rw [List.concat_eq_append, ← List.cons_append, ← List.append_assoc] at hsplit
      exact hall before other after (List.append_inj' hsplit rfl).1

theorem wellPaired_nil : WellPaired ([] : List (Command α)) where
  allFit _ _ _ h := absurd h (by simp)
  closed := rfl

variable {commands further : List (Command α)}

theorem WellPaired.append (h : WellPaired commands) (hfurther : WellPaired further) :
    WellPaired (commands ++ further) where
  allFit := by
    have hall := hfurther.allFit
    clear hfurther
    induction further using List.reverseRecOn with
    | nil => rw [List.append_nil]; exact h.allFit
    | append_singleton further command ih =>
      obtain ⟨hbefore, hcommand⟩ := allFit_concat.mp hall
      rw [← List.append_assoc, allFit_concat, opened_append_of_closed h.closed]
      exact ⟨ih hbefore, hcommand⟩
  closed := by rw [opened_append_of_closed h.closed, hfurther.closed]

theorem WellPaired.flatMap {β : Type} {items : List β} {draw : β → List (Command α)}
    (h : ∀ item ∈ items, WellPaired (draw item)) : WellPaired (items.flatMap draw) := by
  induction items with
  | nil => exact wellPaired_nil
  | cons item items ih =>
    rw [List.flatMap_cons]
    exact (h item List.mem_cons_self).append (ih fun other hother => h other (.tail item hother))

theorem WellPaired.ite {condition : Prop} [Decidable condition] (h : WellPaired commands) :
    WellPaired (if condition then commands else []) := by
  split
  · exact h
  · exact wellPaired_nil

/-- Whether commands may stand in a pair by themselves. -/
structure PairBody (body : List (Command α)) : Prop where
  unpaired : ∀ command ∈ body, command.isPairing = false
  pathBegun : ∀ before command after, body = before ++ command :: after →
    command.paintsPath → .beginPath ∈ before
  solid : ∀ segments ∈ lastDash? body, segments = []

theorem Command.opening_of_unpaired {command : Command α} (h : command.isPairing = false)
    (inside : List (Command α)) (pairs : List (List (Command α))) :
    opening (inside :: pairs) command = (inside ++ [command]) :: pairs := by
  cases command <;> first | rfl | cases h

theorem Command.fitsIn_of_unpaired {command : Command α} (h : command.isPairing = false)
    {inside : List (Command α)} (hbegun : command.paintsPath → .beginPath ∈ inside) :
    command.FitsIn [inside] where
  unnested := by rintro rfl; cases h
  restored := by rintro rfl; cases h
  enclosed _ := List.cons_ne_nil inside []
  pathBegun hpaints := ⟨inside, rfl, hbegun hpaints⟩

theorem opened_save_cons {body : List (Command α)}
    (h : ∀ command ∈ body, command.isPairing = false) : opened (.save :: body) = [body] := by
  induction body using List.reverseRecOn with
  | nil => rfl
  | append_singleton body command ih =>
    rw [← List.cons_append, opened_concat,
      ih fun other hother => h other (List.mem_append_left _ hother)]
    exact Command.opening_of_unpaired (h command (by simp)) body []

theorem allFit_save_cons {body : List (Command α)}
    (hunpaired : ∀ command ∈ body, command.isPairing = false)
    (hbegun : ∀ before command after, body = before ++ command :: after →
      command.paintsPath → .beginPath ∈ before) : AllFit (.save :: body) := by
  induction body using List.reverseRecOn with
  | nil =>
    rw [← List.nil_append [Command.save], allFit_concat]
    exact ⟨wellPaired_nil.allFit,
      { unnested := fun _ => rfl, restored := nofun, enclosed := nofun, pathBegun := nofun }⟩
  | append_singleton body last ih =>
    have hbody : ∀ command ∈ body, command.isPairing = false := fun command hcommand =>
      hunpaired command (List.mem_append_left _ hcommand)
    rw [← List.cons_append, allFit_concat, opened_save_cons hbody]
    constructor
    · refine ih hbody fun before command after hsplit =>
        hbegun before command (after ++ [last]) ?_
      rw [hsplit, List.append_assoc, List.cons_append]
    · exact Command.fitsIn_of_unpaired (hunpaired last (by simp)) (hbegun body last [] rfl)

theorem PairBody.wellPaired {body : List (Command α)} (h : PairBody body) :
    WellPaired (.save :: body ++ [.restore]) where
  allFit := by
    rw [allFit_concat, opened_save_cons h.unpaired]
    exact ⟨allFit_save_cons h.unpaired h.pathBegun,
      { unnested := nofun, restored := fun _ => ⟨body, rfl, h.solid⟩,
        enclosed := nofun, pathBegun := nofun }⟩
  closed := by
    rw [opened_concat, opened_save_cons h.unpaired]
    rfl

/-- The styles that a pair brings back. -/
structure Styles (α : Type) where
  stroke : String
  fill : String
  width : α
  dash : List α
  font : String

/-- The current styles and those saved, the last saved first. -/
structure CanvasState (α : Type) where
  styles : Styles α
  saved : List (Styles α)

namespace CanvasState

def after (state : CanvasState α) : Command α → CanvasState α
  | .save => { state with saved := state.styles :: state.saved }
  | .restore =>
    match state.saved with
    | [] => state
    | styles :: saved => ⟨styles, saved⟩
  | .strokeStyle color => { state with styles := { state.styles with stroke := color } }
  | .fillStyle color => { state with styles := { state.styles with fill := color } }
  | .lineWidth width => { state with styles := { state.styles with width := width } }
  | .lineDash segments => { state with styles := { state.styles with dash := segments } }
  | .font font => { state with styles := { state.styles with font := font } }
  | _ => state

def afterAll (state : CanvasState α) (commands : List (Command α)) : CanvasState α :=
  commands.foldl after state

/-- How a state comes from an earlier one where the given pairs were opened since. -/
def Follows (state earlier : CanvasState α) : List (List (Command α)) → Prop
  | [] => state = earlier
  | [_] => state.saved = earlier.styles :: earlier.saved
  | _ => False

variable {state earlier : CanvasState α}

theorem Follows.after {pairs : List (List (Command α))} (h : state.Follows earlier pairs)
    {command : Command α} (hfits : command.FitsIn pairs) :
    (state.after command).Follows earlier (Command.opening pairs command) := by
  match pairs, h with
  | [], h =>
    obtain rfl : state = earlier := h
    cases command with
    | save => rfl
    | restore =>
      obtain ⟨inside, hinside, -⟩ := hfits.restored rfl
      cases hinside
    | beginPath | moveTo | lineTo | bezierTo | closePath | circle => rfl
    | fill | stroke | strokeStyle | fillStyle | lineWidth | lineDash | font | text =>
      exact absurd rfl (hfits.enclosed rfl)
  | [inside], h =>
    replace h : state.saved = earlier.styles :: earlier.saved := h
    cases command with
    | save => exact absurd (hfits.unnested rfl) (List.cons_ne_nil inside [])
    | restore => simp only [CanvasState.after, h]; rfl
    | _ => exact h

theorem Follows.afterAll {commands : List (Command α)} (h : AllFit commands) :
    (state.afterAll commands).Follows state (opened commands) := by
  induction commands using List.reverseRecOn with
  | nil => rfl
  | append_singleton commands command ih =>
    obtain ⟨hall, hcommand⟩ := allFit_concat.mp h
    rw [CanvasState.afterAll, List.foldl_append, ← CanvasState.afterAll, opened_concat]
    exact (ih hall).after hcommand

end CanvasState

theorem WellPaired.afterAll (h : WellPaired commands) (state : CanvasState α) :
    state.afterAll commands = state := by
  have hfollows : (state.afterAll commands).Follows state (opened commands) :=
    CanvasState.Follows.afterAll h.allFit
  rwa [h.closed] at hfollows

end RegionDrawing.Canvas
