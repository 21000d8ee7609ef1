import RegionDrawing.Engine.Basic

/-! # Runs of an engine

What can happen to an engine from outside, one call at a time, and what it means for a property to
hold throughout a run. The registry may be changed by others between two calls, in any way.
-/
namespace RegionDrawing

inductive Input (α : Type) where
  | down (event : PointerEvent α)
  | move (event : PointerEvent α)
  | up (event : PointerEvent α)
  | doubleClick (event : PointerEvent α)
  | key (key : Key)

inductive Call (α : Type) where
  | input (moment : Moment) (input : Input α)
  | setAsset (asset : String)
  | setFrame (frame : Rect α)
  | setZoom (zoom : α)
  | setMode (mode : Mode)
  | transform (moment : Moment) (id : ElementId) (t : Transform α)
  | patch (moment : Moment) (id : ElementId) (patch : Patch α)
  | remove (id : ElementId)
  | importText (text : String)
  | clear
  /-- Whoever shares the registry has changed it. -/
  | changeRegistry (registry : Registry α)

/-- What an engine answers to a call. -/
inductive Reply (α : Type) where
  | nothing
  | actions (actions : List (Action α))
  | accepted (accepted : Bool)
  | edited (action : Option (Action α))
  | cleared (count : Nat)
  | imported (result : Except ElementError Nat)

variable {α : Type}

def Session.take [Scalar α] (session : Session α) (elements : List (Element α)) :
    Input α → Session α × List (Action α)
  | .down event => session.pointerDown event elements
  | .move event => session.pointerMove event elements
  | .up event => session.pointerUp event elements
  | .doubleClick event => session.doubleClick event elements
  | .key key => session.keyDown key

namespace Engine

/-- What an engine makes of an event: the engine behind it and the actions that it reports. -/
def take [Scalar α] (engine : Engine α) (moment : Moment) : Input α → Engine α × List (Action α)
  | .down event => engine.pointerDown moment event
  | .move event => engine.pointerMove moment event
  | .up event => engine.pointerUp moment event
  | .doubleClick event => engine.doubleClick moment event
  | .key key => engine.keyDown moment key

/-- What an engine makes of a list of events: the engine behind them and all that they report. -/
def takeAll [Scalar α] (engine : Engine α) :
    List (Moment × Input α) → Engine α × List (Action α)
  | [] => (engine, [])
  | (moment, input) :: inputs =>
    let (engine, actions) := engine.take moment input
    let (engine, further) := engine.takeAll inputs
    (engine, actions ++ further)

variable [WrittenScalar α]

def after (engine : Engine α) : Call α → Engine α
  | .input moment input => (engine.take moment input).1
  | .setAsset asset => engine.setAsset asset
  | .setFrame frame => engine.setFrame frame
  | .setZoom zoom => engine.setZoom zoom
  | .setMode mode => (engine.setMode mode).1
  | .transform moment id t => (engine.transform moment id t).1
  | .patch moment id patch => (engine.patch moment id patch).1
  | .remove id => (engine.remove id).1
  | .importText text => (engine.importText text).1
  | .clear => engine.clear.1
  | .changeRegistry registry => { engine with session := { engine.session with registry } }

def run (engine : Engine α) (calls : List (Call α)) : Engine α := calls.foldl after engine

def reply (engine : Engine α) : Call α → Reply α
  | .input moment input => .actions (engine.take moment input).2
  | .setMode mode => .accepted (engine.setMode mode).2
  | .transform moment id t => .edited (engine.transform moment id t).2
  | .patch moment id patch => .accepted (engine.patch moment id patch).2
  | .remove id => .accepted (engine.remove id).2
  | .importText text => .imported (engine.importText text).2
  | .clear => .cleared engine.clear.2
  | .setAsset _ | .setFrame _ | .setZoom _ | .changeRegistry _ => .nothing

def replies (engine : Engine α) : List (Call α) → List (Reply α)
  | [] => []
  | call :: calls => engine.reply call :: (engine.after call).replies calls

/-- Whether `P` holds of every state of a run, the first and the last one included. -/
def Throughout (P : Engine α → Prop) (engine : Engine α) : List (Call α) → Prop
  | [] => P engine
  | call :: calls => P engine ∧ (engine.after call).Throughout P calls

/-- Whether `Q` holds of every call of a run and the state in which it is made. -/
def EachCall (Q : Engine α → Call α → Prop) (engine : Engine α) : List (Call α) → Prop
  | [] => True
  | call :: calls => Q engine call ∧ (engine.after call).EachCall Q calls

variable {P I : Engine α → Prop} {Q : Engine α → Call α → Prop}

theorem run_invariant (hstep : ∀ engine call, I engine → I (engine.after call))
    {engine : Engine α} (h : I engine) (calls : List (Call α)) : I (engine.run calls) := by
  induction calls generalizing engine with
  | nil => exact h
  | cons call calls ih => exact ih (hstep engine call h)

theorem run_invariant_of_eachCall
    (hstep : ∀ engine call, I engine → Q engine call → I (engine.after call))
    {engine : Engine α} (h : I engine) {calls : List (Call α)} (hcalls : engine.EachCall Q calls) :
    I (engine.run calls) := by
  induction calls generalizing engine with
  | nil => exact h
  | cons call calls ih => exact ih (hstep engine call h hcalls.1) hcalls.2

theorem Throughout.start {engine : Engine α} {calls : List (Call α)}
    (h : engine.Throughout P calls) : P engine := by
  cases calls with
  | nil => exact h
  | cons call calls => exact h.1

/-- A property that calls with `Q` keep, by an invariant that implies it, and that any other call
breaks at once, holds throughout a run exactly if all calls of the run are calls with `Q`. -/
theorem throughout_iff_eachCall (himp : ∀ engine, I engine → P engine)
    (hkeep : ∀ engine call, I engine → Q engine call → I (engine.after call))
    (hbreak : ∀ engine call, I engine → ¬ Q engine call → ¬ P (engine.after call))
    {engine : Engine α} (h : I engine) (calls : List (Call α)) :
    engine.Throughout P calls ↔ engine.EachCall Q calls := by
  induction calls generalizing engine with
  | nil => exact ⟨fun _ => trivial, fun _ => himp engine h⟩
  | cons call calls ih =>
    by_cases hq : Q engine call
    · have hrest := ih (hkeep engine call h hq)
      exact ⟨fun hp => ⟨hq, hrest.mp hp.2⟩, fun hc => ⟨himp engine h, hrest.mpr hc.2⟩⟩
    · exact ⟨fun hp => absurd hp.2.start (hbreak engine call h hq), fun hc => absurd hc.1 hq⟩

end Engine

end RegionDrawing
