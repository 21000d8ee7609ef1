import RegionDrawing.Proofs.Engine.Calls

/-! # Runs of a session

What can happen to a session from outside, one call at a time. Every event comes with the elements
that are on the media at that moment, and others may change the registry between two calls.
-/
namespace RegionDrawing

inductive SessionCall (α : Type) where
  | input (elements : List (Element α)) (input : Input α)
  | setMode (mode : Mode)
  | selectByShortcut (key : Char)
  | reset
  | forget (id : ElementId)
  /-- Whoever shares the registry has changed it. -/
  | changeRegistry (registry : Registry α)

namespace Session

variable {α : Type}

theorem state_setMode_cases (session : Session α) (mode : Mode) :
    (session.setMode mode).1.state = session.state ∨ (session.setMode mode).1.state = .idle := by
  unfold setMode
  split
  · exact .inr rfl
  · exact .inl rfl

theorem state_selectByShortcut_cases (session : Session α) (key : Char) :
    (session.selectByShortcut key).1.state = session.state ∨
      (session.selectByShortcut key).1.state = .idle := by
  unfold selectByShortcut
  split
  · exact session.state_setMode_cases _
  · exact .inl rfl

theorem state_forget_cases (session : Session α) (id : ElementId) :
    (session.forget id).state = session.state ∨ (session.forget id).state = .idle := by
  unfold forget
  dsimp only
  split
  · exact .inr rfl
  · exact .inl rfl

variable [Scalar α]

/-- The session behind a call and the actions that the call gives. Only events give any. -/
def react (session : Session α) : SessionCall α → Session α × List (Action α)
  | .input elements input => session.take elements input
  | .setMode mode => ((session.setMode mode).1, [])
  | .selectByShortcut key => ((session.selectByShortcut key).1, [])
  | .reset => (session.reset, [])
  | .forget id => (session.forget id, [])
  | .changeRegistry registry => ({ session with registry }, [])

def after (session : Session α) (call : SessionCall α) : Session α := (session.react call).1

def run (session : Session α) (calls : List (SessionCall α)) : Session α :=
  calls.foldl after session

@[simp] theorem run_nil (session : Session α) : session.run [] = session := rfl

theorem run_append (session : Session α) (before further : List (SessionCall α)) :
    session.run (before ++ further) = (session.run before).run further := List.foldl_append

theorem run_concat (session : Session α) (calls : List (SessionCall α)) (call : SessionCall α) :
    session.run (calls ++ [call]) = (session.run calls).after call := session.run_append calls [call]

def reports (session : Session α) : List (SessionCall α) → List (Action α)
  | [] => []
  | call :: calls => (session.react call).2 ++ (session.after call).reports calls

theorem reports_concat (session : Session α) (calls : List (SessionCall α))
    (call : SessionCall α) :
    session.reports (calls ++ [call]) =
      session.reports calls ++ ((session.run calls).react call).2 := by
  induction calls generalizing session with
  | nil => simp [reports]
  | cons first rest ih => simp [reports, ih, run]

theorem run_invariant {I : Session α → Prop} {Q : SessionCall α → Prop}
    (hstep : ∀ session call, I session → Q call → I (session.after call)) {session : Session α}
    (h : I session) {calls : List (SessionCall α)} (hcalls : ∀ call ∈ calls, Q call) :
    I (session.run calls) := by
  induction calls generalizing session with
  | nil => exact h
  | cons call calls ih =>
    obtain ⟨hcall, hrest⟩ := List.forall_mem_cons.mp hcalls
    exact ih (hstep session call h hcall) hrest

end Session

end RegionDrawing
