import RegionDrawing.Canvas.Surface

/-! # Drawings as lists of commands

A drawing that only makes calls carries out its commands up to the first that is refused. All pieces
of drawings are of this kind: none of them catches a refusal or goes on after it.
-/
namespace RegionDrawing.Canvas

variable {α : Type}

/-- The drawing that makes one call after the other. -/
def callAll (commands : List (Command α)) : Drawing α Unit := forM commands call

@[simp] theorem callAll_nil : callAll ([] : List (Command α)) = pure () := rfl

@[simp] theorem callAll_cons (command : Command α) (commands : List (Command α)) :
    callAll (command :: commands) = (do call command; callAll commands) := rfl

@[simp] theorem callAll_append (commands further : List (Command α)) :
    callAll (commands ++ further) = (do callAll commands; callAll further) := List.forM_append

theorem callAll_map {β : Type} (f : β → Command α) (items : List β) :
    callAll (items.map f) = forM items fun item => call (f item) := List.forM_map

theorem callAll_flatMap {β : Type} (f : β → List (Command α)) (items : List β) :
    callAll (items.flatMap f) = forM items fun item => callAll (f item) := by
  induction items with
  | nil => rfl
  | cons item items ih => rw [List.flatMap_cons, callAll_append, ih]; rfl

variable {command : Command α} {kind : FallibleCall}

theorem paintFrom_of_infallible (h : command.fallible? = none) (refuses : Nat → Bool) (index : Nat)
    (commands : List (Command α)) :
    paintFrom refuses index (command :: commands) =
      let painting := paintFrom refuses index commands
      ⟨command :: painting.commands, painting.refusal⟩ := by
  simp only [paintFrom, h]

theorem paintFrom_of_refused (h : command.fallible? = some kind) {refuses : Nat → Bool}
    {index : Nat} (hrefused : refuses index) (commands : List (Command α)) :
    paintFrom refuses index (command :: commands) = ⟨[], some ⟨kind, index⟩⟩ := by
  simp only [paintFrom, h, if_pos hrefused]

theorem paintFrom_of_accepted (h : command.fallible? = some kind) {refuses : Nat → Bool}
    {index : Nat} (haccepted : ¬ refuses index) (commands : List (Command α)) :
    paintFrom refuses index (command :: commands) =
      let painting := paintFrom refuses (index + 1) commands
      ⟨command :: painting.commands, painting.refusal⟩ := by
  simp only [paintFrom, h, if_neg haccepted]

/-- What calls record and how they end is what a painting of their commands comes to. -/
theorem run_callAll (commands : List (Command α)) (surface : Surface α) :
    let painting := paintFrom surface.refuses surface.calls commands
    ∃ calls, (callAll commands).run surface =
      let surface := { surface with calls, recorded := surface.recorded ++ painting.commands }
      match painting.refusal with
      | none => .ok () surface
      | some refusal => .error refusal surface := by
  induction commands generalizing surface with
  | nil => exact ⟨surface.calls, by simp [paintFrom]⟩
  | cons command commands ih =>
    rw [callAll_cons, EStateM.run_bind]
    cases hfallible : command.fallible? with
    | none =>
      have hcall : (call command).run surface =
          .ok () { surface with recorded := surface.recorded ++ [command] } := by
        simp only [EStateM.run, call, hfallible]
      obtain ⟨calls, hrun⟩ := ih { surface with recorded := surface.recorded ++ [command] }
      rw [hcall, paintFrom_of_infallible hfallible]
      exact ⟨calls, by simpa using hrun⟩
    | some kind =>
      by_cases hrefused : surface.refuses surface.calls
      · have hcall : (call command).run surface =
            .error ⟨kind, surface.calls⟩ { surface with calls := surface.calls + 1 } := by
          simp only [EStateM.run, call, hfallible, if_pos hrefused]
        rw [hcall, paintFrom_of_refused hfallible hrefused]
        exact ⟨surface.calls + 1, by simp⟩
      · have hcall : (call command).run surface = .ok () { surface with
            calls := surface.calls + 1, recorded := surface.recorded ++ [command] } := by
          simp only [EStateM.run, call, hfallible, if_neg hrefused]
        obtain ⟨calls, hrun⟩ := ih { surface with
          calls := surface.calls + 1, recorded := surface.recorded ++ [command] }
        rw [hcall, paintFrom_of_accepted hfallible hrefused]
        exact ⟨calls, by simpa using hrun⟩

theorem draw_callAll (refuses : Nat → Bool) (commands : List (Command α)) :
    draw refuses (callAll commands) = paint refuses commands := by
  obtain ⟨calls, hrun⟩ := run_callAll commands { refuses }
  rw [draw, hrun, paint]
  cases hrefusal : (paintFrom refuses 0 commands).refusal with
  | none => simp [← hrefusal]
  | some refusal => simp [← hrefusal]

def fallibleCount (commands : List (Command α)) : Nat :=
  commands.countP fun command => command.fallible?.isSome

theorem fallibleCount_of_infallible (h : command.fallible? = none) (commands : List (Command α)) :
    fallibleCount (command :: commands) = fallibleCount commands :=
  List.countP_cons_of_neg (by simp [h])

theorem fallibleCount_of_fallible (h : command.fallible? = some kind)
    (commands : List (Command α)) :
    fallibleCount (command :: commands) = fallibleCount commands + 1 :=
  List.countP_cons_of_pos (by simp [h])

theorem paintFrom_never (index : Nat) (commands : List (Command α)) :
    paintFrom (fun _ => false) index commands = ⟨commands, none⟩ := by
  induction commands generalizing index with
  | nil => rfl
  | cons command commands ih =>
    cases hfallible : command.fallible? with
    | none => rw [paintFrom_of_infallible hfallible, ih]
    | some kind => rw [paintFrom_of_accepted hfallible Bool.false_ne_true, ih]

theorem commands_paintFrom {refuses : Nat → Bool} {index : Nat} {commands : List (Command α)}
    (h : (paintFrom refuses index commands).refusal = none) :
    (paintFrom refuses index commands).commands = commands := by
  induction commands generalizing index with
  | nil => rfl
  | cons command commands ih =>
    cases hfallible : command.fallible? with
    | none =>
      rw [paintFrom_of_infallible hfallible] at h ⊢
      exact congrArg (command :: ·) (ih h)
    | some kind =>
      by_cases hrefused : refuses index
      · rw [paintFrom_of_refused hfallible hrefused] at h
        cases h
      · rw [paintFrom_of_accepted hfallible hrefused] at h ⊢
        exact congrArg (command :: ·) (ih h)

theorem paintFrom_of_le {n index : Nat} {commands : List (Command α)}
    (h : index + fallibleCount commands ≤ n) :
    paintFrom (fun other => other = n) index commands = ⟨commands, none⟩ := by
  induction commands generalizing index with
  | nil => rfl
  | cons command commands ih =>
    cases hfallible : command.fallible? with
    | none =>
      rw [fallibleCount_of_infallible hfallible] at h
      rw [paintFrom_of_infallible hfallible, ih h]
    | some kind =>
      rw [fallibleCount_of_fallible hfallible] at h
      have hne : index ≠ n := by omega
      rw [paintFrom_of_accepted hfallible (by simpa using hne), ih (by omega)]

theorem paintFrom_append_of_refused {n index : Nat} {before : List (Command α)}
    (hbefore : index + fallibleCount before = n) (h : command.fallible? = some kind)
    (after : List (Command α)) :
    paintFrom (fun other => other = n) index (before ++ command :: after) =
      ⟨before, some ⟨kind, n⟩⟩ := by
  induction before generalizing index with
  | nil =>
    obtain rfl : index = n := hbefore
    exact paintFrom_of_refused h (decide_eq_true rfl) after
  | cons first before ih =>
    rw [List.cons_append]
    cases hfallible : first.fallible? with
    | none =>
      rw [fallibleCount_of_infallible hfallible] at hbefore
      rw [paintFrom_of_infallible hfallible, ih hbefore]
    | some other =>
      rw [fallibleCount_of_fallible hfallible] at hbefore
      have hne : index ≠ n := by omega
      rw [paintFrom_of_accepted hfallible (by simpa using hne), ih (by omega)]

theorem exists_fallible {n : Nat} {commands : List (Command α)} (h : n < fallibleCount commands) :
    ∃ before command kind after, commands = before ++ command :: after ∧
      fallibleCount before = n ∧ command.fallible? = some kind := by
  induction commands generalizing n with
  | nil => cases h
  | cons first commands ih =>
    cases hfallible : first.fallible? with
    | none =>
      rw [fallibleCount_of_infallible hfallible] at h
      obtain ⟨before, command, kind, after, rfl, rfl, hcommand⟩ := ih h
      exact ⟨first :: before, command, kind, after, rfl,
        fallibleCount_of_infallible hfallible before, hcommand⟩
    | some kind =>
      cases n with
      | zero => exact ⟨[], first, kind, commands, rfl, rfl, hfallible⟩
      | succ n =>
        rw [fallibleCount_of_fallible hfallible] at h
        obtain ⟨before, command, kind, after, rfl, rfl, hcommand⟩ := ih (Nat.lt_of_succ_lt_succ h)
        exact ⟨first :: before, command, kind, after, rfl,
          fallibleCount_of_fallible hfallible before, hcommand⟩

/-- Whether painting ends exactly at a fallible call that is refused: with that refusal and with
what comes before the call in the painting that nothing refuses, which stays as it is if it has no
such call. -/
def StopsAtRefusal (painting : (Nat → Bool) → Painting α) : Prop :=
  let whole := painting fun _ => false
  whole.refusal = none ∧ ∀ n,
    (fallibleCount whole.commands ≤ n → painting (fun index => index = n) = whole) ∧
    (n < fallibleCount whole.commands →
      ∃ before command kind after, whole.commands = before ++ command :: after ∧
        fallibleCount before = n ∧ command.fallible? = some kind ∧
        painting (fun index => index = n) = ⟨before, some ⟨kind, n⟩⟩)

theorem stopsAtRefusal_paint (commands : List (Command α)) :
    StopsAtRefusal fun refuses => paint refuses commands := by
  have hwhole : paint (fun _ => false) commands = ⟨commands, none⟩ := paintFrom_never 0 commands
  simp only [StopsAtRefusal, hwhole, true_and]
  refine fun n => ⟨fun hle => ?_, fun hlt => ?_⟩
  · exact paintFrom_of_le (by rwa [Nat.zero_add])
  · obtain ⟨before, command, kind, after, rfl, hbefore, hcommand⟩ := exists_fallible hlt
    exact ⟨before, command, kind, after, rfl, hbefore, hcommand,
      paintFrom_append_of_refused (by rwa [Nat.zero_add]) hcommand after⟩

theorem callAll_ite (condition : Prop) [Decidable condition] (commands : List (Command α)) :
    callAll (if condition then commands else []) =
      if condition then callAll commands else pure () := by
  split <;> rfl

namespace Drawing

theorem pen_eq (pen : Pen α) : Drawing.pen pen = callAll pen.apply := by
  simp [Drawing.pen, Pen.apply]

theorem solid_eq : (Drawing.solid : Drawing α Unit) = callAll Canvas.solid := by
  simp [Drawing.solid, Canvas.solid]

variable [Scalar α] (view : View α)

theorem dashed_eq : Drawing.dashed view = callAll (Canvas.dashed view) := by
  simp [Drawing.dashed, Canvas.dashed]

theorem polyline_eq (points : List (Point α)) (closed : Bool) :
    Drawing.polyline points closed view = callAll (tracePolyline points closed view) := by
  cases points with
  | nil => simp [Drawing.polyline, tracePolyline]
  | cons first rest =>
    simp [Drawing.polyline, tracePolyline, closing, callAll_map, callAll_ite]

theorem spans_eq (spans : List (Spline.Span α)) (closed : Bool) :
    Drawing.spans spans closed view = callAll (traceSpans spans closed view) := by
  cases spans with
  | nil => simp [Drawing.spans, traceSpans]
  | cons first rest =>
    simp [Drawing.spans, traceSpans, closing, callAll_map, callAll_ite]

theorem handles_eq (points : List (Point α)) (color : String) :
    Drawing.handles points color view = callAll (Canvas.handles points color view) := by
  simp [Drawing.handles, Canvas.handles, callAll_flatMap]

theorem label_eq (text : String) (anchor : Point α) (color : String) :
    Drawing.label text anchor color view = callAll (Canvas.label text anchor color view) := by
  simp only [Drawing.label, Canvas.label]
  split <;> simp

end Drawing

end RegionDrawing.Canvas
