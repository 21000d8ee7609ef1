import Mathlib.Data.List.Induction
import RegionDrawing.Proofs.Session.OpenGesture

/-! # Gestures of several clicks

A polygon or a path takes the points of the clicks since its gesture began, without repetitions,
and no others: what happens in between changes nothing, and what came before is gone. The first
double click behind two points makes the element.
-/
namespace RegionDrawing

variable {α : Type}

def Input.isEscape : Input α → Bool
  | .key pressed => pressed.isEscape
  | _ => false

section
variable [Scalar α]

/-- The point that an event adds to a gesture of several clicks. A press off the media adds none. -/
def Input.click? : Input α → Option (Point α)
  | .down event => if event.within then some event.point else none
  | _ => none

theorem Input.click?_eq_some {input : Input α} {p : Point α} (h : input.click? = some p) :
    ∃ event, input = .down event ∧ event.within ∧ event.point = p := by
  cases input with
  | down event =>
    simp only [click?, Option.ite_none_right_eq_some] at h
    exact ⟨event, rfl, h.1, Option.some.inj h.2⟩
  | _ => cases h

namespace SessionCall

def click? : SessionCall α → Option (Point α)
  | .input _ given => given.click?
  | _ => none

/-- Whether a call is an event that does not cancel, with defined coordinates. -/
def Continues : SessionCall α → Prop
  | .input _ given => given.isDefined ∧ given.isEscape = false
  | _ => False

theorem Continues.isDefined {call : SessionCall α} (h : call.Continues) : call.isDefined := by
  cases call with
  | input elements given => exact h.1
  | _ => cases h

end SessionCall

def clicks (calls : List (SessionCall α)) : List (Point α) := calls.filterMap (·.click?)

/-- Whether no double click comes when two points are kept of the clicks before it. -/
def Unfinished (calls : List (SessionCall α)) : Prop :=
  ∀ before elements event later,
    calls = before ++ .input elements (.doubleClick event) :: later →
      (Polyline.kept (clicks before)).length < 2

theorem kept_clicks_concat (calls : List (SessionCall α)) (call : SessionCall α) :
    Polyline.kept (clicks (calls ++ [call])) =
      call.click?.elim (Polyline.kept (clicks calls))
        (Polyline.append (Polyline.kept (clicks calls))) := by
  simp only [clicks, List.filterMap_append]
  cases hclick : call.click? with
  | none => simp [hclick]
  | some p => simp [hclick, Polyline.kept_concat]

theorem Unfinished.of_concat {calls : List (SessionCall α)} {call : SessionCall α}
    (h : Unfinished (calls ++ [call])) : Unfinished calls := by
  rintro before elements event later rfl
  exact h before elements event (later ++ [call]) (by simp)

theorem isFinite_of_mem_clicks [LawfulScalar α] {calls : List (SessionCall α)}
    (hcalls : ∀ call ∈ calls, call.isDefined) {p : Point α} (hp : p ∈ clicks calls) :
    p.isFinite := by
  obtain ⟨call, hcall, hclick⟩ := List.mem_filterMap.mp hp
  have hdefined := hcalls call hcall
  cases call with
  | input elements given =>
    obtain ⟨event, rfl, _, rfl⟩ := Input.click?_eq_some hclick
    rw [PointerEvent.point, Point.isFinite_clamped]
    exact hdefined
  | _ => cases hclick

end

theorem OutlineKind.isValid_shape [Scalar α] (kind : OutlineKind) {points : List (Point α)}
    (hlength : 2 ≤ points.length) (hfinite : ∀ p ∈ points, p.isFinite) (closed : Bool) :
    (kind.shape ⟨points, closed⟩).isValid := by
  have hall : points.all Point.isFinite := List.all_eq_true.mpr hfinite
  cases kind <;> simp [shape, Shape.isValid, hlength, hall]

namespace Session

variable [Scalar α]

section
variable {session : Session α} {id : String} {input : Input α}

theorem take_off (elements : List (Element α)) {event : PointerEvent α}
    (hclick : (Input.down event).click? = none) :
    session.take elements (.down event) = (session, []) := by
  have hwithin : ¬ event.within := by simpa [Input.click?] using hclick
  exact if_neg hwithin

theorem take_key (hmode : session.mode = .draw id) (elements : List (Element α)) {key : Key}
    (hescape : (Input.key key : Input α).isEscape = false) :
    session.take elements (.key key) = (session, []) := by
  replace hescape : key.isEscape = false := hescape
  simp [take, keyDown, hescape, hmode]

/-- Between gestures nothing but a click means anything to a drawing mode, except Escape. -/
theorem take_resting (hresting : session.state.isResting) (hmode : session.mode = .draw id)
    (elements : List (Element α)) (hclick : input.click? = none)
    (hescape : input.isEscape = false) : session.take elements input = (session, []) := by
  cases input with
  | down event => exact take_off elements hclick
  | move event | up event | doubleClick event =>
    rcases GestureState.cases_of_isResting hresting with hstate | hstate | hstate <;>
      simp [take, pointerMove, pointerUp, doubleClick, hstate, hmode]
  | key key => exact take_key hmode elements hescape

end

/-- The drawer for polygons or paths is active and has collected points; without any, no gesture is
open. -/
structure Collects (session : Session α) (kind : OutlineKind) (settings : Settings α)
    (points : List (Point α)) : Prop where
  drawer : session.activeDrawer? = some (polylineDrawer kind settings)
  state : session.state = .collecting points ∧ points ≠ [] ∨
    session.state.isResting ∧ points = []

namespace Collects

variable {session : Session α} {kind : OutlineKind} {settings : Settings α}
  {points : List (Point α)}

theorem points_eq (h : session.Collects kind settings points) : session.state.points = points := by
  rcases h.state with ⟨hstate, _⟩ | ⟨hresting, rfl⟩
  · rw [hstate]
    rfl
  · rcases GestureState.cases_of_isResting hresting with hstate | hstate | hstate
    all_goals
      rw [hstate]
      rfl

theorem editor?_eq (h : session.Collects kind settings points) :
    session.state.editor? = none := by
  rcases h.state with ⟨hstate, _⟩ | ⟨hresting, _⟩
  · rw [hstate]
    rfl
  · exact (GestureState.isResting_iff.mp hresting).2

theorem publish (h : session.Collects kind settings points) {points' : List (Point α)}
    (hne : points' ≠ []) (outcome : Outcome α) :
    ({ session with state := .collecting points' }.publish outcome).1.Collects kind settings
      points' := by
  rw [publish_fst]
  exact ⟨h.drawer, .inl ⟨rfl, hne⟩⟩

theorem take_click (h : session.Collects kind settings points) (elements : List (Element α))
    {event : PointerEvent α} (hwithin : event.within) :
    session.take elements (.down event) =
      { session with state := .collecting (Polyline.append points event.point) }.publish
        (PolylineDrawer.start kind { event, elements, points }) := by
  obtain ⟨id, hmode, hget⟩ := activeDrawer?_eq_some_iff.mp h.drawer
  have hediting := h.editor?_eq
  have hdraw : session.pointerDown event elements = session.drawStart id event elements := by
    unfold pointerDown
    rw [if_pos hwithin, hmode]
    cases hstate : session.state with
    | editing editor =>
      rw [hstate] at hediting
      cases hediting
    | _ => rfl
  rw [take, hdraw, drawStart, hget, ← h.points_eq]
  rfl

theorem take_early (h : session.Collects kind settings points) (hlength : points.length < 2)
    (elements : List (Element α)) (event : PointerEvent α) :
    session.take elements (.doubleClick event) = (session, []) := by
  rcases h.state with ⟨hstate, _⟩ | ⟨hresting, _⟩
  · unfold Session.take doubleClick
    rw [hstate, h.drawer]
    simp [polylineDrawer, PolylineDrawer.complete, hlength, Outcome.discarded]
  · obtain ⟨id, hmode, _⟩ := activeDrawer?_eq_some_iff.mp h.drawer
    exact take_resting hresting hmode elements rfl rfl

theorem take_collecting (h : session.Collects kind settings points)
    (hstate : session.state = .collecting points) (elements : List (Element α)) {input : Input α}
    (hclick : input.click? = none) (hescape : input.isEscape = false)
    (hearly : ∀ event, input = .doubleClick event → points.length < 2) :
    session.take elements input = (session, []) ∨
      ∃ outcome, session.take elements input = session.publish outcome := by
  obtain ⟨id, hmode, _⟩ := activeDrawer?_eq_some_iff.mp h.drawer
  cases input with
  | down event => exact .inl (take_off elements hclick)
  | move event =>
    right
    refine ⟨PolylineDrawer.move kind { event, elements, points }, ?_⟩
    unfold Session.take pointerMove
    rw [hstate, h.drawer]
    rfl
  | up event =>
    right
    refine ⟨PolylineDrawer.move kind { event, elements, points }, ?_⟩
    have hgoes : ((polylineDrawer kind settings).finish { event, elements, points }).complete =
        false := by
      simp only [polylineDrawer, PolylineDrawer.move]
      split <;> rfl
    unfold Session.take pointerUp
    rw [hstate, h.drawer]
    exact if_neg (by simp only [hgoes, Bool.false_eq_true, not_false_eq_true])
  | doubleClick event => exact .inl (h.take_early (hearly event rfl) elements event)
  | key key => exact .inl (take_key hmode elements hescape)

/-- Of all events that do not end the gesture only a click changes what is collected. -/
theorem take (h : session.Collects kind settings points) (elements : List (Element α))
    {input : Input α} (hescape : input.isEscape = false)
    (hearly : ∀ event, input = .doubleClick event → points.length < 2) :
    (session.take elements input).1.Collects kind settings
        (input.click?.elim points (Polyline.append points)) ∧
      ForDisplay (session.take elements input).2 := by
  cases hclick : input.click? with
  | some p =>
    obtain ⟨event, rfl, hwithin, rfl⟩ := Input.click?_eq_some hclick
    rw [h.take_click elements hwithin]
    exact ⟨h.publish (Polyline.append_ne_nil _ _) _, forDisplay_publish _ _⟩
  | none =>
    rcases h.state with ⟨hstate, hne⟩ | ⟨hresting, _⟩
    · rcases h.take_collecting hstate elements hclick hescape hearly with heq | ⟨outcome, heq⟩
      · rw [heq]
        exact ⟨h, forDisplay_nil⟩
      · rw [heq, publish_fst]
        exact ⟨⟨h.drawer, h.state⟩, forDisplay_publish _ _⟩
    · obtain ⟨id, hmode, _⟩ := activeDrawer?_eq_some_iff.mp h.drawer
      rw [take_resting hresting hmode elements hclick hescape]
      exact ⟨h, forDisplay_nil⟩

/-- The gesture goes through any events but Escape up to a double click behind two points: it has
collected the clicks that are kept, and nothing is stored. -/
theorem run (h : session.Collects kind settings []) {calls : List (SessionCall α)}
    (hcalls : ∀ call ∈ calls, call.Continues) (hearly : Unfinished calls) :
    (session.run calls).Collects kind settings (Polyline.kept (clicks calls)) ∧
      ForDisplay (session.reports calls) := by
  induction calls using List.reverseRecOn with
  | nil => exact ⟨h, forDisplay_nil⟩
  | append_singleton calls call ih =>
    have hbefore : ∀ c ∈ calls, c.Continues := fun c hc => hcalls c (List.mem_append_left _ hc)
    obtain ⟨hcollects, hdisplay⟩ := ih hbefore hearly.of_concat
    have hcall : call.Continues := hcalls call (by simp)
    cases call with
    | input elements input =>
      have hstep := hcollects.take elements hcall.2 (by
        rintro event rfl
        exact hearly calls elements event [] rfl)
      rw [run_concat, kept_clicks_concat, reports_concat]
      refine ⟨hstep.1, ?_⟩
      rw [forDisplay_append]
      exact ⟨hdisplay, hstep.2⟩
    | _ => cases hcall

theorem take_doubleClick (h : session.Collects kind settings points) (hlength : 2 ≤ points.length)
    (hfinite : ∀ p ∈ points, p.isFinite) (elements : List (Element α)) (event : PointerEvent α) :
    session.take elements (.doubleClick event) =
      ({ session with state := .committed, preview := none },
        [.elementCommitted
            ⟨kind.shape ⟨points, Polyline.endsMeet points settings.autoCloseDistance⟩, none, none⟩,
          .previewChanged none, .renderNeeded]) := by
  have hstate : session.state = .collecting points := by
    rcases h.state with ⟨hstate, _⟩ | ⟨_, rfl⟩
    · exact hstate
    · cases hlength
  have hcomplete : PolylineDrawer.complete kind settings { event, elements, points } =
      .completed
        (kind.shape ⟨points, Polyline.endsMeet points settings.autoCloseDistance⟩) := by
    rw [PolylineDrawer.complete, if_neg (Nat.not_lt.mpr hlength)]
  have hvalid := kind.isValid_shape hlength hfinite
    (Polyline.endsMeet points settings.autoCloseDistance)
  unfold Session.take doubleClick
  rw [hstate, h.drawer]
  simp only [polylineDrawer, hcomplete, Outcome.completed, commit, Option.filter_some, hvalid,
    if_true]

theorem shape_of_commit (h : session.Collects kind settings points) {elements : List (Element α)}
    {input : Input α} {draft : Draft α}
    (hdraft : .elementCommitted draft ∈ (session.take elements input).2) :
    draft.shape = kind.shape ⟨points, Polyline.endsMeet points settings.autoCloseDistance⟩ := by
  obtain ⟨event, drawer, outcome, _, hdrawer, houtcome, hshape, _, _⟩ :=
    (step_take session elements input).of_elementCommitted hdraft
  cases h.drawer.symm.trans hdrawer
  rcases houtcome with rfl | rfl
  · simp only [polylineDrawer, PolylineDrawer.move] at hshape
    split at hshape <;> cases hshape
  · simp only [polylineDrawer, PolylineDrawer.complete, GestureState.context, h.points_eq] at hshape
    split at hshape
    · cases hshape
    · exact (Option.some.inj hshape).symm

end Collects

variable {session : Session α} {elements : List (Element α)} {input : Input α}
  {points : List (Point α)}

/-- A call that is no event has no click, and leaves the gesture alone or ends it. -/
theorem call_cases (session : Session α) (call : SessionCall α) :
    (∃ elements input, call = .input elements input) ∨
      (call.click? = none ∧
        ((session.after call).state = session.state ∨ (session.after call).state = .idle)) := by
  cases call with
  | input elements input => exact .inl ⟨elements, input, rfl⟩
  | setMode mode => exact .inr ⟨rfl, session.state_setMode_cases mode⟩
  | selectByShortcut key => exact .inr ⟨rfl, session.state_selectByShortcut_cases key⟩
  | reset => exact .inr ⟨rfl, .inr rfl⟩
  | forget id => exact .inr ⟨rfl, session.state_forget_cases id⟩
  | changeRegistry registry => exact .inr ⟨rfl, .inl rfl⟩

theorem take_escape (hstate : session.state = .collecting points) (hescape : input.isEscape) :
    (session.take elements input).1.state = .cancelled := by
  cases input with
  | key key =>
    have hkey : session.take elements (.key key) = session.escape := if_pos hescape
    rw [hkey, escape, hstate]
  | _ => cases hescape

theorem Collects.of_goes_on {kind : OutlineKind} {settings : Settings α}
    {collected : List (Point α)} (h : session.Collects kind settings collected)
    (hstate : session.state = .collecting collected) (hfinite : ∀ p ∈ collected, p.isFinite)
    (hafter : (session.take elements input).1.state = .collecting points) :
    input.isEscape = false ∧ ∀ event, input = .doubleClick event → collected.length < 2 := by
  constructor
  · cases hcancel : input.isEscape with
    | false => rfl
    | true =>
      rw [take_escape hstate hcancel] at hafter
      cases hafter
  · rintro event rfl
    apply Nat.lt_of_not_le
    intro hlength
    rw [h.take_doubleClick hlength hfinite] at hafter
    cases hafter

namespace BuiltInGesture

theorem collects (h : session.BuiltInGesture) (hstate : session.state = .collecting points) :
    ∃ kind settings, session.Collects kind settings points := by
  obtain ⟨drawer, _, hactive, hopen, _, _⟩ := h.shows (by rw [hstate]; rfl)
  have hgesture : drawer.gesture = .multiClick := (hstate ▸ hopen).gesture_eq
  obtain ⟨kind, settings, rfl⟩ := (h.isBuiltIn hactive).exists_polylineDrawer hgesture
  have hmedia := h.onMedia
  rw [hstate] at hmedia
  exact ⟨kind, settings, hactive, .inl ⟨hstate, hmedia.1⟩⟩

theorem opened {taken : Session α × List (Action α)} (h : session.BuiltInGesture)
    (hstep : session.Step elements input taken)
    (hbefore : ∀ collected, session.state ≠ .collecting collected)
    (hafter : taken.1.state = .collecting points) :
    session.state.isDrawing = false ∧ ∃ p, input.click? = some p ∧ points = [p] := by
  cases hstep with
  | @clicked event id drawer outcome hwithin _ hmode hdrawer hgesture houtcome =>
    have hactive := activeDrawer?_eq_some_iff.mpr ⟨id, hmode, hdrawer⟩
    have hpoints : session.state.points = [] := by
      cases hstate : session.state with
      | collecting collected => exact absurd hstate (hbefore collected)
      | _ => rfl
    refine ⟨?_, event.point, if_pos hwithin, ?_⟩
    · cases hdrawing : session.state.isDrawing with
      | false => rfl
      | true =>
        obtain ⟨drawer', _, hactive', hopen, _, _⟩ := h.shows hdrawing
        cases hactive'.symm.trans hactive
        rw [hgesture] at hopen
        exact absurd hpoints hopen
    · obtain ⟨kind, settings, rfl⟩ := (h.isBuiltIn hactive).exists_polylineDrawer hgesture
      rw [publish_fst, houtcome, hpoints] at hafter
      exact (GestureState.collecting.inj hafter).symm
  | pressed _ _ _ _ _ =>
    rw [publish_fst] at hafter
    cases hafter
  | moved _ _ | lifted _ _ =>
    rw [publish_fst] at hafter
    exact absurd hafter (hbefore points)
  | ignored | selected | deselected | hovered | deleted => exact absurd hafter (hbefore points)
  | _ => cases hafter

theorem opened_of_call (h : session.BuiltInGesture) {call : SessionCall α}
    (hbefore : ∀ collected, session.state ≠ .collecting collected)
    (hafter : (session.after call).state = .collecting points) :
    session.state.isDrawing = false ∧ ∃ p, call.click? = some p ∧ points = [p] := by
  rcases session.call_cases call with ⟨elements, input, rfl⟩ | ⟨_, heq | heq⟩
  · exact h.opened (step_take session elements input) hbefore hafter
  · rw [heq] at hafter
    exact absurd hafter (hbefore points)
  · rw [heq] at hafter
    cases hafter

theorem continued [LawfulScalar α] {collected : List (Point α)} (h : session.BuiltInGesture)
    (hstate : session.state = .collecting collected) {call : SessionCall α}
    (hafter : (session.after call).state = .collecting points) :
    points = call.click?.elim collected (Polyline.append collected) := by
  rcases session.call_cases call with ⟨elements, input, rfl⟩ | ⟨hclick, heq | heq⟩
  · obtain ⟨kind, settings, hcollects⟩ := h.collects hstate
    have hmedia := h.onMedia
    rw [hstate] at hmedia
    have hfinite : ∀ p ∈ collected, p.isFinite :=
      fun p hp => Point.isFinite_of_inMedia (hmedia.2.1 p hp)
    rw [Session.after, react] at hafter
    obtain ⟨hescape, hearly⟩ := hcollects.of_goes_on hstate hfinite hafter
    have hpoints := (hcollects.take elements hescape hearly).1.points_eq
    rw [hafter] at hpoints
    exact hpoints
  · rw [heq, hstate] at hafter
    rw [hclick]
    exact (GestureState.collecting.inj hafter).symm
  · rw [heq] at hafter
    cases hafter

/-- The points that are collected are those kept of the clicks since the gesture began. -/
theorem collected_since [LawfulScalar α] (h : session.BuiltInGesture)
    (hclosed : session.state.isDrawing = false) {calls : List (SessionCall α)}
    (hcalls : ∀ call ∈ calls, call.KeepsRegistry ∧ call.isDefined)
    (hafter : (session.run calls).state = .collecting points) :
    ∃ before gesture, calls = before ++ gesture ∧
      (session.run before).state.isDrawing = false ∧
      (∀ opening, opening <+: gesture → opening ≠ [] →
        ∃ collected, (session.run (before ++ opening)).state = .collecting collected) ∧
      points = Polyline.kept (clicks gesture) := by
  induction calls using List.reverseRecOn generalizing points with
  | nil =>
    rw [run_nil] at hafter
    rw [hafter] at hclosed
    cases hclosed
  | append_singleton calls call ih =>
    have hbefore : ∀ c ∈ calls, c.KeepsRegistry ∧ c.isDefined :=
      fun c hc => hcalls c (List.mem_append_left _ hc)
    have hrun : (session.run calls).BuiltInGesture := h.run hbefore
    have hlast := hafter
    rw [run_concat] at hlast
    by_cases hopen : ∃ collected, (session.run calls).state = .collecting collected
    · obtain ⟨collected, hcollected⟩ := hopen
      obtain ⟨before, gesture, rfl, hstart, hgoing, rfl⟩ := ih hbefore hcollected
      refine ⟨before, gesture ++ [call], List.append_assoc .., hstart, ?_, ?_⟩
      · intro opening hopening hne
        rcases List.prefix_concat_iff.mp hopening with rfl | hopening
        · rw [← List.append_assoc]
          exact ⟨points, hafter⟩
        · exact hgoing opening hopening hne
      · rw [kept_clicks_concat]
        exact hrun.continued hcollected hlast
    · have hnone : ∀ collected, (session.run calls).state ≠ .collecting collected :=
        fun collected heq => hopen ⟨collected, heq⟩
      obtain ⟨hstart, p, hclick, rfl⟩ := hrun.opened_of_call hnone hlast
      refine ⟨calls, [call], rfl, hstart, ?_, ?_⟩
      · intro opening hopening hne
        rcases List.prefix_cons_iff.mp hopening with rfl | ⟨further, rfl, hfurther⟩
        · exact absurd rfl hne
        · rw [List.prefix_nil.mp hfurther]
          exact ⟨_, hafter⟩
      · simp [clicks, hclick, Polyline.kept, Polyline.keptAfter]

end BuiltInGesture

/-- From a session between gestures: a gesture of several clicks collects the clicks that are kept,
and stores nothing before the first double click behind two of them, which stores exactly those. A
double click before that changes nothing. At any time what is collected are the clicks kept since
the gesture began, at a moment when none was open, and only that can be stored. -/
theorem multiClick_gesture [LawfulScalar α] {session : Session α}
    (hbuiltIn : session.registry.AllBuiltIn) (hresting : session.state.isResting) :
    (∀ kind settings, session.activeDrawer? = some (polylineDrawer kind settings) →
      ∀ calls, (∀ call ∈ calls, call.Continues) → Unfinished calls →
        let collecting := session.run calls
        let points := Polyline.kept (clicks calls)
        collecting.state.points = points ∧
        (∀ draft, .elementCommitted draft ∉ session.reports calls) ∧
        ∀ elements event,
          (points.length < 2 →
            collecting.take elements (.doubleClick event) = (collecting, [])) ∧
          (2 ≤ points.length →
            ∃ first last, points.head? = some first ∧ points.getLast? = some last ∧
              collecting.take elements (.doubleClick event) =
                ({ collecting with state := .committed, preview := none },
                  [.elementCommitted
                      ⟨kind.shape ⟨points, first.distance last < settings.autoCloseDistance⟩,
                        none, none⟩,
                    .previewChanged none, .renderNeeded]))) ∧
    ∀ calls, (∀ call ∈ calls, call.KeepsRegistry ∧ call.isDefined) →
      ∀ points, (session.run calls).state = .collecting points →
        (∃ before gesture, calls = before ++ gesture ∧
          (session.run before).state.isDrawing = false ∧
          (∀ opening, opening <+: gesture → opening ≠ [] →
            ∃ collected, (session.run (before ++ opening)).state = .collecting collected) ∧
          points = Polyline.kept (clicks gesture)) ∧
        ∀ elements input draft,
          .elementCommitted draft ∈ ((session.run calls).take elements input).2 →
            draft.shape.points? = some points := by
  have hclosed : session.state.isDrawing = false := (GestureState.isResting_iff.mp hresting).1
  have hstart : session.BuiltInGesture := .of_not_drawing hbuiltIn hclosed
  constructor
  · intro kind settings hdrawer calls hcalls hearly collecting points
    have hnone : session.Collects kind settings [] := ⟨hdrawer, .inr ⟨hresting, rfl⟩⟩
    obtain ⟨hcollects, hdisplay⟩ := hnone.run hcalls hearly
    refine ⟨hcollects.points_eq, ?_, ?_⟩
    · intro draft hdraft
      cases hdisplay _ hdraft
    · intro elements event
      constructor
      · intro hlength
        exact hcollects.take_early hlength elements event
      · intro hlength
        have hfinite : ∀ p ∈ points, p.isFinite := by
          intro p hp
          refine isFinite_of_mem_clicks ?_ ((Polyline.kept_sublist _).subset hp)
          intro call hcall
          exact (hcalls call hcall).isDefined
        obtain ⟨first, last, hfirst, hlast, hmeet⟩ := Polyline.exists_ends hlength
        refine ⟨first, last, hfirst, hlast, ?_⟩
        rw [← hmeet]
        exact hcollects.take_doubleClick hlength hfinite elements event
  · intro calls hcalls points hstate
    refine ⟨hstart.collected_since hclosed hcalls hstate, ?_⟩
    intro elements input draft hdraft
    obtain ⟨kind, settings, hcollects⟩ := (hstart.run hcalls).collects hstate
    rw [hcollects.shape_of_commit hdraft]
    cases kind <;> rfl

/-- The double click between two clicks comes too early, the one behind them makes a polygon. -/
theorem second_doubleClick_commits :
    let registry : Registry Float := Registry.builtIn Settings.default
    let session : Session Float :=
      { registry, settings := Settings.default, mode := .draw "polygon" }
    let a : Point Float := ⟨0.25, 0.25⟩
    let b : Point Float := ⟨0.75, 0.25⟩
    let calls : List (SessionCall Float) :=
      [.input [] (.down (.ofPosition a {})), .input [] (.doubleClick (.ofPosition a {})),
        .input [] (.down (.ofPosition b {}))]
    (session.registry.AllBuiltIn ∧ session.state.isResting) ∧
    (∀ draft, .elementCommitted draft ∉ session.reports calls) ∧
    ((session.run calls).take [] (.doubleClick (.ofPosition b {}))).2 =
      [.elementCommitted ⟨.polygon ⟨[a, b], false⟩, none, none⟩, .previewChanged none,
        .renderNeeded] := by
  intro registry session a b calls
  have hbuiltIn : session.registry.AllBuiltIn := Registry.allBuiltIn_builtIn Settings.default
  have hcalls : ∀ call ∈ calls, call.Continues := by
    simp only [calls, List.forall_mem_cons, List.not_mem_nil, false_imp_iff, implies_true, and_true]
    refine ⟨⟨?_, rfl⟩, ⟨?_, rfl⟩, ?_, rfl⟩ <;> decide +kernel
  have hearly : Unfinished calls := by
    intro before elements event later heq
    simp only [calls] at heq
    match before with
    | [] => cases heq
    | [first] =>
      cases heq
      decide +kernel
    | [first, second] => cases heq
    | first :: second :: third :: rest => simp at heq
  have hpoints : Polyline.kept (clicks calls) = [a, b] := by decide +kernel
  obtain ⟨_, hnone, hdouble⟩ := (multiClick_gesture hbuiltIn rfl).1 .polygon Settings.default rfl
    calls hcalls hearly
  obtain ⟨first, last, hfirst, hlast, hcommit⟩ := (hdouble [] (.ofPosition b {})).2 (by
    rw [hpoints]
    decide)
  rw [hpoints] at hfirst hlast hcommit
  obtain rfl : a = first := Option.some.inj hfirst
  obtain rfl : b = last := Option.some.inj hlast
  have hopen : decide (a.distance b < Settings.default.autoCloseDistance) = false := by
    decide +kernel
  refine ⟨⟨hbuiltIn, rfl⟩, hnone, ?_⟩
  rw [hcommit, hopen]
  rfl

end Session

end RegionDrawing
