import RegionDrawing.Proofs.Binary64.Order
import RegionDrawing.Proofs.Drawer.BuiltIn
import RegionDrawing.Proofs.Geometry.KeptPoints
import RegionDrawing.Proofs.Geometry.Media
import RegionDrawing.Proofs.Session.Coherence

/-! # Gestures of built-in drawers in a session

While the registry has built-in drawers only and stays as it is, an open gesture shows a shape of
the kind that its drawer makes. What it has collected lies on the media, no point right behind one
that it repeats, as long as no event comes with an undefined coordinate.
-/
namespace RegionDrawing

variable {α : Type}

namespace GestureState

/-- Whether an open gesture has what drawers of a kind of gesture need: a start or points. -/
def IsOpen (state : GestureState α) : Gesture → Prop
  | .drag => state.start?.isSome
  | .multiClick => state.points ≠ []

theorem IsOpen.context {state : GestureState α} {gesture : Gesture} (h : state.IsOpen gesture)
    (event : PointerEvent α) (elements : List (Element α)) :
    (state.context event elements).IsOpen gesture := by
  cases gesture <;> exact h

theorem IsOpen.gesture_eq {points : List (Point α)} {gesture : Gesture}
    (h : (collecting points).IsOpen gesture) : gesture = .multiClick := by
  cases gesture with
  | drag => cases h
  | multiClick => rfl

/-- What a drawing gesture has collected lies on the media, and neighbouring points are apart. -/
def OnMedia [Scalar α] : GestureState α → Prop
  | dragging start => start.inMedia
  | collecting points => points ≠ [] ∧ (∀ p ∈ points, p.inMedia) ∧ Polyline.Spaced points
  | _ => True

end GestureState

def Input.isDefined [Scalar α] : Input α → Bool
  | .down event | .move event | .up event | .doubleClick event => event.position.isDefined
  | .key _ => true

namespace SessionCall

def isDefined [Scalar α] : SessionCall α → Bool
  | .input _ given => given.isDefined
  | _ => true

def KeepsRegistry : SessionCall α → Prop
  | .changeRegistry _ => False
  | _ => True

end SessionCall

theorem Shape.kind_eq_of_beq [BEq α] {s t : Shape α} (h : s == t) : s.kind = t.kind := by
  by_cases hkind : s.kind = t.kind
  · exact hkind
  · cases s <;> cases t <;> simp [kind] at hkind <;> cases h

theorem Preview.kind_eq_of_beq [BEq α] {shown preview : Preview α} (h : shown == preview) :
    shown.kind = preview.kind := by
  obtain ⟨shape, cursor⟩ := shown
  obtain ⟨shape', cursor'⟩ := preview
  replace h : (shape == shape' && cursor == cursor') = true := h
  rw [Bool.and_eq_true] at h
  exact Shape.kind_eq_of_beq h.1

namespace Session

variable [Scalar α]

/-- An open gesture belongs to the active drawer and shows a shape of its kind. -/
def ShowsGesture (session : Session α) : Prop :=
  session.state.isDrawing → ∃ drawer preview, session.activeDrawer? = some drawer ∧
    session.state.IsOpen drawer.gesture ∧ session.preview = some preview ∧
    preview.kind = drawer.info.kind

/-- All drawers are built-in ones, and an open gesture is as those leave it. -/
structure BuiltInGesture (session : Session α) : Prop where
  builtIn : session.registry.AllBuiltIn
  onMedia : session.state.OnMedia
  shows : session.ShowsGesture

theorem publish_preview (session : Session α) {outcome : Outcome α} {preview : Preview α}
    (h : outcome.preview = some preview) :
    ∃ shown, (session.publish outcome).1 = { session with preview := some shown } ∧
      (shown = preview ∨ preview == shown) := by
  rw [publish_fst, h]
  by_cases hchange : some preview != session.preview
  · rw [if_pos hchange]
    exact ⟨preview, rfl, .inl rfl⟩
  · rw [if_neg hchange]
    cases hold : session.preview with
    | none =>
      rw [hold] at hchange
      exact absurd rfl hchange
    | some old =>
      rw [hold] at hchange
      have hsame : preview == old := by simpa [bne] using hchange
      exact ⟨old, rfl, .inr hsame⟩

/-- The preview of a session that publishes an outcome is of the kind that the outcome shows, also
if it was not exchanged because it is the same. -/
theorem preview_publish (session : Session α) {outcome : Outcome α} {kind : ShapeKind}
    (h : outcome.Shows kind) :
    ∃ preview, (session.publish outcome).1.preview = some preview ∧ preview.kind = kind := by
  obtain ⟨preview, hpreview, hkind⟩ := h
  obtain ⟨shown, heq, rfl | hsame⟩ := session.publish_preview hpreview
  · exact ⟨shown, by rw [heq], hkind⟩
  · exact ⟨shown, by rw [heq], (Preview.kind_eq_of_beq hsame).symm.trans hkind⟩

namespace BuiltInGesture

variable {session : Session α} {elements : List (Element α)} {input : Input α}

theorem of_not_drawing (hbuiltIn : session.registry.AllBuiltIn)
    (hstate : session.state.isDrawing = false) : session.BuiltInGesture := by
  refine ⟨hbuiltIn, ?_, ?_⟩
  · cases hs : session.state with
    | dragging | collecting =>
      rw [hs] at hstate
      cases hstate
    | _ => trivial
  · intro hdrawing
    rw [hstate] at hdrawing
    cases hdrawing

theorem setMode (h : session.BuiltInGesture) (mode : Mode) :
    (session.setMode mode).1.BuiltInGesture := by
  unfold Session.setMode
  split
  · exact of_not_drawing h.builtIn rfl
  · exact h

theorem selectByShortcut (h : session.BuiltInGesture) (key : Char) :
    (session.selectByShortcut key).1.BuiltInGesture := by
  rcases session.selectByShortcut_cases key with heq | ⟨mode, heq⟩
  · rw [heq]
    exact h
  · rw [heq]
    exact h.setMode mode

theorem forget (h : session.BuiltInGesture) (id : ElementId) :
    (session.forget id).BuiltInGesture := by
  rcases session.state_forget_cases id with hstate | hstate
  · refine ⟨h.builtIn, ?_, ?_⟩
    · rw [hstate]
      exact h.onMedia
    · unfold ShowsGesture
      rw [hstate]
      exact h.shows
  · exact of_not_drawing h.builtIn (by rw [hstate]; rfl)

theorem isBuiltIn {drawer : Drawer α} (h : session.BuiltInGesture)
    (hdrawer : session.activeDrawer? = some drawer) : drawer.IsBuiltIn := by
  obtain ⟨_, _, hget⟩ := activeDrawer?_eq_some_iff.mp hdrawer
  exact h.builtIn.get? hget

theorem publish {state : GestureState α} {drawer : Drawer α} {outcome : Outcome α}
    (h : session.BuiltInGesture) (hmedia : state.OnMedia)
    (hdrawer : session.activeDrawer? = some drawer) (hopen : state.IsOpen drawer.gesture)
    (hshows : outcome.Shows drawer.info.kind) :
    ({ session with state }.publish outcome).1.BuiltInGesture := by
  have hpreview := preview_publish { session with state } hshows
  rw [publish_fst] at hpreview ⊢
  refine ⟨h.builtIn, hmedia, ?_⟩
  intro _
  obtain ⟨preview, hpreview, hkind⟩ := hpreview
  exact ⟨drawer, preview, hdrawer, hopen, hpreview, hkind⟩

/-- A further point is the nearest one of the media, and it is left out if it repeats the last. -/
theorem onMedia_append (h : session.BuiltInGesture) {event : PointerEvent α}
    (hevent : event.point.inMedia) :
    (GestureState.collecting (Polyline.append session.state.points event.point)).OnMedia := by
  have hpoints : (∀ p ∈ session.state.points, p.inMedia) ∧
      Polyline.Spaced session.state.points := by
    have hmedia := h.onMedia
    cases hstate : session.state with
    | collecting points =>
      rw [hstate] at hmedia
      exact hmedia.2
    | _ => exact ⟨by simp [GestureState.points], .nil⟩
  refine ⟨Polyline.append_ne_nil _ _, ?_, hpoints.2.append _⟩
  intro p hp
  rcases Polyline.mem_append hp with hp | rfl
  · exact hpoints.1 p hp
  · exact hevent

variable [LawfulScalar α]

theorem step {taken : Session α × List (Action α)} (h : session.BuiltInGesture)
    (hinput : input.isDefined) (hstep : session.Step elements input taken) :
    taken.1.BuiltInGesture := by
  cases hstep with
  | @pressed event id drawer _ _ hmode hdrawer hgesture =>
    have hactive := activeDrawer?_eq_some_iff.mpr ⟨id, hmode, hdrawer⟩
    refine h.publish (Point.inMedia_clamped hinput) hactive ?_ ((h.builtIn.get? hdrawer).shows_start _)
    rw [hgesture]
    rfl
  | @clicked event id drawer outcome _ _ hmode hdrawer hgesture houtcome =>
    have hactive := activeDrawer?_eq_some_iff.mpr ⟨id, hmode, hdrawer⟩
    have hbuiltIn := h.builtIn.get? hdrawer
    have hshows : outcome.Shows drawer.info.kind := houtcome ▸ hbuiltIn.shows_start _
    obtain ⟨kind, settings, rfl⟩ := hbuiltIn.exists_polylineDrawer hgesture
    subst houtcome
    refine h.publish (h.onMedia_append (Point.inMedia_clamped hinput)) hactive ?_ hshows
    exact Polyline.append_ne_nil _ _
  | @moved event drawer hdrawing hdrawer =>
    obtain ⟨drawer', _, hactive, hopen, _, _⟩ := h.shows hdrawing
    cases hactive.symm.trans hdrawer
    have hshows := (h.isBuiltIn hdrawer).shows_move (hopen.context event elements)
    exact h.publish h.onMedia hactive hopen hshows
  | @lifted event drawer points hstate hdrawer =>
    obtain ⟨drawer', _, hactive, hopen, _, _⟩ := h.shows (by rw [hstate]; rfl)
    cases hactive.symm.trans hdrawer
    have hgesture : drawer.gesture = .multiClick := (hstate ▸ hopen).gesture_eq
    have hshows := (h.isBuiltIn hdrawer).shows_move (hopen.context event elements)
    obtain ⟨kind, settings, rfl⟩ := (h.isBuiltIn hdrawer).exists_polylineDrawer hgesture
    exact h.publish h.onMedia hactive hopen hshows
  | committed | discarded | cancelled | editBegun | gripped | dragged | released | editEnded =>
    exact of_not_drawing h.builtIn rfl
  | ignored | selected | deselected | hovered | deleted => exact ⟨h.builtIn, h.onMedia, h.shows⟩

theorem after (h : session.BuiltInGesture) {call : SessionCall α} (hkeeps : call.KeepsRegistry)
    (hdefined : call.isDefined) : (session.after call).BuiltInGesture := by
  cases call with
  | input elements input => exact h.step hdefined (step_take session elements input)
  | setMode mode => exact h.setMode mode
  | selectByShortcut key => exact h.selectByShortcut key
  | reset => exact of_not_drawing h.builtIn rfl
  | forget id => exact h.forget id
  | changeRegistry registry => cases hkeeps

theorem run (h : session.BuiltInGesture) {calls : List (SessionCall α)}
    (hcalls : ∀ call ∈ calls, call.KeepsRegistry ∧ call.isDefined) :
    (session.run calls).BuiltInGesture :=
  run_invariant (fun _ _ h hcall => h.after hcall.1 hcall.2) h hcalls

end BuiltInGesture

/-- Behind any calls drawing gestures stay within drawing modes, vertex editing and hover within
select mode, and a preview goes with a drawing gesture; an event asks for a change of the elements
only in the mode for it. Built-in drawers that stay as they are have collected points of the media,
no neighbours of which repeat each other, and their open gestures show a shape of their kind. -/
theorem run_parts_agree [LawfulScalar α] (registry : Registry α) (settings : Settings α)
    (calls : List (SessionCall α)) :
    let session := ({ registry, settings } : Session α).run calls
    (session.state.isDrawing → ∃ id, session.mode = .draw id) ∧
    (∀ editor, session.state = .editing editor → session.mode = .select) ∧
    (session.preview.isSome → session.state.isDrawing) ∧
    (session.hovered.isSome → session.mode = .select) ∧
    (∀ elements input, ∀ action ∈ (session.take elements input).2,
      action.SuitsMode session.mode) ∧
    (registry.AllBuiltIn → (∀ call ∈ calls, call.KeepsRegistry ∧ call.isDefined) →
      (∀ points, session.state = .collecting points →
        points ≠ [] ∧ (∀ p ∈ points, p.inMedia) ∧ Polyline.Spaced points) ∧
      (∀ start, session.state = .dragging start → start.inMedia) ∧
      (session.state.isDrawing → ∃ drawer preview, session.activeDrawer? = some drawer ∧
        session.preview = some preview ∧ preview.kind = drawer.info.kind)) := by
  intro session
  have hcoherent : session.Coherent :=
    run_invariant (Q := fun _ => True) (fun _ call h _ => h.after call) ⟨nofun, nofun, nofun, nofun⟩
      (fun _ _ => trivial)
  refine ⟨hcoherent.drawing, ?_, hcoherent.preview, hcoherent.hovered, ?_, ?_⟩
  · intro editor hstate
    exact hcoherent.editing (by rw [hstate]; rfl)
  · intro elements input action haction
    exact hcoherent.suitsMode (step_take session elements input) haction
  · intro hbuiltIn hcalls
    have hstart : ({ registry, settings } : Session α).BuiltInGesture :=
      .of_not_drawing hbuiltIn rfl
    have h : session.BuiltInGesture := hstart.run hcalls
    have hmedia := h.onMedia
    refine ⟨?_, ?_, ?_⟩
    · intro points hstate
      rwa [hstate] at hmedia
    · intro start hstate
      rwa [hstate] at hmedia
    · intro hdrawing
      obtain ⟨drawer, preview, hactive, _, hpreview, hkind⟩ := h.shows hdrawing
      exact ⟨drawer, preview, hactive, hpreview, hkind⟩

/-- Two clicks on the media for a polygon. -/
def twoClicks : List (SessionCall Float) :=
  [.setMode (.draw "polygon"), .input [] (.down (.ofPosition ⟨0.25, 0.25⟩ {})),
    .input [] (.down (.ofPosition ⟨0.75, 0.25⟩ {}))]

theorem twoClicks_collected :
    let registry : Registry Float := Registry.builtIn Settings.default
    let session := ({ registry, settings := Settings.default } : Session Float).run twoClicks
    let points : List (Point Float) := [⟨0.25, 0.25⟩, ⟨0.75, 0.25⟩]
    (registry.AllBuiltIn ∧ ∀ call ∈ twoClicks, call.KeepsRegistry ∧ call.isDefined) ∧
    session.state = .collecting points ∧ (∀ p ∈ points, p.inMedia) ∧ Polyline.Spaced points ∧
    ∃ drawer preview, session.activeDrawer? = some drawer ∧ session.preview = some preview ∧
      preview.kind = drawer.info.kind := by
  intro registry session points
  have hbuiltIn : registry.AllBuiltIn := Registry.allBuiltIn_builtIn Settings.default
  have hcalls : ∀ call ∈ twoClicks, call.KeepsRegistry ∧ call.isDefined := by
    simp only [twoClicks, List.forall_mem_cons, List.not_mem_nil, false_imp_iff, implies_true,
      and_true]
    refine ⟨⟨trivial, rfl⟩, ⟨trivial, ?_⟩, trivial, ?_⟩ <;> decide +kernel
  have hstate : session.state = .collecting points := by decide +kernel
  obtain ⟨_, _, _, _, _, hmore⟩ := run_parts_agree registry Settings.default twoClicks
  obtain ⟨hpoints, _, hshows⟩ := hmore hbuiltIn hcalls
  obtain ⟨_, hmedia, hspaced⟩ := hpoints points hstate
  refine ⟨⟨hbuiltIn, hcalls⟩, hstate, hmedia, hspaced, ?_⟩
  apply hshows
  show session.state.isDrawing
  rw [hstate]
  rfl

end Session

end RegionDrawing
