import RegionDrawing.Binary64.Scalar
import RegionDrawing.Proofs.Binary64.Sums
import RegionDrawing.Proofs.Element.Shape
import RegionDrawing.Proofs.Geometry.Drag
import RegionDrawing.Proofs.Session.MultiClick

/-! # Drags

A rectangle or a box is made of where the pointer was pressed and where it was released, with the
shift key at the release. What happens in between changes the preview at most.
-/
namespace RegionDrawing

variable {α : Type} [Scalar α]

theorem Settings.fault?_eq_none_iff {settings : Settings α} :
    settings.fault? = none ↔ ∀ check ∈ settings.checks, check.holds := by
  simp [fault?]

inductive DragKind where
  | rect
  | box

namespace DragKind

def drawer (kind : DragKind) (settings : Settings α) : Drawer α :=
  match kind with
  | rect => rectangleDrawer settings
  | box => boxDrawer settings

def shape (kind : DragKind) (settings : Settings α) (bounds : Rect α) : Shape α :=
  match kind with
  | rect => .rect bounds
  | box => .box ⟨bounds, settings.boxVanishing, settings.boxDepth⟩

variable (kind : DragKind) (settings : Settings α) {context : DrawingContext α} {start : Point α}

theorem gesture_drawer : (kind.drawer settings).gesture = .drag := by cases kind <;> rfl

theorem start_drawer (context : DrawingContext α) :
    ∃ preview, ((kind.drawer settings).start context).preview = some preview := by
  cases kind <;> exact ⟨_, rfl⟩

theorem move_drawer (h : context.start = some start) :
    (kind.drawer settings).move context =
      .pending ⟨kind.shape settings
        (Rect.dragged start context.current context.event.modifiers.shift), none⟩ := by
  cases kind with
  | rect =>
    show RectangleDrawer.move context = _
    rw [RectangleDrawer.move, h]
    rfl
  | box =>
    show BoxDrawer.move settings context = _
    rw [BoxDrawer.move, h]
    rfl

theorem finish_drawer (h : context.start = some start) :
    let bounds := Rect.dragged start context.current context.event.modifiers.shift
    (kind.drawer settings).finish context =
      if bounds.exceeds settings.minSize then .completed (kind.shape settings bounds)
      else .discarded := by
  cases kind with
  | rect =>
    show RectangleDrawer.finish settings context = _
    rw [RectangleDrawer.finish, h]
    rfl
  | box =>
    show BoxDrawer.finish settings context = _
    rw [BoxDrawer.finish, h]
    rfl

theorem move_drawer_of_none (h : context.start = none) :
    (kind.drawer settings).move context = .discarded := by
  cases kind with
  | rect =>
    show RectangleDrawer.move context = _
    rw [RectangleDrawer.move, h]
  | box =>
    show BoxDrawer.move settings context = _
    rw [BoxDrawer.move, h]

theorem finish_drawer_of_none (h : context.start = none) :
    (kind.drawer settings).finish context = .discarded := by
  cases kind with
  | rect =>
    show RectangleDrawer.finish settings context = _
    rw [RectangleDrawer.finish, h]
  | box =>
    show BoxDrawer.finish settings context = _
    rw [BoxDrawer.finish, h]

variable {settings} {bounds : Rect α}

/-- Settings without a fault complete a proper rectangle to a shape that can be stored. -/
theorem isValid_shape [LawfulScalar α] (hsettings : settings.fault? = none)
    (hbounds : bounds.isProper) : (kind.shape settings bounds).isValid := by
  cases kind with
  | rect => exact hbounds
  | box =>
    rw [Settings.fault?_eq_none_iff] at hsettings
    simp only [Settings.checks, List.forall_mem_cons] at hsettings
    obtain ⟨_, _, _, _, _, _, hdepth, hx, hy, _⟩ := hsettings
    simp only [shape, Shape.isValid, PerspectiveBox.isProper, Point.isFinite, Bool.and_eq_true]
    exact ⟨⟨hbounds, hdepth⟩, Scalar.isFinite_of_inUnit hx, Scalar.isFinite_of_inUnit hy⟩

end DragKind

/-- Whether an event means nothing to a drag, or no more than another preview. -/
def Input.Passes : Input α → Prop
  | .down event => event.within = false
  | .up _ => False
  | .key pressed => pressed.isEscape = false
  | .move _ | .doubleClick _ => True

def SessionCall.Passes : SessionCall α → Prop
  | .input _ given => given.Passes
  | _ => False

namespace Session

/-- Whether a session is another one in which a drag goes on. -/
def Drags (session : Session α) (start : Point α) (held : Session α) : Prop :=
  ∃ preview, held = { session with state := .dragging start, preview := some preview }

variable {session held : Session α} {elements : List (Element α)} {start : Point α}
  {kind : DragKind} {settings : Settings α}

theorem preview_of_previewChanged {outcome : Outcome α} {preview : Option (Preview α)}
    (h : .previewChanged preview ∈ (session.publish outcome).2) : preview = outcome.preview := by
  unfold publish at h
  cases hcursor : outcome.cursor
  all_goals
    rw [hcursor] at h
    dsimp only at h
    split at h <;> simp at h
    exact h

theorem take_press (hdrawer : session.activeDrawer? = some (kind.drawer settings))
    (hediting : session.state.editor? = none) (elements : List (Element α))
    {event : PointerEvent α} (hwithin : event.within) :
    session.take elements (.down event) =
      { session with state := .dragging event.point }.publish
        ((kind.drawer settings).start { event, elements, start := some event.point }) := by
  obtain ⟨id, hmode, hget⟩ := activeDrawer?_eq_some_iff.mp hdrawer
  have hdown : session.take elements (.down event) = session.drawStart id event elements := by
    simp only [take, pointerDown, hwithin, hmode, if_true]
    cases hstate : session.state with
    | editing editor =>
      rw [hstate] at hediting
      cases hediting
    | _ => rfl
  rw [hdown, drawStart, hget]
  dsimp only
  rw [kind.gesture_drawer]

theorem drags_take_press (hdrawer : session.activeDrawer? = some (kind.drawer settings))
    (hediting : session.state.editor? = none) (elements : List (Element α))
    {event : PointerEvent α} (hwithin : event.within) :
    session.Drags event.point (session.take elements (.down event)).1 ∧
      ForDisplay (session.take elements (.down event)).2 := by
  obtain ⟨preview, hpreview⟩ :=
    kind.start_drawer settings { event, elements, start := some event.point }
  rw [take_press hdrawer hediting elements hwithin]
  obtain ⟨shown, heq, _⟩ := publish_preview { session with state := .dragging event.point } hpreview
  exact ⟨⟨shown, heq⟩, forDisplay_publish _ _⟩

namespace Drags

variable (hdrawer : session.activeDrawer? = some (kind.drawer settings))
include hdrawer

theorem activeDrawer? (h : session.Drags start held) :
    held.activeDrawer? = some (kind.drawer settings) := by
  obtain ⟨preview, rfl⟩ := h
  exact hdrawer

theorem take_move (h : session.Drags start held) (elements : List (Element α))
    (event : PointerEvent α) :
    held.take elements (.move event) =
      held.publish (.pending ⟨kind.shape settings
        (Rect.dragged start event.point event.modifiers.shift), none⟩) := by
  have hactive := h.activeDrawer? hdrawer
  obtain ⟨preview, rfl⟩ := h
  simp only [Session.take, pointerMove, hactive]
  rw [kind.move_drawer settings rfl]
  rfl

/-- Events that pass leave a drag as it is, except for its preview. -/
theorem take (h : session.Drags start held) (elements : List (Element α)) {input : Input α}
    (hpasses : input.Passes) :
    session.Drags start (held.take elements input).1 ∧
      ForDisplay (held.take elements input).2 := by
  cases input with
  | down event =>
    replace hpasses : event.within = false := hpasses
    rw [take_off elements (by simp [Input.click?, hpasses])]
    exact ⟨h, forDisplay_nil⟩
  | move event =>
    rw [h.take_move hdrawer]
    obtain ⟨preview, rfl⟩ := h
    obtain ⟨shown, heq, _⟩ := publish_preview
      { session with state := .dragging start, preview := some preview }
      (rfl : (Outcome.pending ⟨kind.shape settings
        (Rect.dragged start event.point event.modifiers.shift), none⟩).preview = _)
    exact ⟨⟨shown, heq⟩, forDisplay_publish _ _⟩
  | up event => cases hpasses
  | doubleClick event =>
    obtain ⟨preview, rfl⟩ := h
    exact ⟨⟨preview, rfl⟩, forDisplay_nil⟩
  | key pressed =>
    obtain ⟨id, hmode, _⟩ := activeDrawer?_eq_some_iff.mp (h.activeDrawer? hdrawer)
    rw [take_key hmode elements hpasses]
    exact ⟨h, forDisplay_nil⟩

theorem run (h : session.Drags start held) {calls : List (SessionCall α)}
    (hcalls : ∀ call ∈ calls, call.Passes) :
    session.Drags start (held.run calls) ∧ ForDisplay (held.reports calls) := by
  induction calls generalizing held with
  | nil => exact ⟨h, forDisplay_nil⟩
  | cons call calls ih =>
    obtain ⟨hcall, hrest⟩ := List.forall_mem_cons.mp hcalls
    cases call with
    | input elements input =>
      obtain ⟨hafter, hdisplay⟩ := h.take hdrawer elements hcall
      obtain ⟨hend, hlater⟩ := ih hafter hrest
      exact ⟨hend, (forDisplay_append _ _).mpr ⟨hdisplay, hlater⟩⟩
    | _ => cases hcall

theorem take_release (h : session.Drags start held) (elements : List (Element α))
    (event : PointerEvent α) :
    let bounds := Rect.dragged start event.point event.modifiers.shift
    (bounds.exceeds settings.minSize → (kind.shape settings bounds).isValid →
      held.take elements (.up event) =
        ({ session with state := .committed, preview := none },
          [.elementCommitted { shape := kind.shape settings bounds }, .previewChanged none,
            .renderNeeded])) ∧
    (bounds.exceeds settings.minSize = false →
      held.take elements (.up event) =
        ({ session with state := .idle, preview := none },
          [.previewChanged none, .renderNeeded])) := by
  have hactive := h.activeDrawer? hdrawer
  obtain ⟨preview, rfl⟩ := h
  simp only [Session.take, pointerUp, hactive]
  rw [kind.finish_drawer settings rfl]
  constructor
  · intro hsize hvalid
    simp only [DrawingContext.current, hsize, if_true, Outcome.completed, commit,
      Option.filter_some, hvalid]
  · intro hsize
    simp only [DrawingContext.current, hsize, Bool.false_eq_true, if_false, Outcome.discarded,
      discard, Option.isSome_some, if_true]

end Drags

/-- From any state that a session reaches, with a drawer of drags active whose settings have no
fault: between a press on the media and a release anywhere nothing is stored. The release stores the
shape of the rectangle that the press, the release and the shift key at the release give, if both
its sides exceed the least size, and otherwise nothing. A move at the release would publish that
shape, and the one that is stored equals what the move would leave as the preview. -/
theorem drag_gesture [LawfulScalar α] [LawfulSums α] (registry : Registry α) (own : Settings α)
    (before : List (SessionCall α)) {kind : DragKind} {settings : Settings α}
    (hdrawer : (({ registry, settings := own } : Session α).run before).activeDrawer? =
      some (kind.drawer settings))
    (hsettings : settings.fault? = none) (press release : PointerEvent α) (hpress : press.within)
    {middle : List (SessionCall α)} (hmiddle : ∀ call ∈ middle, call.Passes)
    (under elements : List (Element α)) :
    let session := ({ registry, settings := own } : Session α).run before
    let calls := .input under (.down press) :: middle
    let held := session.run calls
    let bounds := Rect.dragged press.point release.point release.modifiers.shift
    let shape := kind.shape settings bounds
    (∀ draft, .elementCommitted draft ∉ session.reports calls) ∧
    (bounds.exceeds settings.minSize →
      held.take elements (.up release) =
        ({ session with state := .committed, preview := none },
          [.elementCommitted { shape }, .previewChanged none, .renderNeeded]) ∧
      ∃ preview, (held.take elements (.move release)).1.preview = some preview ∧
        shape == preview.shape) ∧
    (bounds.exceeds settings.minSize = false →
      held.take elements (.up release) =
        ({ session with state := .idle, preview := none },
          [.previewChanged none, .renderNeeded])) ∧
    ∀ preview, .previewChanged preview ∈ (held.take elements (.move release)).2 →
      preview = some ⟨shape, none⟩ := by
  intro session calls held bounds shape
  obtain ⟨_, hmode, _⟩ := activeDrawer?_eq_some_iff.mp hdrawer
  have hcoherent : session.Coherent := coherent_run registry own before
  have hediting : session.state.editor? = none := hcoherent.editor?_eq_none hmode
  obtain ⟨hbegun, hdown⟩ := drags_take_press hdrawer hediting under hpress
  obtain ⟨hdrags, hpassed⟩ := hbegun.run hdrawer hmiddle
  have hmove : held.take elements (.move release) = held.publish (.pending ⟨shape, none⟩) :=
    hdrags.take_move hdrawer elements release
  obtain ⟨hstored, hnothing⟩ := hdrags.take_release hdrawer elements release
  refine ⟨?_, ?_, hnothing, ?_⟩
  · intro draft hdraft
    cases (forDisplay_append _ _).mpr ⟨hdown, hpassed⟩ _ hdraft
  · intro hsize
    have hvalid : shape.isValid :=
      kind.isValid_shape hsettings (Rect.isProper_dragged press.position release.position _ hsize)
    obtain ⟨shown, heq, hshown⟩ := publish_preview held
      (rfl : (Outcome.pending ⟨shape, none⟩).preview = some ⟨shape, none⟩)
    refine ⟨hstored hsize hvalid, shown, ?_, ?_⟩
    · rw [hmove, heq]
    · rcases hshown with rfl | hsame
      · exact Shape.beq_self_of_isValid hvalid
      · exact (Bool.and_eq_true_iff.mp hsame).1
  · intro preview hpreview
    rw [hmove] at hpreview
    exact preview_of_previewChanged hpreview

/-- A release off the media makes the rectangle up to the border, whatever came in between. -/
theorem release_off_media_commits :
    let registry : Registry Float := Registry.builtIn Settings.default
    let settings : Settings Float := Settings.default
    let session := ({ registry, settings } : Session Float).run [.setMode (.draw "rect")]
    let press : PointerEvent Float := .ofPosition ⟨0.25, 0.25⟩ {}
    let release : PointerEvent Float := .ofPosition ⟨1.5, 0.75⟩ {}
    let middle : List (SessionCall Float) :=
      [.input [] (.move (.ofPosition ⟨0.125, 0.5⟩ { shift := true })),
        .input [] (.doubleClick (.ofPosition ⟨0.5, 0.5⟩ {})), .input [] (.key ⟨"b"⟩)]
    let held := session.run (.input [] (.down press) :: middle)
    (session.activeDrawer? = some (DragKind.rect.drawer settings) ∧ settings.fault? = none ∧
      press.within ∧ ∀ call ∈ middle, call.Passes) ∧
    (held.take [] (.up release)).2 =
      [.elementCommitted ⟨.rect ⟨0.25, 0.25, 0.75, 0.5⟩, none, none⟩, .previewChanged none,
        .renderNeeded] := by
  intro registry settings session press release middle held
  have hdrawer : session.activeDrawer? = some (DragKind.rect.drawer settings) := rfl
  have hsettings : settings.fault? = none := by decide +kernel
  have hpress : press.within := by decide +kernel
  have hmiddle : ∀ call ∈ middle, call.Passes := by
    simp only [middle, List.forall_mem_cons, List.not_mem_nil, false_imp_iff, implies_true,
      and_true]
    exact ⟨trivial, trivial, rfl⟩
  have hbounds : Rect.dragged press.point release.point release.modifiers.shift =
      ⟨0.25, 0.25, 0.75, 0.5⟩ := by decide +kernel
  have hsize : (Rect.dragged press.point release.point release.modifiers.shift).exceeds
      settings.minSize := by decide +kernel
  obtain ⟨_, hlarge, _⟩ := drag_gesture registry settings [.setMode (.draw "rect")] hdrawer
    hsettings press release hpress hmiddle [] []
  refine ⟨⟨hdrawer, hsettings, hpress, hmiddle⟩, ?_⟩
  rw [(hlarge hsize).1, hbounds]
  rfl

end Session

end RegionDrawing
