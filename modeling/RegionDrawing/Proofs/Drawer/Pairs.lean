import RegionDrawing.Drawer.BuiltIn
import RegionDrawing.Proofs.Canvas.Pairs

/-! # Pairs in the drawings of built-in drawers

What a built-in drawer paints is a sequence of pairs: its shape, the handles and the label each
stand in a pair of their own.
-/
namespace RegionDrawing

open Canvas

variable {α : Type}

namespace Canvas

/-- Whether commands begin a path and then only add to it. -/
def IsTrace (commands : List (Command α)) : Prop :=
  ∃ rest, commands = .beginPath :: rest ∧ ∀ command ∈ rest, command.isSegment

theorem Command.unpaired_of_isSegment {command : Command α} (h : command.isSegment) :
    command.isPairing = false := by
  cases command <;> first | rfl | cases h

theorem Command.dash?_of_isSegment {command : Command α} (h : command.isSegment) :
    command.dash? = none := by
  cases command <;> first | rfl | cases h

namespace IsTrace

variable {path : List (Command α)} (h : IsTrace path)

include h

theorem isSegment : ∀ command ∈ path, command.isSegment := by
  obtain ⟨rest, rfl, hrest⟩ := h
  exact List.forall_mem_cons.mpr ⟨rfl, hrest⟩

theorem unpaired : ∀ command ∈ path, command.isPairing = false := fun command hcommand =>
  Command.unpaired_of_isSegment (h.isSegment command hcommand)

theorem filterMap_dash? : path.filterMap Command.dash? = [] :=
  List.filterMap_eq_nil_iff.mpr fun command hcommand =>
    Command.dash?_of_isSegment (h.isSegment command hcommand)

end IsTrace

theorem PairBody.of_trace {styles path rest : List (Command α)}
    (hstyles : ∀ command ∈ styles, command.isPairing = false ∧ command.paintsPath = false)
    (hpath : IsTrace path) (hrest : ∀ command ∈ rest, command.isPairing = false)
    (hsolid : ∀ segments ∈ lastDash? (styles ++ rest), segments = []) :
    PairBody (styles ++ path ++ rest) where
  unpaired command hcommand := by
    rw [List.mem_append, List.mem_append] at hcommand
    obtain (hcommand | hcommand) | hcommand := hcommand
    · exact (hstyles command hcommand).1
    · exact hpath.unpaired command hcommand
    · exact hrest command hcommand
  pathBegun before command after hsplit hpaints := by
    obtain ⟨segments, rfl, -⟩ := hpath
    rw [List.append_assoc, List.cons_append] at hsplit
    obtain ⟨behind, rfl, hafter⟩ | ⟨ahead, rfl, hafter⟩ := List.append_eq_append_iff.mp hsplit
    · cases behind with
      | nil =>
        obtain ⟨rfl, -⟩ := List.cons.inj hafter
        cases hpaints
      | cons first behind =>
        obtain ⟨rfl, -⟩ := List.cons.inj hafter
        simp
    · cases ahead with
      | nil =>
        obtain ⟨rfl, -⟩ := List.cons.inj hafter
        cases hpaints
      | cons first ahead =>
        obtain ⟨rfl, -⟩ := List.cons.inj hafter
        rw [(hstyles command (by simp)).2] at hpaints
        cases hpaints
  solid := by
    rw [lastDash?, List.filterMap_append] at hsolid
    rwa [lastDash?, List.filterMap_append, List.filterMap_append, hpath.filterMap_dash?,
      List.append_nil]

theorem PairBody.of_pathless {body : List (Command α)}
    (h : ∀ command ∈ body, command.isPairing = false ∧ command.paintsPath = false)
    (hsolid : ∀ segments ∈ lastDash? body, segments = []) : PairBody body where
  unpaired command hcommand := (h command hcommand).1
  pathBegun before command after hsplit hpaints := by
    rw [(h command (by simp [hsplit])).2] at hpaints
    cases hpaints
  solid := hsolid

variable [Scalar α] (view : View α)

theorem isTrace_tracePolyline (points : List (Point α)) (closed : Bool) :
    IsTrace (tracePolyline points closed view) := by
  cases points with
  | nil => exact ⟨[], rfl, nofun⟩
  | cons first rest =>
    refine ⟨_, rfl, ?_⟩
    cases closed <;> simp [closing, Command.isSegment, or_imp, forall_and]

theorem isTrace_traceSpans (spans : List (Spline.Span α)) (closed : Bool) :
    IsTrace (traceSpans spans closed view) := by
  cases spans with
  | nil => exact ⟨[], rfl, nofun⟩
  | cons first rest =>
    refine ⟨_, rfl, ?_⟩
    cases closed <;> simp [closing, Command.isSegment, or_imp, forall_and]

theorem wellPaired_handles (points : List (Point α)) (color : String) :
    WellPaired (handles points color view) := by
  let styles : List (Command α) := [.fillStyle color, .strokeStyle handleOutline, .lineWidth 1]
  let mark (p : Point α) : List (Command α) :=
    [.beginPath, .circle (view.screen p) (view.pixels handleRadius), .fill, .stroke]
  have hstyles : ∀ command ∈ styles, command.isPairing = false ∧ command.paintsPath = false := by
    simp [styles, Command.isPairing, Command.paintsPath]
  have hmarks (points : List (Point α)) : ∀ command ∈ points.flatMap mark,
      command.isPairing = false ∧ command.dash? = none := by
    intro command hcommand
    obtain ⟨p, -, hcommand⟩ := List.mem_flatMap.mp hcommand
    simp only [mark, List.mem_cons, List.not_mem_nil, or_false] at hcommand
    obtain rfl | rfl | rfl | rfl := hcommand <;> exact ⟨rfl, rfl⟩
  have hbody : PairBody (styles ++ points.flatMap mark) := by
    cases points with
    | nil => exact .of_pathless (by simpa using hstyles) nofun
    | cons first points =>
      have htrace : IsTrace [(.beginPath : Command α)] := ⟨[], rfl, nofun⟩
      let rest := (mark first).tail ++ points.flatMap mark
      have hrest : ∀ command ∈ rest, command.isPairing = false ∧ command.dash? = none := by
        refine List.forall_mem_append.mpr ⟨?_, hmarks points⟩
        simp [mark, Command.isPairing, Command.dash?]
      have hdashes : rest.filterMap Command.dash? = [] :=
        List.filterMap_eq_nil_iff.mpr fun command hcommand => (hrest command hcommand).2
      have hsolid : lastDash? (styles ++ rest) = none := by
        rw [lastDash?, List.filterMap_append, hdashes]
        rfl
      have hbody : PairBody (styles ++ [.beginPath] ++ rest) :=
        .of_trace hstyles htrace (fun command hcommand => (hrest command hcommand).1)
          (by simp [hsolid])
      simpa [rest, mark] using hbody
  simpa [handles, styles, mark] using hbody.wellPaired

theorem wellPaired_label (text : String) (anchor : Point α) (color : String) :
    WellPaired (label text anchor color view) := by
  unfold label
  split
  · exact wellPaired_nil
  · let styles : List (Command α) := [.font labelFont, .fillStyle color]
    let p := view.screen anchor
    have hbody : PairBody (styles ++ [.text text ⟨p.x, p.y - labelOffset⟩]) :=
      .of_pathless (by simp [styles, Command.isPairing, Command.paintsPath]) nofun
    exact hbody.wellPaired

/-- A shape in its pair, with its handles if it is selected, and its label. -/
theorem PairBody.wellPaired_element {body : List (Command α)} (h : PairBody body)
    (points : List (Point α)) (text : String) (anchor : Point α) (color : String) :
    WellPaired (.save :: body ++ [.restore] ++
      (if view.selected then handles points color view else []) ++ label text anchor color view) :=
  (h.wellPaired.append (wellPaired_handles view points color).ite).append
    (wellPaired_label view text anchor color)

omit [Scalar α] in
theorem eq_nil_of_lastDash?_solid {before after : List (Command α)}
    (h : after.filterMap Command.dash? = []) :
    ∀ segments ∈ lastDash? (before ++ (solid ++ after)), segments = [] := by
  have hlast : lastDash? (before ++ (solid ++ after)) = some [] := by
    rw [← List.append_assoc, lastDash?, List.filterMap_append, h, List.append_nil,
      List.filterMap_append]
    exact List.getLast?_concat
  simp [hlast]

theorem wellPaired_preview {path painted : List (Command α)} (hpath : IsTrace path)
    (hpainted : ∀ command ∈ painted, command.isPairing = false) :
    WellPaired (.save :: (Pen.preview.apply ++ dashed view ++ path ++ (painted ++ solid)) ++
      [.restore]) := by
  refine PairBody.wellPaired (.of_trace ?_ hpath ?_ ?_)
  · simp [Pen.apply, dashed, Command.isPairing, Command.paintsPath]
  · exact List.forall_mem_append.mpr ⟨hpainted, by simp [solid, Command.isPairing]⟩
  · rw [← List.append_assoc]
    exact eq_nil_of_lastDash?_solid rfl

omit [Scalar α] in
theorem unpaired_apply (pen : Pen α) :
    ∀ command ∈ pen.apply, command.isPairing = false ∧ command.paintsPath = false := by
  simp [Pen.apply, Command.isPairing, Command.paintsPath]

omit [Scalar α] in
theorem unpaired_stroke : ∀ command ∈ [(.stroke : Command α)], command.isPairing = false := by
  simp [Command.isPairing]

end Canvas

variable [Scalar α]

namespace RectangleDrawer

theorem wellPaired_paint (element : Element α) (view : View α) :
    WellPaired (paint element view) := by
  unfold paint
  cases element.shape with
  | rect bounds =>
    let pen := Pen.ofStyle element.style view
    have hbody : PairBody (pen.apply ++ tracePolyline bounds.corners true view ++
        [.fill, .stroke]) :=
      .of_trace (unpaired_apply pen) (isTrace_tracePolyline view _ _) (by simp [Command.isPairing])
        nofun
    simpa using hbody.wellPaired_element view bounds.corners element.label bounds.topLeft pen.stroke
  | polygon | path | box => exact wellPaired_nil

theorem wellPaired_paintPreview (preview : Preview α) (view : View α) :
    WellPaired (paintPreview preview view) := by
  unfold paintPreview
  cases preview.shape with
  | rect bounds =>
    have htrace := isTrace_tracePolyline view bounds.corners true
    simpa using wellPaired_preview view htrace unpaired_stroke
  | polygon | path | box => exact wellPaired_nil

end RectangleDrawer

namespace PolylineDrawer

variable (kind : OutlineKind) (settings : Settings α)

theorem isTrace_trace (points : List (Point α)) (closed : Bool) (view : View α) :
    IsTrace (trace kind settings points closed view) := by
  cases kind with
  | polygon => exact isTrace_tracePolyline view points closed
  | path => exact isTrace_traceSpans view _ closed

theorem wellPaired_paint (element : Element α) (view : View α) :
    WellPaired (paint kind settings element view) := by
  unfold paint
  cases element.shape.outline? with
  | some outline =>
    let pen := Pen.ofStyle element.style view
    have hbody : PairBody (pen.apply ++
        trace kind settings outline.points outline.closed view ++
        ((if outline.closed then [.fill] else []) ++ [.stroke])) := by
      refine .of_trace (unpaired_apply pen) (isTrace_trace kind settings _ _ view) ?_ ?_
      · cases outline.closed <;> simp [Command.isPairing]
      · cases outline.closed <;> exact nofun
    simpa using hbody.wellPaired_element view outline.points element.label
      (Rect.enclosing outline.points).topLeft pen.stroke
  | none => exact wellPaired_nil

theorem wellPaired_paintPreview (preview : Preview α) (view : View α) :
    WellPaired (paintPreview kind settings preview view) := by
  unfold paintPreview
  cases preview.shape.outline? with
  | some outline =>
    have hshape (points : List (Point α)) := wellPaired_preview view
      (isTrace_trace kind settings points false view) unpaired_stroke
    have hhandles := wellPaired_handles view outline.points (Pen.preview : Pen α).stroke
    dsimp only
    cases closesAt settings outline.points preview.cursor with
    | some first =>
      have hfirst := wellPaired_handles view [first] selectedStroke
      simpa using (hshape _).append (hhandles.append hfirst)
    | none => simpa using (hshape _).append hhandles
  | none => exact wellPaired_nil

end PolylineDrawer

namespace BoxDrawer

variable (view : View α)

theorem unpaired_strokeFace (face : List (Point α)) :
    ∀ command ∈ strokeFace view face, command.isPairing = false :=
  List.forall_mem_append.mpr ⟨(isTrace_tracePolyline view face true).unpaired, unpaired_stroke⟩

theorem filterMap_dash?_strokeFace (face : List (Point α)) :
    (strokeFace view face).filterMap Command.dash? = [] := by
  rw [strokeFace, List.filterMap_append, (isTrace_tracePolyline view face true).filterMap_dash?]
  rfl

theorem unpaired_strokeFaces (faces : List (List (Point α))) :
    ∀ command ∈ faces.flatMap (strokeFace view), command.isPairing = false := by
  intro command hcommand
  obtain ⟨face, -, hcommand⟩ := List.mem_flatMap.mp hcommand
  exact unpaired_strokeFace view face command hcommand

theorem filterMap_dash?_strokeFaces (faces : List (List (Point α))) :
    (faces.flatMap (strokeFace view)).filterMap Command.dash? = [] := by
  rw [List.filterMap_flatMap, List.flatMap_eq_nil_iff]
  exact fun face _ => filterMap_dash?_strokeFace view face

theorem wellPaired_paint (element : Element α) : WellPaired (paint element view) := by
  unfold paint
  cases element.shape with
  | box b =>
    let pen := Pen.ofStyle element.style view
    let sides := b.sides.flatMap (strokeFace view)
    let front := tracePolyline b.front.corners true view
    let visible := sides ++ front ++ [.fill, .stroke]
    have hback := isTrace_tracePolyline view b.backCorners true
    have hfront : IsTrace front := isTrace_tracePolyline view b.front.corners true
    have hvisible : ∀ command ∈ visible, command.isPairing = false :=
      List.forall_mem_append.mpr ⟨List.forall_mem_append.mpr
        ⟨unpaired_strokeFaces view b.sides, hfront.unpaired⟩, by simp [Command.isPairing]⟩
    have hdashes : visible.filterMap Command.dash? = [] := by
      rw [List.filterMap_append, List.filterMap_append, filterMap_dash?_strokeFaces,
        hfront.filterMap_dash?]
      rfl
    have hbody : PairBody (pen.apply ++ dashed view ++ tracePolyline b.backCorners true view ++
        ([.stroke] ++ solid ++ visible)) := by
      refine .of_trace ?_ hback ?_ ?_
      · simp [Pen.apply, dashed, Command.isPairing, Command.paintsPath]
      · exact List.forall_mem_append.mpr ⟨by simp [solid, Command.isPairing], hvisible⟩
      · rw [List.append_assoc [Command.stroke], ← List.append_assoc]
        exact eq_nil_of_lastDash?_solid hdashes
    simpa [strokeFace, visible, sides, front] using
      hbody.wellPaired_element view b.front.corners element.label b.front.topLeft pen.stroke
  | rect | polygon | path => exact wellPaired_nil

theorem wellPaired_paintPreview (preview : Preview α) : WellPaired (paintPreview preview view) := by
  unfold paintPreview
  cases preview.shape with
  | box b =>
    have hpainted : ∀ command ∈ [.stroke] ++ b.sides.flatMap (strokeFace view) ++
        strokeFace view b.front.corners, command.isPairing = false :=
      List.forall_mem_append.mpr ⟨List.forall_mem_append.mpr
        ⟨unpaired_stroke, unpaired_strokeFaces view b.sides⟩, unpaired_strokeFace view _⟩
    simpa [strokeFace] using
      wellPaired_preview view (isTrace_tracePolyline view b.backCorners true) hpainted
  | rect | polygon | path => exact wellPaired_nil

end BoxDrawer

variable (kind : ShapeKind) (settings : Settings α) (view : View α)

theorem wellPaired_builtIn_paint (element : Element α) :
    WellPaired ((builtInDrawer kind settings).paint element view) := by
  cases kind with
  | rect => exact RectangleDrawer.wellPaired_paint element view
  | polygon => exact PolylineDrawer.wellPaired_paint .polygon settings element view
  | path => exact PolylineDrawer.wellPaired_paint .path settings element view
  | box => exact BoxDrawer.wellPaired_paint view element

theorem wellPaired_builtIn_paintPreview (preview : Preview α) :
    WellPaired ((builtInDrawer kind settings).paintPreview preview view) := by
  cases kind with
  | rect => exact RectangleDrawer.wellPaired_paintPreview preview view
  | polygon => exact PolylineDrawer.wellPaired_paintPreview .polygon settings preview view
  | path => exact PolylineDrawer.wellPaired_paintPreview .path settings preview view
  | box => exact BoxDrawer.wellPaired_paintPreview view preview

end RegionDrawing
