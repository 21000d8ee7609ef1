import RegionDrawing.Proofs.Binary64.Rational
import RegionDrawing.Proofs.Drawer.Pairs
import RegionDrawing.Proofs.Session.MultiClick

/-! # The hint at a closing click

While points are collected, the first one is set off when the pointer is close to it. A press and a
double click at the pointer then close the outline, except around the last point: the hint goes by
the pointer, while the outline goes by the points that are kept, and it needs two collected points
where the press may add the second one.
-/
namespace RegionDrawing

open Canvas

variable {α : Type} [Scalar α]

namespace Polyline

theorem endsMeet_cons_iff {first last : Point α} {rest : List (Point α)}
    (hlast : (first :: rest).getLast? = some last) (distance : α) :
    endsMeet (first :: rest) distance ↔ rest ≠ [] ∧ first.distance last < distance := by
  cases rest with
  | nil => simp [endsMeet]
  | cons second rest => simp [endsMeet, hlast]

theorem append_of_far {points : List (Point α)} {last c : Point α}
    (hlast : points.getLast? = some last) (h : last.distance c > repeatDistance) :
    append points c = points ++ [c] := by
  rw [append, hlast]
  exact if_pos h

theorem append_of_near {points : List (Point α)} {last c : Point α}
    (hlast : points.getLast? = some last) (h : ¬ last.distance c > repeatDistance) :
    append points c = points := by
  rw [append, hlast]
  exact if_neg h

theorem two_le_of_endsMeet {points : List (Point α)} {distance : α}
    (h : endsMeet points distance) : 2 ≤ points.length := by
  match points with
  | [] | [_] => cases h
  | first :: second :: rest => simp

end Polyline

omit [Scalar α] in
theorem OutlineKind.outline?_shape (kind : OutlineKind) (outline : Outline α) :
    (kind.shape outline).outline? = some outline := by cases kind <;> rfl

namespace Canvas

def Command.fill? : Command α → Option String
  | .fillStyle color => some color
  | _ => none

omit [Scalar α] in
theorem IsTrace.filterMap_fill? {path : List (Command α)} (h : IsTrace path) :
    path.filterMap Command.fill? = [] := by
  refine List.filterMap_eq_nil_iff.mpr fun command hcommand => ?_
  have hsegment := h.isSegment command hcommand
  cases command <;> first | rfl | cases hsegment

theorem filterMap_fill?_handles (points : List (Point α)) (color : String) (view : View α) :
    (handles points color view).filterMap Command.fill? = [color] := by
  have hhandle : ∀ p : Point α,
      [.beginPath, .circle (view.screen p) (view.pixels handleRadius), .fill, .stroke].filterMap
        Command.fill? = [] := fun _ => rfl
  have hhandles : (points.flatMap fun _ => ([] : List String)) = [] :=
    List.flatMap_eq_nil_iff.mpr fun _ _ => rfl
  simp only [handles, List.filterMap_append, List.filterMap_flatMap, hhandle, hhandles]
  rfl

end Canvas

namespace PolylineDrawer

variable (kind : OutlineKind) (settings : Settings α)

/-- Whether a handle on a point is painted in the color of selections. -/
def Highlights (p : Point α) (view : View α) (commands : List (Command α)) : Prop :=
  handles [p] selectedStroke view <:+: commands

theorem closesAt_eq (first c : Point α) (rest : List (Point α)) :
    closesAt settings (first :: rest) (some c) =
      if rest ≠ [] ∧ first.distance c < settings.autoCloseDistance then some first else none := by
  cases rest with
  | nil => rfl
  | cons second rest => simp [closesAt]

/-- The outline and its handles need two colors, and the hint comes behind them in a third. -/
theorem exists_paintPreview_eq (first c : Point α) (rest : List (Point α)) (view : View α) :
    ∃ outlined : List (Command α), outlined.filterMap Command.fill? = [defaultFill, previewStroke] ∧
      paintPreview kind settings (preview kind (first :: rest) c) view = outlined ++
        if rest ≠ [] ∧ first.distance c < settings.autoCloseDistance then
          handles [first] selectedStroke view
        else [] := by
  refine ⟨[.save] ++ (Pen.preview : Pen α).apply ++ dashed view ++
    trace kind settings (Polyline.append (first :: rest) c) false view ++ [.stroke] ++ solid ++
    [.restore] ++ handles (first :: rest) (Pen.preview : Pen α).stroke view, ?_, ?_⟩
  · have htrace := isTrace_trace kind settings (Polyline.append (first :: rest) c) false view
    simp only [List.filterMap_append, htrace.filterMap_fill?, filterMap_fill?_handles]
    rfl
  · rw [paintPreview, preview, kind.outline?_shape]
    by_cases hhint : rest ≠ [] ∧ first.distance c < settings.autoCloseDistance
    · simp only [closesAt_eq, if_pos hhint]
    · simp only [closesAt_eq, if_neg hhint]

theorem highlights_preview_iff {first c : Point α} {rest : List (Point α)} {view : View α} :
    Highlights first view (paintPreview kind settings (preview kind (first :: rest) c) view) ↔
      rest ≠ [] ∧ first.distance c < settings.autoCloseDistance := by
  obtain ⟨outlined, hcolors, hpaint⟩ := exists_paintPreview_eq kind settings first c rest view
  rw [hpaint]
  constructor
  · intro hhighlights
    by_contra hopen
    rw [if_neg hopen, List.append_nil] at hhighlights
    have hcolor := (hhighlights.filterMap Command.fill?).subset
    rw [filterMap_fill?_handles, hcolors] at hcolor
    exact absurd (hcolor List.mem_cons_self) (by decide)
  · intro hcloses
    rw [if_pos hcloses]
    exact (List.suffix_append _ _).isInfix

end PolylineDrawer

namespace Session

/-- Whether a press and a double click behind it leave a closed outline. -/
def Closes (session : Session α) (elements : List (Element α)) (press click : PointerEvent α) :
    Prop :=
  ∃ draft outline, .elementCommitted draft ∈
      ((session.take elements (.down press)).1.take elements (.doubleClick click)).2 ∧
    draft.shape.outline? = some outline ∧ outline.closed

variable {session : Session α} {kind : OutlineKind} {settings : Settings α}

theorem Collects.closes_iff [LawfulScalar α] [LawfulOrder α] {points : List (Point α)}
    (h : session.Collects kind settings points) (hmedia : ∀ p ∈ points, p.inMedia)
    {press : PointerEvent α} (hwithin : press.within) (hpress : press.position.inMedia)
    (elements : List (Element α)) (click : PointerEvent α) :
    session.Closes elements press click ↔
      Polyline.endsMeet (Polyline.append points press.position) settings.autoCloseDistance := by
  have hpoint : press.point = press.position := Point.clamped_of_inMedia hpress
  have hescape : (Input.down press).isEscape = false := rfl
  obtain ⟨hcollects, -⟩ := h.take elements hescape nofun
  have hclick : (Input.down press).click? = some press.position := by
    rw [Input.click?, if_pos hwithin, hpoint]
  rw [hclick] at hcollects
  have hfinite : ∀ p ∈ Polyline.append points press.position, p.isFinite := by
    intro p hp
    rcases Polyline.mem_append hp with hp | rfl
    · exact Point.isFinite_of_inMedia (hmedia p hp)
    · exact Point.isFinite_of_inMedia hpress
  unfold Closes
  by_cases hlength : 2 ≤ (Polyline.append points press.position).length
  · rw [hcollects.take_doubleClick hlength hfinite]
    simp only [List.mem_cons, Action.elementCommitted.injEq, reduceCtorEq, List.not_mem_nil,
      or_false]
    constructor
    · rintro ⟨_, outline, rfl, houtline, hclosed⟩
      rw [kind.outline?_shape] at houtline
      cases houtline
      exact hclosed
    · exact fun hclosed => ⟨_, _, rfl, kind.outline?_shape _, hclosed⟩
  · rw [hcollects.take_early (Nat.not_le.mp hlength)]
    constructor
    · rintro ⟨_, _, hdraft, -⟩
      cases hdraft
    · exact fun hmeet => absurd (Polyline.two_le_of_endsMeet hmeet) hlength

/-- The hint is right about the next press exactly in these cases. Either the pointer is clear of
the last point, and it is not close to the first one if that is the only one. Or the pointer repeats
the last point, and this is the only one or as close to the first one as the pointer. -/
theorem closing_hint_right_iff [LawfulScalar α] [LawfulOrder α] {first last : Point α}
    {rest : List (Point α)} (h : session.Collects kind settings (first :: rest))
    (hlast : (first :: rest).getLast? = some last) (hmedia : ∀ p ∈ first :: rest, p.inMedia)
    {press : PointerEvent α} (hwithin : press.within) (hpress : press.position.inMedia)
    (elements : List (Element α)) (click : PointerEvent α) (view : View α) :
    let cursor := press.position
    let hint := PolylineDrawer.Highlights first view ((polylineDrawer kind settings).paintPreview
      (PolylineDrawer.preview kind (first :: rest) cursor) view)
    let close (p : Point α) := first.distance p < settings.autoCloseDistance
    (session.Closes elements press click ↔
      Polyline.endsMeet (Polyline.append (first :: rest) cursor) settings.autoCloseDistance) ∧
    (hint ↔ rest ≠ [] ∧ close cursor) ∧
    ((hint ↔ session.Closes elements press click) ↔
      (last.distance cursor > Polyline.repeatDistance ∧ (rest = [] → ¬ close cursor) ∨
        ¬ last.distance cursor > Polyline.repeatDistance ∧
          (rest = [] ∨ (close cursor ↔ close last)))) := by
  intro cursor hint close
  have hcloses := h.closes_iff hmedia hwithin hpress elements click
  have hhint : hint ↔ rest ≠ [] ∧ close cursor :=
    PolylineDrawer.highlights_preview_iff kind settings
  refine ⟨hcloses, hhint, ?_⟩
  rw [hcloses, hhint]
  by_cases hfar : last.distance cursor > Polyline.repeatDistance
  · have hcursor : (first :: (rest ++ [cursor])).getLast? = some cursor := by
      rw [← List.cons_append, List.getLast?_concat]
    rw [Polyline.append_of_far hlast hfar, List.cons_append, Polyline.endsMeet_cons_iff hcursor]
    grind
  · rw [Polyline.append_of_near hlast hfar, Polyline.endsMeet_cons_iff hlast]
    grind

def collecting (points : List (Point Float)) : Session Float :=
  { registry := Registry.builtIn Settings.default
    settings := Settings.default
    mode := .draw "polygon"
    state := .collecting points }

/-- One point is collected, and a press close to it closes the outline without any hint. -/
theorem closed_without_hint :
    let p : Point Float := ⟨0.5, 0.5⟩
    let press : PointerEvent Float := .ofPosition ⟨0.515625, 0.5⟩ {}
    let view : View Float := ⟨⟨0, 0, 100, 100⟩, 1, false, false⟩
    (collecting [p]).Collects .polygon Settings.default [p] ∧ p.inMedia ∧ press.within ∧
      (collecting [p]).Closes [] press press ∧
      ¬ PolylineDrawer.Highlights p view
        ((polylineDrawer .polygon Settings.default).paintPreview
          (PolylineDrawer.preview .polygon [p] press.position) view) := by
  intro p press view
  have hcollects : (collecting [p]).Collects .polygon Settings.default [p] :=
    ⟨rfl, .inl ⟨rfl, List.cons_ne_nil _ _⟩⟩
  have hmedia : ∀ q ∈ [p], q.inMedia := by decide +kernel
  refine ⟨hcollects, by decide +kernel, by decide +kernel, ?_, ?_⟩
  · rw [hcollects.closes_iff hmedia (by decide +kernel) (by decide +kernel)]
    decide +kernel
  · rw [polylineDrawer, PolylineDrawer.highlights_preview_iff]
    exact fun hhint => hhint.1 rfl

/-- With three points the hint comes where the outline is closed. -/
theorem closed_with_hint :
    let points : List (Point Float) := [⟨0.25, 0.25⟩, ⟨0.5, 0.25⟩, ⟨0.5, 0.5⟩]
    let press : PointerEvent Float := .ofPosition ⟨0.265625, 0.25⟩ {}
    let view : View Float := ⟨⟨0, 0, 100, 100⟩, 1, false, false⟩
    (collecting points).Collects .polygon Settings.default points ∧
      (∀ p ∈ points, p.inMedia) ∧ press.within ∧ press.position.inMedia ∧
      (collecting points).Closes [] press press ∧
      PolylineDrawer.Highlights ⟨0.25, 0.25⟩ view
        ((polylineDrawer .polygon Settings.default).paintPreview
          (PolylineDrawer.preview .polygon points press.position) view) := by
  intro points press view
  have hcollects : (collecting points).Collects .polygon Settings.default points :=
    ⟨rfl, .inl ⟨rfl, List.cons_ne_nil _ _⟩⟩
  have hmedia : ∀ p ∈ points, p.inMedia := by decide +kernel
  have hwithin : press.within := by decide +kernel
  have hpress : press.position.inMedia := by decide +kernel
  obtain ⟨hcloses, hhint, -⟩ :=
    closing_hint_right_iff hcollects rfl hmedia hwithin hpress [] press view
  refine ⟨hcollects, hmedia, hwithin, hpress, hcloses.mpr (by decide +kernel), ?_⟩
  exact hhint.mpr ⟨List.cons_ne_nil _ _, by decide +kernel⟩

end Session

end RegionDrawing
