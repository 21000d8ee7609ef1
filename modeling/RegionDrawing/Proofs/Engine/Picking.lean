import Mathlib
import RegionDrawing.Binary64.Scalar
import RegionDrawing.Engine.Render
import RegionDrawing.Proofs.Lists

/-! # What a point picks

A rendering goes through the elements from the bottom to the top and leaves out those without a
drawer. A point picks the one element, of those painted, that it hits and above which it hits no
other one. What it does not hit plays no part in that.
-/
namespace RegionDrawing

variable {α : Type}

namespace Registry

/-- The elements that have drawers, from the bottom to the top, each with its drawer. -/
def painted (registry : Registry α) (elements : List (Element α)) :
    List (Element α × Drawer α) :=
  elements.filterMap fun element =>
    (registry.drawerFor? element.kind).map fun drawer => (element, drawer)

theorem painted_cons (registry : Registry α) (element : Element α) (elements : List (Element α)) :
    registry.painted (element :: elements) =
      match registry.drawerFor? element.kind with
      | some drawer => (element, drawer) :: registry.painted elements
      | none => registry.painted elements := by
  rw [painted, List.filterMap_cons]
  cases registry.drawerFor? element.kind <;> rfl

end Registry

namespace Engine

theorem forM_renderElement (engine : Engine α) (painter : Drawer α → Painter α)
    (elements : List (Element α)) :
    forM elements (engine.renderElement painter) =
      forM (engine.session.registry.painted elements) fun (element, drawer) =>
        .onSurface ((painter drawer).element element (engine.elementView element)) := by
  induction elements with
  | nil => rfl
  | cons element elements ih =>
    rw [List.forM_cons, ih, Registry.painted_cons, renderElement]
    cases engine.session.registry.drawerFor? element.kind <;> rfl

theorem flatMap_paintElement (engine : Engine α) (elements : List (Element α)) :
    elements.flatMap engine.paintElement =
      (engine.session.registry.painted elements).flatMap fun (element, drawer) =>
        drawer.paint element (engine.elementView element) := by
  induction elements with
  | nil => rfl
  | cons element elements ih =>
    rw [List.flatMap_cons, ih, Registry.painted_cons, paintElement]
    cases engine.session.registry.drawerFor? element.kind <;> rfl

end Engine

namespace Session

/-- Whether an element has a drawer by which a point hits it. -/
def picks (session : Session α) (p : Point α) (element : Element α) : Bool :=
  (session.registry.drawerFor? element.kind).any fun drawer =>
    drawer.hits element p session.settings.hitTolerance

/-- An element is uppermost at a point if the point hits it and, of those that are painted after it,
none. -/
def IsUppermost (session : Session α) (p : Point α) (elements : List (Element α))
    (element : Element α) : Prop :=
  ∃ below drawer above, session.registry.painted elements = below ++ (element, drawer) :: above ∧
    drawer.hits element p session.settings.hitTolerance ∧
    ∀ later ∈ above, later.2.hits later.1 p session.settings.hitTolerance = false

variable {session : Session α} {p : Point α} {elements others : List (Element α)}
  {element : Element α} {id : ElementId}

theorem picks_iff : session.picks p element ↔
    ∃ drawer, session.registry.drawerFor? element.kind = some drawer ∧
      drawer.hits element p session.settings.hitTolerance := by
  rw [picks, Option.any_eq_true]

theorem filter_painted (session : Session α) (p : Point α) (elements : List (Element α)) :
    ((session.registry.painted elements).filter fun shown =>
      shown.2.hits shown.1 p session.settings.hitTolerance).map Prod.fst =
        elements.filter (session.picks p) := by
  induction elements with
  | nil => rfl
  | cons element elements ih =>
    rw [Registry.painted_cons, List.filter_cons, picks]
    cases session.registry.drawerFor? element.kind with
    | none => exact ih
    | some drawer =>
      simp only [List.filter_cons, Option.any_some]
      split
      · rw [List.map_cons, ih]
      · exact ih

/-- An element is uppermost if it is the last one that the point picks. -/
theorem isUppermost_iff : session.IsUppermost p elements element ↔
    (elements.filter (session.picks p)).getLast? = some element := by
  rw [← filter_painted, List.getLast?_map, Option.map_eq_some_iff]
  constructor
  · rintro ⟨below, drawer, above, hpainted, hhit, habove⟩
    exact ⟨(element, drawer),
      getLast?_filter_eq_some_iff.mpr ⟨below, above, hpainted, hhit, habove⟩, rfl⟩
  · rintro ⟨⟨_, drawer⟩, hlast, rfl⟩
    obtain ⟨below, above, hpainted, hhit, habove⟩ := getLast?_filter_eq_some_iff.mp hlast
    exact ⟨below, drawer, above, hpainted, hhit, habove⟩

theorem IsUppermost.mem (h : session.IsUppermost p elements element) : element ∈ elements :=
  (List.mem_filter.mp (List.mem_of_getLast? (isUppermost_iff.mp h))).1

theorem IsUppermost.picks (h : session.IsUppermost p elements element) :
    session.picks p element :=
  (List.mem_filter.mp (List.mem_of_getLast? (isUppermost_iff.mp h))).2

theorem filter_picks_eq_nil (h : ∀ element ∈ elements, session.picks p element = false) :
    elements.filter (session.picks p) = [] := by
  simpa [List.filter_eq_nil_iff] using h

theorem hit_eq [Scalar α] (session : Session α) (p : Point α) (elements : List (Element α)) :
    session.hit p elements = (elements.filter (session.picks p)).getLast?.map (·.id) := by
  rw [List.getLast?_filter, hit]
  congr 2
  funext element
  rw [picks]
  cases session.registry.drawerFor? element.kind <;> rfl

variable [Scalar α]

theorem hit_eq_some_iff : session.hit p elements = some id ↔
    ∃ element, session.IsUppermost p elements element ∧ element.id = id := by
  simp only [hit_eq, Option.map_eq_some_iff, isUppermost_iff]

theorem isSome_hit : (session.hit p elements).isSome ↔ ∃ element ∈ elements,
    session.picks p element := by
  simp only [hit_eq, Option.isSome_map, List.getLast?_isSome, ne_eq, List.filter_eq_nil_iff,
    not_forall, not_not, exists_prop]

theorem hit_congr
    (h : elements.filter (session.picks p) = others.filter (session.picks p)) :
    session.hit p elements = session.hit p others := by
  rw [hit_eq, hit_eq, h]

/-- A point picks the element that is painted last of all that it hits. Elements that are not
painted are never picked and hide none, and what is not hit may be added anywhere, changed and
taken away. -/
theorem hit_is_uppermost_painted (h : (elements.map (·.id)).Nodup) (p : Point α)
    (session : Session α) :
    (∀ (engine : Engine α) (painter : Drawer α → Painter α) (surface : Canvas.Surface α),
      Engine.rendering painter (engine, surface) = (do
        forM (engine.session.registry.painted engine.elements) fun (element, drawer) =>
          Rendering.onSurface ((painter drawer).element element (engine.elementView element))
        engine.renderEditor
        engine.renderPreview painter : Rendering α Unit) (engine, surface)) ∧
    (∀ engine : Engine α, engine.scene =
      (engine.session.registry.painted engine.elements).flatMap (fun (element, drawer) =>
        drawer.paint element (engine.elementView element)) ++
        engine.paintEditor ++ engine.paintPreview) ∧
    ((session.hit p elements).isSome ↔ ∃ element ∈ elements, ∃ drawer,
      session.registry.drawerFor? element.kind = some drawer ∧
        drawer.hits element p session.settings.hitTolerance) ∧
    (∀ element ∈ elements,
      session.hit p elements = some element.id ↔ session.IsUppermost p elements element) ∧
    (∀ id, session.hit p elements = some id → ∃ element ∈ elements, element.id = id) ∧
    (∀ element ∈ elements, session.registry.drawerFor? element.kind = none →
      session.hit p elements ≠ some element.id) ∧
    session.hit p elements =
      session.hit p (elements.filter fun e => (session.registry.drawerFor? e.kind).isSome) ∧
    (∀ others : List (Element α),
      elements.filter (session.picks p) = others.filter (session.picks p) →
        session.hit p elements = session.hit p others) ∧
    ∀ below replaced replacing above : List (Element α),
      (∀ element ∈ replaced ++ replacing, session.picks p element = false) →
        session.hit p (below ++ replaced ++ above) =
          session.hit p (below ++ replacing ++ above) := by
  have huppermost : ∀ element ∈ elements,
      session.hit p elements = some element.id ↔ session.IsUppermost p elements element := by
    intro element hmem
    rw [hit_eq_some_iff]
    constructor
    · rintro ⟨other, hother, hid⟩
      rwa [← List.inj_on_of_nodup_map h hother.mem hmem hid]
    · exact fun helement => ⟨element, helement, rfl⟩
  refine ⟨fun engine painter surface => ?_, fun engine => ?_, ?_, huppermost, fun id hid => ?_,
    fun element hmem hdrawer hhit => ?_, ?_, fun others => hit_congr,
    fun below replaced replacing above hnone => ?_⟩
  · rw [← Engine.forM_renderElement]
    rfl
  · rw [Engine.scene, Engine.flatMap_paintElement]
  · simp only [isSome_hit, picks_iff]
  · obtain ⟨element, helement, rfl⟩ := hit_eq_some_iff.mp hid
    exact ⟨element, helement.mem, rfl⟩
  · obtain ⟨drawer, hsome, _⟩ := picks_iff.mp ((huppermost element hmem).mp hhit).picks
    rw [hdrawer] at hsome
    cases hsome
  · apply hit_congr
    rw [List.filter_filter]
    apply List.filter_congr
    intro element _
    rw [picks]
    cases session.registry.drawerFor? element.kind <;> simp
  · obtain ⟨hreplaced, hreplacing⟩ := List.forall_mem_append.mp hnone
    apply hit_congr
    simp only [List.filter_append, filter_picks_eq_nil hreplaced, filter_picks_eq_nil hreplacing]

def plot (digit : Fin 16) (shape : Shape Float) : Element Float :=
  ⟨⟨Vector.replicate 32 digit⟩, "plot", none, none, 1, 1, shape⟩

def lowerPlot : Element Float := plot (Fin.last 15) (.rect ⟨0.25, 0.25, 0.5, 0.5⟩)

def upperPlot : Element Float := plot (Fin.last 14).castSucc (.rect ⟨0.375, 0.375, 0.5, 0.5⟩)

def boxOverPlots : Element Float :=
  plot (Fin.last 13).castSucc.castSucc (.box ⟨⟨0.25, 0.25, 0.5, 0.5⟩, ⟨0.5, 0.5⟩, 0.5⟩)

def plotAside : Element Float := { plot (Fin.last 15) (.rect ⟨0, 0, 0.125, 0.125⟩) with id := .nil }

def overlappingElements : List (Element Float) := [lowerPlot, upperPlot, boxOverPlots, plotAside]

/-- A session without a drawer for boxes. -/
def boxlessSession : Session Float where
  registry := { entries := [⟨rectangleDrawer Settings.default, 10, true⟩] }
  settings := Settings.default

/-- The box that is not painted does not hide the rectangle under it. -/
theorem boxlessSession_hit :
    (overlappingElements.map (·.id)).Nodup ∧
      boxlessSession.hit ⟨0.5, 0.5⟩ overlappingElements = some upperPlot.id := by
  have hnodup : (overlappingElements.map (·.id)).Nodup := by decide +kernel
  obtain ⟨_, _, _, huppermost, _⟩ :=
    hit_is_uppermost_painted hnodup (⟨0.5, 0.5⟩ : Point Float) boxlessSession
  refine ⟨hnodup, (huppermost upperPlot (List.mem_cons_of_mem _ List.mem_cons_self)).mpr ?_⟩
  have hpainted : boxlessSession.registry.painted overlappingElements =
      [(lowerPlot, rectangleDrawer Settings.default)] ++
        (upperPlot, rectangleDrawer Settings.default) ::
        [(plotAside, rectangleDrawer Settings.default)] := rfl
  refine ⟨_, _, _, hpainted, by decide +kernel, ?_⟩
  rw [List.forall_mem_singleton]
  decide +kernel

end Session

end RegionDrawing
