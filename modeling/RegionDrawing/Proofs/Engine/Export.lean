import RegionDrawing.Proofs.Engine.Validity
import RegionDrawing.Proofs.Engine.VertexEdit
import RegionDrawing.Proofs.Engine.Writes
import RegionDrawing.Proofs.Store.Document

/-! # Exports of an engine

As long as no vertex is dragged to a place with an undefined coordinate, all stored geometry is
valid and every asset can be exported and imported again. One such drag is enough for an export
that no import accepts.
-/
namespace RegionDrawing.Engine

variable {α : Type} {engine : Engine α}

/-- Whether a call brings an id that is new to the current asset, in case it stores an element. -/
def Fresh (engine : Engine α) : Call α → Prop
  | .input moment _ => ∀ element ∈ engine.elements, element.id ≠ moment.id
  | _ => True

theorem distinct_after [WrittenScalar α] (h : engine.store.Distinct) {call : Call α}
    (hfresh : engine.Fresh call) : (engine.after call).store.Distinct := by
  rcases engine.store_after call with heq | ⟨write, hwrite, heq⟩
  · rw [heq]
    exact h
  · rw [heq]
    apply h.after
    cases hwrite with
    | committed _ => exact hfresh
    | dragged | deleted | transformed | patched | removed | imported | cleared => trivial

/-- All stored geometry is valid throughout a run exactly if no call of the run drags a vertex to a
place with an undefined coordinate. Behind such a run, with fresh ids, no coordinate of an export is
null and every store accepts the export. -/
theorem storeValid_throughout_iff (settings : Settings Float) (calls : List (Call Float)) :
    ((ofSettings settings).Throughout StoreValid calls ↔
      (ofSettings settings).EachCall (fun engine call => ¬ engine.DragsUndefined call) calls) ∧
    ((ofSettings settings).EachCall
        (fun engine call => ¬ engine.DragsUndefined call ∧ engine.Fresh call) calls →
      let store := ((ofSettings settings).run calls).store
      ∀ asset,
        (∀ element ∈ store.elements asset, ∀ a ∈ element.shape.numbers,
          Json.ofScalar a = .real a) ∧
        ∀ (target : Store Float) (asset' : String), ∃ result,
          target.importText asset' (store.exportText asset) =
            (result, .ok (store.elements asset).length)) := by
  have hstart : (ofSettings settings).Sound := sound_ofSettings settings
  refine ⟨throughout_iff_eachCall (fun _ h => h.store) (fun _ _ h hcall => h.after hcall)
    (fun _ _ h hcall => h.not_storeValid_after (Classical.not_not.mp hcall)) hstart calls, ?_⟩
  intro hcalls store asset
  have hdistinct : (ofSettings settings).store.Distinct := fun _ => List.nodup_nil
  have hstep : ∀ (engine : Engine Float) call, engine.Sound ∧ engine.store.Distinct →
      ¬ engine.DragsUndefined call ∧ engine.Fresh call →
      (engine.after call).Sound ∧ (engine.after call).store.Distinct :=
    fun _ _ h hcall => ⟨h.1.after hcall.1, distinct_after h.2 hcall.2⟩
  obtain ⟨hsound, hids⟩ := run_invariant_of_eachCall hstep ⟨hstart, hdistinct⟩ hcalls
  have hvalid : ∀ element ∈ store.elements asset, element.shape.isValid := hsound.store asset
  constructor
  · intro element hmem a ha
    exact if_pos (Shape.isFinite_of_mem_numbers (hvalid element hmem) a ha)
  · intro target asset'
    refine ⟨target.setElements asset' ((store.elements asset).map Element.written), ?_⟩
    rw [target.importText_of_read asset' (Store.readElements_exportText (hids asset) hvalid),
      List.length_map]

/-- Draws a triangle and drags its first vertex beyond all bounds. -/
def dragFar : List (Call Float) :=
  let later : Moment := ⟨⟨Vector.replicate 32 (Fin.last 15)⟩, 1⟩
  gripTriangle.take 6 ++
    [.input later (.doubleClick (pointerAt 0.25 0.25)),
      .input later (.down (pointerAt 0.25 0.25)),
      .input later (.move ⟨⟨1 / 0, 0.5⟩, false, {}⟩)]

/-- A vertex that is dragged to infinity stops at the border, and the export is accepted. -/
theorem export_accepted_after_far_drag :
    let engine := (ofSettings Settings.default).run dragFar
    engine.elements.map (·.shape.points?) = [some [⟨1, 0.5⟩, ⟨0.75, 0.25⟩, ⟨0.5, 0.75⟩]] ∧
    ∃ result, ({} : Store Float).importText "copy" (engine.store.exportText engine.asset) =
      (result, .ok 1) := by
  intro engine
  have hcalls : (ofSettings Settings.default).EachCall
      (fun engine call => ¬ engine.DragsUndefined call ∧ engine.Fresh call) dragFar := by
    refine ⟨⟨id, trivial⟩, ⟨id, ?_⟩, ⟨id, ?_⟩, ⟨id, ?_⟩, ⟨id, ?_⟩, ⟨id, trivial⟩, ⟨id, ?_⟩,
      ⟨id, ?_⟩, ⟨?_, ?_⟩, trivial⟩
    case refine_7 =>
      rintro ⟨_, _, _, _, hundefined⟩
      revert hundefined
      decide +kernel
    all_goals
      unfold Fresh
      decide +kernel
  have hlength : (engine.store.elements engine.asset).length = 1 := by decide +kernel
  have haccepted := ((storeValid_throughout_iff Settings.default dragFar).2 hcalls engine.asset).2
    {} "copy"
  refine ⟨by decide +kernel, ?_⟩
  rw [hlength] at haccepted
  exact haccepted

/-- Moves the vertex that is held to a place without a first coordinate. -/
def dragUndefined : Call Float :=
  .input ⟨ElementId.nil, 0⟩ (.move ⟨⟨0 / 0, 0.5⟩, false, {}⟩)

/-- One drag to an undefined place, and the store holds invalid geometry whose export is refused. -/
theorem export_refused_after_drag :
    let engine := (ofSettings Settings.default).run (gripTriangle ++ [dragUndefined])
    engine.elements.map (fun element => (element.id, element.shape.isValid)) =
      [(ElementId.nil, false)] ∧
    (engine.importText engine.exportText).2.toOption.isNone := by
  decide +kernel

end RegionDrawing.Engine
