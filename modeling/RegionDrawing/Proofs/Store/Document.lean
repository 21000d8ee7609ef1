import Mathlib
import RegionDrawing.Binary64.Scalar
import RegionDrawing.Proofs.Binary64.Shortest
import RegionDrawing.Proofs.Element.Document
import RegionDrawing.Proofs.Store.Elements
import RegionDrawing.Proofs.Store.Import

/-! # Stores and their documents

A document of valid elements with distinct ids is accepted by every store and brings the elements
back, in order and with everything they hold.
-/
namespace RegionDrawing.Store

variable {α : Type} [WrittenScalar α] [LawfulWrittenScalar α]

theorem readElements_exportText {store : Store α} {asset : String}
    (hids : ((store.elements asset).map (·.id)).Nodup)
    (hvalid : ∀ element ∈ store.elements asset, element.shape.isValid) :
    readElements (store.exportText asset) =
      .ok ((store.elements asset).map Element.written) := by
  have hfault : importFault? [] ((store.elements asset).map Element.written) = none := by
    refine importFault?_eq_none_iff.mpr ⟨?_, ?_⟩
    · intro element hmem
      obtain ⟨stored, hstored, rfl⟩ := List.mem_map.mp hmem
      exact ⟨hvalid stored hstored, List.not_mem_nil⟩
    · rw [List.map_map]
      exact hids
  simp only [readElements, exportText, Element.listOfText?_listText hvalid, hfault]

end RegionDrawing.Store

namespace RegionDrawing.Store

/-- A document of valid elements with distinct ids and finite stroke widths is accepted by every
store and leaves just these elements in the asset. -/
theorem importText_exportText (store target : Store Float) (asset asset' : String)
    (hids : ((store.elements asset).map (·.id)).Nodup)
    (hvalid : ∀ element ∈ store.elements asset, element.shape.isValid)
    (hwidth : ∀ element ∈ store.elements asset, ∀ style width, element.style = some style →
      style.strokeWidth = some width → width.isFinite) :
    ∃ result, target.importText asset' (store.exportText asset) =
        (result, .ok (store.elements asset).length) ∧
      result.elements asset' = store.elements asset ∧
      ∀ name, name ≠ asset' → result.elements name = target.elements name := by
  have hsame : (store.elements asset).map Element.written = store.elements asset := by
    refine (List.map_congr_left fun element hmem => ?_).trans (List.map_id _)
    exact Element.written_eq_self (hwidth element hmem)
  refine ⟨target.setElements asset' (store.elements asset), ?_, ?_, ?_⟩
  · rw [target.importText_of_read asset' (readElements_exportText hids hvalid), hsame]
  · exact elements_setElements_self _ _ _
  · intro name hname
    rw [elements_setElements, if_neg hname]

/-- Two outlines of different kinds, one with an empty style and one without any, with texts that
have to be escaped. -/
def twoOutlines : List (Element Float) :=
  let outline : Outline Float := ⟨[⟨0.25, 0.5⟩, ⟨1, 0.25⟩], true⟩
  [⟨ElementId.nil, "a \"quoted\" café\n", some "", some {}, -1, 1, .polygon outline⟩,
    ⟨⟨Vector.replicate 32 (Fin.last 15)⟩, "", none, none, 0, 0, .path outline⟩]

theorem twoOutlines_come_back :
    let store : Store Float := ⟨[("first", twoOutlines)]⟩
    let target : Store Float := {}
    ∃ result, target.importText "second" (store.exportText "first") = (result, .ok 2) ∧
      result.elements "second" = twoOutlines ∧
      ∀ name, name ≠ "second" → result.elements name = target.elements name := by
  intro store target
  refine importText_exportText store target "first" "second" ?_ ?_ ?_
  · decide +kernel
  · decide +kernel
  · have hnone : ∀ element ∈ twoOutlines, element.style.bind (·.strokeWidth) = none := by
      decide +kernel
    intro element hmem style width hstyle hwidth
    have hbind := hnone element hmem
    rw [hstyle, Option.bind_some, hwidth] at hbind
    cases hbind

end RegionDrawing.Store
