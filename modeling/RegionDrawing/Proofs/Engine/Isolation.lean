import RegionDrawing.Binary64.Scalar
import RegionDrawing.Engine.Scene
import RegionDrawing.Proofs.Engine.Writes
import RegionDrawing.Proofs.Session.CancelReports

/-! # Assets apart

A store keeps the elements of each asset apart, and a switch to another asset leaves nothing of what
went on before. What follows the switch depends on the registry, the settings, the mode, the view
and the elements of the new asset, and it reaches no other asset.
-/
namespace RegionDrawing

variable {α : Type}

namespace Store

/-- What a call makes of its asset depends on the elements of that asset alone. -/
theorem respond_congr [WrittenScalar α] {store other : Store α} (call : StoreCall α)
    (h : store.elements call.asset = other.elements call.asset) :
    (store.after call).elements call.asset = (other.after call).elements call.asset ∧
      (store.respond call).2 = (other.respond call).2 := by
  have hget : ∀ id, store.get? call.asset id = other.get? call.asset id := by
    intro id
    rw [get?_eq_withId?, h, get?_eq_withId?]
  cases call with
  | insert moment asset draft =>
    simp only [StoreCall.asset] at h
    refine ⟨?_, rfl⟩
    simp only [StoreCall.asset, after, respond, elements_insert, if_true, h]
    simp only [insert, h]
  | updateShape moment asset id shape =>
    simp only [StoreCall.asset] at h hget
    simp only [StoreCall.asset, after, respond, updateShape, hget, h]
    split
    · exact ⟨h, rfl⟩
    · split
      · simp
      · exact ⟨h, rfl⟩
  | patch moment asset id patch =>
    simp only [StoreCall.asset] at h hget
    simp only [StoreCall.asset, after, respond, Store.patch, hget, h]
    split
    · exact ⟨h, rfl⟩
    · simp
  | remove asset id =>
    simp only [StoreCall.asset] at h hget
    simp only [StoreCall.asset, after, respond, Store.remove, hget, h]
    split
    · exact ⟨h, rfl⟩
    · simp
  | clear asset =>
    simp [StoreCall.asset, after, respond, elements_clear]
  | importText asset text =>
    simp only [StoreCall.asset] at h
    simp only [StoreCall.asset, after]
    rcases store.respond_importText_cases asset text with ⟨elements, hread, heq⟩ | ⟨hread, heq⟩
    · rcases other.respond_importText_cases asset text with ⟨_, hread', heq'⟩ | ⟨hread', _⟩
      · rw [hread] at hread'
        cases hread'
        simp [heq, heq']
      · exact absurd hread (hread' elements)
    · rcases other.respond_importText_cases asset text with ⟨elements, hread', _⟩ | ⟨_, heq'⟩
      · exact absurd hread' (hread elements)
      · rw [heq, heq']
        exact ⟨h, rfl⟩

end Store

namespace Engine

theorem Writes.asset_eq [Scalar α] {engine : Engine α} {call : Call α} {write : StoreCall α}
    (h : engine.Writes call write) : write.asset = engine.asset := by
  cases h <;> rfl

theorem elements_after_of_ne [WrittenScalar α] (engine : Engine α) (call : Call α) {name : String}
    (h : name ≠ engine.asset) :
    (engine.after call).store.elements name = engine.store.elements name := by
  rcases engine.store_after call with heq | ⟨write, hwrite, heq⟩
  · rw [heq]
  · rw [heq, Store.elements_after_of_ne _ (hwrite.asset_eq ▸ h)]

/-- Whether two engines agree in registry, settings, mode and view and in the elements of an
asset. -/
structure AgreeFor (asset : String) (engine other : Engine α) : Prop where
  registry : engine.session.registry = other.session.registry
  settings : engine.session.settings = other.session.settings
  mode : engine.session.mode = other.session.mode
  frame : engine.frame = other.frame
  zoom : engine.zoom = other.zoom
  elements : engine.store.elements asset = other.store.elements asset

/-- Whether two engines are on an asset and agree in all that is seen there, whatever they hold
elsewhere. Their sessions may have reported different numbers of abandoned gestures before. -/
inductive AlikeOn (asset : String) (reports others : Nat) : Engine α → Engine α → Prop where
  | intro (session : Session α) {store further : Store α} {frame : Rect α} {zoom : α}
      (h : store.elements asset = further.elements asset) :
      AlikeOn asset reports others ⟨session.counted reports, store, asset, frame, zoom⟩
        ⟨session.counted others, further, asset, frame, zoom⟩

namespace AlikeOn

variable {asset : String} {reports others : Nat} {engine other : Engine α}
  (h : AlikeOn asset reports others engine other)

include h

theorem symm : AlikeOn asset others reports other engine := by
  obtain ⟨session, h⟩ := h
  exact .intro session h.symm

theorem asset_eq : engine.asset = asset := by
  obtain ⟨session, h⟩ := h
  rfl

theorem sessions : ∃ session : Session α,
    engine.session = session.counted reports ∧ other.session = session.counted others := by
  obtain ⟨session, h⟩ := h
  exact ⟨session, rfl, rfl⟩

theorem agreeFor : engine.AgreeFor asset other := by
  obtain ⟨session, h⟩ := h
  exact ⟨rfl, rfl, rfl, rfl, rfl, h⟩

theorem bounds?_eq (id : ElementId) : engine.bounds? id = other.bounds? id := by
  obtain ⟨session, h⟩ := h
  simp only [bounds?, element?, Store.get?, h]
  rfl

variable [WrittenScalar α]

theorem perform (moment : Moment) (action : Action α) :
    AlikeOn asset reports others (engine.perform moment action) (other.perform moment action) := by
  obtain ⟨session, h⟩ := h
  cases action with
  | elementCommitted draft =>
    exact .intro session (Store.respond_congr (.insert moment _ draft) h).1
  | elementUpdated id shape =>
    exact .intro session (Store.respond_congr (.updateShape moment _ id shape) h).1
  | elementRemoved id =>
    exact .intro (session.forget id) (Store.respond_congr (.remove _ id) h).1
  | _ => exact .intro session h

theorem performAll (moment : Moment) (taken : Session α × List (Action α)) :
    AlikeOn asset reports others
      (engine.performAll moment (taken.map (Session.counted reports) id)).1
      (other.performAll moment (taken.map (Session.counted others) id)).1 := by
  obtain ⟨taken, actions⟩ := taken
  have hsession : AlikeOn asset reports others { engine with session := taken.counted reports }
      { other with session := taken.counted others } := by
    obtain ⟨_, h⟩ := h
    exact .intro taken h
  simp only [Engine.performAll, Prod.map, id]
  generalize { engine with session := taken.counted reports } = e at hsession ⊢
  generalize { other with session := taken.counted others } = f at hsession ⊢
  induction actions generalizing e f with
  | nil => exact hsession
  | cons action actions ih => exact ih _ _ (hsession.perform moment action)

theorem take (moment : Moment) (input : Input α) :
    AlikeOn asset reports others (engine.take moment input).1 (other.take moment input).1 ∧
      (engine.take moment input).2 = (other.take moment input).2 := by
  have halike := h
  obtain ⟨session, h⟩ := h
  by_cases hkey : ∃ key drawer, input = .key key ∧ session.Chooses key drawer
  · obtain ⟨key, drawer, rfl, hchooses⟩ := hkey
    have hfirst : (session.counted reports).Chooses key drawer := hchooses
    have hsecond : (session.counted others).Chooses key drawer := hchooses
    rw [take_of_chooses hfirst, take_of_chooses hsecond, Session.setMode_counted,
      Session.setMode_counted]
    exact ⟨.intro _ h, rfl⟩
  · have hnot : ∀ key drawer, input = .key key → ¬ session.Chooses key drawer :=
      fun key drawer hinput hchooses => hkey ⟨key, drawer, hinput, hchooses⟩
    rw [take_of_not_chooses hnot, take_of_not_chooses hnot]
    simp only [Engine.elements, Session.take_counted, h]
    exact ⟨halike.performAll moment _, rfl⟩

theorem edited? (id : ElementId) (t : Transform α) : engine.edited? id t = other.edited? id t := by
  obtain ⟨session, h⟩ := h
  simp only [Engine.edited?, element?, Store.get?, h]
  rfl

theorem respond {call : Call α} (hcall : ∀ name, call = .setAsset name → name = asset) :
    AlikeOn asset reports others (engine.after call) (other.after call) ∧
      engine.reply call = other.reply call := by
  cases call with
  | input moment input =>
    obtain ⟨halike, hactions⟩ := h.take moment input
    exact ⟨halike, congrArg Reply.actions hactions⟩
  | setAsset name =>
    obtain ⟨session, h⟩ := h
    rw [hcall name rfl]
    simp only [Engine.after, Engine.setAsset, if_true]
    exact ⟨.intro session h, rfl⟩
  | setFrame | setZoom =>
    obtain ⟨session, h⟩ := h
    exact ⟨.intro session h, rfl⟩
  | setMode mode =>
    obtain ⟨session, h⟩ := h
    simp only [Engine.after, Engine.reply, Engine.setMode, Session.setMode_counted]
    exact ⟨.intro _ h, rfl⟩
  | transform moment id t =>
    have hedited := h.edited? id t
    obtain ⟨session, h⟩ := h
    simp only [Engine.after, Engine.reply, transform_eq, hedited]
    split
    · exact ⟨.intro session h, rfl⟩
    · next shape _ =>
      exact ⟨.intro session (Store.respond_congr (.updateShape moment _ id shape) h).1, rfl⟩
  | patch moment id patch =>
    obtain ⟨session, h⟩ := h
    obtain ⟨helements, haccepted⟩ := Store.respond_congr (.patch moment _ id patch) h
    exact ⟨.intro session helements, congrArg Reply.accepted haccepted⟩
  | remove id =>
    obtain ⟨session, h⟩ := h
    obtain ⟨helements, haccepted⟩ := Store.respond_congr (.remove _ id) h
    exact ⟨.intro (session.forget id) helements, congrArg Reply.accepted haccepted⟩
  | importText text =>
    obtain ⟨session, h⟩ := h
    simp only [Engine.after, Engine.reply]
    cases hread : (Store.readElements text : Except ElementError (List (Element α))) with
    | error fault =>
      simp only [importText_of_fault _ hread]
      exact ⟨.intro session h, trivial⟩
    | ok elements =>
      simp only [importText_of_read _ hread, withElements, Session.reset_counted]
      exact ⟨.intro _ (by simp), trivial⟩
  | clear =>
    obtain ⟨session, h⟩ := h
    obtain ⟨helements, haccepted⟩ := Store.respond_congr (.clear _) h
    simp only [Engine.after, Engine.reply, Engine.clear, Session.reset_counted]
    exact ⟨.intro _ helements, congrArg (Reply.cleared ∘ List.length) h⟩
  | changeRegistry registry =>
    obtain ⟨session, h⟩ := h
    exact ⟨.intro { session with registry } h, rfl⟩

/-- Two engines that agree on their asset give the same answers to all calls that do not switch to
another one, and agree behind them. -/
theorem run {calls : List (Call α)}
    (hcalls : ∀ call ∈ calls, ∀ name, call = .setAsset name → name = asset) :
    AlikeOn asset reports others (engine.run calls) (other.run calls) ∧
      engine.replies calls = other.replies calls := by
  induction calls generalizing engine other with
  | nil => exact ⟨h, rfl⟩
  | cons call calls ih =>
    obtain ⟨hcall, hrest⟩ := List.forall_mem_cons.mp hcalls
    obtain ⟨halike, hreply⟩ := h.respond hcall
    obtain ⟨hrun, hreplies⟩ := ih halike hrest
    refine ⟨hrun, ?_⟩
    rw [replies, replies, hreply, hreplies]

theorem render_eq (refuses : Nat → Bool) : engine.render refuses = other.render refuses := by
  obtain ⟨session, h⟩ := h
  simp only [render, scene, Engine.elements, h]
  rfl

theorem exportText_eq : engine.exportText = other.exportText := by
  obtain ⟨session, h⟩ := h
  simp only [exportText, Store.exportText, h]

theorem elements_run {calls : List (Call α)}
    (hcalls : ∀ call ∈ calls, ∀ name, call = .setAsset name → name = asset) {name : String}
    (hname : name ≠ asset) :
    (engine.run calls).store.elements name = engine.store.elements name := by
  induction calls generalizing engine other with
  | nil => rfl
  | cons call calls ih =>
    obtain ⟨hcall, hrest⟩ := List.forall_mem_cons.mp hcalls
    refine (ih (h.respond hcall).1 hrest).trans (engine.elements_after_of_ne call ?_)
    rw [h.asset_eq]
    exact hname

end AlikeOn

variable {asset : String} {engine other : Engine α}

theorem AgreeFor.alikeOn_setAsset (h : engine.AgreeFor asset other) (hengine : engine.asset ≠ asset)
    (hother : other.asset ≠ asset) :
    AlikeOn asset (engine.setAsset asset).session.cancelReports
      (other.setAsset asset).session.cancelReports (engine.setAsset asset)
      (other.setAsset asset) := by
  obtain ⟨⟨registry, settings, mode, _, _, _, _, _⟩, _, _, frame, zoom⟩ := engine
  obtain ⟨⟨_, _, _, _, _, _, _, _⟩, _, _, _, _⟩ := other
  obtain ⟨hregistry, hsettings, hmode, hframe, hzoom, helements⟩ := h
  cases hregistry
  cases hsettings
  cases hmode
  cases hframe
  cases hzoom
  simp only [setAsset, if_neg hengine, if_neg hother]
  exact .intro { registry, settings, mode } helements

/-- Engines that agree in registry, settings, mode and view and in the elements of an asset go on
in the same way once they switch to it, whatever went on before on other assets: they give the same
answers, their sessions stay the same but for the abandoned gestures reported before, they have and
show the same elements. The elements of all other assets stay as they were. -/
theorem switched_engines_agree [WrittenScalar α] (h : engine.AgreeFor asset other)
    (hengine : engine.asset ≠ asset) (hother : other.asset ≠ asset) {calls : List (Call α)}
    (hcalls : ∀ call ∈ calls, ∀ name, call = .setAsset name → name = asset) :
    let first := (engine.setAsset asset).run calls
    let second := (other.setAsset asset).run calls
    (engine.setAsset asset).replies calls = (other.setAsset asset).replies calls ∧
      (∃ session : Session α,
        first.session = session.counted (engine.setAsset asset).session.cancelReports ∧
        second.session = session.counted (other.setAsset asset).session.cancelReports) ∧
      first.store.elements asset = second.store.elements asset ∧
      (first.asset = asset ∧ second.asset = asset) ∧ first.frame = second.frame ∧
      first.zoom = second.zoom ∧
      (∀ refuses, first.render refuses = second.render refuses) ∧
      (∀ id, first.bounds? id = second.bounds? id) ∧ first.exportText = second.exportText ∧
      ∀ name ≠ asset, first.store.elements name = engine.store.elements name ∧
        second.store.elements name = other.store.elements name := by
  intro first second
  have hstart := h.alikeOn_setAsset hengine hother
  obtain ⟨hrun, hreplies⟩ := hstart.run hcalls
  have hothers : ∀ {engine other : Engine α} {reports others : Nat}, engine.asset ≠ asset →
      AlikeOn asset reports others (engine.setAsset asset) other → ∀ name ≠ asset,
        ((engine.setAsset asset).run calls).store.elements name = engine.store.elements name := by
    intro engine other reports others hne halike name hname
    rw [halike.elements_run hcalls hname, setAsset, if_neg hne]
  have hagree := hrun.agreeFor
  exact ⟨hreplies, hrun.sessions, hagree.elements, ⟨hrun.asset_eq, hrun.symm.asset_eq⟩,
    hagree.frame, hagree.zoom, hrun.render_eq, hrun.bounds?_eq, hrun.exportText_eq,
    fun name hname =>
      ⟨hothers hengine hstart name hname, hothers hother hstart.symm name hname⟩⟩

/-- An engine with one path on each of two assets, about to draw polygons on a third one. -/
def paths : Engine Float :=
  let engine := Engine.ofSettings Settings.default
  let path : Element Float :=
    ⟨.nil, "Path 1", none, none, 1, 1, .path ⟨[⟨0.25, 0.5⟩, ⟨1, 0.25⟩], false⟩⟩
  { engine with
    session := { engine.session with mode := .draw "polygon" }
    store := ⟨[("left", [path]), ("right", [{ path with note := some "to do" }])]⟩ }

/-- Two ways to come to the same asset: out of a gesture elsewhere, and with a selection in a store
without other elements. -/
theorem paths_switched :
    let session := paths.session
    let drawing := { paths with
      asset := "left", session := { session with state := .collecting [⟨0.25, 0.5⟩] } }
    let selecting := { paths with
      session := { session with selected := some .nil, cancelReports := 3 }
      store := paths.store.clear "left" |>.1 }
    let calls : List (Call Float) :=
      [.input ⟨.nil, 2⟩ (.down { position := ⟨0.5, 0.5⟩, within := true }), .setAsset "right",
        .patch ⟨.nil, 3⟩ .nil { label := some "wall" }, .input ⟨.nil, 4⟩ (.key ⟨"Escape"⟩)]
    drawing.AgreeFor "right" selecting ∧ drawing.asset ≠ "right" ∧ selecting.asset ≠ "right" ∧
      (drawing.setAsset "right").replies calls = (selecting.setAsset "right").replies calls ∧
      ((drawing.setAsset "right").run calls).store.elements "left" =
        drawing.store.elements "left" := by
  intro session drawing selecting calls
  have hagree : drawing.AgreeFor "right" selecting := ⟨rfl, rfl, rfl, rfl, rfl, rfl⟩
  have hcalls : ∀ call ∈ calls, ∀ name, call = .setAsset name → name = "right" := by
    simp [calls]
  have hdrawing : drawing.asset ≠ "right" := by decide
  have hselecting : selecting.asset ≠ "right" := by decide
  obtain ⟨hreplies, _, _, _, _, _, _, _, _, hothers⟩ :=
    switched_engines_agree hagree hdrawing hselecting hcalls
  exact ⟨hagree, hdrawing, hselecting, hreplies, (hothers "left" (by decide)).1⟩

end Engine

end RegionDrawing
