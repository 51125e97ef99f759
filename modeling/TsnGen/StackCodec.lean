import Mathlib.Data.List.Forall2
import TsnGen.StackHistory

namespace TsnGen

open PacketBuilder

/-!
# The stack codec round-trips

Encoding builds values, loads them into contexts by short name, lets modules
rewrite derived fields and packs the contexts; decoding slices by the declared
layout.  Where short names are distinct, loading finds every field's own width,
so each packed layer has the declared shape of its interface, hooks keep that
shape, and the codec theorem of single layers applies layer by layer.
-/

/-- Every wire field of an interface is loaded with its own width. -/
def WidthsAgree
    (varDb : Database Var)
    (refs : List String) : Prop :=
  ∀ entry ∈ layout varDb refs,
    Session.declaredWidth varDb entry.1 refs = entry.2.size

/-- Among distinct short names the first match is the only one. -/
theorem declaredWidth_of_nodup
    {varDb : Database Var}
    {refs : List String}
    (distinct : (refs.map shortName).Nodup)
    {ref : String}
    (member : ref ∈ refs)
    {var : Var}
    (resolved : varDb.getElement ref = some var) :
    Session.declaredWidth varDb (shortName ref) refs = var.size := by
  induction refs with
  | nil =>
      simp at member
  | cons head rest inductionHypothesis =>
      simp only [List.map_cons, List.nodup_cons] at distinct
      rcases List.mem_cons.mp member with isHead | inRest
      · subst isHead
        simp [Session.declaredWidth, resolved]
      · have different : shortName head ≠ shortName ref := by
          intro same
          exact distinct.1 (same ▸ List.mem_map_of_mem inRest)
        simp [Session.declaredWidth, different,
          inductionHypothesis distinct.2 inRest]

/-- Distinct short names make all widths agree. -/
theorem widthsAgree_of_nodup
    (varDb : Database Var)
    {refs : List String}
    (distinct : (refs.map shortName).Nodup) :
    WidthsAgree varDb refs := by
  rintro ⟨name, var⟩ member
  obtain ⟨ref, refMember, rfl, resolved, _⟩ := mem_layout_iff.mp member
  exact declaredWidth_of_nodup distinct refMember resolved

/-- Fields of declared shape survive the way through a context. -/
theorem WidthsAgree.populated_reported
    {varDb : Database Var}
    {refs : List String}
    (agree : WidthsAgree varDb refs)
    {fields : List Field}
    (shape :
      shapeOf fields = PacketDecoder.declaredShape varDb refs) :
    Session.populated varDb refs (reported fields) = fields := by
  have loaded :
      ∀ field ∈ fields,
        (let bits := Session.declaredWidth varDb field.name refs
          if bits ≠ 0 then
            some
              ({ name := field.name
                 value := field.value
                 bits := bits } : Field)
          else
            none) = some field := by
    intro field member
    have inShape : (field.name, field.bits) ∈ shapeOf fields :=
      List.mem_map.mpr ⟨field, member, rfl⟩
    rw [shape] at inShape
    obtain ⟨⟨name, var⟩, entryMember, sameEntry⟩ := List.mem_map.mp inShape
    rw [Prod.mk.injEq] at sameEntry
    obtain ⟨rfl, sameWidth⟩ := sameEntry
    obtain ⟨_, _, _, _, wide⟩ := mem_layout_iff.mp entryMember
    have declared :
        Session.declaredWidth varDb field.name refs = field.bits :=
      (agree _ entryMember).trans sameWidth
    have fieldWide : field.bits ≠ 0 := by
      rw [← sameWidth]
      exact wide
    simp [declared, fieldWide]
  rw [Session.populated, reported, List.filterMap_map]
  calc
    fields.filterMap _ = fields.filterMap some :=
      List.filterMap_congr loaded
    _ = fields := List.filterMap_some

/-- A packed row fits a view: declared shape, or nothing at all. -/
def LayerView.Fits
    (varDb : Database Var)
    (view : LayerView)
    (row : String × List Field) : Prop :=
  row.1 = view.serviceName ∧
    match view.iface with
    | some iface =>
        shapeOf row.2 = PacketDecoder.declaredShape varDb iface.varRefs
    | none => row.2 = []

/-- The rows of a generation fit the views it started from. -/
theorem LayerView.fits_encodedRows
    {varDb : Database Var}
    {views : List LayerView}
    (clean :
      ∀ view ∈ views, view.iface = none → view.context.fields = [])
    (agree :
      ∀ view ∈ views, ∀ iface ∈ view.iface,
        WidthsAgree varDb iface.varRefs)
    (rng : Rng G)
    (engine : G) :
    List.Forall₂ (LayerView.Fits varDb) views
      (LayerView.encodedRows views
        (LayerView.drawContexts rng varDb views engine).1) := by
  have general :
      ∀ (memory : List LayerContext) (engine : G),
        List.Forall₂ (LayerView.Fits varDb) views
          (List.zipWith
            (fun view ctx =>
              (view.serviceName, view.kind.encoded memory ctx))
            views (LayerView.drawContexts rng varDb views engine).1) := by
    intro memory
    induction views with
    | nil =>
        intro engine
        exact .nil
    | cons view rest inductionHypothesis =>
        intro engine
        have later :=
          inductionHypothesis
            (fun other member => clean other (by simp [member]))
            (fun other member => agree other (by simp [member]))
        cases resolved : view.iface with
        | none =>
            simp only [LayerView.drawContexts, resolved,
              List.zipWith_cons_cons]
            refine .cons ⟨rfl, ?_⟩ (later _)
            have shape := view.kind.shapeOf_encoded memory view.context
            rw [clean view (by simp) resolved] at shape
            simpa [resolved, shapeOf] using shape
        | some iface =>
            simp only [LayerView.drawContexts, resolved,
              List.zipWith_cons_cons]
            refine .cons ⟨rfl, ?_⟩ (later _)
            have drawnShape :=
              shapeOf_drawFields (fun _ var => pickValue rng var)
                (layout varDb iface.varRefs) engine
            have widths := agree view (by simp) iface resolved
            simp only [resolved, LogicKind.shapeOf_encoded,
              widths.populated_reported drawnShape]
            exact drawnShape
  exact general _ engine

/-- Packed rows decode to their own slices and carried values. -/
theorem LayerView.decodeViews_packRows
    {varDb : Database Var}
    (narrow : NarrowWidths varDb)
    {views : List LayerView}
    {rows : List (String × List Field)}
    (fits : List.Forall₂ (LayerView.Fits varDb) views rows)
    (front : List UInt8) :
    LayerView.decodeViews varDb (front ++ (packRows rows).bytes)
        views front.length =
      rows.map fun row =>
        (row.1,
          { bytes := packFields row.2, fields := carried row.2 }) := by
  induction fits generalizing front with
  | nil =>
      rfl
  | @cons view row views rows fit later inductionHypothesis =>
      obtain ⟨sameName, shape⟩ := fit
      cases resolved : view.iface with
      | none =>
          simp only [resolved] at shape
          have rest := inductionHypothesis front
          have nothingPacked : packFields [] = [] :=
            rfl
          have nothingCarried : carried [] = [] :=
            rfl
          simp only [packRows] at rest
          simp [LayerView.decodeViews, resolved, packRows, shape, sameName,
            nothingPacked, nothingCarried, rest]
      | some iface =>
          simp only [resolved] at shape
          have headDecoded :=
            decode_packed narrow shape front
              (packRows rows).bytes
          have headLength :
              front.length + PacketDecoder.layerBytes iface varDb =
                (front ++ packFields row.2).length := by
            simp [length_packFields narrow shape]
          have rest := inductionHypothesis (front ++ packFields row.2)
          rw [← headLength] at rest
          simp only [packRows, List.append_assoc] at headDecoded rest
          simp only [LayerView.decodeViews, resolved, packRows,
            List.flatMap_cons, List.map_cons, headDecoded, rest, sameName]

/-- The short names of every layer's interface are pairwise distinct. -/
def Stack.DistinctNames
    (session : Session)
    (stack : Stack) : Prop :=
  ∀ layer ∈ stack.layers,
    ∀ iface ∈ session.interfaceForLayer layer,
      (iface.varRefs.map shortName).Nodup

instance
    (session : Session)
    (stack : Stack) :
    Decidable (stack.DistinctNames session) :=
  inferInstanceAs
    (Decidable
      (∀ layer ∈ stack.layers,
        ∀ iface ∈ session.interfaceForLayer layer,
          (iface.varRefs.map shortName).Nodup))

namespace Stack

/-- Distinct names let every generation of a stack's history fit its views. -/
theorem fits_generateStack
    {session : Session}
    {built : Stack}
    (clean : built.Clean session)
    (distinct : built.DistinctNames session)
    (rng : Rng G)
    (engine : G) :
    List.Forall₂ (LayerView.Fits session.varDb) (built.views session)
      (LayerView.encodedRows (built.views session)
        (LayerView.drawContexts rng session.varDb (built.views session)
          engine).1) := by
  apply LayerView.fits_encodedRows clean
  intro view member iface resolved
  obtain ⟨layer, layerMember, rfl⟩ := List.mem_map.mp member
  exact widthsAgree_of_nodup session.varDb
    (distinct layer layerMember iface resolved)

/--
A frame generated at any point of a stack's history packs rows that fit the
built views, and decoding it slices the same rows back out.
-/
theorem decodeStack_generateStack_rows
    {session : Session}
    (narrow : NarrowWidths session.varDb)
    (rng : Rng G)
    {built : Stack}
    (fresh : built.Fresh)
    (distinct : built.DistinctNames session)
    (history : List (Operation G))
    (engine : G) :
    let stack := built.performAll session rng history
    let sent := stack.generateStack session rng engine
    ∃ rows,
      List.Forall₂ (LayerView.Fits session.varDb) (built.views session)
          rows ∧
        sent.packet = packRows rows ∧
          (sent.stack.decodeStack session sent.packet.bytes).packet.layers =
            rows.map fun row =>
              (row.1,
                { bytes := packFields row.2, fields := carried row.2 }) := by
  intro stack sent
  have clean := fresh.clean session
  have sameViews : stack.views session = built.views session :=
    clean.views_performAll rng history
  have sentViews : sent.stack.views session = built.views session := by
    rw [← sameViews]
    exact (clean.performAll rng history).views_generateStack rng engine
  have fits := fits_generateStack clean distinct rng engine
  have sentPacket :
      sent.packet =
        packRows
          (LayerView.encodedRows (built.views session)
            (LayerView.drawContexts rng session.varDb
              (built.views session) engine).1) := by
    rw [generateStack_packet, sameViews]
  refine ⟨_, fits, sentPacket, ?_⟩
  have sliced := LayerView.decodeViews_packRows narrow fits []
  rw [List.nil_append, List.length_nil] at sliced
  calc (sent.stack.decodeStack session sent.packet.bytes).packet.layers
      = LayerView.decodeViews session.varDb sent.packet.bytes
          (sent.stack.views session) 0 :=
        session.decodeStackLayers_packet _ _ _ _
    _ = LayerView.decodeViews session.varDb
          (packRows
            (LayerView.encodedRows (built.views session)
              (LayerView.drawContexts rng session.varDb
                (built.views session) engine).1)).bytes
          (built.views session) 0 := by
        rw [sentViews, sentPacket]
    _ = _ := sliced

/-- Rows that fit the views of a stack answer layer by layer. -/
theorem exists_row_of_fits
    {session : Session}
    {stack : Stack}
    {rows : List (String × List Field)}
    (fits :
      List.Forall₂ (LayerView.Fits session.varDb) (stack.views session)
        rows)
    {index : Nat}
    {layer : StackLayer}
    (layerAt : stack.layers[index]? = some layer) :
    ∃ row,
      rows[index]? = some row ∧
        LayerView.Fits session.varDb (layer.view session) row := by
  obtain ⟨inside, isLayer⟩ := List.getElem?_eq_some_iff.mp layerAt
  have viewInside : index < (stack.views session).length := by
    simpa [views] using inside
  have rowInside : index < rows.length := by
    rw [← fits.length_eq]
    exact viewInside
  have fit := fits.get viewInside rowInside
  have isView :
      (stack.views session).get ⟨index, viewInside⟩ =
        layer.view session := by
    simp [views, isLayer]
  rw [isView] at fit
  exact ⟨rows.get ⟨index, rowInside⟩, by simp [rowInside], fit⟩

/--
The logic-driven stack codec round-trips.  Whatever modules are bound to the
layers and whatever the stack was used for before, decoding a generated frame
returns every layer with an interface as it was reported, each value as
carried by its declared width, and an empty layer wherever none resolves.
-/
theorem decodeStack_undoes_generateStack
    {G : Type}
    (session : Session)
    (narrow : NarrowWidths session.varDb)
    (rng : Rng G)
    (built : Stack)
    (fresh : built.Fresh)
    (distinct : built.DistinctNames session)
    (history : List (Operation G))
    (engine : G) :
    let stack := built.performAll session rng history
    let sent := stack.generateStack session rng engine
    let received :=
      (sent.stack.decodeStack session sent.packet.bytes).packet
    sent.packet.layers.length = built.layers.length ∧
      received.layers.length = built.layers.length ∧
        ∀ (index : Nat) (layer : StackLayer),
          built.layers[index]? = some layer →
          match session.interfaceForLayer layer with
          | some iface =>
              ∃ sentLayer receivedLayer,
                sent.packet.layers[index]? =
                    some (layer.serviceName, sentLayer) ∧
                  received.layers[index]? =
                      some (layer.serviceName, receivedLayer) ∧
                    RoundTrips session.varDb iface sentLayer receivedLayer
          | none =>
              sent.packet.layers[index]? =
                  some (layer.serviceName, { bytes := [], fields := [] }) ∧
                received.layers[index]? =
                  some
                    (layer.serviceName, { bytes := [], fields := [] }) := by
  intro stack sent received
  obtain ⟨rows, fits, sentPacket, receivedLayers⟩ :=
    decodeStack_generateStack_rows narrow rng fresh distinct history engine
  have rowCount : rows.length = built.layers.length := by
    rw [← fits.length_eq]
    simp [views]
  refine ⟨?_, ?_, ?_⟩
  · rw [sentPacket]
    simp [packRows, rowCount]
  · rw [receivedLayers]
    simp [rowCount]
  · intro index layer layerAt
    obtain ⟨row, rowAt, sameName, shape⟩ := exists_row_of_fits fits layerAt
    have sentAt :
        sent.packet.layers[index]? =
          some
            (layer.serviceName,
              { bytes := packFields row.2, fields := reported row.2 }) := by
      rw [sentPacket]
      simp only [packRows, List.getElem?_map, rowAt, Option.map_some,
        sameName]
      rfl
    have receivedAt :
        received.layers[index]? =
          some
            (layer.serviceName,
              { bytes := packFields row.2, fields := carried row.2 }) := by
      rw [receivedLayers]
      simp only [List.getElem?_map, rowAt, Option.map_some, sameName]
      rfl
    cases resolved : session.interfaceForLayer layer with
    | some iface =>
        simp only [StackLayer.view, resolved] at shape
        exact ⟨_, _, sentAt, receivedAt, RoundTrips.of_shape shape⟩
    | none =>
        simp only [StackLayer.view, resolved] at shape
        rw [shape] at sentAt receivedAt
        exact ⟨sentAt, receivedAt⟩

theorem decodeStack_undoes_command :
    let sent :=
      freshCommandStack.generateStack commandSession (Rng.constant 6) ()
    let received :=
      (sent.stack.decodeStack commandSession sent.packet.bytes).packet
    NarrowWidths commandSession.varDb ∧
      freshCommandStack.DistinctNames commandSession ∧
        sent.packet.layers[1]? =
            some ("unmapped", { bytes := [], fields := [] }) ∧
          received.layers[1]? =
            some ("unmapped", { bytes := [], fields := [] }) :=
  ⟨by decide +kernel, by decide +kernel,
    (decodeStack_undoes_generateStack commandSession (by decide +kernel)
      (Rng.constant 6) freshCommandStack freshCommandStack_fresh
      (by decide +kernel) [] ()).2.2 1 _ rfl⟩

end Stack

end TsnGen
