import TsnGen.StackOwnership
import TsnGen.Validator
import TsnGen.ValueConstraints

namespace TsnGen

open BitBuffer PacketBuilder

/-!
# Passthrough stacks and plain stacks

With every layer bound to the passthrough, the runtime still takes its fields
through a context, where widths are looked up again by short name.  The lookup
ends at the first reference of that name, so the two paths agree exactly when
that reference has the width of the field that is being loaded.

Agreement is decided by names and widths alone: it is stated for all value
constraints on variables of the given widths.
-/

/-- Two databases that declare the same names with the same widths. -/
def SameWidths
    (varDb other : Database Var) : Prop :=
  ∀ ref,
    (other.getElement ref).map Var.size = (varDb.getElement ref).map Var.size

/-- Every field is loaded, with as many bits as it is built with. -/
def LoadsOwnBits
    (varDb : Database Var)
    (refs : List String) : Prop :=
  ∀ entry ∈ PacketDecoder.declaredShape varDb refs,
    Session.declaredWidth varDb entry.1 refs ≠ 0 ∧
      loopCount (Session.declaredWidth varDb entry.1 refs) =
        loopCount entry.2

/--
The logic-driven path of a stack and the plain path of its interfaces produce
the same bytes and, layer by layer, the same names and values.
-/
def EqualsPlain
    (session : Session)
    (stack : Stack)
    (ifaces : List ProtocolInterface) : Prop :=
  ∀ (G : Type) (rng : Rng G) (engine : G),
    let bound := (stack.generateStack session rng engine).packet
    let plain := (session.generateStack rng ifaces engine).1
    bound.bytes = plain.bytes ∧
      (bound.layers.map fun layer => layer.2.fields) =
        plain.layers.map fun layer => layer.2.fields

/-- The fields of a drawn layer after their way through a context. -/
def reloaded
    (varDb : Database Var)
    (layer : ProtocolInterface × List Field) : List Field :=
  Session.populated varDb layer.1.varRefs (reported layer.2)

/-- A passthrough stack loads the layers the plain path draws. -/
theorem map_fields_drawContexts
    (rng : Rng G)
    (varDb : Database Var)
    {views : List LayerView}
    {ifaces : List ProtocolInterface}
    (resolves : views.map LayerView.iface = ifaces.map some)
    (engine : G) :
    (LayerView.drawContexts rng varDb views engine).1.map
        LayerContext.fields =
      (Session.drawLayers rng varDb ifaces engine).1.map
        (reloaded varDb) := by
  induction views generalizing ifaces engine with
  | nil =>
      have nothing : ifaces = [] := by
        simpa using resolves.symm
      simp [nothing, LayerView.drawContexts, Session.drawLayers]
  | cons view rest inductionHypothesis =>
      cases ifaces with
      | nil =>
          simp at resolves
      | cons iface later =>
          simp only [List.map_cons, List.cons.injEq] at resolves
          obtain ⟨resolved, restResolves⟩ := resolves
          simp only [LayerView.drawContexts, resolved, Session.drawLayers,
            List.map_cons, inductionHypothesis restResolves, reloaded]

/-- What the passthrough packs, in terms of the layers the plain path draws. -/
theorem generateStack_passthrough
    (session : Session)
    {stack : Stack}
    {ifaces : List ProtocolInterface}
    (passthrough : ∀ layer ∈ stack.layers, layer.logic = .passthrough)
    (resolves :
      stack.layers.map session.interfaceForLayer = ifaces.map some)
    (rng : Rng G)
    (engine : G) :
    let bound := (stack.generateStack session rng engine).packet
    let drawn := (Session.drawLayers rng session.varDb ifaces engine).1
    bound.bytes =
        (drawn.flatMap fun layer =>
          packFields (reloaded session.varDb layer)) ∧
      (bound.layers.map fun layer => layer.2.fields) =
        drawn.map fun layer => reported (reloaded session.varDb layer) := by
  intro bound drawn
  have viewsResolve :
      (stack.views session).map LayerView.iface = ifaces.map some := by
    rw [← resolves]
    simp [Stack.views, StackLayer.view, Function.comp_def]
  have stillPassthrough :
      ∀ layer ∈ (stack.load session rng engine).layers,
        layer.logic = .passthrough := by
    intro layer member
    have tagged :
        (layer.serviceName, layer.logic) ∈
          stack.layers.map fun other => (other.serviceName, other.logic) := by
      rw [← session.map_tags_loadLayers rng stack.layers engine]
      exact List.mem_map.mpr ⟨layer, member, rfl⟩
    obtain ⟨other, otherMember, same⟩ := List.mem_map.mp tagged
    rw [Prod.mk.injEq] at same
    rw [← same.2]
    exact passthrough other otherMember
  have rowFields :
      (stack.generateStack session rng engine).stack.rows.map Prod.snd =
        drawn.map (reloaded session.varDb) := by
    rw [← map_fields_drawContexts rng session.varDb viewsResolve engine,
      ← Stack.load_contexts, Stack.rows, Stack.generateStack_layers,
      Stack.contexts, List.map_map, List.map_map, List.map_map]
    apply List.map_congr_left
    intro layer member
    simp only [Function.comp_apply, StackLayer.encode_fields,
      stillPassthrough layer member, LogicModule.kind]
    rfl
  have packed :
      bound = packRows (stack.generateStack session rng engine).stack.rows :=
    rfl
  refine ⟨?_, ?_⟩
  · have packedFields := congrArg (List.flatMap packFields) rowFields
    simpa [packed, packRows, List.flatMap_map] using packedFields
  · have reportedFields := congrArg (List.map reported) rowFields
    simpa [packed, packRows, Function.comp_def] using reportedFields

/-- What a context load depends on is the same in same-width databases. -/
theorem SameWidths.declaredWidth_eq
    {varDb other : Database Var}
    (same : SameWidths varDb other)
    (name : String)
    (refs : List String) :
    Session.declaredWidth other name refs =
      Session.declaredWidth varDb name refs := by
  induction refs with
  | nil =>
      rfl
  | cons ref rest inductionHypothesis =>
      have sameSize := same ref
      by_cases named : shortName ref = name
      · cases first : varDb.getElement ref <;>
          cases second : other.getElement ref <;>
          simp_all [Session.declaredWidth]
      · simp [Session.declaredWidth, named, inductionHypothesis]

/-- Names and widths on the wire are the same in same-width databases. -/
theorem SameWidths.declaredShape_eq
    {varDb other : Database Var}
    (same : SameWidths varDb other)
    (refs : List String) :
    PacketDecoder.declaredShape other refs =
      PacketDecoder.declaredShape varDb refs := by
  have shapeAt :
      ∀ database : Database Var,
        PacketDecoder.declaredShape database refs =
          refs.filterMap fun ref =>
            match (database.getElement ref).map Var.size with
            | none => none
            | some size =>
                if size = 0 then none else some (shortName ref, size) := by
    intro database
    rw [PacketDecoder.declaredShape, layout, List.map_filterMap]
    apply List.filterMap_congr
    intro ref _
    cases database.getElement ref with
    | none =>
        rfl
    | some var =>
        by_cases empty : var.size = 0 <;> simp [empty]
  rw [shapeAt, shapeAt]
  apply List.filterMap_congr
  intro ref _
  rw [same ref]

/-- Whether fields load their own bits is a matter of names and widths. -/
theorem SameWidths.loadsOwnBits
    {varDb other : Database Var}
    (same : SameWidths varDb other)
    {refs : List String}
    (own : LoadsOwnBits varDb refs) :
    LoadsOwnBits other refs := by
  intro entry member
  rw [same.declaredShape_eq] at member
  rw [same.declaredWidth_eq]
  exact own entry member

/-- A field as it is loaded: under its own name, with the width found there. -/
def loadedField
    (varDb : Database Var)
    (refs : List String)
    (field : Field) : Field :=
  { field with bits := Session.declaredWidth varDb field.name refs }

/-- When no field is dropped, loading only replaces widths. -/
theorem populated_of_nonzero
    {varDb : Database Var}
    {refs : List String}
    {fields : List Field}
    (kept :
      ∀ field ∈ fields,
        Session.declaredWidth varDb field.name refs ≠ 0) :
    Session.populated varDb refs (reported fields) =
      fields.map (loadedField varDb refs) := by
  rw [Session.populated, reported, List.filterMap_map,
    ← List.filterMap_eq_map]
  apply List.filterMap_congr
  intro field member
  simp [kept field member, loadedField]

/-- Fields that load their own bits put the same bits on the wire. -/
theorem wireBits_loadedField
    {varDb : Database Var}
    {refs : List String}
    {fields : List Field}
    (own :
      ∀ field ∈ fields,
        loopCount (Session.declaredWidth varDb field.name refs) =
          loopCount field.bits) :
    wireBits (fields.map (loadedField varDb refs)) = wireBits fields := by
  induction fields with
  | nil =>
      rfl
  | cons field rest inductionHypothesis =>
      have later :=
        inductionHypothesis fun other member => own other (by simp [member])
      simp only [wireBits] at later
      simp [wireBits, loadedField, own field (by simp), later]

/-- A layer that loads its own bits is packed and reported as it was drawn. -/
theorem LoadsOwnBits.reloaded_eq
    {varDb : Database Var}
    {layer : ProtocolInterface × List Field}
    (own : LoadsOwnBits varDb layer.1.varRefs)
    (shape :
      shapeOf layer.2 =
        PacketDecoder.declaredShape varDb layer.1.varRefs) :
    packFields (reloaded varDb layer) = packFields layer.2 ∧
      reported (reloaded varDb layer) = reported layer.2 := by
  have ownField :
      ∀ field ∈ layer.2,
        Session.declaredWidth varDb field.name layer.1.varRefs ≠ 0 ∧
          loopCount
              (Session.declaredWidth varDb field.name layer.1.varRefs) =
            loopCount field.bits := by
    intro field member
    apply own (field.name, field.bits)
    rw [← shape]
    exact List.mem_map.mpr ⟨field, member, rfl⟩
  rw [reloaded,
    populated_of_nonzero fun field member => (ownField field member).1]
  refine ⟨?_, ?_⟩
  · apply Represents.unique (packFields_represents _)
    rw [wireBits_loadedField fun field member => (ownField field member).2]
    exact packFields_represents _
  · simp [reported, loadedField, Function.comp_def]

/-- The variable of the same name and width without value constraints. -/
def Var.unconstrained
    (var : Var) : Var :=
  { var with
    expectedValues := []
    range := none
    mask := 0 }

/-- A database with all value constraints dropped. -/
def Database.unconstrained
    (varDb : Database Var) : Database Var where
  internalMaps := varDb.internalMaps.mapValues Var.unconstrained

/-- Dropping constraints keeps names. -/
theorem Database.getElement_unconstrained
    (varDb : Database Var)
    (ref : String) :
    varDb.unconstrained.getElement ref =
      (varDb.getElement ref).map Var.unconstrained :=
  OrderedMap.find?_mapValues _ _ _

/-- Dropping constraints keeps names and widths. -/
theorem sameWidths_unconstrained
    (varDb : Database Var) :
    SameWidths varDb varDb.unconstrained := by
  intro ref
  rw [varDb.getElement_unconstrained]
  cases varDb.getElement ref <;> rfl

/-- The answer of a countdown lies in the requested interval. -/
private theorem countdown_mem
    (lo hi engine : Nat)
    (ordered : lo ≤ hi) :
    lo ≤ (if engine = 1 ∧ lo ≤ 1 ∧ 1 ≤ hi then 1 else lo) ∧
      (if engine = 1 ∧ lo ≤ 1 ∧ 1 ≤ hi then 1 else lo) ≤ hi := by
  by_cases answered : engine = 1 ∧ lo ≤ 1 ∧ 1 ≤ hi
  · rw [if_pos answered]
    exact answered.2
  · rw [if_neg answered]
    exact ⟨Nat.le_refl lo, ordered⟩

/-- An engine that answers one draw, counted from the start, with one. -/
def Rng.countdown : Rng Nat where
  draw lo hi engine :=
    (if engine = 1 ∧ lo ≤ 1 ∧ 1 ≤ hi then 1 else lo, engine - 1)
  draw_mem := countdown_mem

/-- A field of a shape entry with a given value. -/
def fieldOf
    (value : UInt64)
    (entry : String × UInt32) : Field where
  name := entry.1
  value := value
  bits := entry.2

/-- A wire variable that can take every value of its width. -/
def Var.Free
    (var : Var) : Prop :=
  var.expectedValues = [] ∧ var.range = none ∧ var.mask = 0 ∧ var.size ≠ 0

/-- Wire variables of an unconstrained database are free. -/
theorem free_of_mem_layout
    {varDb : Database Var}
    {refs : List String}
    {entry : String × Var}
    (member : entry ∈ layout varDb.unconstrained refs) :
    entry.2.Free := by
  obtain ⟨ref, _, _, resolved, wide⟩ := mem_layout_iff.mp member
  rw [varDb.getElement_unconstrained, Option.map_eq_some_iff] at resolved
  obtain ⟨original, _, same⟩ := resolved
  rw [← same] at wide ⊢
  exact ⟨rfl, rfl, rfl, wide⟩

/-- A free variable takes one from the countdown when its turn has come. -/
theorem pickValue_countdown
    {var : Var}
    (free : var.Free)
    (engine : Nat) :
    pickValue Rng.countdown var engine =
      (if engine = 1 then 1 else 0, engine - 1) := by
  obtain ⟨unlisted, unranged, unmasked, wide⟩ := free
  have positive : 0 < var.size.toNat := by
    rw [Nat.pos_iff_ne_zero]
    intro zero
    exact wide (UInt32.toNat_inj.mp zero)
  have atLeastOne : 1 ≤ (maxVal var.size).toNat := by
    have power : 2 ^ 1 ≤ 2 ^ min var.size.toNat 64 :=
      Nat.pow_le_pow_right (by decide) (by omega)
    rw [toNat_maxVal]
    omega
  by_cases now : engine = 1
  · simp [pickValue, unlisted, unranged, wide, Var.hasMask, unmasked,
      Rng.countdown, now, atLeastOne]
  · simp [pickValue, unlisted, unranged, wide, Var.hasMask, unmasked,
      Rng.countdown, now]

/-- Drawing a concatenation draws its parts one after the other. -/
theorem drawFields_append
    (choose : String → Var → G → UInt64 × G)
    (first second : List (String × Var))
    (engine : G) :
    drawFields choose (first ++ second) engine =
      let drawn := drawFields choose first engine
      let later := drawFields choose second drawn.2
      (drawn.1 ++ later.1, later.2) := by
  induction first generalizing engine with
  | nil =>
      rfl
  | cons entry rest inductionHypothesis =>
      simp [drawFields, inductionHypothesis]

/-- Before its turn and after it the countdown draws zeros. -/
theorem drawFields_countdown_idle
    (entries : List (String × Var))
    (free : ∀ entry ∈ entries, entry.2.Free)
    (engine : Nat)
    (idle : engine = 0 ∨ entries.length < engine) :
    drawFields (fun _ var => pickValue Rng.countdown var) entries engine =
      (entries.map fun entry => fieldOf 0 (entry.1, entry.2.size),
        engine - entries.length) := by
  induction entries generalizing engine with
  | nil =>
      rfl
  | cons entry rest inductionHypothesis =>
      have notNow : engine ≠ 1 := by
        simp only [List.length_cons] at idle
        omega
      have later :=
        inductionHypothesis
          (fun other member => free other (by simp [member]))
          (engine - 1)
          (by simp only [List.length_cons] at idle; omega)
      simp only [drawFields, pickValue_countdown (free entry (by simp)),
        notNow, ↓reduceIte, later, List.map_cons, List.length_cons,
        fieldOf, Prod.mk.injEq, true_and]
      omega

/-- The countdown marks the field whose turn it is. -/
theorem drawFields_countdown_marked
    {before after : List (String × Var)}
    {entry : String × Var}
    (free : ∀ other ∈ before ++ entry :: after, other.2.Free) :
    drawFields (fun _ var => pickValue Rng.countdown var)
        (before ++ entry :: after) (before.length + 1) =
      ((before.map fun other => fieldOf 0 (other.1, other.2.size)) ++
          fieldOf 1 (entry.1, entry.2.size) ::
            after.map fun other => fieldOf 0 (other.1, other.2.size),
        0) := by
  have idleBefore :=
    drawFields_countdown_idle before
      (fun other member => free other (by simp [member]))
      (before.length + 1)
      (Or.inr (Nat.lt_succ_self _))
  have idleAfter :=
    drawFields_countdown_idle after
      (fun other member => free other (by simp [member]))
      0 (Or.inl rfl)
  rw [drawFields_append]
  simp only [idleBefore, Nat.add_sub_cancel_left, drawFields,
    pickValue_countdown (free entry (by simp)), ↓reduceIte, Nat.sub_self,
    idleAfter, Nat.zero_sub]
  rfl

/-- Fields of value zero put no set bit on the wire. -/
theorem wireBits_zero
    {fields : List Field}
    (zero : ∀ field ∈ fields, field.value = 0)
    (position : Nat) :
    (wireBits fields)[position]?.getD false = false := by
  cases bitAt : (wireBits fields)[position]? with
  | none =>
      rfl
  | some bit =>
      obtain ⟨field, member, bitMember⟩ :=
        List.mem_flatMap.mp (List.mem_of_getElem? bitAt)
      rw [zero field member] at bitMember
      exact eq_false_of_mem_msbBits_zero bitMember

/-- Fields of value zero are packed to a clear buffer. -/
theorem clear_packFields
    {fields : List Field}
    (zero : ∀ field ∈ fields, field.value = 0) :
    Clear (packFields fields) := by
  intro position
  rw [(packFields_represents fields).getBit_eq, wireBits_zero zero]

/-- Layers of zeros are packed to a clear buffer. -/
theorem clear_flatMap_packFields
    {layers : List α}
    {fieldsOf : α → List Field}
    (zero : ∀ layer ∈ layers, ∀ field ∈ fieldsOf layer, field.value = 0) :
    Clear (layers.flatMap fun layer => packFields (fieldsOf layer)) := by
  induction layers with
  | nil =>
      intro position
      simp [getBit]
  | cons layer rest inductionHypothesis =>
      rw [List.flatMap_cons]
      apply (clear_packFields (zero layer (by simp))).append
      exact inductionHypothesis fun other member =>
        zero other (by simp [member])

/-- Behind the last field that is not zero a frame is clear. -/
theorem getBit_behind_field
    {before after : List Field}
    {field : Field}
    (zeroAfter : ∀ later ∈ after, later.value = 0)
    {tail : List UInt8}
    (clearTail : Clear tail)
    {position : Nat}
    (behind : (wireBits before).length + loopCount field.bits ≤ position) :
    getBit (packFields (before ++ field :: after) ++ tail) position =
      false := by
  by_cases inside :
      position < 8 * (packFields (before ++ field :: after)).length
  · have split :
        wireBits (before ++ field :: after) =
          (wireBits before ++
              msbBits field.value.toNat (loopCount field.bits)) ++
            wireBits after := by
      simp [wireBits]
    have beyond :
        (wireBits before ++
            msbBits field.value.toNat (loopCount field.bits)).length ≤
          position := by
      simpa using behind
    rw [getBit_append_left tail inside,
      (packFields_represents _).getBit_eq, split,
      List.getElem?_append_right beyond, wireBits_zero zeroAfter]
  · obtain ⟨rest, rfl⟩ := Nat.exists_eq_add_of_le (not_lt.mp inside)
    rw [getBit_append_right]
    exact clearTail rest

/-- The last bit of a field of value one is set. -/
theorem getBit_marked_field
    (before after : List Field)
    {field : Field}
    (one : field.value = 1)
    (visible : 0 < loopCount field.bits)
    (tail : List UInt8) :
    getBit (packFields (before ++ field :: after) ++ tail)
        ((wireBits before).length + (loopCount field.bits - 1)) = true := by
  have insideBits :
      (wireBits before).length + (loopCount field.bits - 1) <
        (wireBits (before ++ field :: after)).length := by
    simp only [wireBits, List.flatMap_append, List.flatMap_cons,
      List.length_append, length_msbBits]
    omega
  have inside :=
    lt_of_lt_of_le insideBits (packFields_represents _).bits_length_le
  rw [getBit_append_left tail inside, getBit_packFields (by omega), one]
  simp

/--
Of two equal frames that agree in front of a marked field and are clear behind
it, neither gives that field more bits than the other.
-/
theorem loopCount_le_of_marked
    {before after otherBefore otherAfter : List Field}
    {field other : Field}
    (sameFront :
      (wireBits before).length = (wireBits otherBefore).length)
    (one : other.value = 1)
    (zeroAfter : ∀ later ∈ after, later.value = 0)
    {tail otherTail : List UInt8}
    (clearTail : Clear tail)
    (sameBytes :
      packFields (before ++ field :: after) ++ tail =
        packFields (otherBefore ++ other :: otherAfter) ++ otherTail) :
    loopCount other.bits ≤ loopCount field.bits := by
  by_contra wider
  have marked :=
    getBit_marked_field otherBefore otherAfter one (by omega) otherTail
  rw [← sameBytes, ← sameFront,
    getBit_behind_field zeroAfter clearTail (by omega)] at marked
  simp at marked

/-- Induction along a list: every item may rely on the items before it. -/
theorem forall_mem_of_earlier
    {items : List α}
    {property : α → Prop}
    (step :
      ∀ before item after,
        items = before ++ item :: after →
        (∀ earlier ∈ before, property earlier) →
        property item) :
    ∀ item ∈ items, property item := by
  induction items with
  | nil =>
      simp
  | cons head rest inductionHypothesis =>
      have headHolds : property head :=
        step [] head rest rfl (by simp)
      have restHolds :=
        inductionHypothesis fun before item after split earlier =>
          step (head :: before) item after (by simp [split])
            (by simpa [headHolds] using earlier)
      simpa [headHolds] using restHolds

/-- Drawing a concatenation of layers draws its parts in order. -/
theorem drawLayers_append
    (rng : Rng G)
    (varDb : Database Var)
    (first second : List ProtocolInterface)
    (engine : G) :
    Session.drawLayers rng varDb (first ++ second) engine =
      let drawn := Session.drawLayers rng varDb first engine
      let later := Session.drawLayers rng varDb second drawn.2
      (drawn.1 ++ later.1, later.2) := by
  induction first generalizing engine with
  | nil =>
      rfl
  | cons iface rest inductionHypothesis =>
      simp [Session.drawLayers, inductionHypothesis]

/-- Number of values drawn for a list of layers. -/
def drawCount
    (varDb : Database Var)
    (ifaces : List ProtocolInterface) : Nat :=
  (ifaces.map fun iface => (layout varDb iface.varRefs).length).sum

/-- The countdown runs down by one for every value drawn before its turn. -/
theorem drawLayers_countdown_engine
    (varDb : Database Var)
    (ifaces : List ProtocolInterface)
    (engine : Nat)
    (early : drawCount varDb.unconstrained ifaces < engine) :
    (Session.drawLayers Rng.countdown varDb.unconstrained ifaces
        engine).2 =
      engine - drawCount varDb.unconstrained ifaces := by
  induction ifaces generalizing engine with
  | nil =>
      rfl
  | cons iface rest inductionHypothesis =>
      simp only [drawCount, List.map_cons, List.sum_cons] at early
      have idle :=
        drawFields_countdown_idle
          (layout varDb.unconstrained iface.varRefs)
          (fun _ member => free_of_mem_layout member) engine (by omega)
      have later :=
        inductionHypothesis
          (engine - (layout varDb.unconstrained iface.varRefs).length)
          (by simp only [drawCount]; omega)
      simp only [Session.drawLayers, idle, later, drawCount, List.map_cons,
        List.sum_cons]
      omega

/-- After its turn the countdown draws layers of zeros. -/
theorem drawLayers_countdown_zero
    (varDb : Database Var)
    (ifaces : List ProtocolInterface) :
    ∀ layer ∈
        (Session.drawLayers Rng.countdown varDb.unconstrained ifaces 0).1,
      ∀ field ∈ layer.2, field.value = 0 := by
  induction ifaces with
  | nil =>
      simp [Session.drawLayers]
  | cons iface rest inductionHypothesis =>
      have idle :=
        drawFields_countdown_idle
          (layout varDb.unconstrained iface.varRefs)
          (fun _ member => free_of_mem_layout member) 0 (Or.inl rfl)
      simp only [Session.drawLayers, idle, Nat.zero_sub, List.mem_cons,
        forall_eq_or_imp]
      refine ⟨?_, inductionHypothesis⟩
      intro field member
      obtain ⟨entry, _, rfl⟩ := List.mem_map.mp member
      rfl

/-- Agreement of the two paths, in terms of the layers that are drawn. -/
structure AgreesOn
    (varDb : Database Var)
    (drawn : List (ProtocolInterface × List Field)) : Prop where
  bytes_eq :
    (drawn.flatMap fun layer => packFields (reloaded varDb layer)) =
      drawn.flatMap fun layer => packFields layer.2
  fields_eq :
    ∀ layer ∈ drawn, reported (reloaded varDb layer) = reported layer.2

/-- Where the two paths report the same fields, no field is dropped. -/
theorem AgreesOn.width_ne_zero
    {varDb : Database Var}
    {drawn : List (ProtocolInterface × List Field)}
    (agrees : AgreesOn varDb drawn)
    (layer : ProtocolInterface × List Field)
    (member : layer ∈ drawn)
    {field : Field}
    (fieldMember : field ∈ layer.2) :
    Session.declaredWidth varDb field.name layer.1.varRefs ≠ 0 := by
  have reportedMember : (field.name, field.value) ∈ reported layer.2 :=
    List.mem_map.mpr ⟨field, fieldMember, rfl⟩
  rw [← agrees.fields_eq layer member] at reportedMember
  obtain ⟨loaded, loadedMember, same⟩ := List.mem_map.mp reportedMember
  rw [Prod.mk.injEq] at same
  rw [← same.1]
  exact (Session.mem_populated loadedMember).2.1

/-- Loading keeps values: layers of zeros stay layers of zeros. -/
theorem reloaded_zero
    {varDb : Database Var}
    {layer : ProtocolInterface × List Field}
    (zero : ∀ field ∈ layer.2, field.value = 0) :
    ∀ field ∈ reloaded varDb layer, field.value = 0 := by
  intro field member
  obtain ⟨original, originalMember, same⟩ :=
    List.mem_map.mp (Session.mem_populated member).1
  rw [Prod.mk.injEq] at same
  rw [← same.2]
  exact zero original originalMember

/--
Where the two paths agree on a frame with one marked field, everything in front
of it packed alike and zeros behind it, that field is packed with its own bits.
-/
theorem AgreesOn.marked_own
    {varDb : Database Var}
    {front back : List (ProtocolInterface × List Field)}
    {iface : ProtocolInterface}
    {before after : List Field}
    {field : Field}
    (agrees :
      AgreesOn varDb
        (front ++ (iface, before ++ field :: after) :: back))
    (frontOwn :
      ∀ layer ∈ front,
        packFields (reloaded varDb layer) = packFields layer.2)
    (beforeOwn :
      ∀ earlier ∈ before,
        loopCount
            (Session.declaredWidth varDb earlier.name iface.varRefs) =
          loopCount earlier.bits)
    (one : field.value = 1)
    (zeroAfter : ∀ later ∈ after, later.value = 0)
    (zeroBack : ∀ layer ∈ back, ∀ other ∈ layer.2, other.value = 0) :
    Session.declaredWidth varDb field.name iface.varRefs ≠ 0 ∧
      loopCount (Session.declaredWidth varDb field.name iface.varRefs) =
        loopCount field.bits := by
  have kept :
      ∀ other ∈ before ++ field :: after,
        Session.declaredWidth varDb other.name iface.varRefs ≠ 0 :=
    fun other member =>
      agrees.width_ne_zero (iface, before ++ field :: after)
        (by simp) member
  have loaded :
      reloaded varDb (iface, before ++ field :: after) =
        before.map (loadedField varDb iface.varRefs) ++
          loadedField varDb iface.varRefs field ::
            after.map (loadedField varDb iface.varRefs) := by
    rw [reloaded, populated_of_nonzero kept]
    simp
  have zeroLoaded :
      ∀ later ∈ after.map (loadedField varDb iface.varRefs),
        later.value = 0 := by
    intro later member
    obtain ⟨original, originalMember, rfl⟩ := List.mem_map.mp member
    exact zeroAfter original originalMember
  have sameFront :
      (wireBits
          (before.map (loadedField varDb iface.varRefs))).length =
        (wireBits before).length := by
    rw [wireBits_loadedField beforeOwn]
  have clearBack :
      Clear (back.flatMap fun layer => packFields layer.2) :=
    clear_flatMap_packFields zeroBack
  have clearLoadedBack :
      Clear (back.flatMap fun layer => packFields (reloaded varDb layer)) :=
    clear_flatMap_packFields fun layer member =>
      reloaded_zero (zeroBack layer member)
  have sameBytes :
      packFields (reloaded varDb (iface, before ++ field :: after)) ++
          (back.flatMap fun layer => packFields (reloaded varDb layer)) =
        packFields (before ++ field :: after) ++
          back.flatMap fun layer => packFields layer.2 := by
    have whole := agrees.bytes_eq
    simp only [List.flatMap_append, List.flatMap_cons] at whole
    rw [List.flatMap_congr frontOwn] at whole
    exact List.append_cancel_left whole
  rw [loaded] at sameBytes
  have oneLoaded : (loadedField varDb iface.varRefs field).value = 1 :=
    one
  have notMore :
      loopCount (loadedField varDb iface.varRefs field).bits ≤
        loopCount field.bits :=
    loopCount_le_of_marked sameFront.symm oneLoaded zeroAfter clearBack
      sameBytes.symm
  have notFewer :
      loopCount field.bits ≤
        loopCount (loadedField varDb iface.varRefs field).bits :=
    loopCount_le_of_marked sameFront one zeroLoaded clearLoadedBack sameBytes
  exact ⟨kept field (by simp), Nat.le_antisymm notMore notFewer⟩

/-- The countdown marks one field of a frame, with zeros behind it. -/
theorem drawLayers_countdown_marked
    {varDb : Database Var}
    (earlier later : List ProtocolInterface)
    {iface : ProtocolInterface}
    {before after : List (String × Var)}
    {entry : String × Var}
    (split :
      layout varDb.unconstrained iface.varRefs = before ++ entry :: after) :
    let engine :=
      drawCount varDb.unconstrained earlier + (before.length + 1)
    (Session.drawLayers Rng.countdown varDb.unconstrained
        (earlier ++ iface :: later) engine).1 =
      (Session.drawLayers Rng.countdown varDb.unconstrained earlier
          engine).1 ++
        (iface,
            (before.map fun other => fieldOf 0 (other.1, other.2.size)) ++
              fieldOf 1 (entry.1, entry.2.size) ::
                after.map fun other => fieldOf 0 (other.1, other.2.size)) ::
          (Session.drawLayers Rng.countdown varDb.unconstrained later
            0).1 := by
  intro engine
  have running :
      (Session.drawLayers Rng.countdown varDb.unconstrained earlier
        engine).2 = before.length + 1 := by
    rw [drawLayers_countdown_engine varDb earlier engine
      (Nat.lt_add_of_pos_right (Nat.succ_pos _))]
    exact Nat.add_sub_cancel_left _ _
  have free :
      ∀ other ∈ before ++ entry :: after, other.2.Free := by
    rw [← split]
    exact fun _ member => free_of_mem_layout member
  rw [drawLayers_append]
  simp only [running, Session.drawLayers, split,
    drawFields_countdown_marked free]

/--
Where the two paths agree on all draws of the countdown, every field is packed
with its own bits: mark the first field that is not, and the mark shows.
-/
theorem loadsOwnBits_of_agreesOn
    {varDb : Database Var}
    {ifaces : List ProtocolInterface}
    (agrees :
      ∀ engine,
        AgreesOn varDb.unconstrained
          (Session.drawLayers Rng.countdown varDb.unconstrained ifaces
            engine).1) :
    ∀ iface ∈ ifaces,
      LoadsOwnBits varDb.unconstrained iface.varRefs := by
  apply forall_mem_of_earlier
  intro earlierIfaces iface laterIfaces split earlierOwn
  suffices ownEntry :
      ∀ entry ∈ layout varDb.unconstrained iface.varRefs,
        Session.declaredWidth varDb.unconstrained entry.1
              iface.varRefs ≠ 0 ∧
          loopCount
              (Session.declaredWidth varDb.unconstrained entry.1
                iface.varRefs) =
            loopCount entry.2.size by
    intro shapeEntry member
    obtain ⟨entry, entryMember, rfl⟩ := List.mem_map.mp member
    exact ownEntry entry entryMember
  apply forall_mem_of_earlier
  intro before entry after layoutSplit earlierEntries
  have marked :=
    drawLayers_countdown_marked earlierIfaces laterIfaces layoutSplit
  have agreesMarked :=
    agrees
      (drawCount varDb.unconstrained earlierIfaces + (before.length + 1))
  simp only [← split] at marked
  rw [marked] at agreesMarked
  apply agreesMarked.marked_own
  · intro layer member
    have interface : layer.1 ∈ earlierIfaces := by
      rw [← Session.drawLayers_interfaces Rng.countdown
        varDb.unconstrained earlierIfaces]
      exact List.mem_map_of_mem member
    exact ((earlierOwn layer.1 interface).reloaded_eq
      (Session.drawLayers_shape member)).1
  · intro field member
    obtain ⟨other, otherMember, rfl⟩ := List.mem_map.mp member
    exact (earlierEntries other otherMember).2
  · rfl
  · intro field member
    obtain ⟨other, otherMember, rfl⟩ := List.mem_map.mp member
    rfl
  · exact drawLayers_countdown_zero varDb laterIfaces

/--
A passthrough stack equals the plain path, for all value constraints on its
variables and all random outcomes, exactly when every field is loaded and
packed with as many bits as it is built with.
-/
theorem equalsPlain_iff
    (session : Session)
    (stack : Stack)
    (ifaces : List ProtocolInterface)
    (passthrough : ∀ layer ∈ stack.layers, layer.logic = .passthrough)
    (resolves :
      stack.layers.map session.interfaceForLayer = ifaces.map some) :
    (∀ varDb, SameWidths session.varDb varDb →
        EqualsPlain (session.withVarDb varDb) stack ifaces) ↔
      ∀ iface ∈ ifaces, LoadsOwnBits session.varDb iface.varRefs := by
  constructor
  · intro equals iface member
    have same := sameWidths_unconstrained session.varDb
    have agrees :
        ∀ engine,
          AgreesOn session.varDb.unconstrained
            (Session.drawLayers Rng.countdown
              session.varDb.unconstrained ifaces engine).1 := by
      intro engine
      obtain ⟨sameBytes, sameFields⟩ :=
        equals _ same Nat Rng.countdown engine
      obtain ⟨boundBytes, boundFields⟩ :=
        generateStack_passthrough
          (session.withVarDb session.varDb.unconstrained)
          passthrough resolves Rng.countdown engine
      rw [Session.generateStack_eq] at sameBytes sameFields
      rw [boundBytes] at sameBytes
      rw [boundFields] at sameFields
      simp only [Session.assembled, List.map_map] at sameFields
      exact ⟨sameBytes, List.map_inj_left.mp sameFields⟩
    have own := loadsOwnBits_of_agreesOn agrees iface member
    intro entry entryMember
    rw [← same.declaredShape_eq] at entryMember
    have ownEntry := own entry entryMember
    rw [same.declaredWidth_eq] at ownEntry
    exact ownEntry
  · intro own varDb same G rng engine
    obtain ⟨boundBytes, boundFields⟩ :=
      generateStack_passthrough (session.withVarDb varDb)
        passthrough resolves rng engine
    have drawnOwn :
        ∀ layer ∈ (Session.drawLayers rng varDb ifaces engine).1,
          packFields (reloaded varDb layer) = packFields layer.2 ∧
            reported (reloaded varDb layer) = reported layer.2 := by
      intro layer member
      have interface : layer.1 ∈ ifaces := by
        rw [← Session.drawLayers_interfaces rng varDb ifaces engine]
        exact List.mem_map_of_mem member
      exact (same.loadsOwnBits (own layer.1 interface)).reloaded_eq
        (Session.drawLayers_shape member)
    rw [Session.generateStack_eq]
    refine ⟨?_, ?_⟩
    · rw [boundBytes]
      exact List.flatMap_congr fun layer member =>
        (drawnOwn layer member).1
    · rw [boundFields]
      simp only [Session.assembled, List.map_map]
      apply List.map_congr_left
      intro layer member
      exact (drawnOwn layer member).2

/-- The unaligned interface in a session of its own. -/
def unalignedSession : Session where
  varDb := unalignedVarDb
  interfaceDb :=
    (Database.empty.addUniqueElement unalignedInterface.name
      unalignedInterface).2
  serviceDb := .empty

/-- Two passthrough layers over the unaligned interface. -/
def unalignedStack : Stack :=
  .assemble "unaligned" [
    Stack.loadedLayer "svc" .passthrough [],
    Stack.loadedLayer "svc" .passthrough []]

theorem equalsPlain_unaligned :
    EqualsPlain unalignedSession unalignedStack
      [unalignedInterface, unalignedInterface] := by
  have own :
      LoadsOwnBits unalignedSession.varDb unalignedInterface.varRefs := by
    unfold LoadsOwnBits
    decide
  exact (equalsPlain_iff unalignedSession unalignedStack
    [unalignedInterface, unalignedInterface] (by decide) rfl).mpr
      (by simpa using own) unalignedVarDb fun _ => rfl

/--
Two services declare a variable `x`, of 16 and of 8 bits; an interface of the
second refers to both.
-/
def sharedNameDocuments : List Yaml :=
  [.map [
      ("service", .scalar "ext"),
      ("vars", .seq [
        .map [("var", .scalar "x"), ("size", .scalar "16")]])],
    .map [
      ("service", .scalar "svc"),
      ("vars", .seq [
        .map [("var", .scalar "x"), ("size", .scalar "8")]]),
      ("entities", .seq [
        .map [
          ("entity", .scalar "E"),
          ("interfaces", .seq [
            .map [
              ("interface", .scalar "IF"),
              ("dir", .scalar "in"),
              ("vars", .seq [
                .map [("var_ref", .scalar "ext::x")],
                .map [("var_ref", .scalar "x")]])]])]])]]

/-- The interface declared by `sharedNameDocuments`. -/
def sharedNameInterface : ProtocolInterface where
  name := "svc::E::IF"
  direction := .IN
  varRefs := ["ext::x", "svc::x"]

/--
Accepted files on which the bypassed path packs four bytes where the plain
path packs three: the second `x` is loaded with the width of the first.
-/
theorem first_match_widens_frame :
    ¬ ∀ (isNumber : String → Bool) (roots : List Yaml) (session : Session),
        (∀ root ∈ roots, ProtocolValidator.Accepts root) →
        Protocol.parseProtocolFiles isNumber roots = .ok session →
        ∀ (stack : Stack) (ifaces : List ProtocolInterface),
          (∀ layer ∈ stack.layers, layer.logic = .passthrough) →
          stack.layers.map session.interfaceForLayer = ifaces.map some →
          EqualsPlain session stack ifaces := by
  intro allEqual
  have equal :=
    allEqual (fun _ => false) sharedNameDocuments _ (by decide) rfl
      (.assemble "bypassed" [Stack.loadedLayer "svc" .passthrough []])
      [sharedNameInterface] (by decide) rfl
  exact absurd (equal Unit (Rng.constant 5) ()).1 (by decide +kernel)

end TsnGen
