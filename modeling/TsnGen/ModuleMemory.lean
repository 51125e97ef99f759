import TsnGen.FrameConformance

namespace TsnGen

open PacketBuilder

/-!
# What modules remember

The members of the shipped modules summarise the history of their stack: the
latest selector or length that a frame carried and, for Ethernet, how often the
layer was encoded and decoded.  Across a link that loses, repeats and reorders
frames, what the receiver's modules remember is what the sender packed, as the
widths of the fields carried it.
-/

/-- The latest value of a name among fields that were shown in order. -/
def latest
    (name : String)
    (shown : List (List Field)) : UInt64 :=
  (shown.filterMap (readFirst name)).getLast?.getD 0

/-- Further fields give the latest value if they have the name. -/
theorem latest_append
    (name : String)
    (shown : List (List Field))
    (fields : List Field) :
    latest name (shown ++ [fields]) =
      (readFirst name fields).getD (latest name shown) := by
  rw [latest, List.filterMap_append]
  cases found : readFirst name fields with
  | none =>
      simp [found, latest]
  | some value =>
      simp [found]

/-- The module of a layer that was encoded so often and shown these fields. -/
def LogicKind.remembering
    (encodings : Nat)
    (shown : List (List Field)) : LogicKind → LogicModule
  | .ethernetFrame =>
      .ethernetFrame {
        lastEthertype := latest "ethertype" shown
        encodeCalls := encodings
        decodeCalls := shown.length }
  | .avtpControl => .avtpControl { lastSubtype := latest "subtype" shown }
  | .aecpAem => .aecpAem { lastCdl := latest "control_data_length" shown }
  | .passthrough => .passthrough

namespace LogicKind

variable (kind : LogicKind)
variable (encodings : Nat)
variable (shown : List (List Field))

/-- A new module remembers nothing. -/
theorem remembering_nothing :
    kind.remembering 0 [] = .create kind := by
  cases kind with
  | _ =>
      rfl

/-- An encode hook is remembered. -/
theorem onEncode_remembering
    (contexts : List LayerContext)
    (ctx : LayerContext) :
    ((kind.remembering encodings shown).onEncode contexts ctx).1 =
      kind.remembering (encodings + 1) shown := by
  cases kind with
  | _ =>
      rfl

/-- A decode hook remembers the fields of its context. -/
theorem onDecode_remembering
    (ctx : LayerContext) :
    (kind.remembering encodings shown).onDecode ctx =
      kind.remembering encodings (shown ++ [ctx.fields]) := by
  cases kind with
  | ethernetFrame =>
      simp [remembering, LogicModule.onDecode, EthernetFrameLogic.onDecode,
        LayerContext.getValue, latest_append]
  | avtpControl =>
      simp [remembering, LogicModule.onDecode, AvtpControlLogic.onDecode,
        LayerContext.getValue, latest_append]
  | aecpAem =>
      simp [remembering, LogicModule.onDecode, AecpAemLogic.onDecode,
        AecpAemLogic.kControlDataLength, LayerContext.getValue,
        latest_append]
  | passthrough =>
      rfl

end LogicKind

namespace LayerView

/-- The fields that a frame shows to the module of each layer. -/
def shown
    (varDb : Database Var)
    (bytes : List UInt8) :
    List LayerView → Nat → List (Option (List Field))
  | [], _ => []
  | view :: rest, offset =>
      match view.iface with
      | none => none :: shown varDb bytes rest offset
      | some iface =>
          some
              (Session.populated varDb iface.varRefs
                (PacketDecoder.decode iface varDb bytes offset).fields) ::
            shown varDb bytes rest
              (offset + PacketDecoder.layerBytes iface varDb)

/-- Every layer is shown something or nothing. -/
theorem length_shown
    (varDb : Database Var)
    (bytes : List UInt8)
    (views : List LayerView)
    (offset : Nat) :
    (shown varDb bytes views offset).length = views.length := by
  induction views generalizing offset with
  | nil =>
      rfl
  | cons view rest inductionHypothesis =>
      rw [shown]
      cases view.iface with
      | none =>
          simp [inductionHypothesis]
      | some iface =>
          simp [inductionHypothesis]

/-- What the module of a layer was shown by frames in order. -/
def shownAt
    (varDb : Database Var)
    (views : List LayerView)
    (frames : List (List UInt8))
    (index : Nat) : List (List Field) :=
  frames.filterMap fun bytes => (shown varDb bytes views 0)[index]?.join

/-- The modules of layers after encodings and frames. -/
def modules
    (varDb : Database Var)
    (views : List LayerView)
    (encodings : Nat)
    (frames : List (List UInt8)) : List LogicModule :=
  views.mapIdx fun index view =>
    view.kind.remembering encodings (shownAt varDb views frames index)

end LayerView

/-- A module after it was shown the fields of its layer, if it was. -/
def LogicModule.see
    (logic : LogicModule) : Option (List Field) → LogicModule
  | none => logic
  | some fields =>
      logic.onDecode
        { serviceName := "", upper := none, lower := none, fields := fields }

/-- Of its context a decode hook reads the fields. -/
theorem LogicModule.onDecode_eq_see
    (logic : LogicModule)
    (ctx : LayerContext) :
    logic.onDecode ctx = logic.see (some ctx.fields) := by
  cases logic with
  | _ =>
      rfl

namespace Session

/-- Decoding shows each module the fields of its layer. -/
theorem map_logic_decodeStackLayers
    (session : Session)
    (contexts : List LayerContext)
    (bytes : List UInt8)
    (layers : List StackLayer)
    (offset : Nat) :
    (session.decodeStackLayers contexts bytes layers offset).1.map
        StackLayer.logic =
      List.zipWith LogicModule.see (layers.map StackLayer.logic)
        (LayerView.shown session.varDb bytes
          (layers.map (StackLayer.view session)) offset) := by
  induction layers generalizing offset with
  | nil =>
      rfl
  | cons layer rest inductionHypothesis =>
      cases resolved : session.interfaceForLayer layer with
      | none =>
          simp [decodeStackLayers, LayerView.shown, resolved,
            StackLayer.view, inductionHypothesis, LogicModule.see]
      | some iface =>
          simp [decodeStackLayers, LayerView.shown, resolved,
            StackLayer.view, inductionHypothesis,
            LogicModule.onDecode_eq_see, populateContext_eq]

end Session

namespace Operation

/-- Whether a call encodes. -/
def encodes : Operation G → Bool
  | .generate _ => true
  | .decode _ => false

/-- The frame that a call decodes. -/
def frame? : Operation G → Option (List UInt8)
  | .generate _ => none
  | .decode bytes => some bytes

end Operation

namespace Stack

/-- The modules of a stack remember encodings and frames. -/
def Remembers
    (session : Session)
    (stack : Stack)
    (encodings : Nat)
    (frames : List (List UInt8)) : Prop :=
  stack.layers.map StackLayer.logic =
    LayerView.modules session.varDb (stack.views session) encodings frames

/-- A new stack remembers nothing. -/
theorem Fresh.remembers
    {stack : Stack}
    (fresh : stack.Fresh)
    (session : Session) :
    stack.Remembers session 0 [] := by
  apply List.ext_getElem?
  intro index
  rw [LayerView.modules, List.getElem?_mapIdx, views, List.getElem?_map,
    List.getElem?_map]
  cases layerAt : stack.layers[index]? with
  | none =>
      rfl
  | some layer =>
      have unused := fresh.unused layer (List.mem_of_getElem? layerAt)
      simp only [Option.map_some, LayerView.shownAt, List.filterMap_nil,
        LogicKind.remembering_nothing, StackLayer.view, Option.some.injEq]
      exact unused

/-- A generation is remembered as one more encoding. -/
theorem Remembers.generateStack
    {session : Session}
    {stack : Stack}
    {encodings : Nat}
    {frames : List (List UInt8)}
    (remembers : stack.Remembers session encodings frames)
    (clean : stack.Clean session)
    (rng : Rng G)
    (engine : G) :
    (stack.generateStack session rng engine).stack.Remembers session
      (encodings + 1) frames := by
  have loaded :
      (stack.load session rng engine).layers.map StackLayer.logic =
        LayerView.modules session.varDb (stack.views session) encodings
          frames := by
    have tags :=
      congrArg (List.map Prod.snd)
        (session.map_tags_loadLayers rng stack.layers engine)
    simp only [List.map_map, Function.comp_def] at tags
    exact tags.trans remembers
  rw [Remembers, clean.views_generateStack rng engine, generateStack_layers,
    List.map_map]
  apply List.ext_getElem?
  intro index
  have atIndex :=
    congrArg (fun modules : List LogicModule => modules[index]?) loaded
  simp only [LayerView.modules, List.getElem?_mapIdx, List.getElem?_map]
    at atIndex ⊢
  cases layerAt : (stack.load session rng engine).layers[index]? with
  | none =>
      rw [layerAt] at atIndex
      cases viewAt : (stack.views session)[index]? with
      | none =>
          rfl
      | some view =>
          rw [viewAt] at atIndex
          cases atIndex
  | some layer =>
      rw [layerAt] at atIndex
      cases viewAt : (stack.views session)[index]? with
      | none =>
          rw [viewAt] at atIndex
          cases atIndex
      | some view =>
          rw [viewAt, Option.map_some, Option.map_some, Option.some.injEq]
            at atIndex
          simp only [Option.map_some, Function.comp_apply,
            StackLayer.encode, atIndex, LogicKind.onEncode_remembering]

/-- A frame that is decoded is remembered. -/
theorem Remembers.decodeStack
    {session : Session}
    {stack : Stack}
    {encodings : Nat}
    {frames : List (List UInt8)}
    (remembers : stack.Remembers session encodings frames)
    (bytes : List UInt8) :
    (stack.decodeStack session bytes).stack.Remembers session encodings
      (frames ++ [bytes]) := by
  have shown :
      (stack.decodeStack session bytes).stack.layers.map StackLayer.logic =
        List.zipWith LogicModule.see
          (LayerView.modules session.varDb (stack.views session) encodings
            frames)
          (LayerView.shown session.varDb bytes (stack.views session) 0) := by
    rw [← remembers]
    exact session.map_logic_decodeStackLayers _ bytes stack.layers 0
  rw [Remembers, shown, views_decodeStack]
  apply List.ext_getElem?
  intro index
  rw [List.getElem?_zipWith, LayerView.modules, LayerView.modules,
    List.getElem?_mapIdx, List.getElem?_mapIdx]
  cases viewAt : (stack.views session)[index]? with
  | none =>
      rfl
  | some view =>
      have inside :
          index <
            (LayerView.shown session.varDb bytes (stack.views session)
              0).length := by
        rw [LayerView.length_shown]
        exact (List.getElem?_eq_some_iff.mp viewAt).1
      have shownHere :
          LayerView.shownAt session.varDb (stack.views session)
              (frames ++ [bytes]) index =
            LayerView.shownAt session.varDb (stack.views session) frames
                index ++
              (LayerView.shown session.varDb bytes (stack.views session)
                0)[index].toList := by
        rw [LayerView.shownAt, List.filterMap_append,
          ← LayerView.shownAt]
        congr 1
        cases here :
            (LayerView.shown session.varDb bytes (stack.views session)
              0)[index] with
        | none =>
            simp [inside, here]
        | some fields =>
            simp [inside, here]
      rw [shownHere, List.getElem?_eq_getElem inside]
      cases (LayerView.shown session.varDb bytes (stack.views session)
          0)[index] with
      | none =>
          simp [LogicModule.see]
      | some fields =>
          simp [LogicModule.see, LogicKind.onDecode_remembering]

/-- A clean stack remembers what is called on it. -/
theorem Remembers.performAll
    {session : Session}
    {stack : Stack}
    {encodings : Nat}
    {frames : List (List UInt8)}
    (remembers : stack.Remembers session encodings frames)
    (clean : stack.Clean session)
    (rng : Rng G)
    (history : List (Operation G)) :
    (stack.performAll session rng history).Remembers session
      (encodings + history.countP Operation.encodes)
      (frames ++ history.filterMap Operation.frame?) := by
  induction history generalizing stack encodings frames with
  | nil =>
      simpa [Stack.performAll] using remembers
  | cons operation rest inductionHypothesis =>
      have stillClean :
          (stack.perform session rng operation).Clean session := by
        intro view member
        rw [clean.views_perform rng operation] at member
        exact clean view member
      cases operation with
      | generate engine =>
          have later :=
            inductionHypothesis (remembers.generateStack clean rng engine)
              stillClean
          rw [Nat.add_right_comm, Nat.add_assoc] at later
          simpa [Stack.performAll, Stack.perform, Operation.encodes,
            Operation.frame?, List.countP_cons, List.filterMap_cons] using later
      | decode bytes =>
          have later :=
            inductionHypothesis (remembers.decodeStack bytes) stillClean
          rw [List.append_assoc] at later
          simpa [Stack.performAll, Stack.perform, Operation.encodes,
            Operation.frame?] using later

/--
Modules remember.  After any history of generations and decodes of arbitrary
frames, an Ethernet module holds how often it was encoded and decoded and the
latest ethertype that a frame showed its layer, an AVTP or AECP module the
latest value of its own field, and a passthrough module nothing.
-/
theorem modules_remember
    {G : Type}
    (session : Session)
    (rng : Rng G)
    {built : Stack}
    (fresh : built.Fresh)
    (history : List (Operation G)) :
    (built.performAll session rng history).layers.map StackLayer.logic =
      LayerView.modules session.varDb (built.views session)
        (history.countP Operation.encodes)
        (history.filterMap Operation.frame?) := by
  have clean := fresh.clean session
  have remembers :=
    (fresh.remembers session).performAll clean rng history
  rw [Nat.zero_add, List.nil_append, Remembers,
    clean.views_performAll rng history] at remembers
  exact remembers

theorem modules_remember_command :
    (freshCommandStack.performAll commandSession (Rng.constant 6)
        [.generate (), .decode [0x22, 0xF0, 0xFB, 0x60],
          .decode [0x08]]).layers.map StackLayer.logic =
      [.ethernetFrame {
          lastEthertype := 0x0800
          encodeCalls := 1
          decodeCalls := 2 },
        .aecpAem {},
        .avtpControl { lastSubtype := 0 },
        .aecpAem { lastCdl := 0 }] := by
  rw [modules_remember commandSession (Rng.constant 6)
    freshCommandStack_fresh
    [.generate (), .decode [0x22, 0xF0, 0xFB, 0x60], .decode [0x08]]]
  decide +kernel

end Stack

end TsnGen
