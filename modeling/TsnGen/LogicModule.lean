import TsnGen.LayerContext

namespace TsnGen

/-!
# Logic modules

The modules a stack can bind to a layer: the three shipped ones and the
passthrough.  A hook receives its own context by reference and reaches other
contexts through the `upper` pointer only, so every hook here takes the memory
it may read and returns the module and context it leaves behind.

Each encode hook is brought into one form: a list of writes by field name,
computed from what the hook reads.  Ownership, layout preservation and
idempotence are proved about that form.
-/

/-- `name.rfind(start, 0) == 0`: the name starts with the given text. -/
def startsWith
    (name start : String) : Bool :=
  start.toList.isPrefixOf name.toList

/-- Members of the Ethernet MAC frame module. -/
structure EthernetFrameLogic where
  lastEthertype : UInt64 := 0
  encodeCalls : Nat := 0
  decodeCalls : Nat := 0
  deriving Repr, DecidableEq

namespace EthernetFrameLogic

/-- EtherType of the IEEE 1722 family. -/
def kEthertype1722 : UInt64 := 0x22F0

/-- Fill the ethertype when it is unset or zero; a fixed one is kept. -/
def onEncode
    (logic : EthernetFrameLogic)
    (ctx : LayerContext) : EthernetFrameLogic × LayerContext :=
  ({ logic with encodeCalls := logic.encodeCalls + 1 },
    if (ctx.getValue "ethertype").getD 0 = 0 then
      (ctx.setValue "ethertype" kEthertype1722).2
    else
      ctx)

/-- Remember the decoded ethertype. -/
def onDecode
    (logic : EthernetFrameLogic)
    (ctx : LayerContext) : EthernetFrameLogic :=
  { logic with
    decodeCalls := logic.decodeCalls + 1
    lastEthertype := (ctx.getValue "ethertype").getD logic.lastEthertype }

/-- The service above, or the streaming default without one. -/
def nextLayer
    (contexts : List LayerContext)
    (ctx : LayerContext) : String :=
  match LayerContext.deref contexts ctx.upper with
  | some above => above.serviceName
  | none => "1722_avtp_common_stream"

end EthernetFrameLogic

/-- Members of the AVTP control module. -/
structure AvtpControlLogic where
  lastSubtype : UInt64 := 0
  deriving Repr, DecidableEq

namespace AvtpControlLogic

/-- Subtype of AECP messages. -/
def kSubtypeAecp : UInt8 := 0xFB

/-- Subtype of ADP messages. -/
def kSubtypeAdp : UInt8 := 0xFA

/-- Subtype for the service family above, zero when it is none of them. -/
def subtypeForUpper
    (contexts : List LayerContext)
    (ctx : LayerContext) : UInt8 :=
  match LayerContext.deref contexts ctx.upper with
  | none => 0
  | some up =>
      if startsWith up.serviceName "atdecc_aecp" then
        kSubtypeAecp
      else if startsWith up.serviceName "atdecc_adp" then
        kSubtypeAdp
      else
        0

/-- Fill the subtype of the family above and clear the control bits. -/
def onEncode
    (contexts : List LayerContext)
    (ctx : LayerContext) : LayerContext :=
  let subtype := subtypeForUpper contexts ctx
  let selected :=
    if subtype ≠ 0 then
      (ctx.setValue "subtype" subtype.toUInt64).2
    else
      ctx
  let cleared := (selected.setValue "sv" 0).2
  let versioned := (cleared.setValue "version" 0).2
  (versioned.setValue "reserved" 0).2

/-- Remember the decoded subtype. -/
def onDecode
    (logic : AvtpControlLogic)
    (ctx : LayerContext) : AvtpControlLogic :=
  { logic with
    lastSubtype := (ctx.getValue "subtype").getD logic.lastSubtype }

/-- The service above, if any. -/
def nextLayer
    (contexts : List LayerContext)
    (ctx : LayerContext) : String :=
  match LayerContext.deref contexts ctx.upper with
  | some above => above.serviceName
  | none => ""

end AvtpControlLogic

/-- Members of the AECP AEM module. -/
structure AecpAemLogic where
  lastCdl : UInt64 := 0
  deriving Repr, DecidableEq

namespace AecpAemLogic

/-- Name of the length field. -/
def kControlDataLength : String := "control_data_length"

/-- Name of the field that tells commands from responses. -/
def kMessageType : String := "message_type"

/-- Name of the status field. -/
def kStatus : String := "status"

/--
Count the octets behind the length field and above the layer, and clear the
status of commands, whose message type is even.
-/
def onEncode
    (contexts : List LayerContext)
    (ctx : LayerContext) : LayerContext :=
  let sized :=
    match ctx.bytesAfter kControlDataLength with
    | some after =>
        let cdl := after + ctx.bytesAbove contexts
        (ctx.setValue kControlDataLength (UInt64.ofNat cdl)).2
    | none => ctx
  match sized.getValue kMessageType with
  | some messageType =>
      if messageType % 2 = 0 then
        (sized.setValue kStatus 0).2
      else
        sized
  | none => sized

/-- Remember the decoded length. -/
def onDecode
    (logic : AecpAemLogic)
    (ctx : LayerContext) : AecpAemLogic :=
  { logic with
    lastCdl := (ctx.getValue kControlDataLength).getD logic.lastCdl }

/-- The service above, if any. -/
def nextLayer
    (contexts : List LayerContext)
    (ctx : LayerContext) : String :=
  match LayerContext.deref contexts ctx.upper with
  | some above => above.serviceName
  | none => ""

end AecpAemLogic

/-- A module bound to a layer, with its members. -/
inductive LogicModule where
  | ethernetFrame (logic : EthernetFrameLogic)
  | avtpControl (logic : AvtpControlLogic)
  | aecpAem (logic : AecpAemLogic)
  | passthrough
  deriving Repr, DecidableEq

/-- Which class a bound module is an instance of. -/
inductive LogicKind where
  | ethernetFrame
  | avtpControl
  | aecpAem
  | passthrough
  deriving Repr, DecidableEq

namespace LogicModule

/-- The class of a module. -/
def kind : LogicModule → LogicKind
  | .ethernetFrame _ => .ethernetFrame
  | .avtpControl _ => .avtpControl
  | .aecpAem _ => .aecpAem
  | .passthrough => .passthrough

/-- A newly constructed module. -/
def create : LogicKind → LogicModule
  | .ethernetFrame => .ethernetFrame {}
  | .avtpControl => .avtpControl {}
  | .aecpAem => .aecpAem {}
  | .passthrough => .passthrough

/-- Fill derived fields before a layer is packed. -/
def onEncode
    (contexts : List LayerContext)
    (logic : LogicModule)
    (ctx : LayerContext) : LogicModule × LayerContext :=
  match logic with
  | .ethernetFrame members =>
      let encoded := members.onEncode ctx
      (.ethernetFrame encoded.1, encoded.2)
  | .avtpControl members =>
      (.avtpControl members, AvtpControlLogic.onEncode contexts ctx)
  | .aecpAem members =>
      (.aecpAem members, AecpAemLogic.onEncode contexts ctx)
  | .passthrough => (.passthrough, ctx)

/-- Update module state after a layer was parsed. -/
def onDecode
    (logic : LogicModule)
    (ctx : LayerContext) : LogicModule :=
  match logic with
  | .ethernetFrame members => .ethernetFrame (members.onDecode ctx)
  | .avtpControl members => .avtpControl (members.onDecode ctx)
  | .aecpAem members => .aecpAem (members.onDecode ctx)
  | .passthrough => .passthrough

/-- Predicted service of the layer above, empty for no prediction. -/
def nextLayer
    (contexts : List LayerContext)
    (logic : LogicModule)
    (ctx : LayerContext) : String :=
  match logic with
  | .ethernetFrame _ => EthernetFrameLogic.nextLayer contexts ctx
  | .avtpControl _ => AvtpControlLogic.nextLayer contexts ctx
  | .aecpAem _ => AecpAemLogic.nextLayer contexts ctx
  | .passthrough => ""

@[simp] theorem kind_create
    (kind : LogicKind) :
    (create kind).kind = kind := by
  cases kind <;> rfl

@[simp] theorem kind_onEncode
    (contexts : List LayerContext)
    (logic : LogicModule)
    (ctx : LayerContext) :
    (logic.onEncode contexts ctx).1.kind = logic.kind := by
  cases logic <;> rfl

@[simp] theorem kind_onDecode
    (logic : LogicModule)
    (ctx : LayerContext) :
    (logic.onDecode ctx).kind = logic.kind := by
  cases logic <;> rfl

end LogicModule

namespace LogicKind

/-- The field names a module may write. -/
def owned : LogicKind → List String
  | .ethernetFrame => ["ethertype"]
  | .avtpControl => ["subtype", "sv", "version", "reserved"]
  | .aecpAem => ["control_data_length", "status"]
  | .passthrough => []

/-- The length write of the AECP module. -/
def lengthWrites
    (contexts : List LayerContext)
    (ctx : LayerContext) : List (String × UInt64) :=
  match ctx.bytesAfter AecpAemLogic.kControlDataLength with
  | some after =>
      [(AecpAemLogic.kControlDataLength,
        UInt64.ofNat (after + ctx.bytesAbove contexts))]
  | none => []

/-- The status write of the AECP module. -/
def statusWrites
    (ctx : LayerContext) : List (String × UInt64) :=
  match ctx.getValue AecpAemLogic.kMessageType with
  | some messageType =>
      if messageType % 2 = 0 then [(AecpAemLogic.kStatus, 0)] else []
  | none => []

/-- The writes an encode hook makes, in order. -/
def writes
    (kind : LogicKind)
    (contexts : List LayerContext)
    (ctx : LayerContext) : List (String × UInt64) :=
  match kind with
  | .ethernetFrame =>
      if (ctx.getValue "ethertype").getD 0 = 0 then
        [("ethertype", EthernetFrameLogic.kEthertype1722)]
      else
        []
  | .avtpControl =>
      let subtype := AvtpControlLogic.subtypeForUpper contexts ctx
      (if subtype ≠ 0 then [("subtype", subtype.toUInt64)] else []) ++
        [("sv", 0), ("version", 0), ("reserved", 0)]
  | .aecpAem => lengthWrites contexts ctx ++ statusWrites ctx
  | .passthrough => []

/-- The fields an encode hook leaves in its context. -/
def encoded
    (kind : LogicKind)
    (contexts : List LayerContext)
    (ctx : LayerContext) : List Field :=
  writeAll (kind.writes contexts ctx) ctx.fields

/-- The length write is made at most once. -/
private theorem lengthWrites_sublist
    (contexts : List LayerContext)
    (ctx : LayerContext) :
    ((lengthWrites contexts ctx).map Prod.fst).Sublist
      ["control_data_length"] := by
  unfold lengthWrites
  cases ctx.bytesAfter AecpAemLogic.kControlDataLength with
  | none =>
      simp
  | some after =>
      simp [AecpAemLogic.kControlDataLength]

/-- The status write is made at most once. -/
private theorem statusWrites_sublist
    (ctx : LayerContext) :
    ((statusWrites ctx).map Prod.fst).Sublist ["status"] := by
  unfold statusWrites
  cases ctx.getValue AecpAemLogic.kMessageType with
  | none =>
      simp
  | some messageType =>
      by_cases command : messageType % 2 = 0
      · simp [command, AecpAemLogic.kStatus]
      · simp [command]

end LogicKind

/-- Reading the message type is not affected by the length write. -/
private theorem statusWrites_writeAll
    (ctx : LayerContext)
    {writes : List (String × UInt64)}
    (absent : AecpAemLogic.kMessageType ∉ writes.map Prod.fst) :
    LogicKind.statusWrites { ctx with fields := writeAll writes ctx.fields } =
      LogicKind.statusWrites ctx := by
  simp only [LogicKind.statusWrites, LayerContext.getValue,
    readFirst_writeAll_of_not_mem absent]

/-- The AECP hook makes its two groups of writes. -/
private theorem aecpAem_onEncode
    (contexts : List LayerContext)
    (ctx : LayerContext) :
    AecpAemLogic.onEncode contexts ctx =
      { ctx with fields := LogicKind.aecpAem.encoded contexts ctx } := by
  have status :
      ∀ sized : LayerContext,
        (match sized.getValue AecpAemLogic.kMessageType with
          | some messageType =>
              if messageType % 2 = 0 then
                (sized.setValue AecpAemLogic.kStatus 0).2
              else
                sized
          | none => sized) =
          { sized with
            fields :=
              writeAll (LogicKind.statusWrites sized) sized.fields } := by
    intro sized
    unfold LogicKind.statusWrites
    cases sized.getValue AecpAemLogic.kMessageType with
    | none =>
        rfl
    | some messageType =>
        by_cases command : messageType % 2 = 0
        · simp [command, writeAll, LayerContext.setValue]
        · simp [command, writeAll]
  have sized :
      (match ctx.bytesAfter AecpAemLogic.kControlDataLength with
        | some after =>
            (ctx.setValue AecpAemLogic.kControlDataLength
              (UInt64.ofNat (after + ctx.bytesAbove contexts))).2
        | none => ctx) =
        { ctx with
          fields :=
            writeAll (LogicKind.lengthWrites contexts ctx) ctx.fields } := by
    unfold LogicKind.lengthWrites
    cases ctx.bytesAfter AecpAemLogic.kControlDataLength <;> rfl
  have absent :
      AecpAemLogic.kMessageType ∉
        (LogicKind.lengthWrites contexts ctx).map Prod.fst := by
    intro member
    have named :=
      (LogicKind.lengthWrites_sublist contexts ctx).subset member
    simp [AecpAemLogic.kMessageType] at named
  rw [AecpAemLogic.onEncode, status, sized, statusWrites_writeAll ctx absent]
  simp [LogicKind.encoded, LogicKind.writes, writeAll, List.foldl_append]

/-- Every encode hook changes the fields of its context and nothing else. -/
theorem LogicModule.onEncode_context
    (contexts : List LayerContext)
    (logic : LogicModule)
    (ctx : LayerContext) :
    (logic.onEncode contexts ctx).2 =
      { ctx with fields := logic.kind.encoded contexts ctx } := by
  cases logic with
  | ethernetFrame members =>
      simp only [LogicModule.onEncode, EthernetFrameLogic.onEncode,
        LogicModule.kind, LogicKind.encoded, LogicKind.writes]
      split <;> rfl
  | avtpControl members =>
      simp only [LogicModule.onEncode, AvtpControlLogic.onEncode,
        LogicModule.kind, LogicKind.encoded, LogicKind.writes]
      split <;> rfl
  | aecpAem members =>
      exact aecpAem_onEncode contexts ctx
  | passthrough =>
      rfl

namespace LogicKind

/-- Hooks write owned names only, each at most once. -/
theorem writes_sublist
    (kind : LogicKind)
    (contexts : List LayerContext)
    (ctx : LayerContext) :
    ((kind.writes contexts ctx).map Prod.fst).Sublist kind.owned := by
  cases kind with
  | ethernetFrame =>
      simp only [writes]
      split <;> simp [owned]
  | avtpControl =>
      simp only [writes]
      split <;> simp [owned]
  | aecpAem =>
      rw [writes, List.map_append]
      exact (lengthWrites_sublist contexts ctx).append
        (statusWrites_sublist ctx)
  | passthrough =>
      simp [writes, owned]

/-- No hook writes a name twice. -/
theorem writes_nodup
    (kind : LogicKind)
    (contexts : List LayerContext)
    (ctx : LayerContext) :
    ((kind.writes contexts ctx).map Prod.fst).Nodup := by
  have distinct : kind.owned.Nodup := by
    cases kind <;> decide
  exact (kind.writes_sublist contexts ctx).nodup distinct

@[simp] theorem shapeOf_encoded
    (kind : LogicKind)
    (contexts : List LayerContext)
    (ctx : LayerContext) :
    shapeOf (kind.encoded contexts ctx) = shapeOf ctx.fields :=
  shapeOf_writeAll _ _

/-- A field that is not the first one of an owned name is left alone. -/
theorem getElem?_encoded
    (kind : LogicKind)
    (contexts : List LayerContext)
    {ctx : LayerContext}
    {index : Nat}
    {field : Field}
    (fieldAt : ctx.fields[index]? = some field)
    (kept :
      field.name ∉ kind.owned ∨
        ∃ earlier ∈ ctx.fields.take index, earlier.name = field.name) :
    (kind.encoded contexts ctx)[index]? = some field := by
  apply getElem?_writeAll fieldAt
  rcases kept with foreign | earlier
  · exact Or.inl fun member =>
      foreign ((kind.writes_sublist contexts ctx).subset member)
  · exact Or.inr earlier

/-- The length written depends on the layout only. -/
private theorem lengthWrites_of_shape
    (contexts : List LayerContext)
    (ctx : LayerContext)
    {fields : List Field}
    (sameShape : shapeOf fields = shapeOf ctx.fields) :
    lengthWrites contexts { ctx with fields := fields } =
      lengthWrites contexts ctx := by
  simp only [lengthWrites, LayerContext.bytesAbove,
    LayerContext.bytesAfter_of_shape ctx sameShape]

/-- An encode hook run on its own result changes nothing more. -/
theorem encoded_settles
    (kind : LogicKind)
    (contexts : List LayerContext)
    (ctx : LayerContext) :
    kind.encoded contexts
        { ctx with fields := kind.encoded contexts ctx } =
      kind.encoded contexts ctx := by
  cases kind with
  | ethernetFrame =>
      by_cases unset : (ctx.getValue "ethertype").getD 0 = 0
      · apply writeAll_eq_self
        intro write member current found
        simp only [writes] at member
        split at member
        next stillUnset =>
          simp only [List.mem_singleton] at member
          subst member
          simp only [encoded, writes, if_pos unset] at found
          rw [readFirst_writeAll_of_mem (by simp)
            (List.mem_singleton.mpr rfl)] at found
          obtain ⟨_, _, same⟩ := Option.map_eq_some_iff.mp found
          exact same.symm
        next set =>
          simp at member
      · simp [encoded, writes, unset, writeAll]
  | avtpControl =>
      exact writeAll_writeAll (writes_nodup _ contexts ctx) ctx.fields
  | aecpAem =>
      have sameWrites :
          LogicKind.aecpAem.writes contexts
              { ctx with fields := LogicKind.aecpAem.encoded contexts ctx } =
            LogicKind.aecpAem.writes contexts ctx := by
        have absent :
            AecpAemLogic.kMessageType ∉
              (LogicKind.aecpAem.writes contexts ctx).map Prod.fst := by
          intro member
          have named :=
            (LogicKind.aecpAem.writes_sublist contexts ctx).subset member
          simp [owned, AecpAemLogic.kMessageType] at named
        have sameLength :=
          lengthWrites_of_shape contexts ctx
            (shapeOf_encoded .aecpAem contexts ctx)
        have sameStatus := statusWrites_writeAll ctx absent
        rw [writes, writes, sameLength]
        simp only [encoded, sameStatus]
      rw [encoded, sameWrites]
      exact writeAll_writeAll (writes_nodup _ contexts ctx) ctx.fields
  | passthrough =>
      rfl

/-- Hooks read other layers through their outlines. -/
theorem encoded_map_outline
    (kind : LogicKind)
    (contexts : List LayerContext)
    (ctx : LayerContext) :
    kind.encoded (contexts.map LayerContext.outline) ctx =
      kind.encoded contexts ctx := by
  have sameSubtype :
      AvtpControlLogic.subtypeForUpper
          (contexts.map LayerContext.outline) ctx =
        AvtpControlLogic.subtypeForUpper contexts ctx := by
    simp only [AvtpControlLogic.subtypeForUpper,
      LayerContext.deref_map_outline]
    cases LayerContext.deref contexts ctx.upper <;> rfl
  cases kind with
  | ethernetFrame =>
      rfl
  | avtpControl =>
      simp only [encoded, writes, sameSubtype]
  | aecpAem =>
      simp only [encoded, writes, lengthWrites,
        LayerContext.bytesAbove_map_outline]
  | passthrough =>
      rfl

end LogicKind

/-- A hook behaves the same on the outlines of the other layers. -/
theorem LogicModule.onEncode_map_outline
    (contexts : List LayerContext)
    (logic : LogicModule)
    (ctx : LayerContext) :
    logic.onEncode (contexts.map LayerContext.outline) ctx =
      logic.onEncode contexts ctx := by
  apply Prod.ext
  · cases logic <;> rfl
  · rw [onEncode_context, onEncode_context, LogicKind.encoded_map_outline]

end TsnGen
