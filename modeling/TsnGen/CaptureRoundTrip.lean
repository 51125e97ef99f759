import TsnGen.DecodingRuns
import TsnGen.StackCodec

namespace TsnGen

open PacketBuilder

/-!
# Captures are read back

A run that generates to a file or a socket and a run that decodes what it left
print the same frames: the first with the values that were drawn, the second
with the values as their widths carried them.  An interface, a stack of
interfaces and a stack file are one case here: a round packs rows of fields
that fit the layers of the pipeline.
-/

/-- What a layer of a plain pipeline shows. -/
def LayerView.plain
    (iface : ProtocolInterface) : LayerView where
  serviceName := iface.name
  kind := .passthrough
  iface := some iface
  context := { serviceName := "", upper := none, lower := none, fields := [] }

/-- The bytes of a layer, none without an interface. -/
def LayerView.layerBytes
    (varDb : Database Var)
    (view : LayerView) : Nat :=
  match view.iface with
  | some iface => PacketDecoder.layerBytes iface varDb
  | none => 0

/-- Rows as a decoder of their frame returns them. -/
def carriedRows
    (rows : List (String × List Field)) : StackedPacket where
  bytes := rows.flatMap fun row => packFields row.2
  layers :=
    rows.map fun row =>
      (row.1, { bytes := packFields row.2, fields := carried row.2 })

/-- Every value of the rows fits the width of its field. -/
def ValuesFit
    (rows : List (String × List Field)) : Prop :=
  ∀ row ∈ rows, ∀ field ∈ row.2,
    field.value.toNat < 2 ^ min field.bits.toNat 64

/-- Values that fit are carried as they are. -/
theorem carriedRows_of_valuesFit
    {rows : List (String × List Field)}
    (fit : ValuesFit rows) :
    carriedRows rows = packRows rows := by
  have same :
      ∀ row ∈ rows, carried row.2 = reported row.2 := by
    intro row member
    refine List.map_congr_left fun field inRow => ?_
    refine Prod.ext rfl (UInt64.toNat_inj.mp ?_)
    rw [toNat_wireValue]
    exact Nat.mod_eq_of_lt (fit row member field inRow)
  refine StackedPacket.mk.injEq .. |>.mpr ⟨rfl, ?_⟩
  refine List.map_congr_left fun row member => ?_
  rw [same row member]

/-- A frame of rows is as long as the layers they fit. -/
theorem LayerView.length_packRows
    {varDb : Database Var}
    (narrow : NarrowWidths varDb)
    {views : List LayerView}
    {rows : List (String × List Field)}
    (fits : List.Forall₂ (LayerView.Fits varDb) views rows) :
    (packRows rows).bytes.length =
      (views.map (LayerView.layerBytes varDb)).sum := by
  induction fits with
  | nil =>
      rfl
  | @cons view row views rows fit later inductionHypothesis =>
      have first :
          (packFields row.2).length = view.layerBytes varDb := by
        obtain ⟨-, shape⟩ := fit
        cases resolved : view.iface with
        | none =>
            simp only [resolved] at shape
            rw [shape, LayerView.layerBytes, resolved]
            rfl
        | some iface =>
            simp only [resolved] at shape
            rw [length_packFields narrow shape, LayerView.layerBytes,
              resolved]
      simp only [packRows] at inductionHypothesis
      simp [packRows, inductionHypothesis, first]

/-- Layers of interfaces are decoded like views of them. -/
theorem LayerView.decodeViews_plain
    (varDb : Database Var)
    (bytes : List UInt8)
    (layers : List ProtocolInterface)
    (offset : Nat) :
    LayerView.decodeViews varDb bytes (layers.map LayerView.plain) offset =
      Session.decodeLayers varDb bytes layers offset := by
  induction layers generalizing offset with
  | nil =>
      rfl
  | cons iface rest inductionHypothesis =>
      simp [LayerView.decodeViews, LayerView.plain, Session.decodeLayers,
        inductionHypothesis]

namespace Pipeline

/-- The layers that a round builds and a decoder reads. -/
def views
    (session : Session) : Pipeline → List LayerView
  | .stackFile built => built.views session
  | .stack layers => layers.map LayerView.plain
  | .chain first _ => [LayerView.plain first]

/-- The bytes of a frame. -/
def frameBytes
    (session : Session)
    (pipeline : Pipeline) : Nat :=
  ((pipeline.views session).map (LayerView.layerBytes session.varDb)).sum

/--
A frame is decoded by the pipeline that it was built with: one interface, a
stack of them, or a stack file whose layers have distinct short names.
-/
def Decodes
    (session : Session) : Pipeline → Prop
  | .stackFile built => built.DistinctNames session
  | .stack _ => True
  | .chain _ rest => rest = []

/-- The layers of a stack file were not used yet. -/
def Fresh : Pipeline → Prop
  | .stackFile built => built.Fresh
  | _ => True

/-- The line that is printed for a frame that was built. -/
def builtLine
    (jsonOut : Bool)
    (pkt : StackedPacket)
    (pipeline : Pipeline) : String :=
  match pipeline with
  | .chain _ _ =>
      if jsonOut then
        Session.toJsonPacket
          { bytes := pkt.bytes
            fields := pkt.layers.flatMap fun layer => layer.2.fields }
      else
        Session.toHex pkt.bytes
  | _ =>
      if jsonOut then
        Session.toJsonStacked pkt
      else
        Session.toHex pkt.bytes

/-- The line that is printed for a frame that was decoded. -/
def decodedLine
    (jsonOut : Bool)
    (pkt : StackedPacket)
    (pipeline : Pipeline) : String :=
  match pipeline with
  | .chain _ _ => pipeline.builtLine jsonOut pkt
  | _ => pipeline.builtLine true pkt

/-- Where both print the same format, they print the same line. -/
theorem decodedLine_eq
    {output : String}
    {pipeline : Pipeline}
    (whole : output = "json" ∨ ∃ first, pipeline = .chain first [])
    (pkt : StackedPacket) :
    pipeline.decodedLine (output = "json") pkt =
      pipeline.builtLine (output = "json") pkt := by
  rcases whole with isJson | ⟨first, rfl⟩
  · cases pipeline with
    | stackFile built =>
        simp [decodedLine, isJson]
    | stack layers =>
        simp [decodedLine, isJson]
    | chain first rest =>
        rfl
  · rfl

/-- A pipeline in the course of a run that started with another. -/
def Follows
    (session : Session)
    (started current : Pipeline) : Prop :=
  match started with
  | .stackFile built =>
      ∃ later,
        current = .stackFile later ∧
          later.views session = built.views session
  | _ => current = started

theorem Follows.refl
    (session : Session)
    (pipeline : Pipeline) :
    pipeline.Follows session pipeline := by
  cases pipeline with
  | stackFile stack =>
      exact ⟨stack, rfl, rfl⟩
  | stack layers =>
      rfl
  | chain first rest =>
      rfl

end Pipeline

namespace PacketGen

/-- One round packs rows that fit the layers, prints and hands them over. -/
theorem round_of_follows
    {session : Session}
    {started current : Pipeline}
    (fresh : started.Fresh)
    (decodes : started.Decodes session)
    (follows : started.Follows session current)
    (rng : Rng G)
    (jsonOut : Bool)
    (engine : G) :
    let made := round session rng jsonOut (current, engine)
    started.Follows session made.2.1 ∧
      ∃ rows,
        List.Forall₂ (LayerView.Fits session.varDb) (started.views session)
            rows ∧
          made.1.flatMap Effect.lines =
              [started.builtLine jsonOut (packRows rows)] ∧
            made.1.flatMap Effect.packets = [(packRows rows).bytes] := by
  cases started with
  | stackFile stack =>
      obtain ⟨later, rfl, sameViews⟩ := follows
      have clean := fresh.clean session
      have laterClean : later.Clean session := by
        intro view member
        rw [sameViews] at member
        exact clean view member
      have packet := Stack.generateStack_packet session rng later engine
      rw [sameViews] at packet
      refine ⟨⟨_, rfl, ?_⟩, _, Stack.fits_generateStack clean decodes rng
        engine, ?_, ?_⟩
      · rw [laterClean.views_generateStack rng engine, sameViews]
      · rw [← packet]
        simp [round, stackEffects, Effect.lines, Pipeline.builtLine]
      · rw [← packet]
        simp [round, stackEffects, Effect.packets]
  | stack layers =>
      cases follows
      obtain ⟨drawn, isDrawn⟩ :
          ∃ drawn,
            drawn = (Session.drawLayers rng session.varDb layers engine).1 :=
        ⟨_, rfl⟩
      have interfaces : drawn.map Prod.fst = layers := by
        rw [isDrawn]
        exact Session.drawLayers_interfaces rng session.varDb layers engine
      have made :
          (session.generateStack rng layers engine).1 =
            packRows (drawn.map fun layer => (layer.1.name, layer.2)) := by
        rw [Session.generateStack_eq, ← isDrawn]
        simp [Session.assembled, packRows, List.flatMap_map]
      refine ⟨rfl, drawn.map fun layer => (layer.1.name, layer.2), ?_, ?_, ?_⟩
      · rw [Pipeline.views, ← interfaces, List.map_map, List.forall₂_map_left_iff,
          List.forall₂_map_right_iff, List.forall₂_same]
        intro layer member
        rw [isDrawn] at member
        exact ⟨rfl, Session.drawLayers_shape member⟩
      · rw [← made]
        simp [round, stackEffects, Effect.lines, Pipeline.builtLine]
      · rw [← made]
        simp [round, stackEffects, Effect.packets]
  | chain first rest =>
      cases follows
      cases decodes
      obtain ⟨fields, isFields⟩ :
          ∃ fields,
            fields =
              (drawFields (fun _ var => pickValue rng var)
                (layout session.varDb first.varRefs) engine).1 :=
        ⟨_, rfl⟩
      have made :
          (session.generateChain rng [first] engine).1 =
            [(first.name,
              { bytes := packFields fields, fields := reported fields })] := by
        simp [Session.generateChain, Session.chainRun, Session.chainStep,
          Session.chainBuild, buildWithFields_eq, isFields]
      refine ⟨rfl, [(first.name, fields)], ?_, ?_, ?_⟩
      · refine .cons ⟨rfl, ?_⟩ .nil
        rw [isFields]
        exact shapeOf_drawFields _ _ _
      · simp [round, made, chainEffects, Effect.lines, Pipeline.builtLine,
          packRows]
      · simp [round, made, chainEffects, Effect.packets, packRows]

/-- A frame of rows that fit the layers is decoded and printed as carried. -/
theorem decodeLine_of_follows
    {session : Session}
    (narrow : NarrowWidths session.varDb)
    {started current : Pipeline}
    (follows : started.Follows session current)
    {rows : List (String × List Field)}
    (fits :
      List.Forall₂ (LayerView.Fits session.varDb) (started.views session)
        rows)
    (jsonOut : Bool) :
    let decoded := decodeLine session jsonOut current (packRows rows).bytes
    started.Follows session decoded.2.2 ∧
      decoded.2.1 = started.decodedLine jsonOut (carriedRows rows) := by
  have sliced := LayerView.decodeViews_packRows narrow fits []
  rw [List.nil_append, List.length_nil] at sliced
  cases started with
  | stackFile stack =>
      obtain ⟨later, rfl, sameViews⟩ := follows
      have layers :
          (later.decodeStack session (packRows rows).bytes).packet =
            carriedRows rows := by
        refine StackedPacket.mk.injEq .. |>.mpr ⟨rfl, ?_⟩
        rw [← sliced]
        refine (session.decodeStackLayers_packet _ _ _ _).trans ?_
        rw [← Stack.views, sameViews]
        rfl
      refine ⟨⟨_, rfl, ?_⟩, ?_⟩
      · rw [Stack.views_decodeStack, sameViews]
      · simp only [decodeLine, layers, Pipeline.decodedLine,
          Pipeline.builtLine, ↓reduceIte]
  | stack layers =>
      cases follows
      have isPacket :
          session.decodeStack layers (packRows rows).bytes =
            carriedRows rows := by
        refine StackedPacket.mk.injEq .. |>.mpr ⟨rfl, ?_⟩
        rw [← sliced, Pipeline.views, LayerView.decodeViews_plain]
        exact Session.decodeStack_layers session layers _
      refine ⟨rfl, ?_⟩
      simp only [decodeLine, isPacket, Pipeline.decodedLine,
        Pipeline.builtLine, ↓reduceIte]
  | chain first rest =>
      cases follows
      obtain ⟨row, rfl⟩ : ∃ row, rows = [row] := by
        cases fits with
        | cons _ others =>
            cases others
            exact ⟨_, rfl⟩
      obtain ⟨-, isPacket⟩ :
          first.name = row.1 ∧
            PacketDecoder.decode first session.varDb
                (packRows [row]).bytes 0 =
              { bytes := packFields row.2, fields := carried row.2 } := by
        simpa [Pipeline.views, LayerView.decodeViews, LayerView.plain] using
          sliced
      refine ⟨rfl, ?_⟩
      simp [decodeLine, isPacket, Pipeline.decodedLine, Pipeline.builtLine,
        carriedRows]

/-- The rounds of a run pack rows that fit the layers, one frame each. -/
theorem actions_of_follows
    {session : Session}
    {started current : Pipeline}
    (fresh : started.Fresh)
    (decodes : started.Decodes session)
    (follows : started.Follows session current)
    (rng : Rng G)
    (jsonOut : Bool)
    (rounds : Nat)
    (engine : G) :
    let effects :=
      Rounds.actions (round session rng jsonOut) rounds (current, engine)
    ∃ frames : List (List (String × List Field)),
      frames.length = rounds ∧
        (∀ rows ∈ frames,
          List.Forall₂ (LayerView.Fits session.varDb)
            (started.views session) rows) ∧
        effects.flatMap Effect.lines =
          frames.map (fun rows =>
            started.builtLine jsonOut (packRows rows)) ∧
        effects.flatMap Effect.packets =
          frames.map fun rows => (packRows rows).bytes := by
  induction rounds generalizing current engine with
  | zero =>
      exact ⟨[], rfl, fun _ member => (List.not_mem_nil member).elim, rfl,
        rfl⟩
  | succ rounds inductionHypothesis =>
      obtain ⟨later, rows, fits, lines, packets⟩ :=
        round_of_follows fresh decodes follows rng jsonOut engine
      obtain ⟨frames, count, others, otherLines, otherPackets⟩ :=
        inductionHypothesis later
          (round session rng jsonOut (current, engine)).2.2
      refine ⟨rows :: frames, ?_, ?_, ?_, ?_⟩
      · rw [List.length_cons, count]
      · intro frame member
        rcases List.mem_cons.mp member with isHead | inRest
        · rw [isHead]
          exact fits
        · exact others frame inRest
      · rw [Rounds.actions, List.flatMap_append, lines, otherLines]
        rfl
      · rw [Rounds.actions, List.flatMap_append, packets, otherPackets]
        rfl

/-- Frames of rows that fit the layers are decoded one by one. -/
theorem decodedLines_of_follows
    {session : Session}
    (narrow : NarrowWidths session.varDb)
    {started current : Pipeline}
    (follows : started.Follows session current)
    {frames : List (List (String × List Field))}
    (fit :
      ∀ rows ∈ frames,
        List.Forall₂ (LayerView.Fits session.varDb) (started.views session)
          rows)
    (jsonOut : Bool) :
    decodedLines session jsonOut current
        (frames.map fun rows => (packRows rows).bytes) =
      frames.map fun rows =>
        started.decodedLine jsonOut (carriedRows rows) := by
  induction frames generalizing current with
  | nil =>
      rfl
  | cons rows rest inductionHypothesis =>
      obtain ⟨later, line⟩ :=
        decodeLine_of_follows narrow follows
          (fit rows List.mem_cons_self) jsonOut
      rw [List.map_cons, List.map_cons, decodedLines, line,
        inductionHypothesis later
          fun frame member => fit frame (List.mem_cons_of_mem _ member)]

/-- Senders of a platform count their calls. -/
theorem counting_on
    (host : Host G S R)
    (platform : Platform) :
    Counting (host.on platform) where
  sender :=
    { handed_open := by
        intro outgoing
        change (platform.openSender outgoing).2.handed = outgoing.handed
        cases isDevice : outgoing.device with
        | raw device =>
            simp [Platform.openSender, isDevice]
        | pcap device =>
            simp [Platform.openSender, isDevice]
        | verilator device =>
            simp [Platform.openSender, isDevice]
      handed_close := fun _ => rfl }
  fresh := fun _ _ => rfl

/-- A run's sender is of a kind and keeps what it was handed. -/
def Serves
    (platform : Platform)
    (kind : TransportKind)
    (out : Output Outgoing Incoming) : Prop :=
  ∃ outgoing,
    out.sender = some outgoing ∧ outgoing.device.kind = kind ∧
      outgoing.Kept platform

section Serving

variable {host : Host G S R}
variable {platform : Platform}
variable {kind : TransportKind}

/-- An effect keeps the sender serving. -/
theorem serves_perform
    (level : LogLevel)
    (effect : Effect)
    {out : Output Outgoing Incoming}
    (serves : Serves platform kind out) :
    Serves platform kind
      (perform (host.on platform) level effect out).2 := by
  obtain ⟨outgoing, isSender, isKind, kept⟩ := serves
  cases effect with
  | log entries =>
      exact ⟨outgoing, isSender, isKind, kept⟩
  | print line =>
      exact ⟨outgoing, isSender, isKind, kept⟩
  | send packet =>
      refine ⟨(platform.send packet outgoing).2, ?_, ?_, kept.send packet⟩
      · simp only [perform, isSender]
        rfl
      · rw [Outgoing.kind_send, isKind]

/-- Rounds keep the sender serving, also when it is closed. -/
theorem serves_generateRounds
    (limit : Nat)
    (level : LogLevel)
    (args : Args)
    (session : Session)
    (pipeline : Pipeline)
    {out : Output Outgoing Incoming}
    (serves : Serves platform kind out) :
    Serves platform kind
      (generateRounds (host.on platform) limit level args session pipeline
        out).2 := by
  have closes
      {later : Output Outgoing Incoming}
      (serves : Serves platform kind later) :
      Serves platform kind (closeSender (host.on platform) later) := by
    obtain ⟨outgoing, isSender, isKind, kept⟩ := serves
    refine ⟨Platform.closeSender outgoing, ?_, ?_, kept.close⟩
    · simp only [closeSender, isSender]
      rfl
    · rw [Outgoing.kind_closeSender, isKind]
  have ran
      (effects : List Effect) :
      Serves platform kind
        (Rounds.performAll (perform (host.on platform) level) effects
          out).2 :=
    Rounds.performAll_keeps (Serves platform kind)
      (fun effect later => serves_perform level effect) effects serves
  have generation :=
    generation_generateRounds (host.on platform) limit level args session
      pipeline out
  generalize generateRounds (host.on platform) limit level args session
    pipeline out = result at generation ⊢
  cases generation with
  | finished all ends =>
      exact closes (ran _)
  | interrupted all endless =>
      exact ran _
  | failed stopped line =>
      exact closes (ran _)

/-- A generation whose sender opens serves it. -/
theorem serves_generate
    {args : Args}
    {param : String}
    (spec : TransportSpec.read args.transport = .known kind param)
    (opens : ¬ OpenFails (host.on platform) args)
    (limit : Nat)
    (level : LogLevel)
    (session : Session)
    (pipeline : Pipeline) :
    Serves platform kind
      (generate (host.on platform) limit level args session pipeline).2 := by
  have made :
      (makeSender (host.on platform) args.transport).2 =
        some (Platform.newSender kind param) := by
    rw [makeSender, spec]
    rfl
  have success :
      (platform.openSender (Platform.newSender kind param)).1 =
        .success := by
    by_contra refused
    exact opens ⟨_, made, refused⟩
  have generated :
      generate (host.on platform) limit level args session pipeline =
        generateRounds (host.on platform) limit level args session pipeline
          { sender :=
              some
                (platform.openSender
                  (Platform.newSender kind param)).2 } := by
    rw [generate, made]
    exact if_pos success
  rw [generated]
  refine serves_generateRounds limit level args session pipeline
    ⟨_, rfl, ?_, fun _ => Outgoing.framed_openSender rfl success⟩
  rw [Outgoing.kind_openSender]
  cases kind with
  | raw =>
      rfl
  | pcap =>
      rfl
  | verilator =>
      rfl

end Serving

/-- Rounds succeed, fail at a packet that is refused or are interrupted. -/
theorem exit_generateRounds
    (host : Host G S R)
    (limit : Nat)
    (level : LogLevel)
    (args : Args)
    (session : Session)
    (pipeline : Pipeline)
    (out : Output S R) :
    let exit :=
      (generateRounds host limit level args session pipeline out).1
    exit = .code 0 ∨ exit = .code 2 ∨ exit = .interrupted := by
  have generation :=
    generation_generateRounds host limit level args session pipeline out
  generalize generateRounds host limit level args session pipeline out =
    result at generation ⊢
  cases generation with
  | finished all ends =>
      exact .inl rfl
  | interrupted all endless =>
      exact .inr (.inr rfl)
  | failed stopped line =>
      exact .inr (.inl rfl)

/-- A generation succeeds, fails at its transport or is interrupted. -/
theorem exit_generate
    (host : Host G S R)
    (limit : Nat)
    (level : LogLevel)
    (args : Args)
    (session : Session)
    (pipeline : Pipeline) :
    let exit := (generate host limit level args session pipeline).1
    exit = .code 0 ∨ exit = .code 2 ∨ exit = .interrupted := by
  intro exit
  simp only [exit, generate]
  split
  · exact exit_generateRounds host limit level args session pipeline _
  · split
    · exact exit_generateRounds host limit level args session pipeline _
    · exact .inr (.inl rfl)

/-- Interfaces that the arguments name are no stack file. -/
theorem interfacePipeline_ne_stackFile
    (args : Args)
    (session : Session)
    (stack : Stack) :
    interfacePipeline args session ≠ .ok (.stackFile stack) := by
  have mapped
      (found : Except String (List ProtocolInterface))
      {build : List ProtocolInterface → Pipeline}
      (other : ∀ layers, build layers ≠ .stackFile stack) :
      found.map build ≠ .ok (.stackFile stack) := by
    cases found with
    | error name =>
        exact fun same => by cases same
    | ok layers =>
        intro same
        rw [Except.map, Except.ok.injEq] at same
        exact other layers same
  rw [interfacePipeline]
  split
  · exact mapped _ fun _ same => by cases same
  · split
    · split
      · exact fun same => by cases same
      · exact mapped _ fun _ same => by cases same
    · split
      · exact fun same => by cases same
      · exact fun same => by cases same

/-- A stack file that is loaded was just built. -/
theorem exists_build_of_loadStack
    {host : Host G S R}
    {session : Session}
    {path : String}
    {stack : Stack}
    (loaded : loadStack host session path = .ok (.success, some stack)) :
    ∃ root,
      StackBuilder.build session.serviceDb host.registry root =
        .ok (.success, some stack) := by
  rw [loadStack] at loaded
  split at loaded
  · cases loaded
  · cases loaded
  · split at loaded
    · cases loaded
    next root _ =>
      cases built :
          StackBuilder.build session.serviceDb host.registry root with
      | error reason =>
          rw [built] at loaded
          cases loaded
      | ok result =>
          rw [built] at loaded
          cases loaded
          exact ⟨root, built⟩

/-- A stack that is reached was just built. -/
theorem Reaches.exists_build
    {host : Host G S R}
    {arguments : List String}
    {args : Args}
    {session : Session}
    {stack : Stack}
    (reaches : Reaches host arguments args session (.stackFile stack)) :
    ∃ root,
      StackBuilder.build session.serviceDb host.registry root =
        .ok (.success, some stack) := by
  have resolved := reaches.resolved
  rw [pipelineOf] at resolved
  split at resolved
  · split at resolved
    next loaded =>
      cases resolved
      exact exists_build_of_loadStack loaded
    next =>
      cases resolved
  · cases found : interfacePipeline args session with
    | error name =>
        rw [found] at resolved
        cases resolved
    | ok pipeline =>
        rw [found] at resolved
        cases resolved
        exact absurd found (interfacePipeline_ne_stackFile args session stack)

/-- The layers of a pipeline that is reached were not used yet. -/
theorem Reaches.fresh
    {host : Host G S R}
    {arguments : List String}
    {args : Args}
    {session : Session}
    {pipeline : Pipeline}
    (reaches : Reaches host arguments args session pipeline) :
    pipeline.Fresh := by
  cases pipeline with
  | stackFile stack =>
      obtain ⟨root, built⟩ := reaches.exists_build
      exact StackBuilder.fresh_of_build built
  | stack layers =>
      trivial
  | chain first rest =>
      trivial

/-- What a generating run that did not fail has done. -/
theorem done_of_unfailed
    {host : Host G S R}
    (counting : Counting host)
    {arguments : List String}
    {args : Args}
    {session : Session}
    {pipeline : Pipeline}
    (reaches : Reaches host arguments args session pipeline)
    (generating : args.decode = false)
    {limit : Nat}
    (unfailed : (main host limit arguments).1 ≠ .code 2) :
    let result := main host limit arguments
    let effects :=
      effectsOf host args session pipeline (roundsOf args limit)
    ¬ OpenFails host args ∧
      result.2.stdout = effects.flatMap Effect.lines ∧
        AllAccepted (calls host result.2) ∧
          (result.2.sender.isSome = true →
            (calls host result.2).map Prod.fst =
              effects.flatMap Effect.packets) := by
  intro result effects
  have opens : ¬ OpenFails host args :=
    fun fails =>
      unfailed (nothing_of_openFails counting reaches generating limit
        fails).1
  have report : GenerationReport host args limit effects result :=
    report_of_opens counting reaches generating limit opens
  obtain ⟨done, -, lines, packets, complete⟩ := report.carriedOut
  rw [complete unfailed] at lines packets
  refine ⟨opens, lines, ?_, packets⟩
  have ends := exit_generate host limit (levelOf args) args session pipeline
  have isExit :
      result.1 =
        (generate host limit (levelOf args) args session pipeline).1 := by
    simp only [result, main_generating reaches generating limit,
      afterReading_fst]
  rw [← isExit] at ends
  rcases ends with done | failed | stopped
  · exact (report.succeeded.mp done).1
  · exact absurd failed unfailed
  · exact (report.interrupted.mp stopped).1

/-- What a generating run that did not fail left to the reader of its sender. -/
theorem left_of_unfailed
    {host : Host G S R}
    {platform : Platform}
    {arguments : List String}
    {args : Args}
    {session : Session}
    {pipeline : Pipeline}
    (reaches :
      Reaches (host.on platform) arguments args session pipeline)
    (generating : args.decode = false)
    {kind : TransportKind}
    {param : String}
    (written : TransportSpec.read args.transport = .known kind param)
    {limit : Nat}
    (unfailed : (main (host.on platform) limit arguments).1 ≠ .code 2)
    {outgoing : Outgoing}
    (left :
      (main (host.on platform) limit arguments).2.sender = some outgoing) :
    outgoing.device.kind = kind ∧
      outgoing.Framed platform ∧
        outgoing.handed.map Prod.fst =
          (effectsOf (host.on platform) args session pipeline
            (roundsOf args limit)).flatMap Effect.packets := by
  obtain ⟨opens, -, accepted, packets⟩ :=
    done_of_unfailed (counting_on host platform) reaches generating unfailed
  have serves :
      Serves platform kind (main (host.on platform) limit arguments).2 := by
    rw [main_generating reaches generating limit]
    exact serves_generate written opens limit _ session pipeline
  obtain ⟨served, isServed, isKind, kept⟩ := serves
  obtain rfl : served = outgoing :=
    Option.some.inj (isServed.symm.trans left)
  have isCalls :
      calls (host.on platform) (main (host.on platform) limit arguments).2 =
        served.handed := by
    rw [calls, left]
    rfl
  rw [isCalls] at accepted packets
  exact ⟨isKind, kept accepted, packets (by rw [left]; rfl)⟩

/-- Where no packet is empty, a count cuts off packets. -/
theorem consumed_of_present
    {packets : List (List UInt8)}
    (present : ∀ packet ∈ packets, packet ≠ [])
    (count : UInt64) :
    Rounds.consumed (fun pkt : List UInt8 => !pkt.isEmpty) count.toNat
        packets =
      if count = 0 then packets else packets.take count.toNat := by
  have whole :
      packets.filter (fun pkt => !pkt.isEmpty) = packets := by
    refine List.filter_eq_self.mpr fun packet member => ?_
    simpa using present packet member
  have countZero : count.toNat = 0 ↔ count = 0 := by
    rw [← UInt64.toNat_inj]
    rfl
  rw [Rounds.consumed, whole]
  simp only [countZero]

/-- The frames of a pipeline have its size. -/
theorem length_of_fits
    {session : Session}
    (narrow : NarrowWidths session.varDb)
    {pipeline : Pipeline}
    {frames : List (List (String × List Field))}
    (fits :
      ∀ rows ∈ frames,
        List.Forall₂ (LayerView.Fits session.varDb)
          (pipeline.views session) rows) :
    ∀ packet ∈ frames.map fun rows => (packRows rows).bytes,
      packet.length = pipeline.frameBytes session := by
  intro packet member
  obtain ⟨rows, inFrames, rfl⟩ := List.mem_map.mp member
  exact LayerView.length_packRows narrow (fits rows inFrames)

/-- A decoding run whose receiver yields frames prints them as carried. -/
theorem decoded_of_yields
    {host : Host G S R}
    {arguments : List String}
    {args : Args}
    {session : Session}
    {pipeline : Pipeline}
    (reaches : Reaches host arguments args session pipeline)
    (decoding : args.decode = true)
    (noHex : args.hexInput = "")
    (narrow : NarrowWidths session.varDb)
    {receiver : R}
    (made : (makeReceiver host args.transport).2 = some receiver)
    (opens : (host.receiver.openReceiver receiver).1 = .ok ())
    {frames : List (List (String × List Field))}
    (fits :
      ∀ rows ∈ frames,
        List.Forall₂ (LayerView.Fits session.varDb)
          (pipeline.views session) rows)
    (present :
      ∀ packet ∈ frames.map fun rows => (packRows rows).bytes, packet ≠ [])
    (yields :
      ∀ calls,
        FramedStream.receiveTimes host.receiver.receive calls
            (host.receiver.openReceiver receiver).2 =
          ((frames.map fun rows => (packRows rows).bytes).map Except.ok ++
            List.replicate calls (Except.error ReceiverErr.eof)).take calls)
    {limit : Nat}
    (enough : frames.length < limit) :
    let result := main host limit arguments
    result.1 = .code 0 ∧
      result.2.stdout =
        (if args.count = 0 then
            frames
          else
            frames.take args.count.toNat).map fun rows =>
          pipeline.decodedLine (args.output = "json")
            (carriedRows rows) := by
  intro result
  have few :
      (frames.map fun rows => (packRows rows).bytes).length < limit := by
    rw [List.length_map]
    exact enough
  obtain ⟨success, decoded⟩ :=
    decode_of_yields noHex made opens yields few (levelOf args) session
      pipeline
  have cut :
      Rounds.consumed (fun pkt : List UInt8 => !pkt.isEmpty)
          args.count.toNat
          (frames.map fun rows => (packRows rows).bytes) =
        (if args.count = 0 then
            frames
          else
            frames.take args.count.toNat).map fun rows =>
          (packRows rows).bytes := by
    rw [consumed_of_present present]
    split
    · rfl
    · rw [List.map_take]
  simp only [result, main_decoding reaches decoding limit,
    afterReading_fst, stdout_afterReading]
  refine ⟨success, ?_⟩
  rw [decoded, cut]
  refine decodedLines_of_follows narrow (Pipeline.Follows.refl _ _) ?_ _
  intro rows member
  refine fits rows ?_
  split at member
  · exact member
  · exact List.mem_of_mem_take member

/-- Values that fit are printed the same after decoding. -/
theorem sameLines_of_valuesFit
    {pipeline : Pipeline}
    {output : String}
    (whole : output = "json" ∨ ∃ first, pipeline = .chain first [])
    {frames : List (List (String × List Field))}
    (fit : ∀ rows ∈ frames, ValuesFit rows) :
    (frames.map fun rows =>
        pipeline.decodedLine (output = "json") (carriedRows rows)) =
      frames.map fun rows =>
        pipeline.builtLine (output = "json") (packRows rows) := by
  refine List.map_congr_left fun rows member => ?_
  rw [carriedRows_of_valuesFit (fit rows member)]
  exact Pipeline.decodedLine_eq whole _

/--
Captures are read back.  A run that generates to a file or a socket without a
failure packs one frame of rows per round that fit the layers, and prints them
as they were drawn.  A run that decodes what it left with the same pipeline,
on any host that may be of the other byte order if it reads a file, succeeds
and prints the same rows as their widths carried them, up to its own count.
Where the values fit their widths, these are the very lines of the first run.
-/
theorem captures_read_back
    {G S R G' S' R' : Type}
    {host : Host G S R}
    {host' : Host G' S' R'}
    {platform platform' : Platform}
    {arguments arguments' : List String}
    {args args' : Args}
    {session : Session}
    {pipeline : Pipeline}
    (reaches :
      Reaches (host.on platform) arguments args session pipeline)
    (reaches' :
      Reaches (host'.on platform') arguments' args' session pipeline)
    (generating : args.decode = false)
    (decoding : args'.decode = true)
    (noHex : args'.hexInput = "")
    (narrow : NarrowWidths session.varDb)
    (decodes : pipeline.Decodes session)
    (present : 0 < pipeline.frameBytes session)
    (bounded : pipeline.frameBytes session < 2 ^ 32)
    {kind : TransportKind}
    {param param' : String}
    (written : TransportSpec.read args.transport = .known kind param)
    (read : TransportSpec.read args'.transport = .known kind param')
    (sameOrder : kind = .verilator → platform'.order = platform.order)
    {limit limit' : Nat}
    {outgoing : Outgoing}
    (left : (main (host.on platform) limit arguments).2.sender = some outgoing)
    (unfailed : (main (host.on platform) limit arguments).1 ≠ .code 2)
    {answers : List Answer}
    (unfailing : Unfailing answers)
    (content :
      platform'.found kind param' =
        some { unread := outgoing.stream, answers := answers })
    (enough : roundsOf args limit < limit') :
    let result := main (host.on platform) limit arguments
    let result' := main (host'.on platform') limit' arguments'
    ∃ frames : List (List (String × List Field)),
      frames.length = roundsOf args limit ∧
        (∀ rows ∈ frames,
          List.Forall₂ (LayerView.Fits session.varDb)
            (pipeline.views session) rows) ∧
        result.2.stdout =
          frames.map (fun rows =>
            pipeline.builtLine (args.output = "json") (packRows rows)) ∧
        result'.1 = .code 0 ∧
        result'.2.stdout =
          ((if args'.count = 0 then
              frames
            else
              frames.take args'.count.toNat).map fun rows =>
            pipeline.decodedLine (args'.output = "json")
              (carriedRows rows)) ∧
        (args'.output = args.output →
          (args.output = "json" ∨ ∃ first, pipeline = .chain first []) →
            (∀ rows ∈ frames, ValuesFit rows) →
              result'.2.stdout =
                if args'.count = 0 then
                  result.2.stdout
                else
                  result.2.stdout.take args'.count.toNat) := by
  intro result result'
  obtain ⟨frames, count, fits, frameLines, framePackets⟩ :=
    actions_of_follows reaches.fresh decodes
      (Pipeline.Follows.refl session pipeline) host.rng
      (args.output = "json") (roundsOf args limit)
      (engineOf (host.on platform) args)
  obtain ⟨-, lines, -⟩ :=
    done_of_unfailed (counting_on host platform) reaches generating unfailed
  obtain ⟨rfl, framed, handed⟩ :=
    left_of_unfailed reaches generating written unfailed left
  have sizes := length_of_fits narrow fits
  have presentPackets :
      ∀ packet ∈ frames.map fun rows => (packRows rows).bytes,
        packet ≠ [] := by
    rintro packet member rfl
    exact absurd (sizes [] member) (Nat.ne_of_lt present)
  have boundedPackets :
      ∀ packet ∈ frames.map fun rows => (packRows rows).bytes,
        packet.length < 2 ^ 32 := by
    intro packet member
    rw [sizes packet member]
    exact bounded
  obtain ⟨opened, yields⟩ :=
    platform'.yields_framed framed sameOrder (handed.trans framePackets)
      presentPackets boundedPackets unfailing content
  have made :
      (makeReceiver (host'.on platform') args'.transport).2 =
        some (Platform.newReceiver outgoing.device.kind param') := by
    rw [makeReceiver, read]
    rfl
  obtain ⟨success, decoded⟩ :=
    decoded_of_yields reaches' decoding noHex narrow made opened fits
      presentPackets yields (count ▸ enough)
  have isLines := lines.trans frameLines
  refine ⟨frames, count, fits, isLines, success, decoded, ?_⟩
  intro sameOutput whole fit
  have same := sameLines_of_valuesFit whole fit
  simp only [result, result', decoded, isLines, sameOutput]
  split
  · exact same
  · rw [List.map_take, same]

/-- A platform on which files are written and read without failures. -/
def openPlatform
    (order : ByteOrder)
    (file : List UInt8) : Platform where
  order := order
  clock := fun calls => { tvSec := calls, tvNsec := 0 }
  creates := fun _ => some [.moved 3]
  connects := fun _ => none
  attaches := fun _ => { descriptor := none, ifIndex := none, bound := false }
  opens := fun _ => some { unread := file, answers := [.interrupted] }
  accepts := fun _ => none
  listens := fun _ => { descriptor := none, ifIndex := none, bound := false }

/-- A host with one interface. -/
def silentHost : Host Unit Handed Unit :=
  soleHost TrafficGenerator.everySecond silence (fun _ _ => []) fun _ _ => ()

/-- Arguments that capture two frames. -/
def captureArguments : List String :=
  ["--yaml-dir", "d", "--interface", "svc::mac::tx", "--count", "2",
    "--transport", "pcap:f"]

/-- Arguments that read a capture back. -/
def readBackArguments : List String :=
  ["--yaml-dir", "d", "--interface", "svc::mac::tx", "--decode", "--count",
    "0", "--transport", "pcap:f"]

theorem captures_read_back_swapped :
    ∃ outgoing,
      (main (silentHost.on (openPlatform .big [])) 9
          captureArguments).2.sender = some outgoing ∧
        ∃ frames : List (List (String × List Field)),
          frames.length = 2 ∧
            (∀ rows ∈ frames,
              List.Forall₂ (LayerView.Fits soleSession.varDb)
                ((Pipeline.chain soleInterface []).views soleSession)
                rows) ∧
            (main (silentHost.on (openPlatform .big [])) 9
                captureArguments).2.stdout =
              frames.map (fun rows =>
                (Pipeline.chain soleInterface []).builtLine true
                  (packRows rows)) ∧
            (main (silentHost.on (openPlatform .little outgoing.stream)) 9
                readBackArguments).1 = .code 0 ∧
            (main (silentHost.on (openPlatform .little outgoing.stream)) 9
                readBackArguments).2.stdout =
              frames.map (fun rows =>
                (Pipeline.chain soleInterface []).decodedLine true
                  (carriedRows rows)) ∧
            ((∀ rows ∈ frames, ValuesFit rows) →
              (main (silentHost.on (openPlatform .little outgoing.stream)) 9
                  readBackArguments).2.stdout =
                (main (silentHost.on (openPlatform .big [])) 9
                  captureArguments).2.stdout) := by
  have reaches :
      Reaches (silentHost.on (openPlatform .big [])) captureArguments
        { yamlDir := "d"
          iface := "svc::mac::tx"
          count := 2
          transport := "pcap:f" } soleSession (.chain soleInterface []) :=
    soleHost_reaches _ _ _ _ _ _ rfl rfl rfl rfl rfl rfl rfl rfl
  have unfailed :
      (main (silentHost.on (openPlatform .big [])) 9
        captureArguments).1 ≠ .code 2 := by
    rw [main_of_reaches reaches]
    decide +kernel
  have serves :
      (main (silentHost.on (openPlatform .big [])) 9
        captureArguments).2.sender.isSome = true := by
    rw [main_of_reaches reaches]
    decide +kernel
  obtain ⟨outgoing, left⟩ := Option.isSome_iff_exists.mp serves
  have reaches' :
      Reaches (silentHost.on (openPlatform .little outgoing.stream))
        readBackArguments
        { yamlDir := "d"
          iface := "svc::mac::tx"
          decode := true
          count := 0
          transport := "pcap:f" } soleSession (.chain soleInterface []) :=
    soleHost_reaches _ _ _ _ _ _ rfl rfl rfl rfl rfl rfl rfl rfl
  have ofPcap : TransportSpec.read "pcap:f" = .known .pcap "f" := by
    decide
  have notSocket : TransportKind.pcap = .verilator → ByteOrder.little = .big :=
    nofun
  have interruptions : Unfailing [.interrupted] := by
    decide
  obtain ⟨frames, count, fits, built, success, decoded, same⟩ :=
    captures_read_back reaches reaches' rfl rfl rfl (by decide +kernel) rfl
      (by decide +kernel) (by decide +kernel) ofPcap ofPcap notSocket left
      unfailed interruptions rfl (show _ < 9 by decide)
  exact ⟨outgoing, left, frames, count, fits, built, success, decoded,
    same rfl (Or.inl rfl)⟩

/-- Every byte is printed as two digits. -/
theorem length_toHex
    (bytes : List UInt8) :
    (Session.toHex bytes).toList.length = 2 * bytes.length := by
  have pairs : ∀ byte, (Session.hexPair byte).length = 2 :=
    fun _ => rfl
  simp [Session.toHex, List.length_flatMap, pairs, Nat.mul_comm]

/-- Printed bytes are read back. -/
theorem fromHex_toHex
    (bytes : List UInt8) :
    Session.fromHex (Session.toHex bytes) [] = (true, bytes) := by
  rw [Session.fromHex, length_toHex, Nat.mul_mod_right,
    if_neg (by simp), Session.toHex, String.toList_ofList,
    Session.fromHexLoop_printed, List.nil_append]

/-- Decoding a text of bytes that are not empty prints their line. -/
theorem decode_of_hex
    (host : Host G S R)
    {args : Args}
    {bytes : List UInt8}
    (isHex : args.hexInput = Session.toHex bytes)
    (present : bytes ≠ [])
    (limit : Nat)
    (level : LogLevel)
    (session : Session)
    (pipeline : Pipeline) :
    let result := decode host limit level args session pipeline
    result.1 = .code 0 ∧
      result.2.stdout =
        decodedLines session (args.output = "json") pipeline [bytes] := by
  have notEmpty : args.hexInput ≠ "" := by
    intro empty
    have size := length_toHex bytes
    rw [← isHex, empty] at size
    exact present (List.length_eq_zero_iff.mp (by simpa using size.symm))
  have read : Session.fromHex args.hexInput [] = (true, bytes) := by
    rw [isHex, fromHex_toHex]
  simp [decode, notEmpty, read, decodedLines, Decoding.consume,
    Output.print, Output.log]

/--
Hex lines are read back.  Given any line of a run that generates in hex, however
that run ended, a decoding run with the same pipeline succeeds and prints the
one frame of rows whose bytes the line spells.
-/
theorem hex_lines_read_back
    {G S R G' S' R' : Type}
    {host : Host G S R}
    {host' : Host G' S' R'}
    (counting : Counting host)
    {arguments arguments' : List String}
    {args args' : Args}
    {session : Session}
    {pipeline : Pipeline}
    (reaches : Reaches host arguments args session pipeline)
    (reaches' : Reaches host' arguments' args' session pipeline)
    (generating : args.decode = false)
    (decoding : args'.decode = true)
    (inHex : args.output = "hex")
    (narrow : NarrowWidths session.varDb)
    (decodes : pipeline.Decodes session)
    (present : 0 < pipeline.frameBytes session)
    (limit limit' : Nat)
    (printed : args'.hexInput ∈ (main host limit arguments).2.stdout) :
    let result' := main host' limit' arguments'
    ∃ rows : List (String × List Field),
      List.Forall₂ (LayerView.Fits session.varDb) (pipeline.views session)
          rows ∧
        args'.hexInput = Session.toHex (packRows rows).bytes ∧
        result'.1 = .code 0 ∧
        result'.2.stdout =
          [pipeline.decodedLine (args'.output = "json")
            (carriedRows rows)] := by
  intro result'
  obtain ⟨frames, -, fits, lines, -⟩ :=
    actions_of_follows reaches.fresh decodes
      (Pipeline.Follows.refl session pipeline) host.rng
      (args.output = "json") (roundsOf args limit) (engineOf host args)
  obtain ⟨done, initial, isDone, -⟩ :=
    exists_done counting reaches generating
      (Nat.le_refl (roundsOf args limit))
  rw [isDone] at printed
  have inLines := (initial.flatMap Effect.lines).subset printed
  rw [effectsOf, lines] at inLines
  obtain ⟨rows, inFrames, isLine⟩ := List.mem_map.mp inLines
  have isHex : args'.hexInput = Session.toHex (packRows rows).bytes := by
    rw [← isLine, inHex]
    cases pipeline with
    | stackFile built =>
        rfl
    | stack layers =>
        rfl
    | chain first rest =>
        rfl
  have notEmpty : (packRows rows).bytes ≠ [] := by
    intro empty
    have size := LayerView.length_packRows narrow (fits rows inFrames)
    rw [empty, List.length_nil] at size
    exact absurd size (Nat.ne_of_lt present)
  obtain ⟨success, decoded⟩ :=
    decode_of_hex host' isHex notEmpty limit' (levelOf args') session pipeline
  have single :
      ∀ frame ∈ [rows],
        List.Forall₂ (LayerView.Fits session.varDb)
          (pipeline.views session) frame := by
    simpa using fits rows inFrames
  have isLines :=
    decodedLines_of_follows narrow (Pipeline.Follows.refl session pipeline)
      single (args'.output = "json")
  simp only [result', main_decoding reaches' decoding limit',
    afterReading_fst, stdout_afterReading]
  exact ⟨rows, fits rows inFrames, isHex, success, decoded.trans isLines⟩

theorem hex_lines_read_back_first :
    ∃ rows : List (String × List Field),
      List.Forall₂ (LayerView.Fits soleSession.varDb)
          ((Pipeline.chain soleInterface []).views soleSession) rows ∧
        "22f0" = Session.toHex (packRows rows).bytes ∧
        (main failingHost 9
          ["--yaml-dir", "d", "--interface", "svc::mac::tx", "--hex",
            "22f0"]).1 = .code 0 ∧
        (main failingHost 9
            ["--yaml-dir", "d", "--interface", "svc::mac::tx", "--hex",
              "22f0"]).2.stdout =
          [(Pipeline.chain soleInterface []).decodedLine true
            (carriedRows rows)] := by
  have reaches :
      Reaches silentHost
        ["--yaml-dir", "d", "--interface", "svc::mac::tx", "--output",
          "hex"]
        { yamlDir := "d"
          iface := "svc::mac::tx"
          output := "hex" } soleSession (.chain soleInterface []) :=
    soleHost_reaches _ _ _ _ _ _ rfl rfl rfl rfl rfl rfl rfl rfl
  have reaches' :
      Reaches failingHost
        ["--yaml-dir", "d", "--interface", "svc::mac::tx", "--hex", "22f0"]
        { yamlDir := "d"
          iface := "svc::mac::tx"
          decode := true
          hexInput := "22f0" } soleSession (.chain soleInterface []) :=
    soleHost_reaches _ _ _ _ _ _ rfl rfl rfl rfl rfl rfl rfl rfl
  have printed :
      "22f0" ∈
        (main silentHost 9
          ["--yaml-dir", "d", "--interface", "svc::mac::tx", "--output",
            "hex"]).2.stdout := by
    rw [main_of_reaches reaches]
    decide +kernel
  exact
    hex_lines_read_back (counting_everySecond silence fun _ _ => ()) reaches
      reaches' rfl rfl rfl (by decide +kernel) rfl (by decide +kernel) 9 9
      printed

end PacketGen

end TsnGen
