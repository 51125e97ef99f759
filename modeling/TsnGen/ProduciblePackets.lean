import TsnGen.CaptureRoundTrip
import TsnGen.Outcomes
import TsnGen.ValueConstraints

namespace TsnGen

open PacketBuilder

/-!
# What random runs can print

The random engine is the only unknown of a generating run.  What the run can
print is described without it: by the values that each variable can take, layer
by layer, with the values of the stage before for a chain.  Every engine leads
to such lines, and such lines are reached by an engine that reads its answers
off a script.
-/

/-- An engine that reads its answers off a script. -/
def Rng.scripted : Rng (List Nat) where
  draw lo hi script :=
    (if lo ≤ script.headD lo ∧ script.headD lo ≤ hi then
        script.headD lo
      else
        lo,
      script.tail)
  draw_mem := by
    intro lo hi script ordered
    dsimp only
    split
    next inside =>
      exact inside
    next =>
      exact ⟨Nat.le_refl lo, ordered⟩

/-- A value that a variable can take behind a stage that reported others. -/
def Var.Choosable
    (overrides : Overrides)
    (name : String)
    (var : Var)
    (value : UInt64) : Prop :=
  if var.expectedValues ≠ [] then
    var.Pickable value
  else
    match overrides name with
    | some reported => value = var.masked reported
    | none => var.Pickable value

/-- A field at its place in a layout. -/
def IsFieldOf
    (choosable : String → Var → UInt64 → Prop)
    (entry : String × Var)
    (field : Field) : Prop :=
  ∃ value,
    choosable entry.1 entry.2 value ∧
      field = { name := entry.1, value := value, bits := entry.2.size }

/-- Fields that an interface can be built with behind reported values. -/
def ProtocolInterface.CanHold
    (varDb : Database Var)
    (overrides : Overrides)
    (iface : ProtocolInterface)
    (fields : List Field) : Prop :=
  List.Forall₂ (IsFieldOf (Var.Choosable overrides))
    (layout varDb iface.varRefs) fields

/-- Nothing was reported before. -/
def Overrides.none : Overrides :=
  fun _ => Option.none

/-- What a stage reports, for the next one. -/
def Overrides.reportedBy
    (fields : List Field) : Overrides :=
  (reported fields).foldl Overrides.assign Overrides.none

/-- Stages of a chain, each behind the one before. -/
inductive CanFollow
    (varDb : Database Var) :
    Overrides → List ProtocolInterface → List (List Field) → Prop where
  | nil {overrides : Overrides} :
      CanFollow varDb overrides [] []
  | cons
      {overrides : Overrides}
      {iface : ProtocolInterface}
      {fields : List Field}
      {rest : List ProtocolInterface}
      {later : List (List Field)}
      (first : iface.CanHold varDb overrides fields)
      (others : CanFollow varDb (.reportedBy fields) rest later) :
      CanFollow varDb overrides (iface :: rest) (fields :: later)

/-- A context that a layer can be loaded with. -/
def LayerView.CanLoad
    (varDb : Database Var)
    (view : LayerView)
    (context : LayerContext) : Prop :=
  match view.iface with
  | none => context = view.context
  | some iface =>
      ∃ fields,
        iface.CanHold varDb .none fields ∧
          context =
            { view.context with
              fields :=
                Session.populated varDb iface.varRefs (reported fields) }

/-- The packet of one layer or stage. -/
def packedAs
    (name : String)
    (fields : List Field) : Layer :=
  (name, { bytes := packFields fields, fields := reported fields })

namespace Pipeline

/-- What one round of a pipeline can do. -/
def CanMake
    (session : Session)
    (jsonOut : Bool)
    (pipeline : Pipeline)
    (effects : List Effect) : Prop :=
  match pipeline with
  | .stackFile built =>
      ∃ contexts,
        List.Forall₂ (LayerView.CanLoad session.varDb) (built.views session)
            contexts ∧
          effects =
            .log (LayerView.missingInterfaces (built.views session)) ::
              PacketGen.stackEffects jsonOut
                (packRows
                  (LayerView.encodedRows (built.views session) contexts))
  | .stack layers =>
      ∃ fields,
        List.Forall₂ (ProtocolInterface.CanHold session.varDb .none) layers
            fields ∧
          effects =
            PacketGen.stackEffects jsonOut
              (packRows
                (List.zip (layers.map ProtocolInterface.name) fields))
  | .chain first rest =>
      ∃ fields,
        CanFollow session.varDb .none (first :: rest) fields ∧
          effects =
            PacketGen.chainEffects jsonOut
              (List.zipWith (fun iface => packedAs iface.name)
                (first :: rest) fields)

end Pipeline

section Values

variable (var : Var)

/-- The values that are picked are those that can be. -/
theorem yields_pickValue :
    Computation.Yields Rng.scripted (fun _ rng => pickValue rng var)
      var.Pickable where
  sound _ rng engine := pickValue_pickable rng var engine
  reached := by
    intro value pickable
    obtain ⟨answer, answered⟩ := exists_answer_of_pickable pickable
    have same := answered ()
    by_cases listed : var.expectedValues ≠ []
    · refine ⟨[answer], fun further => Prod.ext ?_ ?_⟩
      · rw [← same]
        simp [pickValue, listed, Rng.scripted, Rng.constant]
      · simp [pickValue, listed, Rng.scripted]
    · cases declared : var.range with
      | some range =>
          refine ⟨[answer], fun further => Prod.ext ?_ ?_⟩
          · rw [← same]
            simp [pickValue, listed, declared, Rng.scripted, Rng.constant]
            rfl
          · simp [pickValue, listed, declared, Rng.scripted]
      | none =>
          by_cases empty : var.size = 0
          · refine ⟨[], fun further => Prod.ext ?_ ?_⟩
            · rw [← same]
              simp [pickValue, listed, declared, empty]
            · simp [pickValue, listed, declared, empty]
          · refine ⟨[answer], fun further => Prod.ext ?_ ?_⟩
            · rw [← same]
              simp [pickValue, listed, declared, empty, Rng.scripted,
                Rng.constant]
            · simp [pickValue, listed, declared, empty, Rng.scripted]

/-- Behind a stage, the values that are chosen are those that can be. -/
theorem yields_overrideValue
    (overrides : Overrides)
    (name : String) :
    Computation.Yields Rng.scripted
      (fun _ rng => overrideValue rng overrides name var)
      (var.Choosable overrides name) := by
  have picks := yields_pickValue var
  by_cases listed : var.expectedValues ≠ []
  · refine (picks.of_eq fun G rng engine => ?_).of_iff fun value => ?_
    · rw [overrideValue, if_pos listed]
    · rw [Var.Choosable, if_pos listed]
  · cases found : overrides name with
    | some reported =>
        have fixed :
            Computation.Yields Rng.scripted
              (Computation.done (var.masked reported))
              (· = var.masked reported) :=
          .done _
        refine (fixed.of_eq fun G rng engine => ?_).of_iff fun value => ?_
        · rw [overrideValue, if_neg listed, found]
          rfl
        · rw [Var.Choosable, if_neg listed, found]
    | none =>
        refine (picks.of_eq fun G rng engine => ?_).of_iff fun value => ?_
        · rw [overrideValue, if_neg listed, found]
        · rw [Var.Choosable, if_neg listed, found]

end Values

/-- Without reported values a stage is built freely. -/
theorem overrideValue_none
    (rng : Rng G)
    (name : String)
    (var : Var)
    (engine : G) :
    overrideValue rng .none name var engine = pickValue rng var engine := by
  rw [overrideValue]
  split
  · rfl
  · rfl

/-- Fields are drawn one by one. -/
theorem drawFields_eq
    (rng : Rng G)
    (overrides : Overrides)
    (fields : List (String × Var))
    (engine : G) :
    drawFields (overrideValue rng overrides) fields engine =
      Computation.forEach
        (fun entry =>
          Computation.andThen
            (fun _ rng => overrideValue rng overrides entry.1 entry.2)
            fun value =>
              Computation.done
                ({ name := entry.1
                   value := value
                   bits := entry.2.size } : Field))
        fields G rng engine := by
  induction fields generalizing engine with
  | nil =>
      rfl
  | cons entry rest inductionHypothesis =>
      simp only [drawFields, Computation.forEach, Computation.andThen,
        Computation.done, inductionHypothesis]

/-- The fields an interface is built with are those that it can hold. -/
theorem yields_drawFields
    (varDb : Database Var)
    (overrides : Overrides)
    (iface : ProtocolInterface) :
    Computation.Yields Rng.scripted
      (fun _ rng =>
        drawFields (overrideValue rng overrides)
          (layout varDb iface.varRefs))
      (iface.CanHold varDb overrides) :=
  (Computation.Yields.forEach
    (fun entry : String × Var =>
      (yields_overrideValue entry.2 overrides entry.1).map fun value =>
        ({ name := entry.1, value := value, bits := entry.2.size } : Field))
    (layout varDb iface.varRefs)).of_eq
    fun _ rng engine => drawFields_eq rng overrides _ engine

/-- The fields of a freely built interface. -/
def ProtocolInterface.draw
    (varDb : Database Var)
    (iface : ProtocolInterface) : Computation Rng (List Field) :=
  fun _ rng =>
    drawFields (fun _ var => pickValue rng var) (layout varDb iface.varRefs)

/-- The fields an interface is freely built with are those that it can hold. -/
theorem ProtocolInterface.yields_draw
    (varDb : Database Var)
    (iface : ProtocolInterface) :
    Computation.Yields Rng.scripted (iface.draw varDb)
      (iface.CanHold varDb .none) := by
  refine (yields_drawFields varDb .none iface).of_eq fun G rng engine => ?_
  have same :
      (fun _ var => pickValue rng var) = overrideValue rng .none := by
    funext name var engine
    exact (overrideValue_none rng name var engine).symm
  rw [draw, same]

/-- Layers of interfaces are drawn one by one. -/
theorem drawLayers_eq
    (rng : Rng G)
    (varDb : Database Var)
    (layers : List ProtocolInterface)
    (engine : G) :
    let drawn :=
      Computation.forEach (ProtocolInterface.draw varDb) layers G rng engine
    Session.drawLayers rng varDb layers engine =
      (layers.zip drawn.1, drawn.2) := by
  induction layers generalizing engine with
  | nil =>
      rfl
  | cons iface rest inductionHypothesis =>
      simp only [Session.drawLayers, Computation.forEach, Computation.andThen,
        Computation.done, inductionHypothesis]
      rfl

/-- Contexts are drawn one by one. -/
theorem drawContexts_eq
    (rng : Rng G)
    (varDb : Database Var)
    (views : List LayerView)
    (engine : G) :
    LayerView.drawContexts rng varDb views engine =
      Computation.forEach
        (fun view =>
          match view.iface with
          | none => Computation.done view.context
          | some iface =>
              Computation.andThen (iface.draw varDb) fun fields =>
                Computation.done
                  { view.context with
                    fields :=
                      Session.populated varDb iface.varRefs
                        (reported fields) })
        views G rng engine := by
  induction views generalizing engine with
  | nil =>
      rfl
  | cons view rest inductionHypothesis =>
      cases resolved : view.iface with
      | none =>
          simp only [LayerView.drawContexts, resolved, Computation.forEach,
            Computation.andThen, Computation.done, inductionHypothesis]
      | some iface =>
          simp only [LayerView.drawContexts, resolved, Computation.forEach,
            Computation.andThen, Computation.done, inductionHypothesis]
          rfl

/-- The contexts that are drawn are those the layers can be loaded with. -/
theorem yields_drawContexts
    (varDb : Database Var)
    (views : List LayerView) :
    Computation.Yields Rng.scripted
      (fun _ rng => LayerView.drawContexts rng varDb views)
      (List.Forall₂ (LayerView.CanLoad varDb) views) := by
  refine (Computation.Yields.forEach (fun view => ?_) views).of_eq
    fun _ rng engine => drawContexts_eq rng varDb views engine
  cases resolved : view.iface with
  | none =>
      refine (Computation.Yields.done view.context).of_iff fun context => ?_
      rw [LayerView.CanLoad, resolved]
  | some iface =>
      refine ((iface.yields_draw varDb).map fun fields =>
        ({ view.context with
          fields :=
            Session.populated varDb iface.varRefs
              (reported fields) } : LayerContext)).of_iff fun context => ?_
      rw [LayerView.CanLoad, resolved]

namespace Session

/-- The fields of the stages of a chain, each behind the one before. -/
def drawChain
    (varDb : Database Var) :
    Overrides →
    List ProtocolInterface →
    Computation Rng (List (List Field))
  | _, [] => Computation.done []
  | overrides, iface :: rest =>
      Computation.andThen
        (fun _ rng =>
          drawFields (overrideValue rng overrides)
            (layout varDb iface.varRefs))
        fun fields =>
          Computation.andThen (drawChain varDb (.reportedBy fields) rest)
            fun later => Computation.done (fields :: later)

/-- The stages that are drawn are those that can follow each other. -/
theorem yields_drawChain
    (varDb : Database Var)
    (overrides : Overrides)
    (stages : List ProtocolInterface) :
    Computation.Yields Rng.scripted (drawChain varDb overrides stages)
      (CanFollow varDb overrides stages) := by
  induction stages generalizing overrides with
  | nil =>
      refine (Computation.Yields.done []).of_iff fun drawn => ?_
      constructor
      · rintro ⟨⟩
        rfl
      · rintro rfl
        exact .nil
  | cons iface rest inductionHypothesis =>
      refine ((yields_drawFields varDb overrides iface).andThen
        fun fields _ =>
          (inductionHypothesis (.reportedBy fields)).map
            (fields :: ·)).of_iff fun drawn => ?_
      constructor
      · rintro (_ | ⟨first, others⟩)
        exact ⟨_, first, _, others, rfl⟩
      · rintro ⟨fields, first, later, others, rfl⟩
        exact .cons first others

/-- A stage packs the fields behind the values it was handed. -/
theorem chainBuild_eq
    (rng : Rng G)
    (varDb : Database Var)
    {state : ChainState G}
    (starts : state.stage = 0 → state.overrides = .none)
    (iface : ProtocolInterface) :
    let drawn :=
      drawFields (overrideValue rng state.overrides)
        (layout varDb iface.varRefs) state.engine
    chainBuild rng varDb state iface =
      ({ bytes := packFields drawn.1, fields := reported drawn.1 },
        drawn.2) := by
  intro drawn
  rw [chainBuild]
  split
  next first =>
    have same :
        (fun _ var => pickValue rng var) =
          overrideValue rng state.overrides := by
      funext name var engine
      rw [starts first, overrideValue_none]
    rw [buildWithFields_eq, same]
  next =>
    rw [buildWithOverrides, buildLoop_eq]

/-- A chain packs the fields of its stages. -/
theorem generateChain_eq
    (session : Session)
    (rng : Rng G)
    (stages : List ProtocolInterface)
    (engine : G) :
    let drawn := drawChain session.varDb .none stages G rng engine
    session.generateChain rng stages engine =
      (List.zipWith (fun iface => packedAs iface.name) stages drawn.1,
        drawn.2) := by
  have general :
      ∀ state : ChainState G,
        (state.stage = 0 → state.overrides = .none) →
          let final := stages.foldl (chainStep rng session.varDb) state
          let drawn :=
            drawChain session.varDb state.overrides stages G rng state.engine
          final.round =
              state.round ++
                List.zipWith (fun iface => packedAs iface.name) stages
                  drawn.1 ∧
            final.engine = drawn.2 := by
    induction stages with
    | nil =>
        intro state _
        exact ⟨(List.append_nil _).symm, rfl⟩
    | cons iface rest inductionHypothesis =>
        intro state starts final drawn
        obtain ⟨made, isMade⟩ :
            ∃ made,
              made =
                drawFields (overrideValue rng state.overrides)
                  (layout session.varDb iface.varRefs) state.engine :=
          ⟨_, rfl⟩
        obtain ⟨next, isNext⟩ :
            ∃ next : ChainState G,
              next =
                { stage := state.stage + 1
                  round := state.round ++ [packedAs iface.name made.1]
                  overrides := .reportedBy made.1
                  engine := made.2 } :=
          ⟨_, rfl⟩
        have isFinal :
            final = rest.foldl (chainStep rng session.varDb) next := by
          have step : chainStep rng session.varDb state iface = next := by
            rw [chainStep, chainBuild_eq rng session.varDb starts iface,
              isNext, isMade]
            rfl
          rw [← step]
          rfl
        obtain ⟨round, left⟩ := inductionHypothesis next (by simp [isNext])
        rw [isFinal]
        refine ⟨round.trans ?_, left.trans ?_⟩
        · rw [isNext, List.append_assoc, isMade]
          rfl
        · rw [isNext, isMade]
          rfl
  obtain ⟨round, left⟩ :=
    general
      { stage := 0, round := [], overrides := .none, engine := engine }
      fun _ => rfl
  exact Prod.ext round left

/-- A plain stack packs the fields of its layers. -/
theorem generateStack_fields
    (session : Session)
    (rng : Rng G)
    (layers : List ProtocolInterface)
    (engine : G) :
    let drawn :=
      Computation.forEach (ProtocolInterface.draw session.varDb) layers G rng
        engine
    session.generateStack rng layers engine =
      (packRows ((layers.map ProtocolInterface.name).zip drawn.1),
        drawn.2) := by
  rw [generateStack_eq, drawLayers_eq]
  simp [assembled, packRows, List.zip_map_left, List.flatMap_map]

end Session

/-- What a stack file's round does follows from the views of its layers. -/
theorem Stack.generateStack_views
    {session : Session}
    {stack : Stack}
    {views : List LayerView}
    (same : stack.views session = views)
    (rng : Rng G)
    (engine : G) :
    let made := stack.generateStack session rng engine
    let drawn := LayerView.drawContexts rng session.varDb views engine
    made.log = LayerView.missingInterfaces views ∧
      made.packet = packRows (LayerView.encodedRows views drawn.1) ∧
        made.engine = drawn.2 := by
  subst same
  have loaded := (session.loadLayers_eq rng stack.layers engine).2
  exact ⟨congrArg Prod.snd loaded, stack.generateStack_packet session rng
    engine, congrArg Prod.fst loaded⟩

/-- What rounds of a pipeline do is what the pipeline can make. -/
theorem Pipeline.yields_round
    {session : Session}
    {started : Pipeline}
    (fresh : started.Fresh)
    (jsonOut : Bool) :
    Computation.RoundYields Rng.scripted
      (fun _ rng => PacketGen.round session rng jsonOut)
      (started.Follows session) (started.CanMake session jsonOut) := by
  cases started with
  | stackFile built =>
      have yields :=
        yields_drawContexts session.varDb (built.views session)
      constructor
      · rintro G rng current state ⟨later, rfl, same⟩
        obtain ⟨log, packet, -⟩ :=
          Stack.generateStack_views same rng state
        have clean : later.Clean session := by
          intro view member
          rw [same] at member
          exact fresh.clean session view member
        refine ⟨⟨_, yields.sound G rng state, ?_⟩, _, rfl, ?_⟩
        · simp only [PacketGen.round, log, packet]
        · rw [clean.views_generateStack rng state, same]
      · rintro made ⟨contexts, load, rfl⟩
        obtain ⟨script, reads⟩ := yields.reached contexts load
        refine ⟨script, ?_⟩
        rintro current further ⟨later, rfl, same⟩
        obtain ⟨log, packet, left⟩ :=
          Stack.generateStack_views same Rng.scripted (script ++ further)
        rw [reads] at packet left
        exact ⟨by simp only [PacketGen.round, log, packet], left⟩
  | stack layers =>
      have yields :=
        Computation.Yields.forEach
          (ProtocolInterface.yields_draw session.varDb) layers
      constructor
      · rintro G rng current state rfl
        refine ⟨⟨_, yields.sound G rng state, ?_⟩, rfl⟩
        simp only [PacketGen.round, Session.generateStack_fields]
      · rintro made ⟨fields, hold, rfl⟩
        obtain ⟨script, reads⟩ := yields.reached fields hold
        refine ⟨script, ?_⟩
        rintro current further rfl
        simp only [PacketGen.round, Session.generateStack_fields, reads,
          and_self]
  | chain first rest =>
      have yields :=
        Session.yields_drawChain session.varDb .none (first :: rest)
      constructor
      · rintro G rng current state rfl
        refine ⟨⟨_, yields.sound G rng state, ?_⟩, rfl⟩
        simp only [PacketGen.round, Session.generateChain_eq]
      · rintro made ⟨fields, follow, rfl⟩
        obtain ⟨script, reads⟩ := yields.reached fields follow
        refine ⟨script, ?_⟩
        rintro current further rfl
        simp only [PacketGen.round, Session.generateChain_eq, reads,
          and_self]

/-- A host with another random engine. -/
def Host.drawing
    (host : Host G S R)
    {G' : Type}
    (rng : Rng G')
    (seeded : UInt64 → G') : Host G' S R where
  loader := host.loader
  registry := host.registry
  directory := host.directory
  file := host.file
  rng := rng
  seeded := seeded
  randomDevice := host.randomDevice
  sender := host.sender
  receiver := host.receiver
  newSender := host.newSender
  newReceiver := host.newReceiver

namespace PacketGen

/-- The engine has no influence on the pipeline that is reached. -/
theorem Reaches.drawing
    {host : Host G S R}
    {arguments : List String}
    {args : Args}
    {session : Session}
    {pipeline : Pipeline}
    (reaches : Reaches host arguments args session pipeline)
    {G' : Type}
    (rng : Rng G')
    (seeded : UInt64 → G') :
    Reaches (host.drawing rng seeded) arguments args session pipeline :=
  ⟨reaches.read, reaches.noValidation, reaches.noListing, reaches.parsed,
    reaches.resolved⟩

/-- The sender of the arguments, if they name one, refuses nothing. -/
def Accepting
    (host : Host G S R)
    (args : Args) : Prop :=
  ∀ sender,
    (makeSender host args.transport).2 = some sender →
      (host.sender.openSender sender).1 = .success ∧
        ∀ packet state, (host.sender.send packet state).1 = .success

/-- Without a refusal all effects are carried out. -/
theorem performAll_succeeds
    {host : Host G S R}
    {out : Output S R}
    (accepts :
      out.sender.isSome = true →
        ∀ packet state, (host.sender.send packet state).1 = .success)
    (level : LogLevel)
    (effects : List Effect) :
    (Rounds.performAll (perform host level) effects out).1 = true := by
  induction effects generalizing out with
  | nil =>
      rfl
  | cons effect rest inductionHypothesis =>
      have succeeds : (perform host level effect out).1 = true := by
        cases effect with
        | log entries =>
            rfl
        | print line =>
            rfl
        | send packet =>
            cases isSender : out.sender with
            | none =>
                simp [perform, isSender]
            | some sender =>
                have sent := accepts (by simp [isSender]) packet sender
                simp [perform, isSender, sent]
      rw [Rounds.performAll]
      simp only [succeeds, ↓reduceIte]
      have sameSender :
          (perform host level effect out).2.sender.isSome =
            out.sender.isSome :=
        isSome_sender_perform effect out
      exact inductionHypothesis fun present =>
        accepts (sameSender ▸ present)

/-- Rounds that are not refused print the lines of all their effects. -/
theorem stdout_generateRounds
    {host : Host G S R}
    {out : Output S R}
    (accepts :
      out.sender.isSome = true →
        ∀ packet state, (host.sender.send packet state).1 = .success)
    (unprinted : out.stdout = [])
    (limit : Nat)
    (level : LogLevel)
    (args : Args)
    (session : Session)
    (pipeline : Pipeline) :
    (generateRounds host limit level args session pipeline out).2.stdout =
      (effectsOf host args session pipeline
        (roundsOf args limit)).flatMap Effect.lines := by
  have all :=
    performAll_succeeds accepts level
      (effectsOf host args session pipeline (roundsOf args limit))
  have lines :
      (Rounds.performAll (perform host level)
          (effectsOf host args session pipeline (roundsOf args limit))
          out).2.stdout =
        (effectsOf host args session pipeline
          (roundsOf args limit)).flatMap Effect.lines := by
    rw [Rounds.view_performAll (fun _ => True) Output.stdout
      (fun _ _ _ => trivial)
      (fun effect out _ => stdout_perform effect out) _ trivial,
      unprinted, List.nil_append, Rounds.performed_eq all]
  have generation :=
    generation_generateRounds host limit level args session pipeline out
  generalize generateRounds host limit level args session pipeline out =
    result at generation ⊢
  cases generation with
  | finished succeeded ends =>
      exact lines
  | interrupted succeeded endless =>
      exact lines
  | failed stopped line =>
      rw [all] at stopped
      cases stopped

/-- A run that is not refused prints the lines of its effects. -/
theorem stdout_main
    {host : Host G S R}
    {arguments : List String}
    {args : Args}
    {session : Session}
    {pipeline : Pipeline}
    (reaches : Reaches host arguments args session pipeline)
    (generating : args.decode = false)
    (accepting : Accepting host args)
    (limit : Nat) :
    (main host limit arguments).2.stdout =
      (effectsOf host args session pipeline
        (roundsOf args limit)).flatMap Effect.lines := by
  rw [main_of_reaches reaches limit, runPipeline, generating]
  simp only [Bool.false_eq_true, ↓reduceIte, generate]
  cases made : (makeSender host args.transport).2 with
  | none =>
      exact stdout_generateRounds (fun present => by cases present) rfl limit
        _ args session pipeline
  | some sender =>
      obtain ⟨opened, accepts⟩ := accepting sender made
      simp only [opened, ↓reduceIte]
      exact stdout_generateRounds (fun _ => accepts) rfl limit _ args session
        pipeline

/--
What can be printed.  Over all random engines, a run that generates and is not
refused can print exactly the lines that the rounds of its pipeline can make:
one outcome per round, each with any values that the declarations of the
variables admit, behind those of the stage before in a chain.
-/
theorem printable_iff
    {G S R : Type}
    {host : Host G S R}
    {arguments : List String}
    {args : Args}
    {session : Session}
    {pipeline : Pipeline}
    (reaches : Reaches host arguments args session pipeline)
    (generating : args.decode = false)
    (accepting : Accepting host args)
    (limit : Nat)
    (lines : List String) :
    (∃ (G' : Type) (rng : Rng G') (seeded : UInt64 → G'),
        (main (host.drawing rng seeded) limit arguments).2.stdout = lines) ↔
      ∃ rounds : List (List Effect),
        rounds.length = roundsOf args limit ∧
          (∀ effects ∈ rounds,
            pipeline.CanMake session (args.output = "json") effects) ∧
            lines = rounds.flatten.flatMap Effect.lines := by
  have yields :
      Computation.RoundYields Rng.scripted
        (fun _ rng => round session rng (args.output = "json"))
        (pipeline.Follows session)
        (pipeline.CanMake session (args.output = "json")) :=
    pipeline.yields_round reaches.fresh _
  have follows := Pipeline.Follows.refl session pipeline
  constructor
  · rintro ⟨G', rng, seeded, rfl⟩
    obtain ⟨rounds, count, all, isActions⟩ :=
      yields.actions_sound G' rng (roundsOf args limit) follows
        (engineOf (host.drawing rng seeded) args)
    refine ⟨rounds, count, all, ?_⟩
    rw [stdout_main (reaches.drawing rng seeded) generating accepting limit,
      ← isActions]
    rfl
  · rintro ⟨rounds, count, all, rfl⟩
    obtain ⟨script, reads⟩ := yields.actions_reached all
    refine ⟨List Nat, Rng.scripted, fun _ => script, ?_⟩
    rw [stdout_main (reaches.drawing Rng.scripted fun _ => script) generating
      accepting limit, ← reads pipeline follows, count]
    rfl

/-- The only field of the only interface takes each of its values. -/
theorem soleInterface_canMake
    (jsonOut : Bool)
    {value : UInt64}
    (expected : value = 0x22F0 ∨ value = 7) :
    (Pipeline.chain soleInterface []).CanMake soleSession jsonOut
      (chainEffects jsonOut
        [packedAs "svc::mac::tx"
          [{ name := "x", value := value, bits := 16 }]]) := by
  have sole :
      layout soleSession.varDb soleInterface.varRefs =
        soleDeclared.vars.map fun var => ("x", var) := by
    rfl
  refine ⟨_, .cons ?_ .nil, rfl⟩
  rw [ProtocolInterface.CanHold, sole]
  refine .cons ⟨value, ?_, rfl⟩ .nil
  rcases expected with rfl | rfl
  · simp [Var.Choosable, Var.Pickable]
  · simp [Var.Choosable, Var.Pickable]

theorem printable_iff_expected :
    ∃ (G' : Type) (rng : Rng G') (seeded : UInt64 → G'),
      (main
        ((soleHost TrafficGenerator.everySecond silence (fun _ _ => [])
          fun _ _ => ()).drawing rng seeded)
        9
        ["--yaml-dir", "d", "--interface", "svc::mac::tx", "--output", "hex",
          "--count", "2"]).2.stdout =
        ["0007", "22f0"] := by
  have reaches :=
    soleHost_reaches TrafficGenerator.everySecond silence (fun _ _ => [])
      (fun _ _ => ())
      ["--yaml-dir", "d", "--interface", "svc::mac::tx", "--output", "hex",
        "--count", "2"]
      { yamlDir := "d"
        iface := "svc::mac::tx"
        output := "hex"
        count := 2 } rfl rfl rfl rfl rfl rfl rfl rfl
  have isHex : decide (("hex" : String) = "json") = false := by
    decide
  have accepting :
      Accepting
        (soleHost TrafficGenerator.everySecond silence (fun _ _ => [])
          fun _ _ => ())
        { yamlDir := "d"
          iface := "svc::mac::tx"
          output := "hex"
          count := 2 } := by
    intro sender made
    cases made
  have makes :
      ∀ effects ∈
          [chainEffects false
            [packedAs "svc::mac::tx" [{ name := "x", value := 7, bits := 16 }]],
          chainEffects false
            [packedAs "svc::mac::tx"
              [{ name := "x", value := 0x22F0, bits := 16 }]]],
        (Pipeline.chain soleInterface []).CanMake soleSession
          (("hex" : String) = "json") effects := by
    simp only [isHex, List.mem_cons, List.not_mem_nil, or_false,
      forall_eq_or_imp, forall_eq]
    exact ⟨soleInterface_canMake false (.inr rfl),
      soleInterface_canMake false (.inl rfl)⟩
  have printable := printable_iff reaches rfl accepting 9 ["0007", "22f0"]
  exact printable.mpr ⟨_, rfl, makes, by decide⟩

end PacketGen

end TsnGen
