import TsnGen.ArgumentLines
import TsnGen.DirectoryValidation
import TsnGen.JsonOutput
import TsnGen.Rounds
import TsnGen.StackBuilder
import TsnGen.Transport

namespace TsnGen

/-!
# The packet generator

`main` of `packet_gen`: from the arguments to the lines on the standard output,
the program's own lines on the error output, what the session logs, the calls of
a transport and the exit code.  The file system, the random engine and the
transports are its environment.  What the parser, the packet builder and the
transports log is left out.

A round of generation is a list of effects that does not depend on how sending
turns out; the loops over rounds and over received packets are instances of the
general ones.  A count of zero has no end, so a run takes the number of rounds
or calls after which it is interrupted.
-/

/-- Severity as a number. -/
def LogLevel.rank : LogLevel → Nat
  | .quiet => 0
  | .error => 1
  | .warn => 2
  | .info => 3
  | .debug => 4

/-- Whether a line of a severity is written at a level. -/
def LogLevel.shows
    (level severity : LogLevel) : Bool :=
  severity ≠ .quiet ∧ severity.rank ≤ level.rank

/-- `setLogLevel`: the level of a name. -/
def LogLevel.ofName?
    (name : String) : Option LogLevel :=
  [("quiet", .quiet), ("error", .error), ("warn", .warn), ("info", .info),
    ("debug", LogLevel.debug)].lookup name

/-- A line that the program writes to the error output. -/
inductive Notice where
  /-- The usage text. -/
  | usage
  | line (text : String)
  /-- A finding of a validation, without its place in the file. -/
  | finding (file message : String)
  deriving Repr, DecidableEq

/-- How a run ends. -/
inductive Exit where
  | code (number : Nat)
  /-- While reading the arguments. -/
  | ended (reason : Ending)
  /-- While reading a file. -/
  | crashed (reason : Crash)
  | interrupted
  deriving Repr, DecidableEq

/-- What a run has written so far, and the transports it made. -/
structure Output (S R : Type) where
  stdout : List String := []
  /-- The program's own lines on the error output. -/
  stderr : List Notice := []
  /-- What `Session` logs and the level lets through; no other class's lines. -/
  logged : Log := []
  sender : Option S := none
  receiver : Option R := none
  deriving Repr, DecidableEq

namespace Output

variable (out : Output S R)

/-- Write lines to the error output. -/
def say
    (texts : List String) : Output S R :=
  { out with stderr := out.stderr ++ texts.map .line }

/-- Log what the level lets through. -/
def log
    (level : LogLevel)
    (entries : Log) : Output S R :=
  { out with
    logged :=
      out.logged ++ entries.filter fun entry => level.shows entry.1 }

/-- Write a line to the standard output. -/
def print
    (line : String) : Output S R :=
  { out with stdout := out.stdout ++ [line] }

end Output

/-- What a run takes from its environment. -/
structure Host (G S R : Type) where
  loader : Loader
  registry : LogicRegistry
  /-- The directory behind a path, if it exists. -/
  directory : String → Option (List DirEntry)
  /-- The content of a file, if it can be opened. -/
  file : String → Option (List UInt8)
  rng : Rng G
  seeded : UInt64 → G
  randomDevice : UInt64
  sender : ISender S
  receiver : IReceiver R
  newSender : TransportKind → String → S
  newReceiver : TransportKind → String → R

/-- What packets are built or read with. -/
inductive Pipeline where
  | stackFile (stack : Stack)
  | stack (layers : List ProtocolInterface)
  | chain (first : ProtocolInterface) (rest : List ProtocolInterface)

/-- What a round of generation does, in order. -/
inductive Effect where
  | log (entries : Log)
  | print (line : String)
  | send (packet : List UInt8)
  deriving Repr, DecidableEq

namespace Effect

/-- The line that an effect prints, if it does. -/
def lines : Effect → List String
  | .print line => [line]
  | _ => []

/-- The packet that an effect hands over, if it does. -/
def packets : Effect → List (List UInt8)
  | .send packet => [packet]
  | _ => []

end Effect

namespace PacketGen

/-- The effects of one chain: printed as one line, or stage by stage. -/
def chainEffects
    (jsonOut : Bool)
    (stages : List Layer) : List Effect :=
  let isChain : Bool := stages.length > 1
  (if isChain && jsonOut then
      [.print (Session.toJsonChain stages)]
    else
      []) ++
    stages.flatMap fun stage =>
      (if !isChain || !jsonOut then
          [.print
            (if jsonOut then
              Session.toJsonPacket stage.2
            else
              Session.toHex stage.2.bytes)]
        else
          []) ++
        [.send stage.2.bytes]

/-- The effects of one stacked packet. -/
def stackEffects
    (jsonOut : Bool)
    (pkt : StackedPacket) : List Effect :=
  [.print
      (if jsonOut then
        Session.toJsonStacked pkt
      else
        Session.toHex pkt.bytes),
    .send pkt.bytes]

/-- One round of generation. -/
def round
    (session : Session)
    (rng : Rng G)
    (jsonOut : Bool)
    (state : Pipeline × G) : List Effect × (Pipeline × G) :=
  match state.1 with
  | .stackFile stack =>
      let made := stack.generateStack session rng state.2
      (.log made.log :: stackEffects jsonOut made.packet,
        (.stackFile made.stack, made.engine))
  | .stack layers =>
      let made := session.generateStack rng layers state.2
      (stackEffects jsonOut made.1, (.stack layers, made.2))
  | .chain first rest =>
      let made := session.generateChain rng (first :: rest) state.2
      (chainEffects jsonOut made.1, (.chain first rest, made.2))

/-- `decodeAndPrint`: what is logged, the line, and the pipeline behind it. -/
def decodeLine
    (session : Session)
    (jsonOut : Bool)
    (pipeline : Pipeline)
    (pkt : List UInt8) : Log × String × Pipeline :=
  match pipeline with
  | .stackFile stack =>
      let decoded := stack.decodeStack session pkt
      (decoded.log, Session.toJsonStacked decoded.packet,
        .stackFile decoded.stack)
  | .stack layers =>
      ([], Session.toJsonStacked (session.decodeStack layers pkt), pipeline)
  | .chain first _ =>
      let result := PacketDecoder.decode first session.varDb pkt 0
      ([],
        if jsonOut then
          Session.toJsonPacket result
        else
          Session.toHex result.bytes,
        pipeline)

section Program

variable (host : Host G S R)

/-- `makeSender`; a text that names no kind makes none. -/
def makeSender
    (spec : String) : List String × Option S :=
  match TransportSpec.read spec with
  | .absent => ([], none)
  | .unknown kind => (["Unknown transport kind: " ++ kind], none)
  | .known kind param => ([], some (host.newSender kind param))

/-- `makeReceiver`; a text that names no kind makes none. -/
def makeReceiver
    (spec : String) : List String × Option R :=
  match TransportSpec.read spec with
  | .absent => ([], none)
  | .unknown kind => (["Unknown receiver transport: " ++ kind], none)
  | .known kind param => ([], some (host.newReceiver kind param))

/-- Close the sender if there is one. -/
def closeSender
    (out : Output S R) : Output S R :=
  { out with sender := out.sender.map host.sender.close }

/-- Carry out one effect; only sending may fail. -/
def perform
    (level : LogLevel)
    (effect : Effect)
    (out : Output S R) : Bool × Output S R :=
  match effect with
  | .log entries => (true, out.log level entries)
  | .print line => (true, out.print line)
  | .send packet =>
      match out.sender with
      | none => (true, out)
      | some sender =>
          let sent := host.sender.send packet sender
          (sent.1 = .success, { out with sender := some sent.2 })

/-- The rounds of a generation on an open sender, or on none. -/
def generateRounds
    (limit : Nat)
    (level : LogLevel)
    (args : Args)
    (session : Session)
    (pipeline : Pipeline)
    (out : Output S R) : Exit × Output S R :=
  let engine :=
    host.seeded (if args.seedSet then args.seed else host.randomDevice)
  let result :=
    Rounds.run (perform host level)
      (round session host.rng (args.output = "json"))
      args.count.toNat limit 0 (pipeline, engine) out
  match result.1 with
  | .finished => (.code 0, closeSender host result.2)
  | .failed index =>
      (.code 2,
        closeSender host
          (result.2.say ["Send failed on round " ++ toString index]))
  | .interrupted => (.interrupted, result.2)

/-- Generate: make and open a sender if the arguments name one. -/
def generate
    (limit : Nat)
    (level : LogLevel)
    (args : Args)
    (session : Session)
    (pipeline : Pipeline) : Exit × Output S R :=
  let made := makeSender host args.transport
  match made.2 with
  | none =>
      generateRounds host limit level args session pipeline
        (({} : Output S R).say made.1)
  | some sender =>
      let opened := host.sender.openSender sender
      let out : Output S R := { sender := some opened.2 }
      if opened.1 = .success then
        generateRounds host limit level args session pipeline out
      else
        (.code 2, out.say ["Failed to open transport: " ++ args.transport])

/-- What is carried along while packets are decoded. -/
structure Decoding (S R : Type) where
  pipeline : Pipeline
  out : Output S R

/-- Decode one packet and print its line. -/
def Decoding.consume
    (level : LogLevel)
    (session : Session)
    (jsonOut : Bool)
    (pkt : List UInt8)
    (state : Decoding S R) : Decoding S R :=
  let decoded := decodeLine session jsonOut state.pipeline pkt
  { pipeline := decoded.2.2
    out := (state.out.log level decoded.1).print decoded.2.1 }

/-- Decode: the packet of the arguments, or those of a receiver. -/
def decode
    (limit : Nat)
    (level : LogLevel)
    (args : Args)
    (session : Session)
    (pipeline : Pipeline) : Exit × Output S R :=
  let jsonOut : Bool := args.output = "json"
  let consume := Decoding.consume (S := S) (R := R) level session jsonOut
  if args.hexInput ≠ "" then
    let raw := Session.fromHex args.hexInput []
    if raw.1 then
      (.code 0, (consume raw.2 { pipeline := pipeline, out := {} }).out)
    else
      (.code 1, ({} : Output S R).say ["--hex value is not valid hex"])
  else
    let made := makeReceiver host args.transport
    match made.2 with
    | none =>
        let complaint :=
          match pipeline with
          | .stackFile _ =>
              "--decode --stack-file requires --transport or --hex"
          | _ =>
              "--decode requires --transport <pcap|raw|verilator>:<param>" ++
                " or --hex <hexstring>"
        (.code 1, ({} : Output S R).say (made.1 ++ [complaint]))
    | some receiver =>
        let opened := host.receiver.openReceiver receiver
        match opened.1 with
        | .error _ =>
            let out : Output S R := { receiver := some opened.2 }
            (.code 2, out.say ["Failed to open receiver: " ++ args.transport])
        | .ok _ =>
            let drained :=
              Rounds.drain host.receiver.receive
                (fun code => decide (code = ReceiverErr.eof))
                (fun pkt => !pkt.isEmpty) consume args.count.toNat limit 0
                opened.2 { pipeline := pipeline, out := {} }
            match drained.1 with
            | .done =>
                (.code 0,
                  { drained.2.1.out with
                    receiver := some (host.receiver.close drained.2.2) })
            | .broken counted =>
                (.code 2,
                  ({ drained.2.1.out with
                    receiver :=
                      some (host.receiver.close drained.2.2) }).say
                    ["Receive error on packet " ++ toString counted])
            | .interrupted =>
                (.interrupted,
                  { drained.2.1.out with receiver := some drained.2.2 })

/-- The name of a direction in the list of interfaces. -/
def directionName
    (direction : IfDirections) : String :=
  if direction = .IN then "in" else "out"

/-- `--list-interfaces`: the known names in key order. -/
def listInterfaces
    (args : Args)
    (session : Session) : List String :=
  ("Available interfaces in '" ++ args.yamlDir ++ "':") ::
    session.interfaceDb.entries.map fun entry =>
      "  " ++ entry.1 ++ "  [" ++ directionName entry.2.direction ++ "]"

/-- Look names up in order, up to the first that is not known. -/
def resolve
    (session : Session) :
    List String → Except String (List ProtocolInterface)
  | [] => .ok []
  | name :: rest =>
      match session.interfaceDb.getElement name with
      | none => .error name
      | some iface => (resolve session rest).map (iface :: ·)

/-- The interfaces that the arguments name. -/
def interfacePipeline
    (args : Args)
    (session : Session) : Except String Pipeline :=
  if args.stack ≠ [] then
    (resolve session args.stack).map .stack
  else
    match args.chain with
    | first :: rest =>
        match session.interfaceDb.getElement first with
        | none => .error first
        | some iface => (resolve session rest).map (.chain iface)
    | [] =>
        match session.interfaceDb.getElement args.iface with
        | none => .error args.iface
        | some iface => .ok (.chain iface [])

/-- `StackBuilder::build` from the opened file on. -/
def loadStack
    (session : Session)
    (path : String) : Except Crash (StackBuilderErr × Option Stack) :=
  match host.file path with
  | none => .ok (.invalidFile, none)
  | some [] => .ok (.invalidFile, none)
  | some bytes =>
      match host.loader.parseInArena bytes with
      | none => .error .rejected
      | some root =>
          (StackBuilder.build session.serviceDb host.registry root).mapError
            .aborted

/-- The texts of the codes of the stack builder. -/
def stackBuilderMsg : StackBuilderErr → String
  | .success => "STACK:ERR: SUCCESS"
  | .unknown => "STACK:ERR: UNKNOWN"
  | .invalidFile => "STACK:ERR: INVALID FILE"
  | .missingKey => "STACK:ERR: MISSING KEY"
  | .unknownService => "STACK:ERR: UNKNOWN SERVICE"
  | .unknownLogic => "STACK:ERR: UNKNOWN LOGIC"

/-- `validateStackFile` from the opened file on. -/
def validateStackContent
    (content : Option (List UInt8)) :
    Except Crash (List ValidationFinding) :=
  match content with
  | none => .ok (ProtocolValidator.report "could not open file")
  | some bytes =>
      match host.loader.parseInArena bytes with
      | none => .error .rejected
      | some root =>
          (ProtocolValidator.validateStackFile root).mapError .aborted

/-- `--validate`: check the directory, and the stack file if there is one. -/
def validate
    (args : Args) : Exit × Output S R :=
  let run :=
    ProtocolValidator.validateDirectory host.loader args.yamlDir
      (host.directory args.yamlDir)
  match run.ended with
  | some crash => (.crashed crash, {})
  | none =>
      let checked :=
        if args.stackFile ≠ "" then
          validateStackContent host (host.file args.stackFile)
        else
          .ok []
      match checked with
      | .error crash => (.crashed crash, {})
      | .ok findings =>
          let all :=
            run.out ++ findings.map fun finding => (args.stackFile, finding)
          let report : Output S R :=
            { stderr :=
                all.map fun found => .finding found.1 found.2.message }
          (if all.isEmpty then .code 0 else .code 2,
            report.say
              ["validate: " ++ toString all.length ++ " error(s) in '" ++
                args.yamlDir ++ "'" ++
                (if args.stackFile = "" then "" else " + stack file")])

/-- The texts of the codes of the directory parser; the last three are one. -/
def protocolParserMsg : ProtocolParserErr → Option String
  | .success => some "PPASER:ERR: SUCCESS"
  | .unknown => some "PPASER:ERR: UNKNOWN"
  | .invalidInput => some "PPASER:ERR: INVALID INPUT"
  | .unexpected =>
      some
        "PPASER:ERR: UNEXPECTEDPPASER:ERR: UNDEFINEDPPASER:ERR: EXISTS"
  | .undefined => none
  | .exists => none

/-- Packets of the arguments: decoded if they say so, else generated. -/
def runPipeline
    (limit : Nat)
    (level : LogLevel)
    (args : Args)
    (session : Session)
    (pipeline : Pipeline) : Exit × Output S R :=
  if args.decode then
    decode host limit level args session pipeline
  else
    generate host limit level args session pipeline

/-- What is done with a parsed directory. -/
def runSession
    (limit : Nat)
    (level : LogLevel)
    (args : Args)
    (session : Session) : Exit × Output S R :=
  if args.listInterfaces then
    (.code 0, { stdout := listInterfaces args session })
  else if args.stackFile ≠ "" then
    match loadStack host session args.stackFile with
    | .error crash => (.crashed crash, {})
    | .ok (.success, some stack) =>
        runPipeline host limit level args session (.stackFile stack)
    | .ok (code, _) =>
        (.code 2,
          ({} : Output S R).say
            ["Failed to build stack '" ++ args.stackFile ++ "': " ++
              stackBuilderMsg code])
  else
    match interfacePipeline args session with
    | .error name =>
        (.code 2,
          ({} : Output S R).say
            ["Interface not found: " ++ name,
              "Run with --list-interfaces to see available names."])
    | .ok pipeline => runPipeline host limit level args session pipeline

/-- What is done with arguments that were read. -/
def runArgs
    (limit : Nat)
    (args : Args) : Exit × Output S R :=
  let level := (LogLevel.ofName? args.logLevel).getD .warn
  if args.validate then
    validate host args
  else
    match
      ProtocolParser.parse host.loader args.yamlDir
        (host.directory args.yamlDir) .fresh with
    | .error crash => (.crashed crash, {})
    | .ok (err, parser) =>
        if err = .success then
          runSession host limit level args parser.session
        else
          (.code 2,
            ({} : Output S R).log level
              [(.error,
                "Session: parsing '" ++ args.yamlDir ++ "' failed: " ++
                  (protocolParserMsg err).getD "" ++ "\n")])

/-- What a run writes behind the lines about its arguments. -/
def afterReading
    (arguments : List String)
    (result : Exit × Output S R) : Exit × Output S R :=
  (result.1,
    { result.2 with
      stderr :=
        (CommandLine.lines arguments {}).map .line ++ result.2.stderr })

section AfterReading

variable (arguments : List String)
variable (result : Exit × Output S R)

@[simp] theorem afterReading_fst :
    (afterReading arguments result).1 = result.1 :=
  rfl

@[simp] theorem stdout_afterReading :
    (afterReading arguments result).2.stdout = result.2.stdout :=
  rfl

@[simp] theorem sender_afterReading :
    (afterReading arguments result).2.sender = result.2.sender :=
  rfl

@[simp] theorem receiver_afterReading :
    (afterReading arguments result).2.receiver = result.2.receiver :=
  rfl

end AfterReading

/-- The program, on the arguments behind its name. -/
def main
    (limit : Nat)
    (arguments : List String) : Exit × Output S R :=
  afterReading arguments
    (match CommandLine.parseArgs arguments {} with
    | .error .version => (.code 0, { stdout := ["packet_gen 0.1.0"] })
    | .error .help => (.code 0, { stderr := [.usage] })
    | .error ending => (.ended ending, {})
    | .ok (false, _) => (.code 1, { stderr := [.usage] })
    | .ok (true, args) => runArgs host limit args)

end Program

end PacketGen

end TsnGen
