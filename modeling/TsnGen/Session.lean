import TsnGen.PacketDecoder

namespace TsnGen

/-!
# Sessions over interface lists

A `Session` owns the databases of a parsed protocol directory; its random
engine is passed along explicitly.  This module holds the entry points that
work on plain interface lists: chains, in which each stage echoes fields of
the stage before it, and stacks, in which independently built layers are
concatenated into one frame and sliced again on decode.
-/

/-- The databases filled by parsing a protocol directory. -/
structure Session where
  varDb : Database Var
  interfaceDb : Database ProtocolInterface
  serviceDb : Database ProtocolService

/-- One named layer of a stacked frame. -/
abbrev Layer := String × BuiltPacket

/-- A multi-layer frame: its bytes and the per-layer packets. -/
structure StackedPacket where
  bytes : List UInt8
  layers : List Layer
  deriving Repr, DecidableEq

namespace Session

/-- Loop state of a chain round. -/
structure ChainState (G : Type) where
  stage : Nat
  round : List Layer
  overrides : Overrides
  engine : G

/--
The packet of one stage: the first stage is built freely, later ones with the
values reported by the stage before.
-/
def chainBuild
    (rng : Rng G)
    (varDb : Database Var)
    (state : ChainState G)
    (iface : ProtocolInterface) : BuiltPacket × G :=
  if state.stage = 0 then
    PacketBuilder.buildWithFields rng iface varDb state.engine
  else
    PacketBuilder.buildWithOverrides
      rng iface varDb state.overrides state.engine

/--
One stage of a chain; the override map is refilled from the packet just built.
-/
def chainStep
    (rng : Rng G)
    (varDb : Database Var)
    (state : ChainState G)
    (iface : ProtocolInterface) : ChainState G :=
  let built := chainBuild rng varDb state iface
  { stage := state.stage + 1
    round := state.round ++ [(iface.name, built.1)]
    overrides := built.1.fields.foldl Overrides.assign fun _ => none
    engine := built.2 }

/-- Run the stages of a chain in order. -/
def chainRun
    (rng : Rng G)
    (varDb : Database Var)
    (stages : List ProtocolInterface)
    (engine : G) : ChainState G :=
  stages.foldl (chainStep rng varDb)
    { stage := 0
      round := []
      overrides := fun _ => none
      engine := engine }

/-- Command/response chain: one packet per stage, in order. -/
def generateChain
    (session : Session)
    (rng : Rng G)
    (stages : List ProtocolInterface)
    (engine : G) : List Layer × G :=
  let final := chainRun rng session.varDb stages engine
  (final.round, final.engine)

/-- One layer of a plain stack: built independently and appended. -/
def stackStep
    (rng : Rng G)
    (varDb : Database Var)
    (state : StackedPacket × G)
    (iface : ProtocolInterface) : StackedPacket × G :=
  let built := PacketBuilder.buildWithFields rng iface varDb state.2
  ({ bytes := state.1.bytes ++ built.1.bytes
     layers := state.1.layers ++ [(iface.name, built.1)] },
    built.2)

/-- Build each interface independently and concatenate bottom-up. -/
def generateStack
    (session : Session)
    (rng : Rng G)
    (layers : List ProtocolInterface)
    (engine : G) : StackedPacket × G :=
  layers.foldl (stackStep rng session.varDb)
    ({ bytes := [], layers := [] }, engine)

/-- One layer of a plain decode, at the offset its predecessors declare. -/
def decodeStep
    (varDb : Database Var)
    (bytes : List UInt8)
    (state : List Layer × Nat)
    (iface : ProtocolInterface) : List Layer × Nat :=
  (state.1 ++
      [(iface.name, PacketDecoder.decode iface varDb bytes state.2)],
    state.2 + PacketDecoder.layerBytes iface varDb)

/-- Slice a frame at each layer's declared length and decode the layers. -/
def decodeStack
    (session : Session)
    (layers : List ProtocolInterface)
    (bytes : List UInt8) : StackedPacket where
  bytes := bytes
  layers :=
    (layers.foldl (decodeStep session.varDb bytes) ([], 0)).1

end Session

/-- The interface databases of a session with other variable constraints. -/
def Session.withVarDb
    (session : Session)
    (varDb : Database Var) : Session :=
  { session with varDb := varDb }

end TsnGen
