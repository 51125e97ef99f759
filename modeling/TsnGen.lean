import TsnGen.ArgumentErrors
import TsnGen.ArgumentLines
import TsnGen.AxisBridge
import TsnGen.BitComposition
import TsnGen.BrokenStreams
import TsnGen.BuildLoops
import TsnGen.CaptureRoundTrip
import TsnGen.Chain
import TsnGen.CoSimulation
import TsnGen.DecoderOffsets
import TsnGen.DecodingRuns
import TsnGen.DemuxCheck
import TsnGen.DemuxDivergence
import TsnGen.DepthCounter
import TsnGen.DescriptorTransports
import TsnGen.DirectoriesAsWritten
import TsnGen.DirectoryValidation
import TsnGen.Endpoints
import TsnGen.FrameConformance
import TsnGen.GenerationRuns
import TsnGen.Handles
import TsnGen.HexText
import TsnGen.InterfaceListing
import TsnGen.InterfaceLists
import TsnGen.JsonOutput
import TsnGen.LayerResolution
import TsnGen.LoadedAsWritten
import TsnGen.LogLevels
import TsnGen.ModuleMemory
import TsnGen.Outcomes
import TsnGen.ProduciblePackets
import TsnGen.ReceiverReuse
import TsnGen.SharedDescriptors
import TsnGen.SharedTable
import TsnGen.SizeText
import TsnGen.StackCodec
import TsnGen.StackLengths
import TsnGen.StackLink
import TsnGen.StackPassthrough
import TsnGen.StackSchema
import TsnGen.TrafficGenerator
import TsnGen.TransportProtocol
import TsnGen.WalkVerdict
