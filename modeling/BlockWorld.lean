import BlockWorld.Bytes.Basic
import BlockWorld.Bytes.Hex
import BlockWorld.Cbor.Header
import BlockWorld.Cbor.Read
import BlockWorld.Chunk
import BlockWorld.Chunk.Error
import BlockWorld.Chunk.Record
import BlockWorld.Chunk.ServedSource
import BlockWorld.Chunk.ServedStack
import BlockWorld.Chunk.Service
import BlockWorld.CommandLine.Invocation
import BlockWorld.CommandLine.Outcome
import BlockWorld.CommandLine.Usage
import BlockWorld.Config
import BlockWorld.Decimal.Read
import BlockWorld.Decimal.Shortest
import BlockWorld.Digest.Sha256
import BlockWorld.Digest.XxHash64
import BlockWorld.Entity.Directory
import BlockWorld.Entity.Map
import BlockWorld.Failure
import BlockWorld.Files.Path
import BlockWorld.Files.Tree
import BlockWorld.Game.Basic
import BlockWorld.Game.Command
import BlockWorld.Game.Host
import BlockWorld.Game.Inbox
import BlockWorld.Game.Lobby
import BlockWorld.Game.Player
import BlockWorld.Game.Queue
import BlockWorld.Game.Run
import BlockWorld.Game.Timed
import BlockWorld.Grid
import BlockWorld.Grid.PositionText
import BlockWorld.Ieee
import BlockWorld.Main
import BlockWorld.Packed
import BlockWorld.Program.Disk
import BlockWorld.Program.Network
import BlockWorld.Session.Basic
import BlockWorld.Session.Hub
import BlockWorld.Session.Moment
import BlockWorld.Session.Script
import BlockWorld.Session.Server
import BlockWorld.SocketAddress
import BlockWorld.Tag.Basic
import BlockWorld.Tag.Cbor
import BlockWorld.Terrain
import BlockWorld.Text.Blank
import BlockWorld.Text.Digits
import BlockWorld.Text.Hidden
import BlockWorld.Text.JsonQuoted
import BlockWorld.Text.Quoted
import BlockWorld.Text.Split
import BlockWorld.Text.Utf8
import BlockWorld.Wire.ClientPacket
import BlockWorld.Wire.Error
import BlockWorld.Wire.Field
import BlockWorld.Wire.ServerPacket
import BlockWorld.World.Basic
import BlockWorld.World.Creation
import BlockWorld.World.Level
import BlockWorld.World.Opening
import BlockWorld.World.PlayerRecord
import BlockWorld.World.Region
import BlockWorld.World.Relief
import BlockWorld.World.Summary
import BlockWorld.World.TagFile
import BlockWorld.Yaml.Glyph
import BlockWorld.Yaml.Node
import BlockWorld.Yaml.Number
import BlockWorld.Yaml.Scalar
import BlockWorld.Yaml.Token
import BlockWorld.Zstd.Bits
import BlockWorld.Zstd.Frame
import BlockWorld.Zstd.Fse
import BlockWorld.Zstd.Huffman
import BlockWorld.Zstd.Sequence
import BlockWorld.Proofs.Chunk.FirstAnswer
import BlockWorld.Proofs.Chunk.Shutdown
import BlockWorld.Proofs.Chunk.Storage
import BlockWorld.Proofs.Double
import BlockWorld.Proofs.Entity.Allocation
import BlockWorld.Proofs.Entity.Map
import BlockWorld.Proofs.Game.Delivery
import BlockWorld.Proofs.Game.Bare
import BlockWorld.Proofs.Game.Batch
import BlockWorld.Proofs.Game.Eviction
import BlockWorld.Proofs.Game.Interest
import BlockWorld.Proofs.Game.Introduction
import BlockWorld.Proofs.Game.Refinement
import BlockWorld.Proofs.Game.Refusal
import BlockWorld.Proofs.Game.Vicinity
import BlockWorld.Proofs.Grid
import BlockWorld.Proofs.Game.Linear
import BlockWorld.Proofs.Game.Ownership
import BlockWorld.Proofs.Service.InOrder
import BlockWorld.Proofs.Session.Lifetime
import BlockWorld.Proofs.Session.Rejection
import BlockWorld.Proofs.Tag.RoundTrip
import BlockWorld.Proofs.Wire.Framing
import BlockWorld.Proofs.Wire.Stream
import BlockWorld.Proofs.World.Precedence
import BlockWorld.Proofs.World.Pregeneration
import BlockWorld.Proofs.World.Store
import BlockWorld.Proofs.Terrain.Height
import BlockWorld.Proofs.Chunk.Cells
import BlockWorld.Proofs.Terrain.Column
import BlockWorld.Proofs.Session.Unregistered
import BlockWorld.Proofs.Session.Chat
import BlockWorld.Proofs.Game.Stay
import BlockWorld.Proofs.Game.Clock
import BlockWorld.Proofs.Game.Timers
import BlockWorld.Proofs.Game.Ticking
import BlockWorld.Proofs.World.Integrity
import BlockWorld.Proofs.World.Entry
import BlockWorld.Proofs.Tag.Paths
import BlockWorld.Proofs.World.Metadata
import BlockWorld.Proofs.Tag.Spelling
