import PacketOffload.Hexdump
import PacketOffload.Memory
import PacketOffload.Text.Numeral
import PacketOffload.Text.Utf8
import PacketOffload.Register.Gates
import PacketOffload.Match.RuleSet
import PacketOffload.Firmware.Elf
import PacketOffload.Firmware.Aperture
import PacketOffload.Firmware.Loader
import PacketOffload.Context
import PacketOffload.Config
import PacketOffload.Slmp.Channel
import PacketOffload.Transport.Simulator
import PacketOffload.Transport.Faulty
import PacketOffload.Transport.RegisterFiles
import PacketOffload.Proofs.Device.Host
import PacketOffload.Proofs.Device.Legality
import PacketOffload.Proofs.Device.Recorded
import PacketOffload.Proofs.Device.Reliable
import PacketOffload.Proofs.Loading.Admission
import PacketOffload.Proofs.Matching.Slots
import PacketOffload.Proofs.Matching.Activation
import PacketOffload.Proofs.Sending.Shares
import PacketOffload.Proofs.Sending.Worker
import PacketOffload.Proofs.Sending.Crew
import PacketOffload.Proofs.Sending.Parallel
import PacketOffload.Proofs.Sending.Reply
import PacketOffload.Proofs.Sending.InOrder
import PacketOffload.Proofs.Sending.Acknowledged
import PacketOffload.Proofs.Sending.Runs
import PacketOffload.Proofs.Sending.Containment
import PacketOffload.Proofs.Sending.Delivered
import PacketOffload.Proofs.Ring.HostMemory
import PacketOffload.Proofs.Ring.Layout
import PacketOffload.Proofs.Ring.Exchange
import PacketOffload.Proofs.Ring.Delivery
import PacketOffload.Proofs.Loading.Acceptance
import PacketOffload.Proofs.Device.Interrupted
import PacketOffload.Proofs.Loading.Interruption
import PacketOffload.Proofs.Device.Window
import PacketOffload.Proofs.Loading.Recovery
import PacketOffload.Proofs.Loading.Overlay
import PacketOffload.Proofs.Loading.Collision
import PacketOffload.Proofs.Matching.Contents
import PacketOffload.Proofs.Device.Moments
import PacketOffload.Proofs.Matching.Switching
import PacketOffload.Proofs.Context.Start
import PacketOffload.Proofs.Context.Counter
import PacketOffload.Proofs.Text.Encoding
import PacketOffload.Proofs.Text.Values
import PacketOffload.Proofs.Files.Storage
import PacketOffload.Proofs.Device.Alike
import PacketOffload.Firmware.Elf.Writer
import PacketOffload.Proofs.Device.Files
import PacketOffload.Proofs.Firmware.Fields
import PacketOffload.Proofs.Firmware.Format
import PacketOffload.Proofs.Firmware.Tables
import PacketOffload.Proofs.Firmware.Written
import PacketOffload.Proofs.Firmware.Images
import PacketOffload.Proofs.Matching.Frames
import PacketOffload.Proofs.Sending.Rebuilding
import PacketOffload.Proofs.Ring.Independence
import PacketOffload.Proofs.Ring.Attaching
import PacketOffload.Proofs.Ring.Holding
import PacketOffload.Proofs.Firmware.Truncation
import PacketOffload.Proofs.Loading.Footprint
import PacketOffload.Proofs.Loading.HandlerMemory
import PacketOffload.Proofs.Ring.Responses
import PacketOffload.Proofs.Ring.Parts
import PacketOffload.Proofs.Ring.Waiting
import PacketOffload.Proofs.Dma.Accesses
import PacketOffload.Proofs.Matching.Words
import PacketOffload.Proofs.Text.HexColumns
