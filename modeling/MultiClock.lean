import MultiClock.Bench.Rig
import MultiClock.Bench.Script
import MultiClock.Cartridge
import MultiClock.Cartridge.Description
import MultiClock.Cheat
import MultiClock.Chip
import MultiClock.Chip.Coprocessor
import MultiClock.Chip.Cpu
import MultiClock.Chip.Multiplier
import MultiClock.Chip.Ppu
import MultiClock.Chip.Rtc
import MultiClock.Chip.Smp
import MultiClock.Clock
import MultiClock.CommandLine.Arguments
import MultiClock.CommandLine.Disk
import MultiClock.CommandLine.Files
import MultiClock.CommandLine.Messages
import MultiClock.CommandLine.Run
import MultiClock.Configuration
import MultiClock.Configuration.Description
import MultiClock.Console
import MultiClock.Fault
import MultiClock.Host.ActivityFilter
import MultiClock.Host.Debugger
import MultiClock.Host.Log
import MultiClock.Host.Notice
import MultiClock.Host.Station
import MultiClock.Json.Problem
import MultiClock.Json.Reader
import MultiClock.Json.Token
import MultiClock.Json.Writer
import MultiClock.Machine
import MultiClock.Machine.Board
import MultiClock.Main
import MultiClock.Memory.Bus
import MultiClock.Memory.Entropy
import MultiClock.Memory.KeyStream
import MultiClock.Picture.Bitmap
import MultiClock.Picture.Format
import MultiClock.Picture.Framebuffer
import MultiClock.Picture.Png
import MultiClock.Picture.PortableMap
import MultiClock.Picture.Qoi
import MultiClock.Picture.Targa
import MultiClock.Proofs.Acceptance
import MultiClock.Proofs.ActionEffects
import MultiClock.Proofs.AlikeReaders
import MultiClock.Proofs.BoardTurns
import MultiClock.Proofs.BoardVisits
import MultiClock.Proofs.BoundedDrift
import MultiClock.Proofs.CheckedWords
import MultiClock.Proofs.ChipActions
import MultiClock.Proofs.ChipVisits
import MultiClock.Proofs.ClockArithmetic
import MultiClock.Proofs.ConsistentInstants
import MultiClock.Proofs.Convergence
import MultiClock.Proofs.CountedSave
import MultiClock.Proofs.CpuTurns
import MultiClock.Proofs.DependentTurns
import MultiClock.Proofs.DriveEnds
import MultiClock.Proofs.DriveOutcomes
import MultiClock.Proofs.DriveRules
import MultiClock.Proofs.DriveSoundness
import MultiClock.Proofs.DriveTrail
import MultiClock.Proofs.DriveTurns
import MultiClock.Proofs.DriveVerdict
import MultiClock.Proofs.EarlyResults
import MultiClock.Proofs.Examination
import MultiClock.Proofs.ForeignCartridges
import MultiClock.Proofs.FrameProgress
import MultiClock.Proofs.LastEvent
import MultiClock.Proofs.MachineCopies
import MultiClock.Proofs.MachineInvariant
import MultiClock.Proofs.MachineTurns
import MultiClock.Proofs.MachineVisits
import MultiClock.Proofs.NormalExecution
import MultiClock.Proofs.Normalisation
import MultiClock.Proofs.Operations
import MultiClock.Proofs.Outcome
import MultiClock.Proofs.Pacing
import MultiClock.Proofs.PassingThrough
import MultiClock.Proofs.PlainRuns
import MultiClock.Proofs.PortOrder
import MultiClock.Proofs.PowerOn
import MultiClock.Proofs.Reachability
import MultiClock.Proofs.RoundTrips
import MultiClock.Proofs.SaveEnds
import MultiClock.Proofs.SchedulerCalls
import MultiClock.Proofs.SchedulerSteps
import MultiClock.Proofs.SchedulerVisits
import MultiClock.Proofs.SerializerLaws
import MultiClock.Proofs.Settlement
import MultiClock.Proofs.SettlingChips
import MultiClock.Proofs.SettlingMachines
import MultiClock.Proofs.SettlingReaders
import MultiClock.Proofs.SliceContract
import MultiClock.Proofs.SliceFaults
import MultiClock.Proofs.SnapshotLayout
import MultiClock.Proofs.SnapshotLoads
import MultiClock.Proofs.SteeredPacing
import MultiClock.Proofs.SteeredTurns
import MultiClock.Proofs.TurnRules
import MultiClock.Proofs.Watching
import MultiClock.Proofs.Wiring
import MultiClock.Proofs.WrappedChips
import MultiClock.Recent
import MultiClock.Save.Drive
import MultiClock.Save.Method
import MultiClock.Scheduler
import MultiClock.Scheduler.Activity
import MultiClock.Scheduler.Enter
import MultiClock.Serial.FixedText
import MultiClock.Serial.Serializer
import MultiClock.Snapshot
import MultiClock.Sound.Wave
import MultiClock.Text.Blank
import MultiClock.Text.Letters
import MultiClock.Text.Lossy
import MultiClock.Text.Numeral
import MultiClock.Text.Quoted
import MultiClock.Text.Unprintable
import MultiClock.Thread
import MultiClock.Thread.Id
import MultiClock.Word
import MultiClock.Proofs.GrowingDrift
import MultiClock.Proofs.ExactClocks
import MultiClock.Proofs.ByteAccounts
import MultiClock.Proofs.SizeAgreement
import MultiClock.Proofs.Chronicle
import MultiClock.Proofs.HostRules
import MultiClock.Proofs.FrameCadence
import MultiClock.Proofs.Samples
import MultiClock.Proofs.WholeSound
import MultiClock.Proofs.PictureCoverage
import MultiClock.Proofs.AtomicInstructions
import MultiClock.Proofs.ExactDrives
import MultiClock.Proofs.SplitRuns
import MultiClock.Proofs.SecondsCounter
import MultiClock.Proofs.ChipIsolation
import MultiClock.Proofs.CommandLatency
import MultiClock.Proofs.TruncatedLoads
import MultiClock.Proofs.ByteBlocks
import MultiClock.Proofs.ColdBoot
import MultiClock.Proofs.PiecesOfText
import MultiClock.Proofs.Numerals
import MultiClock.Proofs.CheatSyntax
import MultiClock.Proofs.FilterSyntax
import MultiClock.Proofs.DebuggerLogs
import MultiClock.Proofs.LogContext
import MultiClock.Proofs.CutText
import MultiClock.Proofs.StorableMachines
import MultiClock.Proofs.MeasuredMachines
import MultiClock.Proofs.RefusedLoads
import MultiClock.Proofs.SuspendedThreads
