import IdleWatch.Text.Utf8
import IdleWatch.Text.Blank
import IdleWatch.Text.Quoted
import IdleWatch.Decimal.Shortest
import IdleWatch.Line.Framing
import IdleWatch.Terminal
import IdleWatch.Verdict
import IdleWatch.Watchdog.Timer
import IdleWatch.Run.Machine
import IdleWatch.Rehearsal.Scene
import IdleWatch.Toml.Value
import IdleWatch.Toml.Text
import IdleWatch.Toml.Document
import IdleWatch.Settings.Load
import IdleWatch.Settings.Render
import IdleWatch.Args.Read
import IdleWatch.Settings.Resolve
import IdleWatch.Signals
import IdleWatch.Kill
import IdleWatch.Files
import IdleWatch.Program
import IdleWatch.Main
import IdleWatch.Proofs.Utf8
import IdleWatch.Proofs.Framing
import IdleWatch.Proofs.Assembler
import IdleWatch.Proofs.Firing
import IdleWatch.Proofs.RunStep
import IdleWatch.Proofs.Emission
import IdleWatch.Proofs.Faithful
import IdleWatch.Proofs.ExitStatus
import IdleWatch.Proofs.Judgement
import IdleWatch.Proofs.Settling
import IdleWatch.Proofs.SingleDeadline
import IdleWatch.Proofs.FailedArm
import IdleWatch.Proofs.KillOrder
import IdleWatch.Proofs.Resting
import IdleWatch.Proofs.Diary
import IdleWatch.Proofs.Idling
import IdleWatch.Proofs.Silence
import IdleWatch.Proofs.Quotation
import IdleWatch.Proofs.Numeral
import IdleWatch.Proofs.RoundTrip
import IdleWatch.Proofs.WellFormed
import IdleWatch.Proofs.Integers
import IdleWatch.Proofs.Rehearsal
import IdleWatch.Proofs.Cause
import IdleWatch.Proofs.Shutdown
import IdleWatch.Proofs.Overflow
import IdleWatch.Proofs.ExitCode
import IdleWatch.Proofs.Spelling
import IdleWatch.Proofs.Transcript
import IdleWatch.Proofs.Decoding
import IdleWatch.Proofs.Division
import IdleWatch.Proofs.Layers
import IdleWatch.Proofs.Sections
import IdleWatch.Proofs.Fields
import IdleWatch.Proofs.Precedence
import IdleWatch.Proofs.Failure
import IdleWatch.Proofs.Rounds
import IdleWatch.Proofs.Closing
import IdleWatch.Proofs.Undisturbed
import IdleWatch.Proofs.Sentinel
