import IdleWatch.Settings.Basic

/-!
# Sections and fields of a settings file

A settings file has four sections, and each section has its fields in a fixed order.
-/

namespace IdleWatch.Settings

/-- The sections of a settings file. -/
inductive Part where
  | command
  | watchdog
  | verdict
  | stream
  deriving DecidableEq, Repr

/-- The fields of all sections. -/
inductive Field where
  | program
  | args
  | processGroup
  | idleTimeoutSecs
  | sentinel
  | readChunk
  deriving DecidableEq, Repr

/-- The key of a section. -/
def Part.key : Part → String
  | .command => "command"
  | .watchdog => "watchdog"
  | .verdict => "verdict"
  | .stream => "stream"

/-- The kind of value that messages say is expected for a section. -/
def Part.wanted : Part → String
  | .command => "struct CommandConfig"
  | .watchdog => "struct WatchdogConfig"
  | .verdict => "struct VerdictConfig"
  | .stream => "struct StreamConfig"

/-- The key of a field. -/
def Field.key : Field → String
  | .program => "program"
  | .args => "args"
  | .processGroup => "process_group"
  | .idleTimeoutSecs => "idle_timeout_secs"
  | .sentinel => "sentinel"
  | .readChunk => "read_chunk"

/-- All sections, in order. -/
def Part.all : List Part := [.command, .watchdog, .verdict, .stream]

/-- The fields of a section, in order. -/
def Part.fields : Part → List Field
  | .command => [.program, .args, .processGroup]
  | .watchdog => [.idleTimeoutSecs]
  | .verdict => [.sentinel]
  | .stream => [.readChunk]

/-- The section with this key. -/
def Part.ofKey? (key : String) : Option Part := Part.all.find? (·.key = key)

/-- The field of a section with this key. -/
def Part.field? (part : Part) (key : String) : Option Field := part.fields.find? (·.key = key)

end IdleWatch.Settings
