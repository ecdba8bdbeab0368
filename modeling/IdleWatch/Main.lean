import IdleWatch.Files
import IdleWatch.Program

/-!
# Command line

Reads the settings file that the arguments mean, and does what there is to do. Commands are
rehearsed on a virtual clock.
-/

namespace IdleWatch.Main

/-- The settings file that the arguments mean. -/
def settingsFile (argv : List String) : String :=
  match Args.read argv with
  | .ok a => (Settings.fileFor a).1
  | .error _ => Settings.defaultFile

/-- Read a text file. -/
def readText (path : String) : IO (Except Fault String) := do
  try
    let bytes ← IO.FS.readBinFile path
    match Text.Utf8.decode? bytes.toList with
    | some text => return .ok text
    | none => return .error Files.notTextFault
  catch
    | .noFileOrDirectory .. => return .error .notFound
    | _ => return .error .permissionDenied

end IdleWatch.Main

/-- The program's entry. -/
def main (argv : List String) : IO UInt32 := do
  let contents ← IdleWatch.Main.readText (IdleWatch.Main.settingsFile argv)
  let answer :=
    IdleWatch.Program.execute (.ok (IdleWatch.Program.rehearsed false)) argv (fun _ => contents)
  IO.print answer.stdout
  return UInt32.ofNat answer.exitCode
