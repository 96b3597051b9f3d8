import Keymap.Command.Report

/-!
The command line on the real file system. All that is decided here is how the system's failures are
named, and how a temporary file gets a name that nothing has.
-/
namespace Keymap.Main

def fileError (cause : IO.Error) : FileError :=
  match cause with
  | .noFileOrDirectory .. => .notFound
  | .alreadyExists .. => .alreadyExists
  | .inappropriateType _ 20 _ => .notDirectory
  | .inappropriateType _ 21 _ => .isDirectory
  | _ => .other (toString cause).toList

def attempt {α : Type} (action : IO α) : ExceptT FileError IO α :=
  .mk (try return .ok (← action) catch cause => return .error (fileError cause))

/-- What the file of a path gives. A path that leads nowhere is a missing file. -/
def read (path : Text) : IO Reading := do
  match ← (attempt (IO.FS.readBinFile (String.ofList path))).run with
  | .ok bytes => return .content bytes
  | .error .notFound => return .missing
  | .error .notDirectory => return .missing
  | .error cause => return .unreadable cause

def pathExists (path : Text) : IO Bool := do
  return (← (attempt (IO.FS.realPath (String.ofList path))).run).isOk

structure Temporary where
  directory : Text
  name : Text
  handle : IO.FS.Handle

def inDirectory (directory name : Text) : String := String.ofList (directory ++ '/' :: name)

/-- Does what is to be done with a temporary file, or takes the file away. -/
def Temporary.orRemove {α : Type} (temporary : Temporary) (action : IO α) :
    ExceptT FileError IO α :=
  attempt <| try action catch cause => do
    try IO.FS.removeFile (inDirectory temporary.directory temporary.name) catch _ => pure ()
    throw cause

/-- Makes a temporary file with a number behind its name. Where the name is taken, another number is
tried. -/
def openBeside (directory name : Text) : Nat → ExceptT FileError IO Temporary
  | 0 => throw .alreadyExists
  | tries + 1 => do
    let bytes ← IO.getRandomBytes 8
    let number := bytes.toList.foldl (fun n byte => n * 256 + byte.toNat) 0
    let temporary := '.' :: name ++ '.' :: Text.ofNat number
    try
      let handle ← attempt (IO.FS.Handle.mk (inDirectory directory temporary) .writeNew)
      return { directory, name := temporary, handle }
    catch cause =>
      if cause = .alreadyExists then openBeside directory name tries else throw cause

/-- The steps of writing the template on the real file system. -/
def templateSteps : Template.Steps IO Temporary where
  pathExists := pathExists
  makeParents path := attempt (IO.FS.createDirAll (String.ofList (Path.directory path)))
  openBeside directory name := openBeside directory name 100
  fill temporary bytes := temporary.orRemove do
    temporary.handle.write bytes
    temporary.handle.flush
    return temporary
  commit temporary name := temporary.orRemove <|
    IO.FS.rename (inDirectory temporary.directory temporary.name)
      (inDirectory temporary.directory name)

/-- Whether the output shows colours: as the environment says, and else if it is a terminal. -/
def showsColour : IO Bool := do
  let isSet (name : String) : IO Bool := do
    return ((← IO.getEnv name).getD "0") != "0"
  if ← isSet "CLICOLOR_FORCE" then return true
  if (← IO.getEnv "NO_COLOR").isSome then return false
  (← IO.getStdout).isTty

def report (request : Command.Request) (surroundings : Command.Surroundings) :
    IO Command.Report := do
  let path := request.path surroundings.home
  match request.action with
  | .init force =>
    let written ← (Template.write templateSteps path force).run
    return Command.initReport surroundings.colour path written
  | _ => return request.report surroundings (ConfigFile.ofReading path (← read path))

end Keymap.Main

open Keymap in
def main (arguments : List String) : IO UInt32 := do
  match Command.parse (arguments.map String.toList) with
  | .error cause =>
    IO.eprintln s!"error: {String.ofList cause.message}"
    return 2
  | .ok invocation =>
    let home := ((← IO.getEnv "HOME").getD "~").toList
    let surroundings : Command.Surroundings := { home, colour := ← Main.showsColour }
    let report ←
      match invocation with
      | .version => pure Command.versionReport
      | .request request => Main.report request surroundings
    IO.print (String.ofList report.output)
    IO.eprint (String.ofList (report.errorOutput surroundings.colour))
    return UInt32.ofNat report.exitCode
