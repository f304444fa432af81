import Synod.Command
import Synod.Service

/-! The program: it reads files, uses the network and prints what `Exit` says. -/

namespace Synod

def readFile (path : String) : IO (Except StreamError (List UInt8)) := do
  try return .ok (← IO.FS.readBinFile path).toList
  catch
    | .noFileOrDirectory .. => return .error .notFound
    | .inappropriateType .. => return .error .isDirectory
    | _ => return .error .other

def Command.run : Command → IO Exit
  | .node path => do
    match Config.ofFile (← readFile path) with
    | .error error => return .ofConfigError path error
    | .ok config =>
      try
        Service.run config
        return .success ""
      catch error => return .failure ("failed to bind " ++ config.listen) [toString error]
  | .propose target expected payload timeout => do
    let response ← Service.call target timeout.toNat (.propose expected payload)
    return .ofReply (Response.toProposeReply response)

end Synod

def main (arguments : List String) : IO UInt32 := do
  let exit ← match Synod.Command.parse arguments with
    | .ok command => command.run
    | .error usage => pure (.ofUsage usage)
  IO.print exit.output
  IO.eprint exit.errors
  return exit.code.toUInt32
