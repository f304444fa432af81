import Synod.Config
import Synod.Message

/-! The command line. `node` runs a node of a cluster, and `propose` sends one request to a node. Here is
what the arguments mean and what is printed at the end; sockets and files are left to `Synod.Main`. -/

namespace Synod

inductive Command where
  | node (config : String)
  | propose (target : String) (expected : Option UInt64) (payload : String) (timeout : UInt64)
deriving DecidableEq, Repr

inductive Usage where
  | help
  | mistake (reason : String)
deriving DecidableEq, Repr

/-- How a command ends: its exit code and what it prints. -/
structure Exit where
  code : UInt8
  output : String
  errors : String
deriving DecidableEq, Repr

namespace Command

/-- The options of a subcommand, with their values so far. -/
abbrev Options := List (String × String)

private def splitOption (argument : String) : String × Option String :=
  let chars := argument.toList
  let name := String.ofList (chars.takeWhile (· ≠ '='))
  match chars.dropWhile (· ≠ '=') with
  | [] => (name, none)
  | _ :: value => (name, some (String.ofList value))

/-- Whether an argument cannot be the value of the option before it. -/
private def isFlag (argument : String) : Bool := argument.startsWith "-" && 1 < argument.length

/-- Read options, each with one value, each at most once. Two dashes may mark their end. -/
def options (known : List String) : List String → Options → Except Usage Options
  | [], found | ["--"], found => .ok found
  | argument :: rest, found =>
    if argument = "--help" || (argument.startsWith "-h") then .error .help
    else
      let (name, attached) := splitOption argument
      if name ∉ known then .error (.mistake ("unexpected argument " ++ argument))
      else if (found.lookup name).isSome then .error (.mistake (name ++ " is given twice"))
      else
        match attached with
        | some value => options known rest ((name, value) :: found)
        | none =>
          match rest with
          | [] => .error (.mistake (name ++ " needs a value"))
          | value :: rest =>
            if isFlag value then .error (.mistake (name ++ " needs a value"))
            else options known rest ((name, value) :: found)

/-- A whole number that fits a word. A plus sign may stand before it. -/
def word? (text : String) : Option UInt64 :=
  let digits := match text.toList with
    | '+' :: rest => rest
    | chars => chars
  if digits.isEmpty || !digits.all Char.isDigit then none
  else
    let value : Nat := digits.foldl (fun value digit => value * 10 + (digit.toNat - 48)) 0
    if value < UInt64.size then some value.toUInt64 else none

private def wordOption (found : Options) (name : String) : Except Usage (Option UInt64) :=
  match found.lookup name with
  | none => .ok none
  | some text =>
    match word? text with
    | some value => .ok (some value)
    | none => .error (.mistake ("invalid value for " ++ name))

private def required (found : Options) (name : String) : Except Usage String :=
  match found.lookup name with
  | some value => .ok value
  | none => .error (.mistake (name ++ " is required"))

/-- The file that describes the cluster unless another one is named. -/
def defaultConfig : String := "config.yaml"

/-- Milliseconds that a client waits. -/
def defaultTimeout : UInt64 := (Config.defaultTimeout * 10).toUInt64

def parse : List String → Except Usage Command
  | "node" :: arguments => do
    let found ← options ["--config"] arguments []
    return .node ((found.lookup "--config").getD defaultConfig)
  | "propose" :: arguments => do
    let found ← options ["--target", "--expected", "--payload", "--timeout-ms"] arguments []
    let expected ← wordOption found "--expected"
    let timeout ← wordOption found "--timeout-ms"
    let target ← required found "--target"
    let payload ← required found "--payload"
    return .propose target expected payload (timeout.getD defaultTimeout)
  | ["help"] | ["help", "node"] | ["help", "propose"] | ["help", "help"] => .error .help
  | argument :: _ =>
    if argument = "--help" || argument.startsWith "-h" then .error .help
    else .error (.mistake ("unexpected argument " ++ argument))
  | [] => .error (.mistake "a subcommand is required")

def help : String :=
  "Usage:\n  node [--config FILE]\n  propose --target ADDRESS --payload TEXT [--expected STATE] [--timeout-ms MS]\n"

end Command

namespace Exit

def success (output : String) : Exit := ⟨0, output, ""⟩

def ofUsage : Usage → Exit
  | .help => success Command.help
  | .mistake reason => ⟨2, "", "error: " ++ reason ++ "\n\n" ++ Command.help⟩

def failure (error : String) (causes : List String) : Exit :=
  let lines := match causes with
    | [cause] => ["    " ++ cause]
    | _ => causes.zipIdx.map fun (cause, place) => "    " ++ toString place ++ ": " ++ cause
  let chain := if causes.isEmpty then [] else ["", "Caused by:"] ++ lines
  ⟨1, "", "\n".intercalate (("Error: " ++ error) :: chain) ++ "\n"⟩

def ofConfigError (path : String) (error : ConfigError) : Exit :=
  let source := match error with
    | .unreadable cause => [cause.text]
    | .yaml error => [error.reason]
    | _ => []
  failure ("failed to load config from " ++ path) (error.message :: source)

def ofReply : Reply ProposeReply → Exit
  | .ok reply =>
    let state := match reply.state with
      | some state => toString state
      | none => "-"
    success (toString reply.ok ++ " " ++ state ++ "\n")
  | .error error =>
    let source := match error with
      | .stream _ detail => [detail]
      | .codec _ detail => [detail]
      | _ => []
    failure error.message source

end Exit

end Synod
