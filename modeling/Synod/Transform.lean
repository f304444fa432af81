import Synod.Value

/-! Transforms of a register that holds text, for clients that do more than compare and set. An empty
register counts as empty text where its content is used. -/

namespace Synod.Transform

def content (current : Option (Value String)) : String := (current.map (·.payload)).getD ""

def append (suffix : String) : Transform String := fun current => .write (content current ++ suffix)

def initially (text : String) : Transform String
  | none => .write text
  | some _ => .abort

def update (text : String) : Transform String
  | none => .abort
  | some _ => .write text

def unlessThere (text : String) : Transform String
  | none => .write text
  | some value => if value.payload = text then .abort else .write text

def keep : Transform String := fun current => .write (content current)

def giveUp : Transform String := fun _ => .abort

end Synod.Transform
