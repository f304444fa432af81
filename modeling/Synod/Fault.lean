/-! The ways in which bytes fail to be a message. Readers report the first fault they meet, in
the order of the bytes, and which kind it is decides nothing but the report. -/

namespace Synod

inductive Fault where
  /-- The text stops before the value is complete. -/
  | truncated
  /-- The text is no JSON, or no JSON that can be held: broken text, numbers out of range, nesting too deep. -/
  | malformed
  /-- The text is JSON, but not of the expected shape. -/
  | mismatched
deriving DecidableEq, Repr, Inhabited

def Fault.text : Fault → String
  | .truncated => "the text ends early"
  | .malformed => "the text is no JSON"
  | .mismatched => "the JSON is no such message"

end Synod
