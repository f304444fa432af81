import Synod.Event
import Synod.Message

/-! A round. The prepare phase asks every link for a promise and resolves the content of the register
from the answers; the transform then chooses the next value, and the accept phase asks every link to
take it. What a round decides is a function of the replies, given in the order of the links. -/

namespace Synod

/-- The vote in a reply, with the test that tells agreement. -/
def Reply.vote {ρ : Type} (agrees : ρ → Bool) : Reply ρ → Vote
  | .ok reply => if agrees reply then .grant else .reject
  | .error _ => .fail

def tally {ρ : Type} (agrees : ρ → Bool) (replies : List (Reply ρ)) : Tally := .ofVotes (replies.map (Reply.vote agrees))

namespace Round

variable {α σ : Type}

/-- The proposal that a reply reports. Only granted promises count. -/
def reported? : Reply (Promise α) → Option (Proposal α)
  | .ok promise => if promise.ok then promise.accepted? else none
  | .error _ => none

/-- Keep a proposal unless a later one has a higher ballot. -/
def higher (best : Option (Proposal α)) (proposal : Proposal α) : Option (Proposal α) :=
  match best with
  | none => some proposal
  | some top => if top.ballot < proposal.ballot then some proposal else some top

/-- The reported proposal of the highest ballot, the first of several. -/
def highest (replies : List (Reply (Promise α))) : Option (Proposal α) :=
  (replies.filterMap reported?).foldl higher none

def resolve (replies : List (Reply (Promise α))) : Option (Value α) := (highest replies).map (·.value)

structure Draft (α : Type) where
  current : Option (Value α)
  next : Value α
deriving DecidableEq, Repr

def draft (transform : Transform α) (replies : List (Reply (Promise α))) : Except ProposeError (Draft α) :=
  let votes := tally (·.ok) replies
  if votes.HasMajority replies.length then
    let current := resolve replies
    let state := current.map (·.state)
    match transform current with
    | .abort => .error (.conflict state)
    | .write payload =>
      match Value.successor current payload with
      | none => .error (.stateExhausted (state.getD 0xFFFFFFFFFFFFFFFF))
      | some next => .ok ⟨current, next⟩
  else .error (.quorumUnavailable .prepare votes.granted (majority replies.length) none)

def conclude (draft : Draft α) (replies : List (Reply Accepted)) : Except ProposeError UInt64 :=
  let votes := tally (·.ok) replies
  if votes.HasMajority replies.length then .ok draft.next.state
  else .error (.quorumUnavailable .accept votes.granted (majority replies.length) (draft.current.map (·.state)))

/-- What a phase brings: one reply for each link, what was said meanwhile, and the world after it. -/
structure Answers (σ ρ : Type) where
  replies : List (Reply ρ)
  events : List Event
  world : σ

/-- The links of a proposer, as the world behind them carries out a phase. -/
structure Channel (σ α : Type) where
  endpoints : List String
  prepare : Ballot → σ → Answers σ (Promise α)
  accept : Ballot → Value α → σ → Answers σ Accepted

/-- All that happened in a round. The accept phase has no replies where it was not entered. -/
structure Report (α : Type) where
  ballot : Ballot
  promises : List (Reply (Promise α))
  accepts : Option (List (Reply Accepted))
  outcome : Except ProposeError UInt64
  events : List Event

def failures {ρ : Type} (node : UInt64) (phase : Phase) (ballot : Ballot) (endpoints : List String)
    (replies : List (Reply ρ)) : List Event :=
  (endpoints.zip replies).filterMap fun
    | (endpoint, .error error) => some (.callFailed node phase ballot endpoint error)
    | _ => none

def farewell {ρ : Type} (node : UInt64) (ballot : Ballot) (agrees : ρ → Bool) (replies : List (Reply ρ))
    (next : Option UInt64) : Except ProposeError UInt64 → Event
  | .ok state => .committed node state ballot
  | .error (.conflict current) => .aborted node ballot current
  | .error (.stateExhausted current) => .exhausted node ballot current
  | .error (.quorumUnavailable .prepare _ needed _) => .promisesMissing node ballot (tally agrees replies) needed
  | .error (.quorumUnavailable .accept _ needed _) =>
    .acceptsMissing node ballot (next.getD 0) (tally agrees replies) needed

def run (node : UInt64) (ballot : Ballot) (channel : Channel σ α) (transform : Transform α) (world : σ) : Report α × σ :=
  let opening := Event.roundStarted node ballot channel.endpoints.length
  let promised := channel.prepare ballot world
  let before := opening :: promised.events ++ failures node .prepare ballot channel.endpoints promised.replies
  match draft transform promised.replies with
  | .error error =>
    (⟨ballot, promised.replies, none, .error error,
      before ++ [farewell node ballot (·.ok) promised.replies none (.error error)]⟩, promised.world)
  | .ok draft =>
    let accepted := channel.accept ballot draft.next promised.world
    let outcome := conclude draft accepted.replies
    (⟨ballot, promised.replies, some accepted.replies, outcome,
      before ++ accepted.events ++ failures node .accept ballot channel.endpoints accepted.replies ++
        [farewell node ballot (·.ok) accepted.replies (some draft.next.state) outcome]⟩, accepted.world)

/-- What the transform was given, if the prepare phase let it be asked. -/
def Report.seen (r : Report α) : Option (Option (Value α)) :=
  if (tally (·.ok) r.promises).HasMajority r.promises.length then some (resolve r.promises) else none

end Round

end Synod
