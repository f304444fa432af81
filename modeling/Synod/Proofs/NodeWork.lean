import Synod.Proofs.NodePhase
import Synod.Proofs.RequestHistory
import Synod.Proofs.RoundOutcome
import Synod.Work

/-! Work and what it stands for. Carried out one phase after another, the work of a request is what a node does with
it. Carried out in any other way it still asks for no ballot but the one that was minted, and its response is the
decision of a round on the replies that were heard. -/

namespace Synod

variable {σ α ρ ρ' : Type}

namespace Work

/-- The response to which work comes if its phases bring these replies. -/
def feed : Work α → List (List (Reply (Response α))) → Option (Response α)
  | .done _ response, _ => some response
  | .ask _ _ resume, replies :: rest => (resume replies).feed rest
  | .ask .., [] => none

def Asks (allowed : Demand α → Prop) : Work α → Prop
  | .done .. => True
  | .ask _ demand resume => allowed demand ∧ ∀ replies, (resume replies).Asks allowed

end Work

theorem Round.work_asks (node : UInt64) (ballot : Ballot) (endpoints : List String) (transform : Transform α) :
    (work node ballot endpoints transform).Asks (·.ballot = ballot) := by
  refine ⟨rfl, fun replies => ?_⟩
  dsimp only
  cases draft transform (replies.map Response.toPromise) with
  | error error => trivial
  | ok draft => exact ⟨rfl, fun _ => trivial⟩

theorem Round.work_feed (node : UInt64) (ballot : Ballot) (endpoints : List String) (transform : Transform α)
    (promised accepted : List (Reply (Response α))) : (work node ballot endpoints transform).feed [promised, accepted] =
      some (.proposed (.ofResult
        (decision transform (promised.map Response.toPromise) (accepted.map Response.toAccepted)))) := by
  simp only [work, Work.feed, decision]
  cases draft transform (promised.map Response.toPromise) <;> rfl

namespace Node

section

variable {visit : Visit α ρ} {visit' : Visit α ρ'} {wrap : ρ → ρ'} {view : Reply ρ' → Reply ρ}
variable {ask : String → σ → Reply ρ' × σ}

private theorem askOwn_wrap (answers : ∀ a, visit'.answer a = (wrap (visit.answer a).1, (visit.answer a).2))
    (events : visit'.event = visit.event) (ways : List Way) (acceptor : Acceptor α) : askOwn visit' ways acceptor =
      ((askOwn visit ways acceptor).1.map (Sum.map wrap fun address => address), (askOwn visit ways acceptor).2) := by
  induction ways generalizing acceptor with
  | nil => rfl
  | cons way ways ih => cases way <;> simp [askOwn, answers, events, ih]

private theorem askOthers_view (wrapped : ∀ reply, view (.ok (wrap reply)) = .ok reply) (answers : List (ρ ⊕ String))
    (world : σ) : askOthers (fun address world => (view (ask address world).1, (ask address world).2)) answers world =
      ((askOthers ask (answers.map (Sum.map wrap fun address => address)) world).1.map view,
        (askOthers ask (answers.map (Sum.map wrap fun address => address)) world).2) := by
  induction answers generalizing world with
  | nil => rfl
  | cons answer answers ih => cases answer <;> simp [askOthers, ih, wrapped]

variable (wrap) in
/-- A phase whose replies are a view of other replies is the view of the phase with those. -/
theorem phase_view (answers : ∀ a, visit'.answer a = (wrap (visit.answer a).1, (visit.answer a).2))
    (events : visit'.event = visit.event) (wrapped : ∀ reply, view (.ok (wrap reply)) = .ok reply) (ways : List Way)
    (world : Acceptor α × σ) :
    phase visit (fun address world => (view (ask address world).1, (ask address world).2)) ways world =
      ⟨(phase visit' ask ways world).replies.map view, (phase visit' ask ways world).events,
        (phase visit' ask ways world).world⟩ := by
  simp only [phase, askOwn_wrap answers events, askOthers_view wrapped]

end

variable (n : Node α) (peers : Peers σ α) (world : Acceptor α × σ)

private theorem channel_prepare_view (ballot : Ballot) : (n.channel peers).prepare ballot world =
    ⟨(n.askAll peers (.prepare ballot) world).replies.map Response.toPromise,
      (n.askAll peers (.prepare ballot) world).events, (n.askAll peers (.prepare ballot) world).world⟩ :=
  phase_view Response.promise (fun _ => rfl) rfl (fun _ => rfl) n.ways world

private theorem channel_accept_view (ballot : Ballot) (value : Value α) :
    (n.channel peers).accept ballot value world =
      ⟨(n.askAll peers (.accept ballot value) world).replies.map Response.toAccepted,
        (n.askAll peers (.accept ballot value) world).events, (n.askAll peers (.accept ballot value) world).world⟩ :=
  phase_view Response.accepted (fun _ => rfl) rfl (fun _ => rfl) n.ways world

theorem carryOut_work (node : UInt64) (ballot : Ballot) (transform : Transform α) (world : σ) :
    n.carryOut peers world (Round.work node ballot (n.ways.map n.endpoint) transform) =
      let (report, acceptor, world) := Round.run node ballot (n.channel peers) transform (n.acceptor, world)
      ⟨.proposed (.ofResult report.outcome), report.events, { n with acceptor }, world⟩ := by
  simp only [Round.work, carryOut, Round.run, channel_prepare_view, channel_accept_view]
  cases Round.draft transform ((n.askAll peers (.prepare ballot) (n.acceptor, world)).replies.map Response.toPromise) with
  | error error => simp [carryOut, channel]
  | ok draft => simp [carryOut, channel, askAll]

/-- To handle a request is to begin it and to carry out the work. -/
theorem handle_eq_carryOut (request : Request α) (world : σ) :
    n.handle peers request world = (n.begin request).2.carryOut peers world (n.begin request).1 := by
  cases request with
  | prepare ballot => rfl
  | accept ballot value => rfl
  | propose expected payload => exact (carryOut_work { n with mint := n.mint.next.2 } peers _ _ _ world).symm

/-- However its two phases go, a client's request asks for the minted ballot alone, and the reply tells one of the
ends of a round on the replies that came. -/
theorem begin_propose_ends (expected : Option UInt64) (payload : α) :
    (n.begin (.propose expected payload)).1.Asks (·.ballot = n.mint.next.1) ∧
      ∀ promised accepted, ∃ outcome,
        Round.Ending (compareAndSet expected payload) (promised.map Response.toPromise)
          (accepted.map Response.toAccepted) outcome ∧
        (n.begin (.propose expected payload)).1.feed [promised, accepted] = some (.proposed (.ofResult outcome)) := by
  refine ⟨Round.work_asks .., fun promised accepted => ⟨_, Round.decision_ending .., Round.work_feed ..⟩⟩

end Node

end Synod
