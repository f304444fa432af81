import Synod.Proofs.SystemGrowth

/-! The answers that acceptors gave, as seen from outside. An answer is known by the round that asked, the
route of the request and the acceptor behind it. One action adds at most one answer, and `Effect` says which
record it came from. -/

namespace Synod.System

variable {α : Type}

/-- An acceptor answered a round's prepare request, which came over this route. -/
def Promised (s : System α) (attempt route acceptor : Nat) (ballot : Ballot) (promise : Promise α) : Prop :=
  ∃ a link, s.attempts[attempt]? = some a ∧ a.ballot = ballot ∧ a.promises[route]? = some (some promise) ∧
    s.routes[route]? = some link ∧ link.acceptor = acceptor

def Took (s : System α) (attempt route acceptor : Nat) (ballot : Ballot) : Prop :=
  ∃ a link, s.attempts[attempt]? = some a ∧ a.ballot = ballot ∧ a.accepts[route]? = some (some ⟨true⟩) ∧
    s.routes[route]? = some link ∧ link.acceptor = acceptor

def Entered (s : System α) (round : Nat) (a : Attempt α) (draft : Round.Draft α) : Prop :=
  s.attempts[round]? = some a ∧ a.draft = some draft

def Wrote (s : System α) (round : Nat) (proposal : Proposal α) : Prop :=
  ∃ a draft, s.Entered round a draft ∧ proposal = ⟨a.ballot, draft.next⟩

variable {s s' : System α} {attempt route acceptor : Nat} {ballot : Ballot}

theorem Wrote.grow {proposal : Proposal α} (wrote : s.Wrote attempt proposal) (growth : Grows s s') :
    s'.Wrote attempt proposal := by
  obtain ⟨a, draft, ⟨begun, drafted⟩, same⟩ := wrote
  obtain ⟨current, begun, growth'⟩ := growth.attempts attempt a begun
  refine ⟨current, draft, ⟨begun, ?_⟩, by rw [growth'.ballot]; exact same⟩
  rw [growth'.draft (Attempt.not_preparing_of_draft drafted)]
  exact drafted

structure Silent (s s' : System α) : Prop where
  promised : ∀ attempt route acceptor ballot promise, s'.Promised attempt route acceptor ballot promise →
    s.Promised attempt route acceptor ballot promise
  took : ∀ attempt route acceptor ballot, s'.Took attempt route acceptor ballot → s.Took attempt route acceptor ballot

/-- What a step does to the acceptors and to the answers they gave. -/
inductive Effect (s s' : System α) : Prop where
  | quiet (records : s'.records = s.records) (silent : Silent s s')
  | promise (attempt route : Nat) {acceptor : Nat} {ballot : Ballot} {record : Record α}
      (held : s.records[acceptor]? = some record)
      (records : s'.records = s.records.set acceptor (record.prepare ballot).2)
      (promised : ∀ attempt' route' acceptor' ballot' promise, s'.Promised attempt' route' acceptor' ballot' promise →
        s.Promised attempt' route' acceptor' ballot' promise ∨ attempt' = attempt ∧ route' = route ∧
          acceptor' = acceptor ∧ ballot' = ballot ∧ promise = (record.prepare ballot).1)
      (took : ∀ attempt route acceptor ballot, s'.Took attempt route acceptor ballot →
        s.Took attempt route acceptor ballot)
  | accept (attempt : Nat) {acceptor : Nat} {ballot : Ballot} {value : Value α} {record : Record α}
      (held : s.records[acceptor]? = some record) (wrote : s.Wrote attempt ⟨ballot, value⟩)
      (records : s'.records = s.records.set acceptor (record.accept ballot value).2)
      (promised : ∀ attempt route acceptor ballot promise, s'.Promised attempt route acceptor ballot promise →
        s.Promised attempt route acceptor ballot promise)
      (took : ∀ attempt' route acceptor' ballot', s'.Took attempt' route acceptor' ballot' →
        s.Took attempt' route acceptor' ballot' ∨ acceptor' = acceptor ∧ ballot' = ballot ∧
          (record.accept ballot value).1 = ⟨true⟩)

structure Unanswered (a : Attempt α) : Prop where
  promises : ∀ (route : Nat) promise, a.promises[route]? ≠ some (some promise)
  accepts : ∀ (route : Nat) reply, a.accepts[route]? ≠ some (some reply)

private theorem unanswered_begin (ballot : Ballot) (transform : Transform α) (routes : Nat) :
    Unanswered (Attempt.begin ballot transform routes) := by
  constructor <;> intro route answer told <;> simp [Attempt.begin, List.getElem?_replicate] at told

private theorem promised_before {promise : Promise α} (told : s'.Promised attempt route acceptor ballot promise)
    (routes : s'.routes = s.routes) (attempts : ∀ (attempt : Nat) b, s'.attempts[attempt]? = some b → Unanswered b ∨
      ∃ a, s.attempts[attempt]? = some a ∧ b.ballot = a.ballot ∧ b.promises = a.promises) :
    s.Promised attempt route acceptor ballot promise := by
  obtain ⟨b, link, begun, same, answered, leads, behind⟩ := told
  rcases attempts attempt b begun with silent | ⟨a, begun, ballot', promises⟩
  · exact (silent.promises route promise answered).elim
  · exact ⟨a, link, begun, ballot'.symm.trans same, promises ▸ answered, routes ▸ leads, behind⟩

private theorem took_before (took : s'.Took attempt route acceptor ballot) (routes : s'.routes = s.routes)
    (attempts : ∀ (attempt : Nat) b, s'.attempts[attempt]? = some b → Unanswered b ∨
      ∃ a, s.attempts[attempt]? = some a ∧ b.ballot = a.ballot ∧ b.accepts = a.accepts) :
    s.Took attempt route acceptor ballot := by
  obtain ⟨b, link, begun, same, answered, leads, behind⟩ := took
  rcases attempts attempt b begun with silent | ⟨a, begun, ballot', accepts⟩
  · exact (silent.accepts route _ answered).elim
  · exact ⟨a, link, begun, ballot'.symm.trans same, accepts ▸ answered, routes ▸ leads, behind⟩

/-- A change of one round leaves a part of all rounds as it was, if it leaves that part of its own. -/
private theorem part_set {β : Type} (part : Attempt α → β) {a after : Attempt α} (begun : s.attempts[attempt]? = some a)
    (ballot : after.ballot = a.ballot) (same : part after = part a) (other : Nat) (b : Attempt α)
    (found : (s.attempts.set attempt after)[other]? = some b) :
    Unanswered b ∨ ∃ c, s.attempts[other]? = some c ∧ b.ballot = c.ballot ∧ part b = part c := by
  right
  rcases of_getElem?_set begun found with ⟨rfl, rfl⟩ | found
  · exact ⟨a, begun, ballot, same⟩
  · exact ⟨b, found, rfl, rfl⟩

private theorem part_concat {β : Type} (part : Attempt α → β) {new : Attempt α} (unanswered : Unanswered new)
    (other : Nat) (b : Attempt α) (found : (s.attempts ++ [new])[other]? = some b) :
    Unanswered b ∨ ∃ c, s.attempts[other]? = some c ∧ b.ballot = c.ballot ∧ part b = part c := by
  rcases of_getElem?_concat found with rfl | found
  · exact .inl unanswered
  · exact .inr ⟨b, found, rfl, rfl⟩

private theorem silent_set {a after : Attempt α} (begun : s.attempts[attempt]? = some a)
    (ballot : after.ballot = a.ballot) (promises : after.promises = a.promises)
    (accepts : after.accepts = a.accepts) : Silent s { s with attempts := s.attempts.set attempt after } where
  promised _ _ _ _ _ told := promised_before told rfl (part_set Attempt.promises begun ballot promises)
  took _ _ _ _ took := took_before took rfl (part_set Attempt.accepts begun ballot accepts)

theorem Move.effect (move : Move s s') : Effect s s' := by
  cases move with
  | rest => exact .quiet rfl ⟨fun _ _ _ _ _ told => told, fun _ _ _ _ took => took⟩
  | join => exact .quiet rfl ⟨fun _ _ _ _ _ told => told, fun _ _ _ _ took => took⟩
  | start transform known =>
    refine .quiet rfl ⟨fun _ _ _ _ _ told => ?_, fun _ _ _ _ took => ?_⟩
    · exact promised_before told rfl (part_concat Attempt.promises (unanswered_begin _ _ _))
    · exact took_before took rfl (part_concat Attempt.accepts (unanswered_begin _ _ _))
  | resolve lost begun preparing =>
    obtain ⟨ballot, _, promises, accepts, _⟩ := Attempt.resolve_keeps _ _
    exact .quiet rfl (silent_set begun ballot promises accepts)
  | conclude lost begun drafted unfinished => exact .quiet rfl (silent_set begun rfl rfl rfl)
  | @promise attempt route a link record begun leads waiting held =>
    refine .promise attempt route held rfl ?_ fun _ _ _ _ took => ?_
    · rintro other route' acceptor' ballot promise ⟨b, link', found, same, answered, leads', behind⟩
      rcases of_getElem?_set begun found with ⟨rfl, rfl⟩ | found
      · rcases of_getElem?_set waiting answered with ⟨rfl, new⟩ | answered
        · obtain rfl : link' = link := Option.some.inj (leads'.symm.trans leads)
          exact .inr ⟨rfl, rfl, behind.symm, same.symm, Option.some.inj new⟩
        · exact .inl ⟨a, link', begun, same, answered, leads', behind⟩
      · exact .inl ⟨b, link', found, same, answered, leads', behind⟩
    · exact took_before took rfl (part_set Attempt.accepts begun rfl rfl)
  | @accept attempt route a link draft record begun leads drafted waiting held =>
    refine .accept attempt held ⟨a, draft, ⟨begun, drafted⟩, rfl⟩ rfl (fun _ _ _ _ _ told => ?_) ?_
    · exact promised_before told rfl (part_set Attempt.promises begun rfl rfl)
    · rintro other route' acceptor' ballot ⟨b, link', found, same, answered, leads', behind⟩
      rcases of_getElem?_set begun found with ⟨rfl, rfl⟩ | found
      · rcases of_getElem?_set waiting answered with ⟨rfl, new⟩ | answered
        · obtain rfl : link' = link := Option.some.inj (leads'.symm.trans leads)
          exact .inr ⟨behind.symm, same.symm, (Option.some.inj new).symm⟩
        · exact .inl ⟨a, link', begun, same, answered, leads', behind⟩
      · exact .inl ⟨b, link', found, same, answered, leads', behind⟩

end Synod.System
