import Synod.Proofs.SystemAnswers

/-! The agreement between the records of the acceptors and the answers they gave. An acceptor grants a ballot
to one prepare request at most, because promises need a ballot strictly above the mark; and a granted promise
reports every write of a lower ballot that the acceptor ever took, or one that came after it. -/

namespace Synod.System

variable {α : Type}

structure Consistent (s : System α) : Prop where
  /-- A granted promise leaves its mark. -/
  marked : ∀ {attempt route acceptor ballot promise}, s.Promised attempt route acceptor ballot promise →
    promise.ok = true → ∃ record, s.records[acceptor]? = some record ∧ ballot ≤ record.promised
  /-- A write that was taken stays, or a later one takes its place. -/
  held : ∀ {attempt route acceptor ballot}, s.Took attempt route acceptor ballot →
    ∃ record proposal, s.records[acceptor]? = some record ∧ record.accepted = some proposal ∧ ballot ≤ proposal.ballot
  /-- What a record holds is not above its mark, and some round wrote it. -/
  written : ∀ {acceptor : Nat} {record proposal}, s.records[acceptor]? = some record → record.accepted = some proposal →
    proposal.ballot ≤ record.promised ∧ ∃ attempt, s.Wrote attempt proposal
  /-- What a promise reports is below its ballot, and some round wrote it. -/
  reported : ∀ {attempt route acceptor ballot promise proposal}, s.Promised attempt route acceptor ballot promise →
    promise.accepted? = some proposal → proposal.ballot < ballot ∧ ∃ attempt, s.Wrote attempt proposal
  /-- An acceptor grants a ballot once, to one request of one round. -/
  once : ∀ {attempt attempt' route route' acceptor ballot promise promise'},
    s.Promised attempt route acceptor ballot promise → promise.ok = true →
    s.Promised attempt' route' acceptor ballot promise' → promise'.ok = true → attempt = attempt' ∧ route = route'
  /-- A granted promise knows of the writes of lower ballots that its acceptor took. -/
  covers : ∀ {writer reader route route' acceptor ballot ballot' promise}, s.Took writer route acceptor ballot →
    s.Promised reader route' acceptor ballot' promise → promise.ok = true → ballot < ballot' →
    ∃ proposal, promise.accepted? = some proposal ∧ ballot ≤ proposal.ballot

theorem Consistent.initial (acceptors : Nat) (routes : List Route) :
    Consistent (System.initial (α := α) acceptors routes) := by
  have unbegun : ∀ (attempt : Nat) (a : Attempt α), (System.initial acceptors routes).attempts[attempt]? ≠ some a := by
    intro attempt a found
    cases found
  constructor
  · rintro _ _ _ _ _ ⟨a, _, begun, _⟩; exact (unbegun _ a begun).elim
  · rintro _ _ _ _ ⟨a, _, begun, _⟩; exact (unbegun _ a begun).elim
  · intro acceptor record proposal held accepted
    simp only [System.initial, List.getElem?_replicate] at held
    split at held <;> cases held
    cases accepted
  · rintro _ _ _ _ _ _ ⟨a, _, begun, _⟩; exact (unbegun _ a begun).elim
  · rintro _ _ _ _ _ _ _ _ ⟨a, _, begun, _⟩; exact (unbegun _ a begun).elim
  · rintro _ _ _ _ _ _ _ _ ⟨a, _, begun, _⟩; exact (unbegun _ a begun).elim

variable {s s' : System α}

private theorem Consistent.mark (valid : Consistent s) {attempt route acceptor : Nat} {ballot : Ballot}
    {promise : Promise α} {record : Record α} (held : s.records[acceptor]? = some record)
    (told : s.Promised attempt route acceptor ballot promise) (granted : promise.ok = true) :
    ballot ≤ record.promised := by
  obtain ⟨current, found, mark⟩ := valid.marked told granted
  obtain rfl : record = current := Option.some.inj (held.symm.trans found)
  exact mark

private theorem Consistent.marked_grow (valid : Consistent s) (growth : Grows s s') {attempt route acceptor : Nat}
    {ballot : Ballot} {promise : Promise α} (told : s.Promised attempt route acceptor ballot promise)
    (granted : promise.ok = true) : ∃ record, s'.records[acceptor]? = some record ∧ ballot ≤ record.promised := by
  obtain ⟨record, found, mark⟩ := valid.marked told granted
  obtain ⟨final, found, rises⟩ := growth.records _ _ found
  exact ⟨final, found, le_trans mark rises⟩

/-- A write that was taken outlasts a request, if the record that the request leaves holds it or a later one. -/
private theorem Consistent.held_set (valid : Consistent s) {acceptor : Nat} {record after : Record α}
    (held : s.records[acceptor]? = some record) (records : s'.records = s.records.set acceptor after)
    (stays : ∀ proposal, record.accepted = some proposal →
      ∃ last, after.accepted = some last ∧ proposal.ballot ≤ last.ballot)
    {attempt route acceptor' : Nat} {ballot : Ballot} (took : s.Took attempt route acceptor' ballot) :
    ∃ record proposal, s'.records[acceptor']? = some record ∧ record.accepted = some proposal ∧
      ballot ≤ proposal.ballot := by
  obtain ⟨current, proposal, found, accepted, later⟩ := valid.held took
  rw [records, getElem?_set_held held]
  split
  next same =>
    subst same
    obtain rfl : record = current := Option.some.inj (held.symm.trans found)
    obtain ⟨last, accepted', later'⟩ := stays proposal accepted
    exact ⟨after, last, rfl, accepted', le_trans later later'⟩
  · exact ⟨current, proposal, found, accepted, later⟩

private theorem written_grow (growth : Grows s s') {proposal : Proposal α} {bound : Prop}
    (written : bound ∧ ∃ attempt, s.Wrote attempt proposal) : bound ∧ ∃ attempt, s'.Wrote attempt proposal := by
  obtain ⟨below, attempt, wrote⟩ := written
  exact ⟨below, attempt, wrote.grow growth⟩

private theorem Consistent.quiet (valid : Consistent s) (growth : Grows s s') (records : s'.records = s.records)
    (silent : Silent s s') : Consistent s' where
  marked told granted := valid.marked_grow growth (silent.promised _ _ _ _ _ told) granted
  held took := by rw [records]; exact valid.held (silent.took _ _ _ _ took)
  written held accepted := by
    rw [records] at held
    exact written_grow growth (valid.written held accepted)
  reported told reports := written_grow growth (valid.reported (silent.promised _ _ _ _ _ told) reports)
  once told granted told' granted' :=
    valid.once (silent.promised _ _ _ _ _ told) granted (silent.promised _ _ _ _ _ told') granted'
  covers took told := valid.covers (silent.took _ _ _ _ took) (silent.promised _ _ _ _ _ told)

/-- A prepare request that arrives: the acceptor promises a ballot above all it promised before, and reports
what it holds, or it refuses and reports nothing. -/
private theorem Consistent.promise (valid : Consistent s) (growth : Grows s s')
    {attempt route acceptor : Nat} {ballot : Ballot} {record : Record α} (held : s.records[acceptor]? = some record)
    (records : s'.records = s.records.set acceptor (record.prepare ballot).2)
    (promised : ∀ attempt' route' acceptor' ballot' promise, s'.Promised attempt' route' acceptor' ballot' promise →
      s.Promised attempt' route' acceptor' ballot' promise ∨ attempt' = attempt ∧ route' = route ∧
        acceptor' = acceptor ∧ ballot' = ballot ∧ promise = (record.prepare ballot).1)
    (took : ∀ attempt route acceptor ballot, s'.Took attempt route acceptor ballot →
      s.Took attempt route acceptor ballot) : Consistent s' where
  marked told granted := by
    rcases promised _ _ _ _ _ told with told | ⟨-, -, rfl, rfl, rfl⟩
    · exact valid.marked_grow growth told granted
    · refine ⟨_, by rw [records, getElem?_set_held held, if_pos rfl], ?_⟩
      rw [Record.prepare_promised]
      exact le_max_right _ _
  held taken := by
    refine valid.held_set held records ?_ (took _ _ _ _ taken)
    intro proposal accepted
    exact ⟨proposal, by rw [Record.prepare_accepted]; exact accepted, le_refl _⟩
  written found accepted := by
    rw [records] at found
    rcases of_getElem?_set held found with ⟨rfl, rfl⟩ | found
    · rw [Record.prepare_accepted] at accepted
      obtain ⟨below, wrote⟩ := written_grow growth (valid.written held accepted)
      exact ⟨le_trans below (record.prepare_rises ballot), wrote⟩
    · exact written_grow growth (valid.written found accepted)
  reported told reports := by
    rcases promised _ _ _ _ _ told with told | ⟨-, -, rfl, rfl, rfl⟩
    · exact written_grow growth (valid.reported told reports)
    · rw [Record.prepare_reported] at reports
      split at reports
      next granted =>
        obtain ⟨below, wrote⟩ := written_grow growth (valid.written held reports)
        exact ⟨lt_of_le_of_lt below granted, wrote⟩
      · cases reports
  once told granted told' granted' := by
    rcases promised _ _ _ _ _ told with old | ⟨rfl, rfl, rfl, rfl, rfl⟩
    · rcases promised _ _ _ _ _ told' with old' | ⟨rfl, rfl, rfl, rfl, rfl⟩
      · exact valid.once old granted old' granted'
      · exact absurd (valid.mark held old granted) (not_le.2 ((record.prepare_granted _).1 granted'))
    · rcases promised _ _ _ _ _ told' with old' | ⟨rfl, rfl, -⟩
      · exact absurd (valid.mark held old' granted') (not_le.2 ((record.prepare_granted _).1 granted))
      · exact ⟨rfl, rfl⟩
  covers taken told granted below := by
    rcases promised _ _ _ _ _ told with old | ⟨-, -, rfl, rfl, rfl⟩
    · exact valid.covers (took _ _ _ _ taken) old granted below
    · obtain ⟨current, proposal, found, accepted, later⟩ := valid.held (took _ _ _ _ taken)
      obtain rfl : record = current := Option.some.inj (held.symm.trans found)
      rw [Record.prepare_reported, if_pos ((record.prepare_granted _).1 granted)]
      exact ⟨proposal, accepted, later⟩

/-- An accept request that arrives: where it is granted its ballot is not below any ballot that the acceptor
promised, so no promise of a higher ballot was given without it. -/
private theorem Consistent.accept (valid : Consistent s) (growth : Grows s s')
    {attempt acceptor : Nat} {ballot : Ballot} {value : Value α} {record : Record α}
    (held : s.records[acceptor]? = some record) (wrote : s.Wrote attempt ⟨ballot, value⟩)
    (records : s'.records = s.records.set acceptor (record.accept ballot value).2)
    (promised : ∀ attempt route acceptor ballot promise, s'.Promised attempt route acceptor ballot promise →
      s.Promised attempt route acceptor ballot promise)
    (took : ∀ attempt' route acceptor' ballot', s'.Took attempt' route acceptor' ballot' →
      s.Took attempt' route acceptor' ballot' ∨ acceptor' = acceptor ∧ ballot' = ballot ∧
        (record.accept ballot value).1 = ⟨true⟩) : Consistent s' where
  marked told granted := valid.marked_grow growth (promised _ _ _ _ _ told) granted
  held taken := by
    rcases took _ _ _ _ taken with old | ⟨rfl, rfl, granted⟩
    · refine valid.held_set held records ?_ old
      intro proposal accepted
      exact Record.accept_holds accepted (valid.written held accepted).1 ballot value
    · refine ⟨_, ⟨_, value⟩, by rw [records, getElem?_set_held held, if_pos rfl], ?_, le_refl _⟩
      rw [Record.accept_accepted, if_pos ((record.accept_granted _ _).1 granted)]
  written found accepted := by
    rw [records] at found
    rcases of_getElem?_set held found with ⟨rfl, rfl⟩ | found
    · rw [Record.accept_accepted] at accepted
      split at accepted
      next granted =>
        cases accepted
        exact ⟨by rw [Record.accept_promised]; exact le_max_right _ _, attempt, wrote.grow growth⟩
      · obtain ⟨below, wrote⟩ := written_grow growth (valid.written held accepted)
        exact ⟨le_trans below (record.accept_rises _ _), wrote⟩
    · exact written_grow growth (valid.written found accepted)
  reported told reports := written_grow growth (valid.reported (promised _ _ _ _ _ told) reports)
  once told granted told' granted' := valid.once (promised _ _ _ _ _ told) granted (promised _ _ _ _ _ told') granted'
  covers taken told granted below := by
    rcases took _ _ _ _ taken with old | ⟨rfl, rfl, accepted⟩
    · exact valid.covers old (promised _ _ _ _ _ told) granted below
    · have mark := valid.mark held (promised _ _ _ _ _ told) granted
      exact absurd (le_trans mark ((record.accept_granted _ _).1 accepted)) (not_le.2 below)

theorem Consistent.step (valid : Consistent s) (action : Action α) : Consistent (s.step action) := by
  have move := s.step_move action
  cases move.effect with
  | quiet records silent => exact valid.quiet move.grows records silent
  | promise attempt route held records promised took => exact valid.promise move.grows held records promised took
  | accept attempt held wrote records promised took => exact valid.accept move.grows held wrote records promised took

end Synod.System
