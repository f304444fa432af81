import Synod.Proofs.QuorumIntersection
import Synod.Proofs.RoundHistory

/-! Rounds with a majority of promises. Two of them never share a ballot, and one that comes above a committed
round finds the committed write, or a later one, in its promises. -/

namespace Synod

variable {α : Type}

namespace Attempt

def Elected (a : Attempt α) : Prop := (tally (·.ok) a.heard).HasMajority a.heard.length

instance (a : Attempt α) : Decidable a.Elected :=
  inferInstanceAs (Decidable ((tally (·.ok) a.heard).HasMajority a.heard.length))

/-- A majority of all links took what the round sent, whether or not the round heard of it. -/
def Chosen (a : Attempt α) : Prop := majority a.accepts.length ≤ a.accepts.count (some ⟨true⟩)

instance (a : Attempt α) : Decidable a.Chosen :=
  inferInstanceAs (Decidable (majority a.accepts.length ≤ a.accepts.count (some ⟨true⟩)))

variable {links : Nat} {a : Attempt α}

theorem Sound.hears (sound : a.Sound links) (elected : a.Elected) : Hears a.promises a.heard := by
  rcases sound.heard with nothing | hears
  · unfold Elected at elected
    rw [nothing] at elected
    exact (not_majority_nil elected).elim
  · exact hears

theorem Sound.heard_length (sound : a.Sound links) (elected : a.Elected) : a.heard.length = links :=
  (sound.hears elected).length.trans sound.promises

theorem Sound.elected (sound : a.Sound links) {draft : Round.Draft α} (drafted : a.draft = some draft) : a.Elected :=
  (Round.draft_ok (sound.drafted draft drafted)).1

/-- A round that committed had sent a draft, and a majority took it. -/
theorem Sound.committed (sound : a.Sound links) {state : UInt64} (ok : a.outcome = some (.ok state)) :
    ∃ draft replies, a.draft = some draft ∧ state = draft.next.state ∧ Hears a.accepts replies ∧
      (tally (·.ok) replies).HasMajority replies.length := by
  cases drafted : a.draft with
  | none =>
    obtain ⟨error, impossible, _⟩ := sound.refused _ drafted ok
    cases impossible
  | some draft =>
    obtain ⟨replies, hears, concluded⟩ := sound.concluded draft _ drafted ok
    obtain ⟨majority, same⟩ := Round.conclude_ok concluded
    exact ⟨draft, replies, rfl, same, hears, majority⟩

/-- A round heard no more grants than there were. -/
theorem Sound.chosen (sound : a.Sound links) {state : UInt64} (ok : a.outcome = some (.ok state)) : a.Chosen := by
  obtain ⟨draft, replies, _, _, hears, heard⟩ := sound.committed ok
  have lengths : (replies.map (Reply.vote (·.ok))).length = a.accepts.length := by rw [List.length_map, hears.length]
  have granted : (replies.map (Reply.vote (·.ok))).count .grant ≤ a.accepts.count (some ⟨true⟩) := by
    refine count_le_count lengths fun link voted => ?_
    rw [List.getElem?_map, Option.map_eq_some_iff] at voted
    obtain ⟨reply, told, vote⟩ := voted
    obtain ⟨⟨_⟩, rfl, agreed⟩ := Reply.vote_grant.1 vote
    cases agreed
    exact hears.told link _ told
  rw [tally, Tally.ofVotes_eq, hears.length] at heard
  exact Nat.le_trans heard granted

end Attempt

namespace System

variable {s : System α} {attempt attempt' : Nat} {a b : Attempt α}

theorem Valid.promised (valid : Valid s) (begun : s.attempts[attempt]? = some a) {route : Nat} {promise : Promise α}
    (heard : a.heard[route]? = some (.ok promise)) :
    ∃ link, s.routes[route]? = some link ∧ s.Promised attempt route link.acceptor a.ballot promise := by
  have sound := valid.rounds attempt a begun
  rcases sound.heard with nothing | hears
  · simp [nothing] at heard
  · have answered := hears.told route promise heard
    have inside : route < s.routes.length := sound.promises ▸ (List.getElem?_eq_some_iff.1 answered).1
    have leads := List.getElem?_eq_getElem inside
    exact ⟨_, leads, a, _, begun, rfl, answered, leads, rfl⟩

/-- No ballot wins two majorities, whoever minted it. -/
theorem Valid.elected_once (valid : Valid s) (begun : s.attempts[attempt]? = some a)
    (begun' : s.attempts[attempt']? = some b) (elected : a.Elected) (elected' : b.Elected)
    (same : a.ballot = b.ballot) : attempt = attempt' := by
  have lengths : a.heard.length = b.heard.length :=
    ((valid.rounds _ a begun).heard_length elected).trans ((valid.rounds _ b begun').heard_length elected').symm
  obtain ⟨route, promise, promise', heard, granted, heard', granted'⟩ := tallies_meet lengths elected elected'
  obtain ⟨link, leads, promised⟩ := valid.promised begun heard
  obtain ⟨link', leads', promised'⟩ := valid.promised begun' heard'
  obtain rfl : link = link' := Option.some.inj (leads.symm.trans leads')
  exact (valid.consistent.once promised granted (same ▸ promised') granted').1

theorem Valid.elected (valid : Valid s) {draft : Round.Draft α} (entered : s.Entered attempt a draft) : a.Elected :=
  (valid.rounds attempt a entered.1).elected entered.2

theorem Entered.unique {draft draft' : Round.Draft α} (entered : s.Entered attempt a draft)
    (entered' : s.Entered attempt b draft') : a = b ∧ draft = draft' := by
  obtain rfl : a = b := Option.some.inj (entered.1.symm.trans entered'.1)
  exact ⟨rfl, Option.some.inj (entered.2.symm.trans entered'.2)⟩

theorem Entered.wrote {draft : Round.Draft α} (entered : s.Entered attempt a draft) :
    s.Wrote attempt ⟨a.ballot, draft.next⟩ := ⟨a, draft, entered, rfl⟩

theorem Valid.wrote_once (valid : Valid s) {proposal proposal' : Proposal α} (wrote : s.Wrote attempt proposal)
    (wrote' : s.Wrote attempt' proposal') (same : proposal.ballot = proposal'.ballot) :
    attempt = attempt' ∧ proposal = proposal' := by
  obtain ⟨a, draft, entered, rfl⟩ := wrote
  obtain ⟨b, draft', entered', rfl⟩ := wrote'
  obtain rfl : attempt = attempt' :=
    valid.elected_once entered.1 entered'.1 (valid.elected entered) (valid.elected entered') same
  obtain ⟨rfl, rfl⟩ := entered.unique entered'
  exact ⟨rfl, rfl⟩

/-- What a round found in its prepare phase was written by a round of a lower ballot. -/
theorem Valid.report_wrote (valid : Valid s) (begun : s.attempts[attempt]? = some a) {proposal : Proposal α}
    (reported : proposal ∈ Round.reports a.heard) : proposal.ballot < a.ballot ∧ ∃ writer, s.Wrote writer proposal := by
  obtain ⟨promise, member, granted, accepted⟩ := Round.mem_reports.1 reported
  obtain ⟨route, heard⟩ := List.getElem?_of_mem member
  obtain ⟨link, _, promised⟩ := valid.promised begun heard
  exact valid.consistent.reported promised accepted

/-- The majority that took a write and the majority that elected another round, perhaps later, have a link in
common. -/
theorem Valid.chosen_meets {s' : System α} (valid : Valid s) (valid' : Valid s') (routes : s'.routes = s.routes)
    (begun : s.attempts[attempt]? = some a) (begun' : s'.attempts[attempt']? = some b) (chosen : a.Chosen)
    (elected : b.Elected) :
    ∃ route acceptor promise, s.Took attempt route acceptor a.ballot ∧
      s'.Promised attempt' route acceptor b.ballot promise ∧ promise.ok = true ∧ .ok promise ∈ b.heard := by
  let taken := a.accepts.map fun answer => if answer = some ⟨true⟩ then Vote.grant else .fail
  let votes := b.heard.map (Reply.vote (·.ok))
  have lengths : taken.length = votes.length := by
    rw [List.length_map, List.length_map, (valid.rounds attempt a begun).accepts,
      (valid'.rounds _ b begun').heard_length elected, routes]
  have majority : (Tally.ofVotes taken).HasMajority taken.length := by
    have counted : a.accepts.count (some ⟨true⟩) ≤ taken.count .grant := by
      refine count_le_count (List.length_map ..).symm fun link answered => ?_
      simp [taken, answered]
    rw [Tally.ofVotes_eq, List.length_map]
    exact Nat.le_trans chosen counted
  have majority' : (Tally.ofVotes votes).HasMajority votes.length := by
    rw [List.length_map]
    exact elected
  obtain ⟨route, took, vote⟩ := Tally.majorities_meet lengths majority majority'
  rw [List.getElem?_map, Option.map_eq_some_iff] at took vote
  obtain ⟨answer, answered, granted⟩ := took
  obtain rfl : answer = some ⟨true⟩ := by
    by_contra other
    rw [if_neg other] at granted
    cases granted
  obtain ⟨reply, heard, agreed⟩ := vote
  obtain ⟨promise, rfl, granted⟩ := Reply.vote_grant.1 agreed
  obtain ⟨link, leads, promised⟩ := valid'.promised begun' heard
  exact ⟨route, link.acceptor, promise, ⟨a, link, begun, rfl, answered, routes ▸ leads, rfl⟩, promised, granted,
    List.mem_of_getElem? heard⟩

/-- A round above a write that a majority took resolves that write or one that came after it. -/
theorem Valid.chosen_found (valid : Valid s) (begun : s.attempts[attempt]? = some a)
    (begun' : s.attempts[attempt']? = some b) (chosen : a.Chosen) (elected : b.Elected) (below : a.ballot < b.ballot) :
    ∃ top writer, Round.highest b.heard = some top ∧ s.Wrote writer top ∧
      a.ballot ≤ top.ballot ∧ top.ballot < b.ballot := by
  obtain ⟨route, acceptor, promise, took, promised, granted, member⟩ :=
    valid.chosen_meets valid rfl begun begun' chosen elected
  obtain ⟨proposal, accepted, later⟩ := valid.consistent.covers took promised granted below
  have member' := Round.mem_reports.2 ⟨promise, member, granted, accepted⟩
  obtain ⟨top, found, reported, above⟩ := Round.highest_of_mem member'
  obtain ⟨lower, writer, wrote⟩ := valid.report_wrote begun' reported
  exact ⟨top, writer, found, wrote, le_trans later above, lower⟩

end System

end Synod
