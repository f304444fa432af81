import Mathlib.Data.List.Basic
import Mathlib.Data.List.Induction
import Synod.Proofs.QuorumIntersection
import Synod.Proofs.RoundDecision

/-! The end of a round is a function of the votes. Each reply is counted once, the promise of the highest ballot
decides what the transform is given, and of the order of the links nothing remains but which of several values of
that ballot is taken. -/

namespace Synod

variable {α σ ρ : Type}

namespace Reply

def granted (agrees : ρ → Bool) : Reply ρ → Bool
  | .ok reply => agrees reply
  | .error _ => false

def refused (agrees : ρ → Bool) : Reply ρ → Bool
  | .ok reply => !agrees reply
  | .error _ => false

def failed : Reply ρ → Bool
  | .ok _ => false
  | .error _ => true

end Reply

structure Tally.Counts (t : Tally) (agrees : ρ → Bool) (replies : List (Reply ρ)) : Prop where
  granted : t.granted = replies.countP (Reply.granted agrees)
  rejected : t.rejected = replies.countP (Reply.refused agrees)
  failed : t.failed = replies.countP Reply.failed
  once : ∀ reply ∈ replies, [Reply.granted agrees reply, Reply.refused agrees reply, Reply.failed reply].count true = 1
  total : t.granted + t.rejected + t.failed = replies.length

private theorem tally_cons (agrees : ρ → Bool) (reply : Reply ρ) (replies : List (Reply ρ)) :
    tally agrees (reply :: replies) =
      ⟨(tally agrees replies).granted + (Reply.granted agrees reply).toNat,
        (tally agrees replies).rejected + (Reply.refused agrees reply).toNat,
        (tally agrees replies).failed + (Reply.failed reply).toNat⟩ := by
  simp only [tally, Tally.ofVotes_eq, List.map_cons, List.count_cons]
  cases reply with
  | error error => simp [Reply.vote, Reply.granted, Reply.refused, Reply.failed]
  | ok answer => cases agreed : agrees answer <;> simp [Reply.vote, Reply.granted, Reply.refused, Reply.failed, agreed]

private theorem Reply.sorts (agrees : ρ → Bool) (reply : Reply ρ) :
    [granted agrees reply, refused agrees reply, failed reply].count true = 1 := by
  cases reply with
  | error error => rfl
  | ok answer => cases agreed : agrees answer <;> simp [granted, refused, failed, agreed]

theorem tally_counts (agrees : ρ → Bool) (replies : List (Reply ρ)) : (tally agrees replies).Counts agrees replies := by
  induction replies with
  | nil => exact ⟨rfl, rfl, rfl, nofun, rfl⟩
  | cons reply replies ih =>
    have sort := Reply.sorts agrees reply
    refine ⟨?_, ?_, ?_, ?_, ?_⟩
    · rw [tally_cons, List.countP_cons, ih.granted]
      cases Reply.granted agrees reply <;> rfl
    · rw [tally_cons, List.countP_cons, ih.rejected]
      cases Reply.refused agrees reply <;> rfl
    · rw [tally_cons, List.countP_cons, ih.failed]
      cases Reply.failed reply <;> rfl
    · intro other member
      exact Reply.sorts agrees other
    · have total := ih.total
      rw [tally_cons, List.length_cons]
      revert sort
      cases Reply.granted agrees reply <;> cases Reply.refused agrees reply <;> cases Reply.failed reply <;>
        simp <;> omega

theorem tally_perm {agrees : ρ → Bool} {replies others : List (Reply ρ)} (order : others.Perm replies) :
    tally agrees others = tally agrees replies := by
  have votes := order.map (Reply.vote agrees)
  simp only [tally, Tally.ofVotes_eq, votes.count_eq]

namespace Round

/-- The promise of this link is granted and reports a proposal whole. -/
def Found (promises : List (Reply (Promise α))) (link : Nat) (proposal : Proposal α) : Prop :=
  ∃ promise, promises[link]? = some (.ok promise) ∧ promise.ok = true ∧
    promise.acceptedBallot = some proposal.ballot ∧ promise.acceptedValue = some proposal.value

/-- The proposal of the highest ballot that was found, and of several the one of the earliest link. -/
def FirstHighest (promises : List (Reply (Promise α))) (link : Nat) (top : Proposal α) : Prop :=
  Found promises link top ∧ ∀ other proposal, Found promises other proposal →
    proposal.ballot < top.ballot ∨ proposal.ballot = top.ballot ∧ link ≤ other

private theorem found_iff {promises : List (Reply (Promise α))} {link : Nat} {proposal : Proposal α} :
    Found promises link proposal ↔ ∃ reply, promises[link]? = some reply ∧ reported? reply = some proposal := by
  constructor
  · rintro ⟨promise, heard, granted, ballot, value⟩
    exact ⟨_, heard, by simp [reported?, granted, Promise.accepted?, ballot, value]⟩
  · rintro ⟨reply, heard, reported⟩
    cases reply with
    | error error => cases reported
    | ok promise =>
      simp only [reported?] at reported
      split at reported
      next granted =>
        simp only [Promise.accepted?] at reported
        split at reported
        next ballot value => cases reported; exact ⟨promise, heard, granted, ballot, value⟩
        · cases reported
      · cases reported

private theorem found_concat {promises : List (Reply (Promise α))} {last : Reply (Promise α)} {link : Nat}
    {proposal : Proposal α} : Found (promises ++ [last]) link proposal ↔
      Found promises link proposal ∨ link = promises.length ∧ reported? last = some proposal := by
  simp only [found_iff, List.getElem?_append]
  constructor
  · rintro ⟨reply, heard, reported⟩
    split at heard
    · exact .inl ⟨reply, heard, reported⟩
    next beyond =>
      cases place : link - promises.length with
      | zero =>
        rw [place] at heard
        cases heard
        exact .inr ⟨by omega, reported⟩
      | succ place' =>
        rw [place] at heard
        cases heard
  · rintro (⟨reply, heard, reported⟩ | ⟨rfl, reported⟩)
    · exact ⟨reply, by rwa [if_pos (List.getElem?_eq_some_iff.1 heard).1], reported⟩
    · exact ⟨last, by simp, reported⟩

private theorem highest_concat (promises : List (Reply (Promise α))) (last : Reply (Promise α)) :
    highest (promises ++ [last]) = match reported? last with
      | none => highest promises
      | some proposal => higher (highest promises) proposal := by
  rw [highest, List.filterMap_append, List.foldl_append]
  cases reported : reported? last <;> simp [reported, highest]

private theorem not_found_of_highest {promises : List (Reply (Promise α))} (nothing : highest promises = none)
    (link : Nat) (proposal : Proposal α) : ¬ Found promises link proposal := by
  intro found
  obtain ⟨reply, heard, reported⟩ := found_iff.1 found
  have member : proposal ∈ reports promises := List.mem_filterMap.2 ⟨reply, List.mem_of_getElem? heard, reported⟩
  rw [highest_eq_none.1 nothing] at member
  cases member

private theorem FirstHighest.concat {promises : List (Reply (Promise α))} {link : Nat} {top : Proposal α}
    (first : FirstHighest promises link top) {last : Reply (Promise α)}
    (bound : ∀ proposal, reported? last = some proposal → proposal.ballot ≤ top.ballot) :
    FirstHighest (promises ++ [last]) link top := by
  refine ⟨found_concat.2 (.inl first.1), ?_⟩
  intro other proposal found
  rcases found_concat.1 found with found | ⟨rfl, reported⟩
  · exact first.2 other proposal found
  · obtain ⟨_, heard, _⟩ := first.1
    have inside := (List.getElem?_eq_some_iff.1 heard).1
    rcases lt_or_eq_of_le (bound proposal reported) with lower | same
    · exact .inl lower
    · exact .inr ⟨same, Nat.le_of_lt inside⟩

private theorem firstHighest_last {promises : List (Reply (Promise α))} {last : Reply (Promise α)}
    {proposal : Proposal α} (reported : reported? last = some proposal)
    (above : ∀ other earlier, Found promises other earlier → earlier.ballot < proposal.ballot) :
    FirstHighest (promises ++ [last]) promises.length proposal := by
  refine ⟨found_concat.2 (.inr ⟨rfl, reported⟩), ?_⟩
  intro other earlier found
  rcases found_concat.1 found with found | ⟨rfl, reported'⟩
  · exact .inl (above other earlier found)
  · cases reported.symm.trans reported'
    exact .inr ⟨rfl, Nat.le_refl _⟩

/-- A later proposal takes the place of an earlier one only if its ballot is higher. -/
theorem firstHighest_of_highest {promises : List (Reply (Promise α))} {top : Proposal α}
    (resolved : highest promises = some top) : ∃ link, FirstHighest promises link top := by
  -- From the end, as the fold goes: the last promise meets the best of those before it.
  induction promises using List.reverseRecOn generalizing top with
  | nil => cases resolved
  | append_singleton promises last ih =>
    rw [highest_concat] at resolved
    cases reported : reported? last with
    | none =>
      simp only [reported] at resolved
      obtain ⟨link, first⟩ := ih resolved
      refine ⟨link, first.concat fun proposal reported' => ?_⟩
      cases reported.symm.trans reported'
    | some proposal =>
      cases before : highest promises with
      | none =>
        simp only [reported, before, higher] at resolved
        cases resolved
        refine ⟨_, firstHighest_last reported ?_⟩
        intro other earlier found
        exact absurd found (not_found_of_highest before other earlier)
      | some best =>
        obtain ⟨link, first⟩ := ih before
        simp only [reported, before, higher] at resolved
        split at resolved
        next above =>
          cases resolved
          refine ⟨_, firstHighest_last reported fun other earlier found => ?_⟩
          rcases first.2 other earlier found with lower | ⟨same, _⟩
          · exact lt_trans lower above
          · exact same ▸ above
        next below =>
          cases resolved
          refine ⟨link, first.concat fun proposal' reported' => ?_⟩
          cases reported.symm.trans reported'
          exact not_lt.1 below

theorem FirstHighest.unique {promises : List (Reply (Promise α))} {link link' : Nat} {top top' : Proposal α}
    (first : FirstHighest promises link top) (first' : FirstHighest promises link' top') : top = top' := by
  have same : link = link' := by
    rcases first.2 link' top' first'.1 with lower | ⟨same, before⟩
    · rcases first'.2 link top first.1 with lower' | ⟨same, _⟩
      · exact absurd lower' (lt_asymm lower)
      · exact absurd lower (same ▸ lt_irrefl _)
    · rcases first'.2 link top first.1 with lower' | ⟨_, after⟩
      · exact absurd lower' (same ▸ lt_irrefl _)
      · omega
  subst same
  obtain ⟨_, heard, reported⟩ := found_iff.1 first.1
  obtain ⟨_, heard', reported'⟩ := found_iff.1 first'.1
  cases heard.symm.trans heard'
  exact Option.some.inj (reported.symm.trans reported')

theorem highest_eq_some_iff {promises : List (Reply (Promise α))} {top : Proposal α} :
    highest promises = some top ↔ ∃ link, FirstHighest promises link top := by
  constructor
  · exact firstHighest_of_highest
  · rintro ⟨link, first⟩
    cases resolved : highest promises with
    | none => exact absurd first.1 (not_found_of_highest resolved link top)
    | some top' =>
      obtain ⟨link', first'⟩ := firstHighest_of_highest resolved
      rw [first.unique first']

/-- The links of a channel answer so in a round of this ballot, each of them once in either phase. -/
structure Channel.Gives (channel : Channel σ α) (ballot : Ballot) (world : σ) (promises : List (Reply (Promise α)))
    (accepts : List (Reply Accepted)) : Prop where
  promised : (channel.prepare ballot world).replies = promises
  accepted : ∀ value, (channel.accept ballot value (channel.prepare ballot world).world).replies = accepts
  asked : promises.length = channel.endpoints.length
  asked' : accepts.length = channel.endpoints.length

/-- The five ends of a round, each with the votes and the content that bring it about. -/
inductive Ending (transform : Transform α) (promises : List (Reply (Promise α))) (accepts : List (Reply Accepted)) :
    Except ProposeError UInt64 → Prop where
  | unpromised (few : (tally Promise.ok promises).granted < majority promises.length) :
      Ending transform promises accepts
        (.error (.quorumUnavailable .prepare (tally Promise.ok promises).granted (majority promises.length) none))
  | aborted (many : majority promises.length ≤ (tally Promise.ok promises).granted)
      (abort : transform (resolve promises) = .abort) :
      Ending transform promises accepts (.error (.conflict ((resolve promises).map (·.state))))
  | exhausted (many : majority promises.length ≤ (tally Promise.ok promises).granted) {payload : α}
      (write : transform (resolve promises) = .write payload)
      (last : (resolve promises).map (·.state) = some 0xFFFFFFFFFFFFFFFF) :
      Ending transform promises accepts (.error (.stateExhausted 0xFFFFFFFFFFFFFFFF))
  | unaccepted (many : majority promises.length ≤ (tally Promise.ok promises).granted) {payload : α} {next : Value α}
      (write : transform (resolve promises) = .write payload)
      (advanced : Value.successor (resolve promises) payload = some next)
      (few : (tally Accepted.ok accepts).granted < majority accepts.length) :
      Ending transform promises accepts
        (.error (.quorumUnavailable .accept (tally Accepted.ok accepts).granted (majority accepts.length)
          ((resolve promises).map (·.state))))
  | committed (many : majority promises.length ≤ (tally Promise.ok promises).granted) {payload : α} {next : Value α}
      (write : transform (resolve promises) = .write payload)
      (advanced : Value.successor (resolve promises) payload = some next)
      (many' : majority accepts.length ≤ (tally Accepted.ok accepts).granted) :
      Ending transform promises accepts (.ok next.state)

def decision (transform : Transform α) (promises : List (Reply (Promise α))) (accepts : List (Reply Accepted)) :
    Except ProposeError UInt64 :=
  (draft transform promises).bind fun draft => conclude draft accepts

theorem decision_ending (transform : Transform α) (promises : List (Reply (Promise α)))
    (accepts : List (Reply Accepted)) : Ending transform promises accepts (decision transform promises accepts) := by
  unfold decision draft
  by_cases many : (tally Promise.ok promises).HasMajority promises.length
  · simp only [if_pos many]
    cases chosen : transform (resolve promises) with
    | abort => exact .aborted many chosen
    | write payload =>
      cases advanced : Value.successor (resolve promises) payload with
      | none =>
        have last := Value.successor_eq_none.1 advanced
        simp only [advanced, last]
        exact .exhausted many chosen last
      | some next =>
        simp only [advanced, Except.bind, conclude]
        by_cases many' : (tally Accepted.ok accepts).HasMajority accepts.length
        · simp only [if_pos many']
          exact .committed many chosen advanced many'
        · simp only [if_neg many']
          exact .unaccepted many chosen advanced (Nat.not_le.1 many')
  · simp only [if_neg many]
    exact .unpromised (Nat.not_le.1 many)

namespace Ending

variable {transform : Transform α} {promises : List (Reply (Promise α))} {accepts : List (Reply Accepted)}
  {outcome : Except ProposeError UInt64}

theorem unpromised_iff (ending : Ending transform promises accepts outcome) :
    outcome = .error (.quorumUnavailable .prepare (tally Promise.ok promises).granted (majority promises.length) none) ↔
      (tally Promise.ok promises).granted < majority promises.length := by
  cases ending with
  | unpromised few => exact ⟨fun _ => few, fun _ => rfl⟩
  | aborted many | exhausted many | unaccepted many | committed many =>
    exact ⟨nofun, fun few => absurd many (Nat.not_le.2 few)⟩

theorem aborted_iff (ending : Ending transform promises accepts outcome)
    (many : majority promises.length ≤ (tally Promise.ok promises).granted) :
    outcome = .error (.conflict ((resolve promises).map (·.state))) ↔ transform (resolve promises) = .abort := by
  cases ending with
  | unpromised few => exact absurd many (Nat.not_le.2 few)
  | aborted _ abort => exact ⟨fun _ => abort, fun _ => rfl⟩
  | exhausted _ write | unaccepted _ write | committed _ write =>
    refine ⟨nofun, fun abort => ?_⟩
    cases write.symm.trans abort

theorem exhausted_iff (ending : Ending transform promises accepts outcome)
    (many : majority promises.length ≤ (tally Promise.ok promises).granted)
    (writes : transform (resolve promises) ≠ .abort) :
    outcome = .error (.stateExhausted 0xFFFFFFFFFFFFFFFF) ↔
      (resolve promises).map (·.state) = some 0xFFFFFFFFFFFFFFFF := by
  cases ending with
  | unpromised few => exact absurd many (Nat.not_le.2 few)
  | aborted _ abort => exact absurd abort writes
  | exhausted _ _ last => exact ⟨fun _ => last, fun _ => rfl⟩
  | unaccepted _ _ advanced | committed _ _ advanced =>
    refine ⟨nofun, fun last => ?_⟩
    cases advanced.symm.trans (Value.successor_eq_none.2 last)

theorem unaccepted_iff (ending : Ending transform promises accepts outcome)
    (many : majority promises.length ≤ (tally Promise.ok promises).granted)
    (writes : transform (resolve promises) ≠ .abort)
    (notLast : (resolve promises).map (·.state) ≠ some 0xFFFFFFFFFFFFFFFF) :
    outcome = .error (.quorumUnavailable .accept (tally Accepted.ok accepts).granted (majority accepts.length)
        ((resolve promises).map (·.state))) ↔
      (tally Accepted.ok accepts).granted < majority accepts.length := by
  cases ending with
  | unpromised few => exact absurd many (Nat.not_le.2 few)
  | aborted _ abort => exact absurd abort writes
  | exhausted _ _ last => exact absurd last notLast
  | unaccepted _ _ _ few => exact ⟨fun _ => few, fun _ => rfl⟩
  | committed _ _ _ many' => exact ⟨nofun, fun few => absurd many' (Nat.not_le.2 few)⟩

theorem committed_state (ending : Ending transform promises accepts outcome)
    (many : majority promises.length ≤ (tally Promise.ok promises).granted)
    (writes : transform (resolve promises) ≠ .abort)
    (notLast : (resolve promises).map (·.state) ≠ some 0xFFFFFFFFFFFFFFFF)
    (many' : majority accepts.length ≤ (tally Accepted.ok accepts).granted) :
    ∃ state, outcome = .ok state ∧
      state.toNat = ((resolve promises).map fun value => value.state.toNat + 1).getD 0 := by
  cases ending with
  | unpromised few => exact absurd many (Nat.not_le.2 few)
  | aborted _ abort => exact absurd abort writes
  | exhausted _ _ last => exact absurd last notLast
  | unaccepted _ _ _ few => exact absurd many' (Nat.not_le.2 few)
  | committed _ _ advanced _ => exact ⟨_, rfl, Value.successor_state advanced⟩

end Ending

theorem run_outcome {channel : Channel σ α} {ballot : Ballot} {world : σ} {promises : List (Reply (Promise α))}
    {accepts : List (Reply Accepted)} (gives : channel.Gives ballot world promises accepts) (node : UInt64)
    (transform : Transform α) :
    (run node ballot channel transform world).1.outcome = decision transform promises accepts := by
  simp only [run, gives.promised, decision]
  cases draft transform promises with
  | error error => rfl
  | ok draft => exact congrArg (conclude draft) (gives.accepted draft.next)

/-- The granted promises of the highest ballot all report one value. -/
def OneTop (promises : List (Reply (Promise α))) : Prop :=
  ∀ link top, FirstHighest promises link top →
    ∀ other proposal, Found promises other proposal → proposal.ballot = top.ballot → proposal.value = top.value

private theorem mem_reports_iff_found {promises : List (Reply (Promise α))} {proposal : Proposal α} :
    proposal ∈ reports promises ↔ ∃ link, Found promises link proposal := by
  simp only [reports, List.mem_filterMap, found_iff]
  constructor
  · rintro ⟨reply, member, reported⟩
    obtain ⟨link, heard⟩ := List.getElem?_of_mem member
    exact ⟨link, reply, heard, reported⟩
  · rintro ⟨link, reply, heard, reported⟩
    exact ⟨reply, List.mem_of_getElem? heard, reported⟩

private theorem resolve_perm {promises others : List (Reply (Promise α))} (order : others.Perm promises)
    (one : OneTop promises) : resolve others = resolve promises := by
  have same : (reports others).Perm (reports promises) := order.filterMap _
  cases resolved : highest promises with
  | none =>
    have nothing := highest_eq_none.1 resolved
    rw [nothing] at same
    rw [resolve, resolve, resolved, highest_eq_none.2 same.eq_nil]
  | some top =>
    obtain ⟨link, first⟩ := firstHighest_of_highest resolved
    have member := mem_reports_iff_found.2 ⟨link, first.1⟩
    obtain ⟨top', resolved', member', above⟩ := highest_of_mem (same.mem_iff.2 member)
    obtain ⟨link', found'⟩ := mem_reports_iff_found.1 (same.mem_iff.1 member')
    have equal : top'.ballot = top.ballot := by
      rcases first.2 link' top' found' with lower | ⟨equal, _⟩
      · exact absurd above (not_le.2 lower)
      · exact equal
    rw [resolve, resolve, resolved, resolved']
    exact congrArg some (one link top first link' top' found' equal)

theorem decision_perm {promises promises' : List (Reply (Promise α))} {accepts accepts' : List (Reply Accepted)}
    (order : promises'.Perm promises) (order' : accepts'.Perm accepts) (same : resolve promises' = resolve promises)
    (transform : Transform α) : decision transform promises' accepts' = decision transform promises accepts := by
  have concluded (draft : Draft α) : conclude draft accepts' = conclude draft accepts := by
    simp only [conclude, tally_perm order', order'.length_eq]
  simp only [decision, draft, tally_perm order, order.length_eq, same, concluded]

/-- A round ends as its votes say. The transform is given the value of the highest ballot among the granted promises,
the votes of either phase are compared with the same majority, and a change of the order of the links shows only
where that ballot stands for several values. -/
theorem outcome_of_votes {channel : Channel σ α} {ballot : Ballot} {world : σ} {promises : List (Reply (Promise α))}
    {accepts : List (Reply Accepted)} (gives : channel.Gives ballot world promises accepts) (node : UInt64)
    (transform : Transform α) :
    let size := channel.endpoints.length
    let votes := tally Promise.ok promises
    let votes' := tally Accepted.ok accepts
    let current := resolve promises
    let state := current.map (·.state)
    let outcome := (run node ballot channel transform world).1.outcome
    (votes.Counts Promise.ok promises ∧ votes'.Counts Accepted.ok accepts ∧
        promises.length = size ∧ accepts.length = size) ∧
      ((∀ value, current = some value ↔ ∃ link top, FirstHighest promises link top ∧ top.value = value) ∧
        (current = none ↔ ∀ link proposal, ¬ Found promises link proposal)) ∧
      (outcome = .error (.quorumUnavailable .prepare votes.granted (size / 2 + 1) none) ↔ votes.granted < size / 2 + 1) ∧
      (size / 2 + 1 ≤ votes.granted →
        (outcome = .error (.conflict state) ↔ transform current = .abort) ∧
        (transform current ≠ .abort →
          (outcome = .error (.stateExhausted 0xFFFFFFFFFFFFFFFF) ↔ state = some 0xFFFFFFFFFFFFFFFF) ∧
          (state ≠ some 0xFFFFFFFFFFFFFFFF →
            (outcome = .error (.quorumUnavailable .accept votes'.granted (size / 2 + 1) state) ↔
              votes'.granted < size / 2 + 1) ∧
            (size / 2 + 1 ≤ votes'.granted → ∃ committed, outcome = .ok committed ∧
              committed.toNat = (current.map fun value => value.state.toNat + 1).getD 0)))) ∧
      ∀ {channel' : Channel σ α} {ballot' : Ballot} {world' : σ} {promises' : List (Reply (Promise α))}
        {accepts' : List (Reply Accepted)}, channel'.Gives ballot' world' promises' accepts' →
        promises'.Perm promises → accepts'.Perm accepts → ∀ node',
          tally Promise.ok promises' = votes ∧ tally Accepted.ok accepts' = votes' ∧
          (OneTop promises → resolve promises' = current) ∧
          (resolve promises' = current → (run node' ballot' channel' transform world').1.outcome = outcome) := by
  intro size votes votes' current state outcome
  have ended := run_outcome gives node transform
  have ending : Ending transform promises accepts outcome := by
    have ending := decision_ending transform promises accepts
    rwa [← ended] at ending
  have needed : majority promises.length = size / 2 + 1 := by rw [majority, gives.asked]
  have needed' : majority accepts.length = size / 2 + 1 := by rw [majority, gives.asked']
  rw [← needed]
  refine ⟨⟨tally_counts _ _, tally_counts _ _, gives.asked, gives.asked'⟩, ⟨?_, ?_⟩, ending.unpromised_iff, ?_, ?_⟩
  · intro value
    simp only [current, resolve, Option.map_eq_some_iff, highest_eq_some_iff, ← exists_and_right]
    exact exists_comm
  · simp only [current, resolve, Option.map_eq_none_iff, highest_eq_none, List.eq_nil_iff_forall_not_mem,
      mem_reports_iff_found, not_exists]
    exact forall_comm
  · intro many
    refine ⟨ending.aborted_iff many, fun writes => ⟨ending.exhausted_iff many writes, fun notLast => ?_⟩⟩
    rw [needed, ← needed']
    exact ⟨ending.unaccepted_iff many writes notLast, ending.committed_state many writes notLast⟩
  · intro channel' ballot' world' promises' accepts' gives' order order' node'
    refine ⟨tally_perm order, tally_perm order', resolve_perm order, fun same => ?_⟩
    rw [run_outcome gives' node' transform, decision_perm order order' same]
    exact ended.symm

/-- Neither the refused promise nor the one without a value counts as a report, high as their ballots are. -/
theorem outcome_of_mixed_votes :
    let promises : List (Reply (Promise String)) :=
      [.ok (.granted (some ⟨⟨1, 1⟩, ⟨"old", 0⟩⟩)), .ok ⟨true, some ⟨9, 9⟩, none⟩, .ok ⟨false, some ⟨8, 8⟩, some ⟨"high", 7⟩⟩,
        .error (.timeout "d"), .ok (.granted (some ⟨⟨2, 1⟩, ⟨"new", 4⟩⟩))]
    let accepts : List (Reply Accepted) := [.ok ⟨true⟩, .ok ⟨true⟩, .error (.unreachable "c"), .ok ⟨true⟩, .ok ⟨false⟩]
    let links := ["a", "b", "c", "d", "e"]
    let channel : Channel Unit String := ⟨links, fun _ _ => ⟨promises, [], ()⟩, fun _ _ _ => ⟨accepts, [], ()⟩⟩
    let reversed : Channel Unit String :=
      ⟨links.reverse, fun _ _ => ⟨promises.reverse, [], ()⟩, fun _ _ _ => ⟨accepts.reverse, [], ()⟩⟩
    channel.Gives ⟨10, 1⟩ () promises accepts ∧ reversed.Gives ⟨10, 1⟩ () promises.reverse accepts.reverse ∧
      (run 1 ⟨10, 1⟩ channel (compareAndSet (some 4) "next") ()).1.outcome = .ok 5 ∧
      (run 1 ⟨10, 1⟩ reversed (compareAndSet (some 4) "next") ()).1.outcome = .ok 5 := by
  intro promises accepts links channel reversed
  have gives : channel.Gives ⟨10, 1⟩ () promises accepts := ⟨rfl, fun _ => rfl, rfl, rfl⟩
  have gives' : reversed.Gives ⟨10, 1⟩ () promises.reverse accepts.reverse := ⟨rfl, fun _ => rfl, rfl, rfl⟩
  obtain ⟨_, _, _, ends, moved⟩ := outcome_of_votes gives 1 (compareAndSet (some 4) "next")
  obtain ⟨committed, outcome, state⟩ :=
    (((ends (by decide)).2 (by decide)).2 (by decide)).2 (by decide)
  have five : committed = 5 := UInt64.toNat_inj.1 (state.trans rfl)
  obtain ⟨_, _, _, same⟩ := moved gives' (List.reverse_perm _) (List.reverse_perm _) 1
  refine ⟨gives, gives', ?_, ?_⟩
  · rw [outcome, five]
  · rw [same rfl, outcome, five]

end Round

end Synod
