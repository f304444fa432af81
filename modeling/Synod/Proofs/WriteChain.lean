import Synod.Proofs.Elections

/-! The history of a write. Every round that enters its accept phase writes over the proposal that it resolved,
so its writes form a chain back to an empty register. A committed write is in the chain of every later one:
nothing that was committed is ever lost. -/

namespace Synod.System

variable {α : Type}

/-- A round entered its accept phase to write over what another round had written, which is the
proposal that it resolved. -/
def Follows (s : System α) (round earlier : Nat) : Prop :=
  ∃ a draft b draft', s.Entered round a draft ∧ s.Entered earlier b draft' ∧
    Round.highest a.heard = some ⟨b.ballot, draft'.next⟩

/-- The rounds behind a write, first one first, up to the round itself. -/
inductive Chain (s : System α) : Nat → List Nat → Prop where
  | first {round : Nat} {a : Attempt α} {draft : Round.Draft α} (entered : s.Entered round a draft)
      (empty : Round.highest a.heard = none) : Chain s round [round]
  | next {round earlier : Nat} {before : List Nat} (follows : s.Follows round earlier)
      (chain : Chain s earlier before) : Chain s round (before ++ [round])

variable {s : System α}

theorem Chain.last {round : Nat} {chain : List Nat} (history : s.Chain round chain) : chain.getLast? = some round := by
  cases history with
  | first => rfl
  | next => simp

/-- What a round resolved has a lower ballot, and the round goes one state further. -/
theorem Valid.resolved_below (valid : Valid s) {round : Nat} {a : Attempt α} {draft : Round.Draft α} {top : Proposal α}
    (entered : s.Entered round a draft) (found : Round.highest a.heard = some top) :
    top.ballot < a.ballot ∧ draft.next.state.toNat = top.value.state.toNat + 1 := by
  obtain ⟨_, _, payload, _, advanced⟩ := Round.draft_ok ((valid.rounds round a entered.1).drafted draft entered.2)
  have state := Value.successor_state advanced
  exact ⟨(valid.report_wrote entered.1 (Round.highest_eq_some found).1).1, by simpa [Round.resolve, found] using state⟩

theorem Valid.resolved_nothing (valid : Valid s) {round : Nat} {a : Attempt α} {draft : Round.Draft α}
    (entered : s.Entered round a draft) (empty : Round.highest a.heard = none) : draft.next.state = 0 := by
  obtain ⟨_, _, payload, _, advanced⟩ := Round.draft_ok ((valid.rounds round a entered.1).drafted draft entered.2)
  have state := Value.successor_state advanced
  exact UInt64.toNat_inj.1 (by simpa [Round.resolve, empty] using state)

theorem Valid.predecessor (valid : Valid s) {round : Nat} {a : Attempt α} {draft : Round.Draft α}
    (entered : s.Entered round a draft) :
    Round.highest a.heard = none ∨ ∃ earlier b draft', s.Entered earlier b draft' ∧
      Round.highest a.heard = some ⟨b.ballot, draft'.next⟩ := by
  cases found : Round.highest a.heard with
  | none => exact .inl rfl
  | some top =>
    obtain ⟨_, earlier, b, draft', before, rfl⟩ := valid.report_wrote entered.1 (Round.highest_eq_some found).1
    exact .inr ⟨earlier, b, draft', before, rfl⟩

theorem Follows.found {round earlier : Nat} {a b : Attempt α} {draft draft' : Round.Draft α}
    (follows : s.Follows round earlier) (entered : s.Entered round a draft) (before : s.Entered earlier b draft') :
    Round.highest a.heard = some ⟨b.ballot, draft'.next⟩ := by
  obtain ⟨_, _, _, _, entered', before', found⟩ := follows
  obtain ⟨rfl, rfl⟩ := entered.unique entered'
  obtain ⟨rfl, rfl⟩ := before.unique before'
  exact found

private theorem Follows.not_empty {round earlier : Nat} {a : Attempt α} {draft : Round.Draft α}
    (follows : s.Follows round earlier) (entered : s.Entered round a draft) : Round.highest a.heard ≠ none := by
  have ⟨_, _, _, _, _, before, _⟩ := follows
  rw [follows.found entered before]
  exact Option.some_ne_none _

theorem Valid.follows_unique (valid : Valid s) {round earlier earlier' : Nat} (follows : s.Follows round earlier)
    (follows' : s.Follows round earlier') : earlier = earlier' := by
  obtain ⟨a, draft, b, _, entered, before, found⟩ := follows
  have ⟨_, _, b', _, _, before', _⟩ := follows'
  have same := congrArg Proposal.ballot (Option.some.inj (found.symm.trans (follows'.found entered before')))
  exact (valid.wrote_once before.wrote before'.wrote same).1

theorem Valid.chain_unique (valid : Valid s) {round : Nat} {chain chain' : List Nat} (history : s.Chain round chain)
    (history' : s.Chain round chain') : chain = chain' := by
  induction history generalizing chain' with
  | first entered empty =>
    cases history' with
    | first => rfl
    | next follows => exact (follows.not_empty entered empty).elim
  | next follows chain ih =>
    cases history' with
    | first entered empty => exact (follows.not_empty entered empty).elim
    | next follows' chain' =>
      obtain rfl := valid.follows_unique follows follows'
      rw [ih chain']

/-- Every write has a chain, with one round for each state up to its own. The ballots rise along it, so it
ends in an empty register. -/
theorem Valid.chain_exists (valid : Valid s) {round : Nat} {a : Attempt α} {draft : Round.Draft α}
    (entered : s.Entered round a draft) : ∃ chain, s.Chain round chain ∧ chain.length = draft.next.state.toNat + 1 := by
  rcases valid.predecessor entered with empty | ⟨earlier, b, draft', before, found⟩
  · exact ⟨[round], .first entered empty, by simp [valid.resolved_nothing entered empty]⟩
  · obtain ⟨below, state⟩ := valid.resolved_below entered found
    obtain ⟨chain, history, length⟩ := valid.chain_exists before
    exact ⟨chain ++ [round], .next ⟨a, draft, b, draft', entered, before, found⟩ history, by simp [length, state]⟩
termination_by a.ballot.rank
decreasing_by exact Ballot.lt_iff_rank.1 below

theorem Chain.entered {round : Nat} {chain : List Nat} (history : s.Chain round chain) :
    ∃ a draft, s.Entered round a draft := by
  cases history with
  | first entered => exact ⟨_, _, entered⟩
  | next follows =>
    obtain ⟨a, draft, _, _, entered, _⟩ := follows
    exact ⟨a, draft, entered⟩

/-- A write that a majority took is in the chain of every write of a ballot at least as high. -/
theorem Valid.chosen_prefix (valid : Valid s) {early late : Nat} {a b : Attempt α} {draft : Round.Draft α}
    (begun : s.attempts[early]? = some a) (chosen : a.Chosen) (entered : s.Entered late b draft)
    (order : a.ballot ≤ b.ballot) {chain chain' : List Nat} (history : s.Chain early chain)
    (history' : s.Chain late chain') : chain <+: chain' := by
  rcases lt_or_eq_of_le order with below | same
  · obtain ⟨top, writer, found, wrote, above, lower⟩ :=
      valid.chosen_found begun entered.1 chosen (valid.elected entered) below
    obtain ⟨c, draft', before, rfl⟩ := wrote
    obtain ⟨middle, history'', _⟩ := valid.chain_exists before
    have follows : s.Follows late writer := ⟨b, draft, c, draft', entered, before, found⟩
    obtain rfl := valid.chain_unique history' (.next follows history'')
    exact (valid.chosen_prefix begun chosen before above history history'').trans (List.prefix_append _ _)
  · obtain ⟨a', draft', entered'⟩ := history.entered
    obtain rfl : a = a' := Option.some.inj (begun.symm.trans entered'.1)
    obtain rfl : early = late :=
      valid.elected_once begun entered.1 (valid.elected entered') (valid.elected entered) same
    obtain rfl := valid.chain_unique history history'
    exact List.prefix_rfl
termination_by b.ballot.rank
decreasing_by exact Ballot.lt_iff_rank.1 lower

theorem Valid.chain_prefix (valid : Valid s) {early late : Nat} {a b : Attempt α} {state : UInt64}
    {draft : Round.Draft α} (begun : s.attempts[early]? = some a) (ok : a.outcome = some (.ok state))
    (entered : s.Entered late b draft) (order : a.ballot ≤ b.ballot) {chain chain' : List Nat}
    (history : s.Chain early chain) (history' : s.Chain late chain') : chain <+: chain' :=
  valid.chosen_prefix begun ((valid.rounds early a begun).chosen ok) entered order history history'

theorem Valid.committed_entered (valid : Valid s) {round : Nat} {a : Attempt α} {state : UInt64}
    (begun : s.attempts[round]? = some a) (ok : a.outcome = some (.ok state)) :
    ∃ draft, s.Entered round a draft ∧ draft.next.state = state := by
  obtain ⟨draft, _, drafted, same, _⟩ := (valid.rounds round a begun).committed ok
  exact ⟨draft, ⟨begun, drafted⟩, same.symm⟩

/-- A write above a committed one has a higher state, because its chain is longer. -/
theorem Valid.state_lt (valid : Valid s) {early late : Nat} {a b : Attempt α} {state : UInt64} {draft : Round.Draft α}
    (begun : s.attempts[early]? = some a) (ok : a.outcome = some (.ok state)) (entered : s.Entered late b draft)
    (below : a.ballot < b.ballot) : state < draft.next.state := by
  obtain ⟨draft', entered', rfl⟩ := valid.committed_entered begun ok
  obtain ⟨chain, history, length⟩ := valid.chain_exists entered'
  obtain ⟨chain', history', length'⟩ := valid.chain_exists entered
  have kept := valid.chain_prefix begun ok entered (le_of_lt below) history history'
  have longer : chain.length ≠ chain'.length := by
    intro same
    obtain rfl := kept.eq_of_length same
    obtain rfl : early = late := Option.some.inj (history.last.symm.trans history'.last)
    rw [(entered'.unique entered).1] at below
    exact lt_irrefl _ below
  have := kept.length_le
  rw [UInt64.lt_iff_toNat_lt]
  omega

/-- No two rounds commit the same state. -/
theorem Valid.committed_once (valid : Valid s) {early late : Nat} {a b : Attempt α} {state : UInt64}
    (begun : s.attempts[early]? = some a) (ok : a.outcome = some (.ok state)) (begun' : s.attempts[late]? = some b)
    (ok' : b.outcome = some (.ok state)) : early = late := by
  obtain ⟨draft, entered, same⟩ := valid.committed_entered begun ok
  obtain ⟨draft', entered', same'⟩ := valid.committed_entered begun' ok'
  rcases lt_trichotomy a.ballot b.ballot with below | equal | above
  · have higher := valid.state_lt begun ok entered' below
    rw [same'] at higher
    exact (UInt64.lt_irrefl state higher).elim
  · exact valid.elected_once begun begun' (valid.elected entered) (valid.elected entered') equal
  · have higher := valid.state_lt begun' ok' entered above
    rw [same] at higher
    exact (UInt64.lt_irrefl state higher).elim

/-- No committed write is lost. Every round that entered its accept phase has one predecessor, of a lower ballot
and one state below it, or found the register empty and wrote state zero; so the rounds behind it form one chain,
as long as its state says. Of two committed rounds, the chain of the lower ballot begins the chain of the
higher one. -/
theorem committed_chains_agree (acceptors : Nat) (routes : List Route) (actions : List (Action α)) :
    let s := (System.initial acceptors routes).run actions
    (∀ round a draft, s.Entered round a draft →
      Round.highest a.heard = none ∧ draft.next.state = 0 ∨ ∃! earlier, s.Follows round earlier) ∧
    (∀ round earlier a b draft draft', s.Follows round earlier → s.Entered round a draft → s.Entered earlier b draft' →
      b.ballot < a.ballot ∧ draft.next.state.toNat = draft'.next.state.toNat + 1) ∧
    (∀ round a draft, s.Entered round a draft →
      ∃ chain, s.Chain round chain ∧ chain.length = draft.next.state.toNat + 1 ∧
        ∀ other, s.Chain round other → other = chain) ∧
    (∀ (round : Nat) (a : Attempt α) state, s.attempts[round]? = some a → a.outcome = some (.ok state) →
      ∃ draft, s.Entered round a draft ∧ draft.next.state = state) ∧
    (∀ (early late : Nat) (a b : Attempt α) state state', s.attempts[early]? = some a → s.attempts[late]? = some b →
      a.outcome = some (.ok state) → b.outcome = some (.ok state') →
      (a.ballot = b.ballot → early = late) ∧
      (a.ballot < b.ballot → state < state' ∧
        ∀ chain chain', s.Chain early chain → s.Chain late chain' → chain <+: chain')) := by
  intro s
  have valid : Valid s := (Valid.initial acceptors routes).run actions
  refine ⟨?_, ?_, ?_, ?_, ?_⟩
  · intro round a draft entered
    rcases valid.predecessor entered with empty | ⟨earlier, b, draft', before, found⟩
    · exact .inl ⟨empty, valid.resolved_nothing entered empty⟩
    · have follows : s.Follows round earlier := ⟨a, draft, b, draft', entered, before, found⟩
      exact .inr ⟨earlier, follows, fun other follows' => valid.follows_unique follows' follows⟩
  · intro round earlier a b draft draft' follows entered before
    exact valid.resolved_below entered (follows.found entered before)
  · intro round a draft entered
    obtain ⟨chain, history, length⟩ := valid.chain_exists entered
    exact ⟨chain, history, length, fun other history' => valid.chain_unique history' history⟩
  · intro round a state begun ok
    exact valid.committed_entered begun ok
  · intro early late a b state state' begun begun' ok ok'
    obtain ⟨draft, entered, _⟩ := valid.committed_entered begun ok
    obtain ⟨draft', entered', rfl⟩ := valid.committed_entered begun' ok'
    refine ⟨valid.elected_once begun begun' (valid.elected entered) (valid.elected entered'), fun below => ⟨?_, ?_⟩⟩
    · exact valid.state_lt begun ok entered' below
    · intro chain chain' history history'
      exact valid.chain_prefix begun ok entered' (le_of_lt below) history history'

end Synod.System
