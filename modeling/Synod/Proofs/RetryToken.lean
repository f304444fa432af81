import Synod.Proofs.Freshness

/-! The state that a conflict reports, as a token for a later compare-and-set. A round that gives up does not write
back what it resolved, and that may be a write which only few acceptors took. Such a write can be lost after it was
reported, and its state be used again. The token stands for one value exactly where a majority took the write or a
write that goes back to it. -/

namespace Synod.System

variable {α : Type} {s : System α}

private theorem Chain.mem_prefix {round writer : Nat} {chain : List Nat} (history : s.Chain round chain)
    (member : writer ∈ chain) : ∃ front, s.Chain writer front ∧ front <+: chain := by
  induction history with
  | first entered empty =>
    obtain rfl := List.mem_singleton.1 member
    exact ⟨_, .first entered empty, List.prefix_rfl⟩
  | next follows chain ih =>
    rcases List.mem_append.1 member with earlier | last
    · obtain ⟨front, history, kept⟩ := ih earlier
      exact ⟨front, history, kept.trans (List.prefix_append _ _)⟩
    · obtain rfl := List.mem_singleton.1 last
      exact ⟨_, .next follows chain, List.prefix_rfl⟩

theorem Valid.chain_length (valid : Valid s) {round : Nat} {a : Attempt α} {draft : Round.Draft α} {chain : List Nat}
    (history : s.Chain round chain) (entered : s.Entered round a draft) :
    chain.length = draft.next.state.toNat + 1 := by
  obtain ⟨chain', history', length⟩ := valid.chain_exists entered
  rw [valid.chain_unique history history', length]

/-- A majority took this proposal, or a write that goes back to it. -/
def Settled (s : System α) (proposal : Proposal α) : Prop :=
  ∃ (holder writer : Nat) (c : Attempt α) (chain : List Nat), s.attempts[holder]? = some c ∧ c.Chosen ∧
    s.Chain holder chain ∧ writer ∈ chain ∧ s.Wrote writer proposal

theorem Valid.settled_of_chosen (valid : Valid s) {writer : Nat} {c : Attempt α} {draft : Round.Draft α}
    (entered : s.Entered writer c draft) (chosen : c.Chosen) : s.Settled ⟨c.ballot, draft.next⟩ := by
  obtain ⟨chain, history, _⟩ := valid.chain_exists entered
  exact ⟨writer, writer, c, chain, entered.1, chosen, history, List.mem_of_getLast? history.last, entered.wrote⟩

theorem Valid.chosen_chains (valid : Valid s) {first second : Nat} {a b : Attempt α} {chain chain' : List Nat}
    (begun : s.attempts[first]? = some a) (begun' : s.attempts[second]? = some b) (chosen : a.Chosen)
    (chosen' : b.Chosen) (history : s.Chain first chain) (history' : s.Chain second chain') :
    chain <+: chain' ∨ chain' <+: chain := by
  obtain ⟨c, draft, entered⟩ := history.entered
  obtain rfl : a = c := Option.some.inj (begun.symm.trans entered.1)
  obtain ⟨c, draft', entered'⟩ := history'.entered
  obtain rfl : b = c := Option.some.inj (begun'.symm.trans entered'.1)
  rcases le_total a.ballot b.ballot with order | order
  · exact .inl (valid.chosen_prefix begun chosen entered' order history history')
  · exact .inr (valid.chosen_prefix begun' chosen' entered order history' history)

/-- A settled proposal is the only one of its state among the rounds behind a write that a majority took. -/
theorem Valid.settled_once (valid : Valid s) {round writer : Nat} {b : Attempt α} {chain : List Nat}
    {proposal proposal' : Proposal α} (begun : s.attempts[round]? = some b) (chosen : b.Chosen)
    (history : s.Chain round chain) (member : writer ∈ chain) (wrote : s.Wrote writer proposal)
    (settled : s.Settled proposal') (same : proposal.value.state = proposal'.value.state) : proposal = proposal' := by
  obtain ⟨holder, writer', c, chain', begun', chosen', history', member', wrote'⟩ := settled
  obtain ⟨front, behind, kept⟩ := history.mem_prefix member
  obtain ⟨front', behind', kept'⟩ := history'.mem_prefix member'
  have ⟨d, draft, entered, spelled⟩ := wrote
  have ⟨d', draft', entered', spelled'⟩ := wrote'
  have lengths : front.length = front'.length := by
    rw [valid.chain_length behind entered, valid.chain_length behind' entered']
    rw [spelled, spelled'] at same
    exact congrArg (·.toNat + 1) same
  have fronts : front = front' := by
    rcases valid.chosen_chains begun begun' chosen chosen' history history' with longer | longer
    · exact (List.prefix_of_prefix_length_le (kept.trans longer) kept' (Nat.le_of_eq lengths)).eq_of_length lengths
    · exact (List.prefix_of_prefix_length_le kept (kept'.trans longer) (Nat.le_of_eq lengths)).eq_of_length lengths
  subst fronts
  obtain rfl : writer = writer' := Option.some.inj (behind.last.symm.trans behind'.last)
  obtain ⟨rfl, rfl⟩ := entered.unique entered'
  rw [spelled, spelled']

/-- A round that no acceptor was asked for before another one was elected is elected only above it. -/
theorem Valid.elected_above (valid : Valid s) {early late : Nat} {a b : Attempt α}
    (begun : s.attempts[early]? = some a) (elected : a.Elected)
    (unasked : ∀ c, s.attempts[late]? = some c → ∀ (route : Nat) promise, c.promises[route]? ≠ some (some promise))
    (actions : List (Action α)) (begun' : (s.run actions).attempts[late]? = some b) (elected' : b.Elected) :
    a.ballot < b.ballot := by
  have lengths : a.heard.length = b.heard.length := by
    rw [(valid.rounds early a begun).heard_length elected, ((valid.run actions).rounds late b begun').heard_length elected',
      (s.run_grows actions).routes]
  obtain ⟨route, promise, promise', heard, granted, heard', granted'⟩ := tallies_meet lengths elected elected'
  obtain ⟨link, leads, promised⟩ := valid.promised begun heard
  obtain ⟨link', leads', promised'⟩ := (valid.run actions).promised begun' heard'
  rw [(s.run_grows actions).routes] at leads'
  obtain rfl : link = link' := Option.some.inj (leads.symm.trans leads')
  obtain ⟨record, held, mark⟩ := valid.consistent.marked promised granted
  rcases s.run_promised actions promised' granted' with ⟨c, _, begun, _, answered, _⟩ | above
  · exact (unasked c begun route promise' answered).elim
  · exact lt_of_le_of_lt mark (above record held)

theorem Valid.resolved_behind (valid : Valid s) {round : Nat} {a : Attempt α} {draft : Round.Draft α}
    {found : Proposal α} (entered : s.Entered round a draft) (resolved : Round.highest a.heard = some found) :
    ∃ chain writer, s.Chain round chain ∧ writer ∈ chain ∧ s.Wrote writer found := by
  rcases valid.predecessor entered with empty | ⟨earlier, b, draft', before, resolved'⟩
  · rw [resolved] at empty
    cases empty
  · obtain ⟨chain, history, _⟩ := valid.chain_exists before
    have member : earlier ∈ chain ++ [round] := List.mem_append_left _ (List.mem_of_getLast? history.last)
    refine ⟨chain ++ [round], earlier, .next ⟨a, draft, b, draft', entered, before, resolved'⟩ history, member, ?_⟩
    obtain rfl := Option.some.inj (resolved.symm.trans resolved')
    exact before.wrote

private theorem resolve_of_highest {replies : List (Reply (Promise α))} {found : Proposal α}
    (resolved : Round.highest replies = some found) : Round.resolve replies = some found.value := by
  rw [Round.resolve, resolved]
  rfl

/-- A round that started after a conflict and committed the state after the reported one comes above the round of the
conflict and replaced a value of the reported state. It replaced the very write that the conflict had found if and
only if that write is settled, as it is wherever a majority took it; then it also replaced the same value. -/
theorem conflict_token (acceptors : Nat) (routes : List Route) (before after : List (Action α)) {early late : Nat}
    {a b : Attempt α} {value : Value α} {reported state : UInt64}
    (begun : ((System.initial acceptors routes).run before).attempts[early]? = some a)
    (seen : a.seen = some (some value)) (refused : a.outcome = some (.error (.conflict (some reported))))
    (unasked : ∀ c, ((System.initial acceptors routes).run before).attempts[late]? = some c →
      ∀ (route : Nat) promise, c.promises[route]? ≠ some (some promise))
    (begun' : ((System.initial acceptors routes).run (before ++ after)).attempts[late]? = some b)
    (committed : b.outcome = some (.ok state)) (next : state.toNat = reported.toNat + 1) :
    let last := (System.initial acceptors routes).run (before ++ after)
    reported = value.state ∧ a.ballot < b.ballot ∧
      (∃ replaced, b.seen = some (some replaced) ∧ replaced.state = reported) ∧
      ∃ found, Round.highest a.heard = some found ∧ found.value = value ∧
        (Round.highest b.heard = some found ↔ last.Settled found) ∧
        (last.Settled found → b.seen = some (some value)) ∧
        (∀ writer c draft, last.Entered writer c draft → found = ⟨c.ballot, draft.next⟩ → c.Chosen →
          last.Settled found) := by
  intro last
  have valid := (Valid.initial (α := α) acceptors routes).run before
  have split : last = ((System.initial acceptors routes).run before).run after := run_append _ before after
  have valid' : Valid last := (Valid.initial acceptors routes).run (before ++ after)
  have sound := valid.rounds early a begun
  have sound' := valid'.rounds late b begun'
  have elected : a.Elected := by
    by_contra unelected
    rw [Attempt.seen, if_neg unelected] at seen
    cases seen
  have resolved : Round.resolve a.heard = some value := by
    rw [Attempt.seen, if_pos elected] at seen
    exact Option.some.inj seen
  obtain ⟨found, highest, rfl⟩ := Option.map_eq_some_iff.1 resolved
  have told : reported = found.value.state := by
    have current := sound.error_current elected refused
    rw [resolved] at current
    exact Option.some.inj current
  obtain ⟨draft, entered, rfl⟩ := valid'.committed_entered begun' committed
  have elected' := valid'.elected entered
  have chosen := sound'.chosen committed
  obtain ⟨replaced, highest', state'⟩ : ∃ replaced, Round.highest b.heard = some replaced ∧
      replaced.value.state = reported := by
    cases highest' : Round.highest b.heard with
    | none =>
      rw [valid'.resolved_nothing entered highest'] at next
      cases next
    | some replaced =>
      have advanced := (valid'.resolved_below entered highest').2
      exact ⟨replaced, rfl, UInt64.toNat_inj.1 (by omega)⟩
  obtain ⟨chain, writer, history, member, wrote⟩ := valid'.resolved_behind entered highest'
  have seen' : b.seen = some (some replaced.value) := by
    rw [Attempt.seen, if_pos elected', resolve_of_highest highest']
  have same (settled : last.Settled found) : replaced = found :=
    valid'.settled_once begun' chosen history member wrote settled (state'.trans told)
  have order : a.ballot < b.ballot := valid.elected_above begun elected unasked after (split ▸ begun') elected'
  refine ⟨told, order, ⟨replaced.value, seen', state'⟩, found, highest, rfl, ⟨?_, ?_⟩, ?_, ?_⟩
  · intro replacedIt
    obtain rfl := Option.some.inj (highest'.symm.trans replacedIt)
    exact ⟨late, writer, b, chain, begun', chosen, history, member, wrote⟩
  · intro settled
    rw [highest', same settled]
  · intro settled
    rw [seen', same settled]
  · rintro writer c draft' entered' rfl taken
    exact valid'.settled_of_chosen entered' taken

private def reporting (takers : List Nat) : List (Action String) :=
  [.join 1, .start 0 (compareAndSet none "first"), .prepare 0 0, .prepare 0 1, .resolve 0 fun _ => none] ++
    takers.map (.accept 0) ++ [.conclude 0 fun _ => none, .start 0 (compareAndSet none "other"), .prepare 1 0,
      .prepare 1 1, .resolve 1 fun _ => none]

private def elsewhere (round : Nat) (expected : Option UInt64) (payload : String) : List (Action String) :=
  [.start 0 (compareAndSet expected payload), .prepare round 1, .prepare round 2, .resolve round fun _ => none,
    .accept round 1, .accept round 2, .conclude round fun _ => none]

/-- Two acceptors take the first write, so the retry replaces what the conflict had found. -/
theorem conflict_token_committed :
    ∃ a b, ((System.initial 3 threeRoutes).run (reporting [0, 1])).attempts[1]? = some a ∧
      a.seen = some (some ⟨"first", 0⟩) ∧ a.outcome = some (.error (.conflict (some 0))) ∧
      ((System.initial 3 threeRoutes).run (reporting [0, 1])).attempts[2]? = none ∧
      ((System.initial 3 threeRoutes).run (reporting [0, 1] ++ elsewhere 2 (some 0) "next")).attempts[2]? = some b ∧
      b.outcome = some (.ok 1) ∧ (1 : UInt64).toNat = (0 : UInt64).toNat + 1 ∧
      b.seen = some (some ⟨"first", 0⟩) := by
  obtain ⟨a, begun, seen, refused⟩ : ∃ a, ((System.initial 3 threeRoutes).run (reporting [0, 1])).attempts[1]? = some a ∧
      a.seen = some (some ⟨"first", 0⟩) ∧ a.outcome = some (.error (.conflict (some 0))) := ⟨_, rfl, rfl, rfl⟩
  obtain ⟨b, begun', committed⟩ : ∃ b,
      ((System.initial 3 threeRoutes).run (reporting [0, 1] ++ elsewhere 2 (some 0) "next")).attempts[2]? = some b ∧
        b.outcome = some (.ok 1) := ⟨_, rfl, rfl⟩
  obtain ⟨c, draft, entered, chosen, written⟩ : ∃ c draft,
      ((System.initial 3 threeRoutes).run (reporting [0, 1] ++ elsewhere 2 (some 0) "next")).Entered 0 c draft ∧ c.Chosen ∧
        Proposal.mk c.ballot draft.next = ⟨⟨1, 1⟩, ⟨"first", 0⟩⟩ := ⟨_, _, ⟨rfl, rfl⟩, by decide, rfl⟩
  have found : Round.highest a.heard = some ⟨⟨1, 1⟩, ⟨"first", 0⟩⟩ := by
    cases begun
    rfl
  have absent : ((System.initial 3 threeRoutes).run (reporting [0, 1])).attempts[2]? = none := rfl
  have unasked : ∀ c, ((System.initial 3 threeRoutes).run (reporting [0, 1])).attempts[2]? = some c →
      ∀ (route : Nat) promise, c.promises[route]? ≠ some (some promise) := by
    intro c begun
    rw [absent] at begun
    cases begun
  obtain ⟨_, _, _, found', highest, _, _, kept, settled⟩ := conflict_token 3 threeRoutes (reporting [0, 1])
    (elsewhere 2 (some 0) "next") begun seen refused unasked begun' committed rfl
  obtain rfl := Option.some.inj (found.symm.trans highest)
  exact ⟨a, b, begun, seen, refused, absent, begun', committed, rfl, kept (settled 0 c draft entered written.symm chosen)⟩

/-- One acceptor alone takes the first write. After the conflict has reported it another round finds the register
empty and commits, and the retry replaces that other value. -/
theorem reported_value_lost :
    (threeRoutes.map (·.acceptor)).Nodup ∧
      ∃ a b, ((System.initial 3 threeRoutes).run (reporting [0])).attempts[1]? = some a ∧
        a.seen = some (some ⟨"first", 0⟩) ∧ a.outcome = some (.error (.conflict (some 0))) ∧
        ((System.initial 3 threeRoutes).run (reporting [0])).attempts[3]? = none ∧
        ((System.initial 3 threeRoutes).run (reporting [0] ++ (elsewhere 2 none "second" ++
          elsewhere 3 (some 0) "next"))).attempts[3]? = some b ∧
        b.transform = compareAndSet (some 0) "next" ∧ b.outcome = some (.ok 1) ∧
        b.seen = some (some ⟨"second", 0⟩) :=
  ⟨by decide, _, _, rfl, rfl, rfl, rfl, rfl, rfl, rfl, rfl⟩

end Synod.System
