import Mathlib.Data.Set.Card
import Synod.Proofs.PhaseDelivery
import Synod.Proofs.QuorumIntersection
import Synod.Proofs.RecordSteps
import Synod.Proofs.RoundDecision

/-! What a round leaves behind. Links may lose requests and replies and refuse for their acceptors, so a proposer
hears less than was done. It never hears more: a vote that is counted was given, and what an acceptor holds after the
round it held before or was sent by the round. -/

namespace Synod

variable {α σ ρ : Type}

namespace Round

def Channel.logged (channel : Channel σ α) : Channel (σ × List (String × Request α)) α where
  endpoints := channel.endpoints
  prepare ballot world :=
    let answers := channel.prepare ballot world.1
    ⟨answers.replies, answers.events, answers.world, world.2 ++ channel.endpoints.map (·, .prepare ballot)⟩
  accept ballot value world :=
    let answers := channel.accept ballot value world.1
    ⟨answers.replies, answers.events, answers.world, world.2 ++ channel.endpoints.map (·, .accept ballot value)⟩

def sent (node : UInt64) (ballot : Ballot) (channel : Channel σ α) (transform : Transform α) (world : σ) :
    List (String × Request α) :=
  (run node ballot channel.logged transform (world, [])).2.2

def accepting : Except ProposeError UInt64 → Bool
  | .ok _ | .error (.quorumUnavailable .accept ..) => true
  | .error _ => false

variable {node : UInt64} {ballot : Ballot} {channel : Channel σ α} {transform : Transform α} {world : σ}

/-- A round that ends before its accept phase has sent its prepare requests and nothing else. -/
theorem run_prepared (ended : accepting (run node ballot channel transform world).1.outcome = false) :
    (run node ballot channel transform world).1.accepts = none ∧
      (run node ballot channel transform world).2 = (channel.prepare ballot world).world ∧
      sent node ballot channel transform world = channel.endpoints.map (·, .prepare ballot) := by
  cases drafted : draft transform (channel.prepare ballot world).replies with
  | error error => simp only [sent, run, Channel.logged, drafted, List.nil_append, and_self]
  | ok draft =>
    simp only [run, drafted] at ended
    cases concluded : conclude draft (channel.accept ballot draft.next (channel.prepare ballot world).world).replies with
    | ok state =>
      rw [concluded] at ended
      cases ended
    | error error =>
      obtain ⟨_, rfl⟩ := conclude_error concluded
      rw [concluded] at ended
      cases ended

end Round

def Call.Honest (agrees : ρ → Bool) (call : Call ρ) : Prop :=
  ∀ reply, call.fate = .forged reply → agrees reply = false

/-- A link that may lose what it carries and refuse in the place of its acceptor, but grants nothing of its own. -/
def Link.Honest (l : Link α) : Prop :=
  match l.kind with
  | .direct | .simulated _ | .faulty .. => True
  | .canned promises accepteds =>
    (∀ promise, .ok promise ∈ promises → promise.ok = false) ∧ ∀ accepted, .ok accepted ∈ accepteds → accepted.ok = false

/-- The acceptor in this place hears of one of the calls and agrees to it. -/
def Delivery.Granted (visit : Visit α ρ) (agrees : ρ → Bool) (calls : List (Call ρ)) (acceptors : List (Acceptor α))
    (place : Nat) : Prop :=
  place ∈ hearers calls ∧ ∃ acceptor, acceptors[place]? = some acceptor ∧ agrees (visit.answer acceptor).1 = true

private theorem Delivery.deliver_granted {visit : Visit α ρ} {agrees : ρ → Bool} {call : Call ρ}
    {acceptors : List (Acceptor α)}
    (honest : call.Honest agrees) (granted : (deliver visit call acceptors).1.vote agrees = .grant) :
    call.heard = true ∧ ∃ acceptor, acceptors[call.acceptor]? = some acceptor ∧ agrees (visit.answer acceptor).1 = true := by
  unfold deliver at granted
  cases fate : call.fate with
  | dropped error =>
    rw [fate] at granted
    cases granted
  | forged reply =>
    rw [fate] at granted
    simp [Reply.vote, honest reply fate] at granted
  | answered =>
    rw [fate] at granted
    refine ⟨by rw [Call.heard, fate], ?_⟩
    cases found : acceptors[call.acceptor]? with
    | none =>
      rw [found] at granted
      cases granted
    | some acceptor =>
      rw [found] at granted
      obtain ⟨_, answer, agreed⟩ := Reply.vote_grant.1 granted
      cases answer
      exact ⟨acceptor, rfl, agreed⟩
  | replyLost error =>
    rw [fate] at granted
    cases found : acceptors[call.acceptor]? with
    | none =>
      rw [found] at granted
      cases granted
    | some acceptor =>
      rw [found] at granted
      cases granted

private theorem length_le_ncard {places : List Nat} {property : Nat → Prop} (distinct : places.Nodup)
    (holds : ∀ place ∈ places, property place) (finite : {place | property place}.Finite) :
    places.length ≤ {place | property place}.ncard := by
  rw [← List.toFinset_card_of_nodup distinct, ← Set.ncard_coe_finset]
  apply Set.ncard_le_ncard _ finite
  rw [List.coe_toFinset]
  exact holds

private theorem Delivery.granted_finite (visit : Visit α ρ) (agrees : ρ → Bool) (calls : List (Call ρ))
    (acceptors : List (Acceptor α)) : {place | Granted visit agrees calls acceptors place}.Finite := by
  apply (List.finite_toSet (hearers calls)).subset
  rintro place ⟨hears, _⟩
  exact hears

/-- No vote is counted that was not given: each one stands for an acceptor of its own. -/
theorem Delivery.granted_le {visit : Visit α ρ} {agrees : ρ → Bool} {calls : List (Call ρ)}
    {acceptors : List (Acceptor α)} (honest : ∀ call ∈ calls, call.Honest agrees) (distinct : (hearers calls).Nodup) :
    (tally agrees (phase visit calls acceptors).replies).granted ≤
      {place | Granted visit agrees calls acceptors place}.ncard := by
  -- Counted are the replies, one for each call; those that grant come from calls that were heard, and of these no two
  -- went to one acceptor.
  let grants (call : Call ρ) : Bool := (deliver visit call acceptors).1.vote agrees = .grant
  let voters := (calls.filter (·.heard)).filter grants
  have votes : (tally agrees (phase visit calls acceptors).replies).granted = (voters.map (·.acceptor)).length := by
    rw [tally, Tally.ofVotes_eq, (phase_apart visit acceptors distinct).1, List.length_map]
    change List.count Vote.grant (List.map _ _) = ((calls.filter (·.heard)).filter grants).length
    rw [List.filter_filter, ← List.countP_eq_length_filter, List.count, List.map_map, List.countP_map]
    apply List.countP_congr
    intro call member
    simp only [Function.comp_apply, beq_iff_eq, Bool.and_eq_true, grants, decide_eq_true_eq]
    exact ⟨fun granted => ⟨granted, (deliver_granted (honest call member) granted).1⟩, And.left⟩
  have separate : (voters.map (·.acceptor)).Nodup := distinct.sublist (List.filter_sublist.map _)
  rw [votes]
  refine length_le_ncard separate ?_ (granted_finite visit agrees calls acceptors)
  intro place member
  obtain ⟨call, voter, rfl⟩ := List.mem_map.1 member
  obtain ⟨hears, granted⟩ := List.mem_filter.1 voter
  refine ⟨List.mem_map_of_mem hears, ?_⟩
  exact (deliver_granted (honest call (List.mem_filter.1 hears).1) (of_decide_eq_true granted)).2

namespace Cluster

/-- The links of these places lead to different acceptors and do not grant in their place. -/
structure Reaches (c : Cluster α) (places : List Nat) : Prop where
  honest : ∀ place ∈ places, ∃ link, c.links[place]? = some link ∧ link.Honest
  distinct : (places.map ((c.links.map (·.acceptor))[·]?)).Nodup

def Granted (visit : Visit α ρ) (agrees : ρ → Bool) (next : Link α → Call ρ × Link α) (places : List Nat) (c : Cluster α)
    (place : Nat) : Prop :=
  Delivery.Granted visit agrees (dial next places c.links).1 c.acceptors place

variable {visit : Visit α ρ} {agrees : ρ → Bool} {next : Link α → Call ρ × Link α} {places : List Nat} {c : Cluster α}

theorem dial_length (next : Link α → Call ρ × Link α) (places : List Nat) (links : List (Link α)) :
    (dial next places links).1.length = places.length := by
  induction places generalizing links with
  | nil => rfl
  | cons place rest ih =>
    simp only [dial]
    split
    · rw [List.length_cons, List.length_cons, ih]
    · rw [List.length_cons, List.length_cons, ih]

structure Traced (visit : Visit α ρ) (agrees : ρ → Bool) (next : Link α → Call ρ × Link α) (places : List Nat)
    (c : Cluster α) (answers : Round.Answers (Cluster α) ρ) : Prop where
  asked : answers.replies.length = places.length
  counted : (tally agrees answers.replies).granted ≤ {place | c.Granted visit agrees next places place}.ncard
  left : ∀ place : Nat, answers.world.acceptors[place]? = c.acceptors[place]? ∨
    answers.world.acceptors[place]? = c.acceptors[place]?.map fun acceptor => (visit.answer acceptor).2
  granted : ∀ place, c.Granted visit agrees next places place →
    answers.world.acceptors[place]? = c.acceptors[place]?.map fun acceptor => (visit.answer acceptor).2
  reaches : answers.world.Reaches places

theorem Reaches.phase (reaches : c.Reaches places) (makes : Link.Makes next Link.Honest (Call.Honest agrees))
    (visit : Visit α ρ) : Traced visit agrees next places c (Cluster.phase visit next places c) := by
  obtain ⟨honest, reached, kept, table⟩ := dial_makes makes places c.links reaches.honest
  have separate : (Delivery.hearers (dial next places c.links).1).Nodup :=
    Delivery.hearers_nodup (reached ▸ reaches.distinct)
  obtain ⟨replies, _, world⟩ := Delivery.phase_apart visit c.acceptors separate
  constructor
  case asked =>
    change (Delivery.phase visit (dial next places c.links).1 c.acceptors).replies.length = places.length
    rw [replies, List.length_map, dial_length]
  case counted => exact Delivery.granted_le honest separate
  case left =>
    intro place
    change (Delivery.phase visit (dial next places c.links).1 c.acceptors).world[place]? = _ ∨
      (Delivery.phase visit (dial next places c.links).1 c.acceptors).world[place]? = _
    rw [world]
    split
    · exact .inr rfl
    · exact .inl rfl
  case granted =>
    intro place granted
    exact (world place).trans (if_pos granted.1)
  case reaches =>
    refine ⟨?_, ?_⟩
    · intro place member
      obtain ⟨link, found, fits⟩ := reaches.honest place member
      exact kept place link found fits
    · have distinct := reaches.distinct
      rwa [← table] at distinct

section

variable {ballot : Ballot} {value : Value α} {place : Nat} {acceptor : Acceptor α}

theorem Traced.prepared {answers : Round.Answers (Cluster α) (Promise α)}
    (traced : Traced (.prepare ballot) Promise.ok Link.prepare places c answers)
    (held : c.acceptors[place]? = some acceptor) :
    ∃ acceptor', answers.world.acceptors[place]? = some acceptor' ∧
      acceptor'.record.accepted = acceptor.record.accepted ∧
      (acceptor'.record.promised = acceptor.record.promised ∨
        acceptor.record.promised < ballot ∧ acceptor'.record.promised = ballot) := by
  rcases traced.left place with same | answered
  · exact ⟨acceptor, same.trans held, rfl, .inl rfl⟩
  · rw [held] at answered
    refine ⟨_, answered, acceptor.record.prepare_accepted ballot, ?_⟩
    have mark := acceptor.record.prepare_promised ballot
    rcases lt_or_ge acceptor.record.promised ballot with above | stale
    · exact .inr ⟨above, mark.trans (max_eq_right (le_of_lt above))⟩
    · exact .inl (mark.trans (max_eq_left stale))

theorem Traced.accepted {answers : Round.Answers (Cluster α) Accepted}
    (traced : Traced (.accept ballot value) Accepted.ok Link.accept places c answers)
    (held : c.acceptors[place]? = some acceptor) :
    ∃ acceptor', answers.world.acceptors[place]? = some acceptor' ∧
      (acceptor'.record = acceptor.record ∨ acceptor'.record = ⟨ballot, some ⟨ballot, value⟩⟩) := by
  rcases traced.left place with same | answered
  · exact ⟨acceptor, same.trans held, .inl rfl⟩
  · rw [held] at answered
    refine ⟨_, answered, ?_⟩
    rcases lt_or_ge ballot acceptor.record.promised with stale | reached
    · exact .inl (congrArg Prod.snd (Record.accept_stale stale value))
    · exact .inr (congrArg Prod.snd (Record.accept_reached reached value))

/-- The acceptor in this place holds the proposal, and has promised nothing above it. -/
def Holds (c : Cluster α) (proposal : Proposal α) (place : Nat) : Prop :=
  c.acceptors[place]?.map (·.record) = some ⟨proposal.ballot, some proposal⟩

theorem Traced.holds {answers : Round.Answers (Cluster α) Accepted}
    (traced : Traced (.accept ballot value) Accepted.ok Link.accept places c answers)
    (granted : c.Granted (.accept ballot value) Accepted.ok Link.accept places place) :
    answers.world.Holds ⟨ballot, value⟩ place := by
  obtain ⟨acceptor, held, agreed⟩ := granted.2
  have reached : acceptor.record.promised ≤ ballot := by
    by_contra stale
    have refused := congrArg Prod.fst (Record.accept_stale (not_le.1 stale) value)
    exact Bool.false_ne_true ((congrArg Accepted.ok refused).symm.trans agreed)
  have answered := traced.granted place granted
  rw [held] at answered
  rw [Holds, answered]
  exact congrArg some (congrArg Prod.snd (Record.accept_reached reached value))

end

end Cluster

end Synod
