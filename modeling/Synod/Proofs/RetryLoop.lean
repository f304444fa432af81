import Mathlib.Data.Finset.Lattice.Fold
import Mathlib.Data.Set.Card
import Mathlib.Order.Lattice.Nat
import Synod.Proofs.RoundTraces
import Synod.Proofs.WorkingMajority

/-! Trying again. A proposer whose ballots are too low is not told how far it lags behind, but each try takes it one
round further, and the acceptors that it cannot reach stay where they are. So it passes the marks of a working majority
after as many tries as there are rounds between, and then what it resolves changes no more until it commits. -/

namespace Synod

variable {α σ ρ : Type}

/-- A call that goes to its acceptor and back if the acceptor works, and is lost on the way there if it does not. -/
def Call.Sided (working : Finset Nat) (call : Call ρ) : Prop :=
  (call.acceptor ∈ working → call.fate = .answered) ∧ (call.acceptor ∉ working → ∃ error, call.fate = .dropped error)

namespace Link

/-- A link that makes only such calls in either phase, whatever it was asked before: it is of a kind of links that do,
and stay of that kind. -/
def Steady (made : (ρ : Type) → Call ρ → Prop) (l : Link α) : Prop :=
  ∃ fit : Link α → Prop, fit l ∧ Makes Link.prepare fit (made (Promise α)) ∧ Makes Link.accept fit (made Accepted)

def Works (l : Link α) : Prop := l.Steady fun _ call => call.fate = .answered

def Dead (l : Link α) : Prop := l.Steady fun _ call => ∃ error, call.fate = .dropped error

/-- Working links lead to the working acceptors and dead ones to the rest. -/
def Sided (working : Finset Nat) (l : Link α) : Prop :=
  (l.acceptor ∈ working → l.Works) ∧ (l.acceptor ∉ working → l.Dead)

private theorem steady_prepare (made : (ρ : Type) → Call ρ → Prop) :
    Makes (α := α) Link.prepare (Steady made) (made (Promise α)) := by
  rintro l ⟨fit, fits, prepares, accepts⟩
  obtain ⟨called, reached, fits', same⟩ := prepares l fits
  exact ⟨called, reached, ⟨fit, fits', prepares, accepts⟩, same⟩

private theorem steady_accept (made : (ρ : Type) → Call ρ → Prop) :
    Makes (α := α) Link.accept (Steady made) (made Accepted) := by
  rintro l ⟨fit, fits, prepares, accepts⟩
  obtain ⟨called, reached, fits', same⟩ := accepts l fits
  exact ⟨called, reached, ⟨fit, fits', prepares, accepts⟩, same⟩

private theorem FaultFree.works {l : Link α} (faultFree : l.FaultFree) : l.Works :=
  ⟨FaultFree, faultFree, prepare_answers, accept_answers⟩

private theorem simulate_cutOff {l : Link α} {s : Simulation} (cut : s.cutOff = true) :
    l.simulate (ρ := ρ) s = (l.call (.dropped (.unreachable l.endpoint)), s) := if_pos cut

private theorem dead_of_cutOff {l : Link α} (cut : l.isCutOff = true) : l.Dead := by
  refine ⟨fun l => l.isCutOff = true, cut, ?_, ?_⟩ <;>
  · rintro ⟨endpoint, acceptor, kind⟩ cut
    cases kind with
    | simulated s =>
      simp only [prepare, accept, simulate_cutOff cut]
      exact ⟨⟨_, rfl⟩, rfl, cut, trivial⟩
    | direct | faulty | canned => cases cut

private theorem Makes.sided {next : Link α → Call ρ × Link α}
    (works : Makes next Works fun call => call.fate = .answered)
    (dead : Makes next Dead fun call => ∃ error, call.fate = .dropped error) (working : Finset Nat) :
    Makes next (Sided working) (Call.Sided working) := by
  intro l sided
  by_cases member : l.acceptor ∈ working
  · obtain ⟨answered, reached, stays, same⟩ := works l (sided.1 member)
    refine ⟨⟨fun _ => answered, fun absent => ?_⟩, reached, ⟨fun _ => stays, fun absent => ?_⟩, same⟩
    · exact absurd (reached ▸ member) absent
    · exact absurd (same ▸ member) absent
  · obtain ⟨dropped, reached, stays, same⟩ := dead l (sided.2 member)
    refine ⟨⟨fun present => ?_, fun _ => dropped⟩, reached, ⟨fun present => ?_, fun _ => stays⟩, same⟩
    · exact absurd (reached ▸ present) member
    · exact absurd (same ▸ present) member

end Link

namespace Delivery

variable {working : Finset Nat} {ballot : Ballot} {acceptors : List (Acceptor α)} {calls : List (Call ρ)}
  {prepares : List (Call (Promise α))}

theorem Answering.mono {grants : Finset Nat} (heard : Answering working calls acceptors) (among : grants ⊆ working) :
    Answering grants calls acceptors :=
  ⟨heard.apart, fun place member => heard.answered place (among member),
    fun place member => heard.held place (among member)⟩

def report (working : Finset Nat) (ballot : Ballot) (acceptors : List (Acceptor α)) (place : Nat) :
    Option (Proposal α) :=
  if place ∈ working then
    acceptors[place]?.bind fun acceptor => if acceptor.record.promised < ballot then acceptor.record.accepted else none
  else none

private theorem reported_sided {call : Call (Promise α)} (sided : call.Sided working) :
    Round.reported? (deliver (.prepare ballot) call acceptors).1 = report working ballot acceptors call.acceptor := by
  by_cases member : call.acceptor ∈ working
  · rw [report, if_pos member]
    cases found : acceptors[call.acceptor]? with
    | none => simp only [deliver, sided.1 member, found, Round.reported?, Option.bind_none]
    | some acceptor =>
      rw [deliver_answered (sided.1 member) found, Option.bind_some]
      rcases lt_or_ge acceptor.record.promised ballot with above | stale
      · rw [if_pos above]
        simp only [Visit.prepare, Acceptor.prepare, Record.prepare_above above]
        exact Promise.accepted?_granted _
      · rw [if_neg (not_lt.2 stale)]
        simp only [Visit.prepare, Acceptor.prepare, Record.prepare_stale stale]
        rfl
  · obtain ⟨error, dropped⟩ := sided.2 member
    rw [report, if_neg member]
    simp only [deliver, dropped, Round.reported?]

/-- The reports come from the working acceptors, in the order of the links. -/
theorem reports_sided (sided : ∀ call ∈ prepares, call.Sided working) (apart : (hearers prepares).Nodup) :
    Round.reports (phase (.prepare ballot) prepares acceptors).replies =
      (prepares.map (·.acceptor)).filterMap (report working ballot acceptors) := by
  rw [(phase_apart _ acceptors apart).1, Round.reports, List.filterMap_map, List.filterMap_map]
  exact List.filterMap_congr fun call member => reported_sided (sided call member)

/-- Every promise that is counted was given by a working acceptor whose mark was below the ballot. -/
theorem granted_sided (sided : ∀ call ∈ prepares, call.Sided working) (apart : (hearers prepares).Nodup)
    (ballot : Ballot) (acceptors : List (Acceptor α)) : ∃ grants ⊆ working, Unfenced grants ballot acceptors ∧
      (tally Promise.ok (phase (.prepare ballot) prepares acceptors).replies).granted ≤ grants.card := by
  classical
  let grants := working.filter fun place => Unfenced {place} ballot acceptors
  refine ⟨grants, Finset.filter_subset _ _, ?_, ?_⟩
  · intro place member acceptor found
    exact (Finset.mem_filter.1 member).2 place (Finset.mem_singleton_self place) acceptor found
  · have honest : ∀ call ∈ prepares, call.Honest Promise.ok := by
      intro call member reply forged
      by_cases works : call.acceptor ∈ working
      · cases forged.symm.trans ((sided call member).1 works)
      · obtain ⟨error, dropped⟩ := (sided call member).2 works
        cases forged.symm.trans dropped
    refine (granted_le honest apart).trans ?_
    rw [← Set.ncard_coe_finset]
    refine Set.ncard_le_ncard ?_ grants.finite_toSet
    rintro place ⟨hears, acceptor, found, granted⟩
    obtain ⟨call, hearer, rfl⟩ := List.mem_map.1 hears
    obtain ⟨member, heard⟩ := List.mem_filter.1 hearer
    refine Finset.mem_coe.2 (Finset.mem_filter.2 ⟨?_, ?_⟩)
    · by_contra absent
      obtain ⟨error, dropped⟩ := (sided call member).2 absent
      rw [Call.heard, dropped] at heard
      cases heard
    · intro place single acceptor' found'
      obtain rfl := Finset.mem_singleton.1 single
      cases found.symm.trans found'
      exact (acceptor.record.prepare_granted ballot).1 granted

/-- A round that was promised its ballot is not refused afterwards: those that promised it are still there. -/
theorem Answering.commits {channel : Round.Channel σ α} {view : σ → List (Acceptor α)} {world : σ}
    {accepts : Value α → List (Call Accepted)} (carries : channel.Carries view ballot world prepares accepts)
    (heard : Answering working prepares (view world)) (heard' : ∀ value, Answering working (accepts value) (view world))
    (sided : ∀ call ∈ prepares, call.Sided working) (same : ∀ value, (accepts value).length = prepares.length)
    (node : UInt64) {transform : Transform α} {draft : Round.Draft α}
    (drafted : Round.draft transform (channel.prepare ballot world).replies = .ok draft) :
    (Round.run node ballot channel transform world).1.outcome = .ok draft.next.state := by
  obtain ⟨grants, among, unfenced, counted⟩ := granted_sided sided heard.apart ballot (view world)
  have many : majority prepares.length ≤ grants.card := by
    have majority := (Round.draft_ok drafted).1
    rw [carries.promises, Tally.HasMajority, heard.phase_length] at majority
    exact majority.trans counted
  obtain ⟨_, goes⟩ :=
    (heard.mono among).run carries (fun value => (heard' value).mono among) same many unfenced node transform
  rw [drafted] at goes
  exact goes.1

end Delivery

/-- A compare-and-set gives up only where the register holds a value, and holds it at some other state. -/
theorem compareAndSet_abort {expected : Option UInt64} {payload : α} {current : Option (Value α)}
    (gaveUp : compareAndSet expected payload current = .abort) :
    ∃ value, current = some value ∧ expected ≠ some value.state := by
  cases current with
  | none => cases gaveUp
  | some value =>
    simp only [compareAndSet] at gaveUp
    split at gaveUp
    · cases gaveUp
    next other => exact ⟨value, rfl, other⟩

private theorem Ballot.round_max (first second : Ballot) :
    (max first second).round.toNat ≤ max first.round.toNat second.round.toNat := by
  rcases max_choice first second with same | same
  · rw [same]
    exact le_max_left _ _
  · rw [same]
    exact le_max_right _ _

namespace Cluster

/-- Write as soon as the register stands as expected, once for each payload until one is committed. A try that fails
after it saw the register expects from then on what it saw. -/
def retry (expected : Option UInt64) (p : Proposer) (c : Cluster α) : List α → List (Round.Report α × Cluster α)
  | [] => []
  | payload :: rest =>
    let (report, p', c') := c.propose p (compareAndSet expected payload)
    match report.outcome with
    | .ok _ => [(report, c')]
    | .error error => (report, c') :: retry (error.currentState.or expected) p' c' rest

/-- The links of these places lead to different acceptors, among them the working ones. -/
structure Split (c : Cluster α) (places : List Nat) (working : Finset Nat) : Prop where
  linked : ∀ place ∈ places, ∃ link, c.links[place]? = some link ∧ link.Sided working
  distinct : (places.map ((c.links.map (·.acceptor))[·]?)).Nodup
  reached : ∀ acceptor ∈ working, some acceptor ∈ places.map ((c.links.map (·.acceptor))[·]?)
  held : ∀ acceptor ∈ working, acceptor < c.acceptors.length

def topRound (c : Cluster α) (working : Finset Nat) : Nat :=
  working.sup fun place => (c.acceptors[place]?.map (·.record.promised.round.toNat)).getD 0

def accepted (c : Cluster α) (places : List Nat) (working : Finset Nat) : List (Proposal α) :=
  places.filterMap fun place => (c.links.map (·.acceptor))[place]?.bind fun acceptor =>
    if acceptor ∈ working then (c.acceptors.map (·.record.accepted))[acceptor]?.join else none

def settled (c : Cluster α) (places : List Nat) (working : Finset Nat) : Option (Value α) :=
  ((c.accepted places working).foldl Round.higher none).map (·.value)

structure Kept (c c' : Cluster α) : Prop where
  table : c'.links.map (·.acceptor) = c.links.map (·.acceptor)
  accepted : c'.acceptors.map (·.record.accepted) = c.acceptors.map (·.record.accepted)

theorem Kept.settled {c c' : Cluster α} (kept : Kept c c') (places : List Nat) (working : Finset Nat) :
    c'.settled places working = c.settled places working := by
  simp only [Cluster.settled, Cluster.accepted, kept.table, kept.accepted]

variable {c : Cluster α} {places : List Nat} {working : Finset Nat} {ballot : Ballot}

section

structure Dialed (c : Cluster α) (places : List Nat) (working : Finset Nat) (calls : List (Call ρ))
    (links : List (Link α)) : Prop where
  sided : ∀ call ∈ calls, call.Sided working
  behind : calls.map (some ·.acceptor) = places.map ((c.links.map (·.acceptor))[·]?)
  heard : Delivery.Answering working calls c.acceptors
  table : links.map (·.acceptor) = c.links.map (·.acceptor)
  split : ∀ acceptors : List (Acceptor α), acceptors.length = c.acceptors.length →
    Split ⟨acceptors, links⟩ places working

theorem Split.dial {next : Link α → Call ρ × Link α} (split : c.Split places working)
    (makes : Link.Makes next (Link.Sided working) (Call.Sided working)) :
    Dialed c places working (Cluster.dial next places c.links).1 (Cluster.dial next places c.links).2 := by
  obtain ⟨sided, behind, kept, table⟩ := dial_makes makes places c.links split.linked
  refine ⟨sided, behind, ⟨?_, ?_, split.held⟩, table, ?_⟩
  · exact Delivery.hearers_nodup (behind ▸ split.distinct)
  · intro acceptor member
    have reached := split.reached acceptor member
    rw [← behind] at reached
    obtain ⟨call, among, same⟩ := List.mem_map.1 reached
    cases same
    exact ⟨call, among, rfl, (sided call among).1 member⟩
  · intro acceptors size
    refine ⟨?_, ?_, ?_, ?_⟩
    · intro place member
      obtain ⟨link, found, sided⟩ := split.linked place member
      exact kept place link found sided
    · exact table.symm ▸ split.distinct
    · exact table.symm ▸ split.reached
    · exact fun acceptor member => size ▸ split.held acceptor member

theorem Split.prepares (split : c.Split places working) :
    Dialed c places working (Cluster.dial Link.prepare places c.links).1 (Cluster.dial Link.prepare places c.links).2 :=
  split.dial ((Link.steady_prepare _).sided (Link.steady_prepare _) working)

theorem Split.accepts (split : c.Split places working) :
    Dialed c places working (Cluster.dial Link.accept places c.links).1 (Cluster.dial Link.accept places c.links).2 :=
  split.dial ((Link.steady_accept _).sided (Link.steady_accept _) working)

end

theorem Split.reports (split : c.Split places working) (ballot : Ballot) :
    Round.reports ((c.channel places).prepare ballot c).replies = places.filterMap fun place =>
      (c.links.map (·.acceptor))[place]?.bind (Delivery.report working ballot c.acceptors) := by
  have dialed := split.prepares
  rw [(c.carries places ballot).promises, Delivery.reports_sided dialed.sided dialed.heard.apart]
  calc ((Cluster.dial Link.prepare places c.links).1.map (·.acceptor)).filterMap
          (Delivery.report working ballot c.acceptors)
    _ = ((Cluster.dial Link.prepare places c.links).1.map (some ·.acceptor)).filterMap
          (·.bind (Delivery.report working ballot c.acceptors)) := by
        rw [List.filterMap_map, List.filterMap_map]
        rfl
    _ = _ := by
        rw [dialed.behind, List.filterMap_map]
        rfl

theorem Split.reports_unfenced (split : c.Split places working)
    (unfenced : Delivery.Unfenced working ballot c.acceptors) :
    Round.reports ((c.channel places).prepare ballot c).replies = c.accepted places working := by
  rw [split.reports, accepted]
  congr 1
  funext place
  congr 1
  funext acceptor
  by_cases member : acceptor ∈ working
  · rw [Delivery.report, if_pos member, if_pos member, List.getElem?_map]
    cases found : c.acceptors[acceptor]? with
    | none => rfl
    | some kept => exact if_pos (unfenced acceptor member kept found)
  · rw [Delivery.report, if_neg member, if_neg member]

/-- Links that split so, with marks of no later round than `top` at the working acceptors and no last state. -/
structure Ready (c : Cluster α) (places : List Nat) (working : Finset Nat) (top : Nat) : Prop where
  split : c.Split places working
  marks : ∀ place ∈ working, ∀ acceptor, c.acceptors[place]? = some acceptor →
    acceptor.record.promised.round.toNat ≤ top
  room : ∀ place ∈ working, ∀ held, (c.acceptors.map (·.record.accepted))[place]? = some (some held) →
    held.value.state ≠ 0xFFFFFFFFFFFFFFFF

variable {top : Nat}

theorem Ready.resolve (ready : c.Ready places working top) (ballot : Ballot) :
    (Round.resolve ((c.channel places).prepare ballot c).replies).map (·.state) ≠ some 0xFFFFFFFFFFFFFFFF := by
  intro last
  obtain ⟨value, resolved, state⟩ := Option.map_eq_some_iff.1 last
  obtain ⟨held, highest, rfl⟩ := Option.map_eq_some_iff.1 resolved
  have reported := (Round.highest_eq_some highest).1
  rw [ready.split.reports, List.mem_filterMap] at reported
  obtain ⟨place, _, reported⟩ := reported
  obtain ⟨acceptor, _, reported⟩ := Option.bind_eq_some_iff.1 reported
  unfold Delivery.report at reported
  split at reported
  next member =>
    obtain ⟨kept, found, granted⟩ := Option.bind_eq_some_iff.1 reported
    split at granted
    · refine ready.room acceptor member held ?_ state
      rw [List.getElem?_map, found, Option.map_some, granted]
    · cases granted
  · cases reported

/-- A prepare phase raises marks to the ballot and does nothing else. -/
theorem Ready.prepared (ready : c.Ready places working top) (ballot : Ballot) :
    Kept c ((c.channel places).prepare ballot c).world ∧
      ((c.channel places).prepare ballot c).world.Ready places working (max top ballot.round.toNat) := by
  have dialed := ready.split.prepares
  obtain ⟨_, size, world⟩ := Delivery.phase_apart (.prepare ballot) c.acceptors dialed.heard.apart
  have kept : Kept c ((c.channel places).prepare ballot c).world := by
    refine ⟨dialed.table, ?_⟩
    apply List.ext_getElem?
    intro place
    rw [(c.carries places ballot).prepared, List.getElem?_map, List.getElem?_map, world]
    split
    · cases c.acceptors[place]? with
      | none => rfl
      | some acceptor => exact congrArg some (acceptor.record.prepare_accepted ballot)
    · rfl
  refine ⟨kept, dialed.split _ size, ?_, ?_⟩
  · intro place member acceptor found
    rw [(c.carries places ballot).prepared, world] at found
    split at found
    · obtain ⟨before, held, rfl⟩ := Option.map_eq_some_iff.1 found
      have mark := ready.marks place member before held
      calc (before.record.prepare ballot).2.promised.round.toNat
        _ = (max before.record.promised ballot).round.toNat := by rw [Record.prepare_promised]
        _ ≤ max before.record.promised.round.toNat ballot.round.toNat := Ballot.round_max _ _
        _ ≤ max top ballot.round.toNat := max_le_max_right _ mark
    · exact (ready.marks place member acceptor found).trans (le_max_left _ _)
  · rw [kept.accepted]
    exact ready.room

section

variable {p : Proposer} {expected : Option UInt64} {payload : α} {error : ProposeError}

/-- A try fails for want of promises, or because the register is not at the expected state. -/
theorem Ready.refused (ready : c.Ready p.links working top)
    (failed : (c.propose p (compareAndSet expected payload)).1.outcome = .error error) :
    let promises := ((c.channel p.links).prepare p.mint.next.1 c).replies
    (¬ (tally Promise.ok promises).HasMajority promises.length ∧
        error = .quorumUnavailable .prepare (tally Promise.ok promises).granted (majority promises.length) none) ∨
      ∃ value, Round.resolve promises = some value ∧ expected ≠ some value.state ∧
        error = .conflict (some value.state) := by
  intro promises
  have prepares := ready.split.prepares
  have accepts := (ready.split.prepares.split c.acceptors rfl).accepts
  cases drafted : Round.draft (compareAndSet expected payload) promises with
  | error cause =>
    simp only [propose, Round.run, promises] at failed drafted
    rw [drafted] at failed
    cases failed
    rcases Round.draft_error drafted with few | ⟨_, ⟨gaveUp, rfl⟩ | ⟨last, _⟩⟩
    · exact .inl few
    · obtain ⟨value, resolved, other⟩ := compareAndSet_abort gaveUp
      exact .inr ⟨value, resolved, other, by rw [resolved]; rfl⟩
    · exact absurd last (ready.resolve _)
  | ok draft =>
    have same : (Cluster.dial Link.accept p.links (Cluster.dial Link.prepare p.links c.links).2).1.length =
        (Cluster.dial Link.prepare p.links c.links).1.length := by rw [dial_length, dial_length]
    have committed := prepares.heard.commits (c.carries p.links p.mint.next.1) (fun _ => accepts.heard) prepares.sided
      (fun _ => same) p.mint.nodeId drafted
    cases committed.symm.trans failed

/-- A try that fails has raised marks to its ballot and done nothing else. -/
theorem Ready.fails (ready : c.Ready p.links working top) (room : p.mint.round.toNat + 1 < 2 ^ 64)
    (failed : (c.propose p (compareAndSet expected payload)).1.outcome = .error error) :
    Kept c (c.propose p (compareAndSet expected payload)).2.2 ∧
      (c.propose p (compareAndSet expected payload)).2.2.Ready p.links working (max top (p.mint.round.toNat + 1)) := by
  have ended : Round.accepting (c.propose p (compareAndSet expected payload)).1.outcome = false := by
    rcases ready.refused failed with ⟨_, rfl⟩ | ⟨_, _, _, rfl⟩ <;> rw [failed] <;> rfl
  have left : (c.propose p (compareAndSet expected payload)).2.2 =
      ((c.channel p.links).prepare p.mint.next.1 c).world := (Round.run_prepared ended).2.1
  rw [left, ← (Mint.next_round room).1]
  exact ready.prepared _

/-- Past the marks of the working acceptors a try fails only if the register is not at the expected state. -/
theorem Ready.past (ready : c.Ready p.links working top) (room : p.mint.round.toNat + 1 < 2 ^ 64)
    (many : majority p.links.length ≤ working.card) (above : top ≤ p.mint.round.toNat)
    (failed : (c.propose p (compareAndSet expected payload)).1.outcome = .error error) :
    ∃ value, c.settled p.links working = some value ∧ expected ≠ some value.state ∧
      error = .conflict (some value.state) := by
  have unfenced : Delivery.Unfenced working p.mint.next.1 c.acceptors := by
    intro place member acceptor found
    have mark := ready.marks place member acceptor found
    have minted := (Mint.next_round room).1
    exact Ballot.lt_of_round (by omega)
  rcases ready.refused failed with ⟨few, _⟩ | ⟨value, resolved, other⟩
  · refine absurd ?_ few
    have heard := ready.split.prepares.heard
    rw [Tally.HasMajority, (c.carries p.links p.mint.next.1).promises, heard.phase_length, dial_length]
    exact many.trans (heard.promised unfenced)
  · refine ⟨value, ?_, other⟩
    rw [← resolved, settled, ← ready.split.reports_unfenced unfenced]
    rfl

end

/-- A try that was not granted its ballot, or found the register at some other state than it expected, and left
everything that the acceptors had accepted as it was. -/
def Fruitless (c : Cluster α) (tried : Round.Report α × Cluster α) : Prop :=
  ((∃ granted needed, tried.1.outcome = .error (.quorumUnavailable .prepare granted needed none)) ∨
      ∃ state, tried.1.outcome = .error (.conflict (some state))) ∧
    tried.2.acceptors.map (·.record.accepted) = c.acceptors.map (·.record.accepted)

def Converges (c : Cluster α) (tries : List (Round.Report α × Cluster α)) : Prop :=
  ∃ failed last state, tries = failed ++ [last] ∧ last.1.outcome = .ok state ∧ ∀ tried ∈ failed, c.Fruitless tried

theorem Converges.cons {c c' : Cluster α} {tried : Round.Report α × Cluster α}
    {tries : List (Round.Report α × Cluster α)} (kept : Kept c c') (fruitless : c.Fruitless tried)
    (converges : c'.Converges tries) : c.Converges (tried :: tries) := by
  obtain ⟨failed, last, state, rfl, committed, before⟩ := converges
  refine ⟨tried :: failed, last, state, rfl, committed, ?_⟩
  intro other member
  rcases List.mem_cons.1 member with rfl | member
  · exact fruitless
  · exact ⟨(before other member).1, (before other member).2.trans kept.accepted⟩

section

variable {p : Proposer} {expected : Option UInt64} {payload : α} {payloads : List α} {error : ProposeError}

private theorem retry_ok {state : UInt64}
    (committed : (c.propose p (compareAndSet expected payload)).1.outcome = .ok state) (payloads : List α) :
    c.Converges (c.retry expected p (payload :: payloads)) ∧ (c.retry expected p (payload :: payloads)).length = 1 := by
  simp only [retry, committed]
  exact ⟨⟨[], _, state, rfl, committed, nofun⟩, rfl⟩

private theorem retry_error (failed : (c.propose p (compareAndSet expected payload)).1.outcome = .error error) :
    let tried := c.propose p (compareAndSet expected payload)
    c.retry expected p (payload :: payloads) =
      (tried.1, tried.2.2) :: tried.2.2.retry (error.currentState.or expected) tried.2.1 payloads := by
  simp only [retry, failed]

/-- A try commits, or it is fruitless and leaves a cluster that is as ready for the next one. -/
theorem Ready.try (ready : c.Ready p.links working top) (room : p.mint.round.toNat + 1 < 2 ^ 64)
    (expected : Option UInt64) (payload : α) : let tried := c.propose p (compareAndSet expected payload)
    (∃ state, tried.1.outcome = .ok state) ∨
      ∃ error, tried.1.outcome = .error error ∧ c.Fruitless (tried.1, tried.2.2) ∧ Kept c tried.2.2 ∧
        tried.2.2.Ready tried.2.1.links working (max top (p.mint.round.toNat + 1)) ∧
        tried.2.1.mint.round.toNat = p.mint.round.toNat + 1 := by
  intro tried
  cases ended : tried.1.outcome with
  | ok state => exact .inl ⟨state, rfl⟩
  | error error =>
    obtain ⟨kept, ready'⟩ := ready.fails room ended
    refine .inr ⟨error, rfl, ⟨?_, kept.accepted⟩, kept, ready', (Mint.next_round room).2⟩
    rcases ready.refused ended with ⟨_, rfl⟩ | ⟨value, _, _, rfl⟩
    · exact .inl ⟨_, _, ended⟩
    · exact .inr ⟨value.state, ended⟩

/-- Past the marks of the working acceptors the second try is at the state that the first one saw. -/
theorem Ready.commits_past (ready : c.Ready p.links working top) (many : majority p.links.length ≤ working.card)
    (above : top ≤ p.mint.round.toNat) (room : p.mint.round.toNat + 2 < 2 ^ 64) (first second : α) (rest : List α) :
    c.Converges (c.retry expected p (first :: second :: rest)) ∧
      (c.retry expected p (first :: second :: rest)).length ≤ 2 := by
  rcases ready.try (by omega) expected first with ⟨state, committed⟩ | ⟨error, failed, fruitless, kept, ready', minted⟩
  · obtain ⟨converges, length⟩ := retry_ok committed (second :: rest)
    exact ⟨converges, length ▸ by decide⟩
  · obtain ⟨value, settled, _, rfl⟩ := ready.past (by omega) many above failed
    rw [retry_error failed]
    rcases ready'.try (by omega) (some value.state) second with ⟨state, committed⟩ | ⟨error, failed', _⟩
    · obtain ⟨converges, length⟩ := retry_ok committed rest
      exact ⟨converges.cons kept fruitless, Nat.succ_le_succ (Nat.le_of_eq length)⟩
    · -- What was accepted is what the first try found, so the second one would have to resolve some other value.
      obtain ⟨value', settled', other, _⟩ := ready'.past (by omega) many (by omega) failed'
      have same : c.settled p.links working = some value' := (kept.settled p.links working).symm.trans settled'
      cases settled.symm.trans same
      exact absurd rfl other

theorem Ready.commits (gap : Nat) (ready : c.Ready p.links working top) (many : majority p.links.length ≤ working.card)
    (near : top ≤ p.mint.round.toNat + gap) (room : p.mint.round.toNat + gap + 2 < 2 ^ 64)
    (expected : Option UInt64) (payloads : List α) (enough : gap + 2 ≤ payloads.length) :
    c.Converges (c.retry expected p payloads) ∧ (c.retry expected p payloads).length ≤ gap + 2 := by
  -- A try takes the ballot one round on, and raises no mark above it: the gap closes by one round.
  induction gap generalizing c p expected payloads top with
  | zero =>
    match payloads, enough with
    | first :: second :: rest, _ => exact ready.commits_past many near room first second rest
  | succ gap ih =>
    match payloads, enough with
    | first :: rest, enough =>
      rcases ready.try (by omega) expected first with
        ⟨state, committed⟩ | ⟨error, failed, fruitless, kept, ready', minted⟩
      · obtain ⟨converges, length⟩ := retry_ok committed rest
        exact ⟨converges, by omega⟩
      · rw [List.length_cons] at enough
        obtain ⟨converges, length⟩ :=
          ih ready' many (by omega) (by omega) (error.currentState.or expected) rest (by omega)
        rw [retry_error failed]
        exact ⟨converges.cons kept fruitless, Nat.succ_le_succ length⟩

/-- A proposer that tries again, expecting what the last try saw, commits after a number of tries that is known before:
one for each round that the marks of the working acceptors are ahead of it, and then two at most. Until then it changes
nothing that any acceptor has accepted. -/
theorem retry_commits (split : c.Split p.links working) (many : p.links.length / 2 + 1 ≤ working.card)
    (rounds : max (c.topRound working) p.mint.round.toNat + 2 < 2 ^ 64)
    (states : ∀ place ∈ working, ∀ acceptor held, c.acceptors[place]? = some acceptor →
      acceptor.record.accepted = some held → held.value.state ≠ 0xFFFFFFFFFFFFFFFF)
    (expected : Option UInt64) (payloads : List α)
    (enough : max 1 (c.topRound working + 1 - p.mint.round.toNat) + 1 ≤ payloads.length) :
    ∃ failed last state, c.retry expected p payloads = failed ++ [last] ∧ last.1.outcome = .ok state ∧
      failed.length + 1 ≤ max 1 (c.topRound working + 1 - p.mint.round.toNat) + 1 ∧
      ∀ tried ∈ failed,
        ((∃ granted needed, tried.1.outcome = .error (.quorumUnavailable .prepare granted needed none)) ∨
          ∃ state, tried.1.outcome = .error (.conflict (some state))) ∧
        tried.2.acceptors.map (·.record.accepted) = c.acceptors.map (·.record.accepted) := by
  have ready : c.Ready p.links working (c.topRound working) := by
    refine ⟨split, ?_, ?_⟩
    · intro place member acceptor found
      have below : (c.acceptors[place]?.map (·.record.promised.round.toNat)).getD 0 ≤ c.topRound working :=
        Finset.le_sup (f := fun place => (c.acceptors[place]?.map (·.record.promised.round.toNat)).getD 0) member
      rwa [found] at below
    · intro place member held accepted
      rw [List.getElem?_map, Option.map_eq_some_iff] at accepted
      obtain ⟨acceptor, found, holds⟩ := accepted
      exact states place member acceptor held found holds
  obtain ⟨⟨failed, last, state, tries, committed, fruitless⟩, length⟩ :=
    ready.commits (c.topRound working - p.mint.round.toNat) many (by omega) (by omega) expected payloads (by omega)
  rw [tries, List.length_append, List.length_singleton] at length
  exact ⟨failed, last, state, tries, committed, by omega, fruitless⟩

/-- Two rounds behind the first acceptor, and cut off from the one that is further ahead. -/
theorem retry_commits_two_behind :
    let c : Cluster String :=
      ⟨[⟨0, ⟨⟨2, 7⟩, some ⟨⟨2, 7⟩, ⟨"old", 3⟩⟩⟩⟩, .fresh 1, ⟨2, ⟨⟨5, 5⟩, none⟩⟩],
        [⟨"a", 0, .direct⟩, ⟨"b", 1, .simulated ⟨(0, 0), .never, false, mkStdGen 7⟩⟩,
          ⟨"c", 2, .simulated ⟨(0, 0), .never, true, mkStdGen 7⟩⟩]⟩
    let p : Proposer := ⟨.fresh 1, [2, 0, 1]⟩
    let tries := c.retry none p ["new", "new", "new", "new"]
    c.Split p.links {0, 1} ∧ c.topRound {0, 1} = 2 ∧
      tries.map (·.1.outcome) = [.error (.quorumUnavailable .prepare 1 2 none),
        .error (.quorumUnavailable .prepare 1 2 none), .error (.conflict (some 3)), .ok 4] ∧
      ∃ failed last state, tries = failed ++ [last] ∧ last.1.outcome = .ok state ∧ failed.length + 1 ≤ 4 ∧
        ∀ tried ∈ failed, tried.2.acceptors.map (·.record.accepted) = c.acceptors.map (·.record.accepted) := by
  intro c p tries
  have split : c.Split p.links {0, 1} := by
    refine ⟨?_, by decide, by decide, by decide⟩
    intro place member
    simp only [p, List.mem_cons, List.not_mem_nil, or_false] at member
    rcases member with rfl | rfl | rfl
    · exact ⟨_, rfl, fun member => absurd member (by decide), fun _ => Link.dead_of_cutOff rfl⟩
    · exact ⟨_, rfl, fun _ => Link.FaultFree.works trivial, fun absent => absurd (by decide) absent⟩
    · exact ⟨_, rfl, fun _ => Link.FaultFree.works ⟨rfl, rfl⟩, fun absent => absurd (by decide) absent⟩
  have top : c.topRound {0, 1} = 2 := by decide
  have states : ∀ place ∈ ({0, 1} : Finset Nat), ∀ acceptor held, c.acceptors[place]? = some acceptor →
      acceptor.record.accepted = some held → held.value.state ≠ 0xFFFFFFFFFFFFFFFF := by
    intro place member acceptor held found holds
    simp only [Finset.mem_insert, Finset.mem_singleton] at member
    rcases member with rfl | rfl <;> cases found <;> cases holds
    decide
  obtain ⟨failed, last, state, ends, committed, length, fruitless⟩ :=
    retry_commits split (by decide) (by decide) states none ["new", "new", "new", "new"] (by decide)
  refine ⟨split, top, ?_, failed, last, state, ends, committed, length, ?_⟩
  · decide +kernel
  · exact fun tried member => (fruitless tried member).2

end

end Cluster

end Synod
