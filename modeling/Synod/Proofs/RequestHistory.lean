import Mathlib.Data.List.Basic
import Mathlib.Data.List.Induction
import Mathlib.Order.Bounds.Defs
import Mathlib.Order.MinMax
import Synod.Proofs.RecordSteps

/-! An acceptor is what its requests made of it. Its mark is the highest ballot that it was sent, by requests
of either kind and granted or not, so which requests are granted can be read off the ballots alone. -/

namespace Synod

variable {α : Type}

namespace Demand

def ballot : Demand α → Ballot
  | prepare ballot | accept ballot _ => ballot

def proposal? : Demand α → Option (Proposal α)
  | prepare _ => none
  | accept ballot value => some ⟨ballot, value⟩

/-- Whether a request is granted by a fresh acceptor that was sent these requests before it. -/
def Granted (earlier : List (Demand α)) : Demand α → Prop
  | prepare ballot => .zero < ballot ∧ ∀ other ∈ earlier, other.ballot < ballot
  | accept ballot _ => ∀ other ∈ earlier, other.ballot ≤ ballot

instance (earlier : List (Demand α)) : DecidablePred (Granted earlier)
  | prepare ballot => inferInstanceAs (Decidable (.zero < ballot ∧ ∀ other ∈ earlier, other.ballot < ballot))
  | accept ballot _ => inferInstanceAs (Decidable (∀ other ∈ earlier, other.ballot ≤ ballot))

def taken (history : List (Demand α)) : List (Proposal α) :=
  history.zipIdx.filterMap fun (demand, place) =>
    if demand.Granted (history.take place) then demand.proposal? else none

def lastTaken (history : List (Demand α)) : Option (Proposal α) := (taken history).getLast?

def mark (history : List (Demand α)) : Ballot := (history.map ballot).foldl max .zero

def reply (earlier : List (Demand α)) (demand : Demand α) : Response α :=
  match demand with
  | prepare _ =>
    .promise (if demand.Granted earlier then
      { ok := true
        acceptedBallot := (lastTaken earlier).map (·.ballot)
        acceptedValue := (lastTaken earlier).map (·.value) }
    else { ok := false, acceptedBallot := none, acceptedValue := none })
  | accept .. => .accepted { ok := demand.Granted earlier }

variable (history : List (Demand α)) (demand : Demand α)

private theorem mark_concat : mark (history ++ [demand]) = max (mark history) demand.ballot := by
  simp [mark, List.foldl_append]

private theorem mark_lt_iff {bound : Ballot} :
    mark history < bound ↔ .zero < bound ∧ ∀ other ∈ history, other.ballot < bound := by
  induction history using List.reverseRecOn with
  | nil => simp [mark]
  | append_singleton history demand ih =>
    rw [mark_concat, max_lt_iff, ih]
    simp only [List.mem_append, List.mem_singleton, or_imp, forall_and, forall_eq, and_assoc]

theorem zero_le (ballot : Ballot) : Ballot.zero ≤ ballot := by
  rw [Ballot.le_iff_rank]
  exact Nat.zero_le _

private theorem mark_le_iff {bound : Ballot} : mark history ≤ bound ↔ ∀ other ∈ history, other.ballot ≤ bound := by
  induction history using List.reverseRecOn with
  | nil => simpa [mark] using zero_le bound
  | append_singleton history demand ih =>
    rw [mark_concat, max_le_iff, ih]
    simp only [List.mem_append, List.mem_singleton, or_imp, forall_and, forall_eq]

private theorem mark_mem : mark history ∈ Ballot.zero :: history.map ballot := by
  induction history using List.reverseRecOn with
  | nil => simp [mark]
  | append_singleton history demand ih =>
    rw [mark_concat, List.map_append, ← List.cons_append, List.mem_append]
    rcases max_choice (mark history) demand.ballot with same | same
    · rw [same]; exact .inl ih
    · rw [same]; exact .inr (by simp)

theorem mark_isGreatest : IsGreatest {ballot | ballot ∈ Ballot.zero :: history.map Demand.ballot} (mark history) := by
  refine ⟨mark_mem history, ?_⟩
  intro ballot member
  rcases List.mem_cons.1 member with rfl | member
  · exact zero_le _
  · obtain ⟨other, sent, rfl⟩ := List.mem_map.1 member
    exact (mark_le_iff history).1 (le_refl _) other sent

private theorem granted_prepare {ballot : Ballot} : (prepare ballot).Granted history ↔ mark history < ballot :=
  (mark_lt_iff history).symm

private theorem granted_accept {ballot : Ballot} {value : Value α} :
    (accept ballot value).Granted history ↔ mark history ≤ ballot := (mark_le_iff history).symm

variable {history demand}

private theorem Granted.mark_le (granted : demand.Granted history) : mark history ≤ demand.ballot := by
  cases demand with
  | prepare ballot => exact le_of_lt ((granted_prepare history).1 granted)
  | accept ballot value => exact (granted_accept history).1 granted

private theorem le_mark_of_refused (refused : ¬ demand.Granted history) : demand.ballot ≤ mark history := by
  cases demand with
  | prepare ballot => exact not_lt.1 (mt (granted_prepare history).2 refused)
  | accept ballot value => exact le_of_lt (not_le.1 (mt (granted_accept history).2 refused))

private theorem mark_mono {earlier : List (Demand α)} (before : earlier <+: history) : mark earlier ≤ mark history := by
  rw [mark_le_iff]
  intro other sent
  exact (mark_le_iff history).1 (le_refl _) other (before.mem sent)

variable (history demand)

private theorem taken_concat : taken (history ++ [demand]) =
    taken history ++ (if demand.Granted history then demand.proposal?.toList else []) := by
  have before : history.zipIdx.filterMap (fun (other, place) =>
      if other.Granted ((history ++ [demand]).take place) then other.proposal? else none) = taken history := by
    refine List.filterMap_congr ?_
    rintro ⟨other, place⟩ member
    have inside := (List.getElem?_eq_some_iff.1 (List.mem_zipIdx_iff_getElem?.1 member)).1
    simp only [List.take_append_of_le_length (Nat.le_of_lt inside)]
  have last : [(demand, history.length)].filterMap (fun (other, place) =>
      if other.Granted ((history ++ [demand]).take place) then other.proposal? else none) =
        if demand.Granted history then demand.proposal?.toList else [] := by
    simp only [List.filterMap_cons, List.filterMap_nil, List.take_left]
    by_cases granted : demand.Granted history
    · cases demand <;> simp [granted, proposal?]
    · simp [granted]
  rw [taken, List.zipIdx_append, List.filterMap_append, before]
  simpa using last

private theorem lastTaken_concat : lastTaken (history ++ [demand]) =
    if demand.Granted history then demand.proposal?.or (lastTaken history) else lastTaken history := by
  rw [lastTaken, taken_concat]
  split
  · cases demand <;> simp [proposal?, lastTaken]
  · simp [lastTaken]

variable {history}

private theorem mem_taken_append {proposal : Proposal α} (member : proposal ∈ taken history) (later : List (Demand α)) :
    proposal ∈ taken (history ++ later) := by
  induction later using List.reverseRecOn with
  | nil => rwa [List.append_nil]
  | append_singleton later demand ih =>
    rw [← List.append_assoc, taken_concat]
    exact List.mem_append_left _ ih

theorem taken_le_mark {proposal : Proposal α} (member : proposal ∈ taken history) :
    proposal.ballot ≤ mark history := by
  obtain ⟨⟨demand, place⟩, sent, took⟩ := List.mem_filterMap.1 member
  have inside := List.mem_of_getElem? (List.mem_zipIdx_iff_getElem?.1 sent)
  have bound := (mark_le_iff history).1 (le_refl _) demand inside
  dsimp only at took
  split at took
  · cases demand with
    | prepare ballot => cases took
    | accept ballot value => cases took; exact bound
  · cases took

/-- Accepts are granted in the order of their ballots, so the last one has the greatest. -/
theorem taken_le_lastTaken {proposal : Proposal α} (member : proposal ∈ taken history) :
    ∃ top, lastTaken history = some top ∧ proposal.ballot ≤ top.ballot := by
  induction history using List.reverseRecOn with
  | nil => cases member
  | append_singleton history demand ih =>
    rw [taken_concat, List.mem_append] at member
    rw [lastTaken_concat]
    by_cases granted : demand.Granted history
    · rw [if_pos granted] at member ⊢
      cases demand with
      | prepare ballot =>
        rcases member with member | impossible
        · exact ih member
        · cases impossible
      | accept ballot value =>
        refine ⟨⟨ballot, value⟩, rfl, ?_⟩
        rcases member with member | new
        · exact le_trans (taken_le_mark member) granted.mark_le
        · rw [List.mem_singleton.1 new]
    · rw [if_neg granted] at member ⊢
      rcases member with member | impossible
      · exact ih member
      · cases impossible

private theorem lastTaken_mem {top : Proposal α} (last : lastTaken history = some top) : top ∈ taken history :=
  List.mem_of_getLast? last

end Demand

def Record.ofHistory (history : List (Demand α)) : Record α := ⟨Demand.mark history, Demand.lastTaken history⟩

section

open Demand

variable {history : List (Demand α)} {demand : Demand α}

private theorem Record.ofHistory_granted (granted : demand.Granted history) :
    ofHistory (history ++ [demand]) = ⟨demand.ballot, demand.proposal?.or (lastTaken history)⟩ := by
  rw [ofHistory, mark_concat, max_eq_right granted.mark_le, lastTaken_concat, if_pos granted]

private theorem Record.ofHistory_refused (refused : ¬ demand.Granted history) :
    ofHistory (history ++ [demand]) = ofHistory history := by
  rw [ofHistory, mark_concat, max_eq_left (le_mark_of_refused refused), lastTaken_concat, if_neg refused, ofHistory]

variable (history) (ballot : Ballot)

theorem Record.prepare_ofHistory : (ofHistory history).prepare ballot =
    (if (Demand.prepare ballot).Granted history then
      ⟨true, (lastTaken history).map (·.ballot), (lastTaken history).map (·.value)⟩
    else ⟨false, none, none⟩, ofHistory (history ++ [.prepare ballot])) := by
  by_cases granted : (Demand.prepare ballot).Granted history
  · have above : (ofHistory history).promised < ballot := (granted_prepare history).1 granted
    rw [prepare_above above, if_pos granted, ofHistory_granted granted]
    rfl
  · have stale : ballot ≤ (ofHistory history).promised := le_mark_of_refused granted
    rw [prepare_stale stale, if_neg granted, ofHistory_refused granted]
    rfl

theorem Record.accept_ofHistory (value : Value α) : (ofHistory history).accept ballot value =
    (⟨decide ((Demand.accept ballot value).Granted history)⟩, ofHistory (history ++ [.accept ballot value])) := by
  by_cases granted : (Demand.accept ballot value).Granted history
  · have reached : (ofHistory history).promised ≤ ballot := (granted_accept history).1 granted
    rw [accept_reached reached, decide_eq_true granted, ofHistory_granted granted]
    rfl
  · have stale : ballot < (ofHistory history).promised := not_le.1 (mt (granted_accept history).2 granted)
    rw [accept_stale stale, decide_eq_false granted, ofHistory_refused granted]

end

namespace Acceptor

open Demand

def serve (a : Acceptor α) : List (Demand α) → List (Response α) × Acceptor α
  | [] => ([], a)
  | demand :: rest =>
    let (reply, a) := a.answer demand
    let (replies, a) := a.serve rest
    (reply :: replies, a)

private theorem serve_append (a : Acceptor α) (first rest : List (Demand α)) :
    a.serve (first ++ rest) =
      ((a.serve first).1 ++ ((a.serve first).2.serve rest).1, ((a.serve first).2.serve rest).2) := by
  induction first generalizing a with
  | nil => rfl
  | cons demand first ih => simp [serve, ih]

variable (id : UInt64) (history : List (Demand α))

theorem answer_ofHistory (demand : Demand α) :
    (Acceptor.mk id (.ofHistory history)).answer demand =
      (demand.reply history, ⟨id, .ofHistory (history ++ [demand])⟩) := by
  cases demand with
  | prepare ballot => simp only [answer, prepare, Record.prepare_ofHistory, reply]
  | accept ballot value => simp only [answer, accept, Record.accept_ofHistory, reply]

theorem serve_fresh : (fresh id).serve history =
    (history.zipIdx.map fun (demand, place) => demand.reply (history.take place), ⟨id, .ofHistory history⟩) := by
  induction history using List.reverseRecOn with
  | nil => rfl
  | append_singleton history demand ih =>
    have before : history.zipIdx.map (fun (other, place) => other.reply ((history ++ [demand]).take place)) =
        history.zipIdx.map fun (other, place) => other.reply (history.take place) := by
      refine List.map_congr_left ?_
      rintro ⟨other, place⟩ member
      have inside := (List.getElem?_eq_some_iff.1 (List.mem_zipIdx_iff_getElem?.1 member)).1
      simp only [List.take_append_of_le_length (Nat.le_of_lt inside)]
    rw [serve_append, ih, List.zipIdx_append, List.map_append, before]
    simp only [serve, answer_ofHistory, List.zipIdx_singleton, List.map_cons, List.map_nil, Nat.zero_add, List.take_left]

theorem reply_fresh {place : Nat} {demand : Demand α} (sent : history[place]? = some demand) :
    ((fresh id).serve history).1[place]? = some (demand.reply (history.take place)) := by
  rw [serve_fresh, List.getElem?_map, List.getElem?_zipIdx, sent]
  simp

/-- An acceptor is determined by the requests that it was sent. A prepare request is granted where its ballot is
above zero and above the ballots of all requests before it, and an accept request where its ballot is at or above
them; a promise reports the last granted accept. So marks and accepted ballots never fall, a prepare request, even
a refused one, fences off what comes late, and a refusal changes nothing. -/
theorem determined_by_history :
    let (replies, last) := (fresh id).serve history
    (∀ (place : Nat) demand, history[place]? = some demand →
      replies[place]? = some (demand.reply (history.take place))) ∧
    IsGreatest {ballot | ballot ∈ Ballot.zero :: history.map Demand.ballot} last.record.promised ∧
    last.record.accepted = lastTaken history ∧
    (∀ proposal ∈ taken history, ∃ top, last.record.accepted = some top ∧ proposal.ballot ≤ top.ballot) ∧
    (∀ top, last.record.accepted = some top → top.ballot ≤ last.record.promised) ∧
    (∀ place, let earlier := ((fresh id).serve (history.take place)).2
      earlier.record.promised ≤ last.record.promised ∧
        ∀ proposal, earlier.record.accepted = some proposal →
          ∃ top, last.record.accepted = some top ∧ proposal.ballot ≤ top.ballot) ∧
    (∀ (early late : Nat) ballot, early < late → history[early]? = some (.prepare ballot) →
        (∀ lower, history[late]? = some (.prepare lower) → lower ≤ ballot →
          replies[late]? = some (.promise ⟨false, none, none⟩)) ∧
        (∀ lower value, history[late]? = some (.accept lower value) → lower < ballot →
          replies[late]? = some (.accepted ⟨false⟩))) ∧
    (∀ (place : Nat) demand, history[place]? = some demand → ¬ demand.Granted (history.take place) →
      ((fresh id).serve (history.take (place + 1))).2 = ((fresh id).serve (history.take place)).2) := by
  have record (earlier : List (Demand α)) : ((fresh id).serve earlier).2.record = .ofHistory earlier := by
    rw [serve_fresh]
  have sentBefore {early late : Nat} {demand : Demand α} (order : early < late) (sent : history[early]? = some demand) :
      demand ∈ history.take late := by
    refine List.mem_of_getElem? (i := early) ?_
    rwa [List.getElem?_take_of_lt order]
  dsimp only
  simp only [record]
  refine ⟨?_, mark_isGreatest history, rfl, ?_, ?_, ?_, ?_, ?_⟩
  · intro place demand sent
    exact reply_fresh id history sent
  · intro proposal member
    exact taken_le_lastTaken member
  · intro top last
    exact taken_le_mark (lastTaken_mem last)
  · intro place
    refine ⟨mark_mono (List.take_prefix place history), ?_⟩
    intro proposal last
    have member := mem_taken_append (lastTaken_mem last) (history.drop place)
    rw [List.take_append_drop] at member
    exact taken_le_lastTaken member
  · intro early late ballot order sent
    have fence := (mark_le_iff (history.take late)).1 (le_refl _) _ (sentBefore order sent)
    refine ⟨?_, ?_⟩
    · intro lower sent' below
      have refused : ¬ (Demand.prepare lower).Granted (history.take late) := by
        rw [granted_prepare]
        exact not_lt.2 (le_trans below fence)
      rw [reply_fresh id history sent', reply, if_neg refused]
    · intro lower value sent' below
      have refused : ¬ (Demand.accept lower value).Granted (history.take late) := by
        rw [granted_accept]
        exact not_le.2 (lt_of_lt_of_le below fence)
      rw [reply_fresh id history sent', reply, decide_eq_false refused]
  · intro place demand sent refused
    have next : history.take (place + 1) = history.take place ++ [demand] := by
      rw [List.take_add_one, sent]
      rfl
    rw [serve_fresh, serve_fresh, next, Record.ofHistory_refused refused]

/-- An accept request needs no promise, and one ballot may be accepted twice; only then is the ballot too low to promise. -/
example : ((fresh 1).serve [.accept ⟨2, 1⟩ ⟨"a", 0⟩, .accept ⟨2, 1⟩ ⟨"b", 0⟩, .prepare ⟨2, 1⟩, .prepare ⟨3, 1⟩]).1 =
    [.accepted ⟨true⟩, .accepted ⟨true⟩, .promise ⟨false, none, none⟩,
      .promise ⟨true, some ⟨2, 1⟩, some ⟨"b", 0⟩⟩] := by rfl

end Acceptor

end Synod
