import Mathlib.Data.List.Basic
import Mathlib.Data.List.Nodup
import Mathlib.Data.List.Perm.Basic
import Synod.Cluster
import Synod.Proofs.SystemSteps

/-! What the calls of a phase leave behind. Calls that reach different acceptors do not meet, so each of them ends as
if it were the only one, in whatever order they arrive. -/

namespace Synod

variable {α ρ : Type}

def Call.heard (call : Call ρ) : Bool :=
  match call.fate with
  | .answered | .replyLost _ => true
  | .dropped _ | .forged _ => false

namespace Delivery

variable {visit : Visit α ρ}

def hearers (calls : List (Call ρ)) : List Nat := (calls.filter (·.heard)).map (·.acceptor)

private theorem hearers_cons (call : Call ρ) (calls : List (Call ρ)) :
    hearers (call :: calls) = if call.heard then call.acceptor :: hearers calls else hearers calls := by
  rw [hearers, List.filter_cons]
  split <;> rfl

theorem hearers_nodup {calls : List (Call ρ)} (distinct : (calls.map (some ·.acceptor)).Nodup) :
    (hearers calls).Nodup := by
  have all : (calls.map (·.acceptor)).Nodup := by
    apply List.Nodup.of_map some
    rwa [List.map_map]
  exact all.sublist (List.filter_sublist.map _)

private theorem deliver_world (visit : Visit α ρ) (call : Call ρ) (acceptors : List (Acceptor α)) (place : Nat) :
    (deliver visit call acceptors).2.2[place]? =
      if call.heard ∧ call.acceptor = place then acceptors[place]?.map fun acceptor => (visit.answer acceptor).2
      else acceptors[place]? := by
  unfold deliver Call.heard
  cases call.fate with
  | dropped error | forged reply => simp
  | answered | replyLost error =>
    cases found : acceptors[call.acceptor]? with
    | none =>
      simp only [true_and]
      split
      next same => rw [← same, found]; rfl
      · rfl
    | some acceptor =>
      simp only [getElem?_set_held found, true_and]
      split
      next same => rw [← same, found]; rfl
      · rfl

private theorem deliver_size (visit : Visit α ρ) (call : Call ρ) (acceptors : List (Acceptor α)) :
    (deliver visit call acceptors).2.2.length = acceptors.length := by
  unfold deliver
  cases call.fate with
  | dropped error | forged reply => rfl
  | answered | replyLost error => cases acceptors[call.acceptor]? <;> simp

/-- The reply to a call depends on no acceptor but the one that hears of it. -/
theorem deliver_reply {call : Call ρ} {acceptors others : List (Acceptor α)}
    (same : call.heard = true → acceptors[call.acceptor]? = others[call.acceptor]?) :
    (deliver visit call acceptors).1 = (deliver visit call others).1 := by
  unfold deliver
  cases fate : call.fate with
  | dropped error | forged reply => rfl
  | answered | replyLost error =>
    rw [same (by rw [Call.heard, fate])]
    cases others[call.acceptor]? <;> rfl

/-- What some arrivals leave behind: in its place the reply to each call, and each acceptor that heard of a call as its
own answer left it. -/
structure Apart (visit : Visit α ρ) (arrivals : List (Call ρ × Nat)) (before after : Answers α ρ) : Prop where
  replies : ∀ arrival ∈ arrivals, after.replies[arrival.2]? = some (deliver visit arrival.1 before.world).1
  others : ∀ place ∉ arrivals.map (·.2), after.replies[place]? = before.replies[place]?
  length : after.replies.length = before.replies.length
  world : ∀ place, after.world[place]? =
    if place ∈ hearers (arrivals.map (·.1)) then before.world[place]?.map fun acceptor => (visit.answer acceptor).2
    else before.world[place]?
  size : after.world.length = before.world.length

private theorem foldl_apart (arrivals : List (Call ρ × Nat)) (answers : Answers α ρ)
    (inside : ∀ arrival ∈ arrivals, arrival.2 < answers.replies.length) (places : (arrivals.map (·.2)).Nodup)
    (distinct : (hearers (arrivals.map (·.1))).Nodup) :
    Apart visit arrivals answers (arrivals.foldl (arrive visit) answers) := by
  induction arrivals generalizing answers with
  | nil => exact ⟨nofun, fun _ _ => rfl, rfl, fun _ => rfl, rfl⟩
  | cons arrival rest ih =>
    obtain ⟨call, place⟩ := arrival
    simp only [List.map_cons, List.nodup_cons] at places
    rw [List.map_cons, hearers_cons] at distinct
    have once : call.heard = true → call.acceptor ∉ hearers (rest.map (·.1)) := by
      intro heard
      rw [if_pos heard] at distinct
      exact (List.nodup_cons.1 distinct).1
    have distinct' : (hearers (rest.map (·.1))).Nodup := by
      split at distinct
      · exact (List.nodup_cons.1 distinct).2
      · exact distinct
    have replied : (arrive visit answers (call, place)).replies =
        answers.replies.set place (deliver visit call answers.world).1 := rfl
    have left : (arrive visit answers (call, place)).world = (deliver visit call answers.world).2.2 := rfl
    have kept := ih (arrive visit answers (call, place))
      (fun other member => by simpa [replied] using inside other (List.mem_cons_of_mem _ member)) places.2 distinct'
    rw [List.foldl_cons]
    refine ⟨?_, ?_, ?_, ?_, ?_⟩
    · intro other member
      rcases List.mem_cons.1 member with rfl | member
      · rw [kept.others place places.1, replied, List.getElem?_set_self (inside (call, place) member)]
      · rw [kept.replies other member]
        refine congrArg some (deliver_reply fun heard => ?_)
        have hears : other.1.acceptor ∈ hearers (rest.map (·.1)) :=
          List.mem_map_of_mem (List.mem_filter.2 ⟨List.mem_map_of_mem member, heard⟩)
        rw [left, deliver_world, if_neg]
        rintro ⟨heard', same⟩
        exact once heard' (same ▸ hears)
    · intro other absent
      simp only [List.map_cons, List.mem_cons, not_or] at absent
      rw [kept.others other absent.2, replied, List.getElem?_set_ne (Ne.symm absent.1)]
    · rw [kept.length, replied, List.length_set]
    · intro other
      rw [kept.world, left, deliver_world, List.map_cons, hearers_cons]
      by_cases heard : call.heard = true
      · simp only [heard, true_and, if_true, List.mem_cons]
        by_cases same : call.acceptor = other
        · subst same
          simp [once heard]
        · simp [same, Ne.symm same]
      · simp [heard]
    · rw [kept.size, left, deliver_size]

theorem schedule_calls (calls : List (Call ρ)) : (schedule calls).map (·.2) = calls.zipIdx := by
  rw [schedule, List.map_map]
  exact List.map_id _

theorem schedule_times {calls : List (Call ρ)} {entry : Nat × Call ρ × Nat} (planned : entry ∈ schedule calls) :
    entry.1 = entry.2.1.time := by
  obtain ⟨_, _, rfl⟩ := List.mem_map.1 planned
  rfl

theorem arrivals_perm (calls : List (Call ρ)) : (arrivals calls).Perm calls.zipIdx := by
  rw [← schedule_calls, arrivals]
  simpa using (Agenda.insertAll_perm (schedule calls) []).map (·.2)

/-- Calls arrive in the order of their times, and those of one time in the order of the links. -/
theorem arrivals_ordered (calls : List (Call ρ)) :
    (arrivals calls).Pairwise (·.1.time ≤ ·.1.time) ∧
      ∀ time, (arrivals calls).filter (·.1.time == time) = calls.zipIdx.filter (·.1.time == time) := by
  have due (entry : Nat × Call ρ × Nat) (planned : entry ∈ Agenda.insertAll (schedule calls) []) :
      entry.1 = entry.2.1.time :=
    schedule_times (by simpa using (Agenda.insertAll_perm (schedule calls) []).mem_iff.1 planned)
  refine ⟨?_, fun time => ?_⟩
  · rw [arrivals, List.pairwise_map]
    refine (Agenda.insertAll_ordered .nil).imp_of_mem fun first second order => ?_
    rwa [due _ first, due _ second] at order
  · have early (entry : Nat × Call ρ × Nat) (planned : entry ∈ Agenda.insertAll (schedule calls) []) :
        (entry.2.1.time == time) = (entry.1 == time) := by
      rw [due entry planned]
    have listed (entry : Nat × Call ρ × Nat) (planned : entry ∈ schedule calls) :
        (entry.1 == time) = (entry.2.1.time == time) := by
      rw [schedule_times planned]
    calc (arrivals calls).filter (·.1.time == time)
      _ = ((Agenda.insertAll (schedule calls) []).filter (·.1 == time)).map (·.2) := by
        rw [arrivals, List.filter_map, ← List.filter_congr early]
        rfl
      _ = ((schedule calls).filter (·.1 == time)).map (·.2) := by
        rw [Agenda.insertAll_filter .nil, List.nil_append]
      _ = ((schedule calls).map (·.2)).filter (·.1.time == time) := by
        rw [List.filter_map, List.filter_congr listed]
        rfl
      _ = calls.zipIdx.filter (·.1.time == time) := by rw [schedule_calls]

private theorem hearers_perm {calls others : List (Call ρ)} (order : others.Perm calls) :
    (hearers others).Perm (hearers calls) :=
  (order.filter _).map _

/-- In a phase in which no acceptor hears of two calls, every call ends as if it were the only one. -/
theorem phase_apart (visit : Visit α ρ) {calls : List (Call ρ)} (acceptors : List (Acceptor α))
    (distinct : (hearers calls).Nodup) :
    (phase visit calls acceptors).replies = (calls.map fun call => (deliver visit call acceptors).1) ∧
      (phase visit calls acceptors).world.length = acceptors.length ∧
      ∀ place, (phase visit calls acceptors).world[place]? =
        if place ∈ hearers calls then acceptors[place]?.map fun acceptor => (visit.answer acceptor).2
        else acceptors[place]? := by
  have order := arrivals_perm calls
  have sent : ((arrivals calls).map (·.1)).Perm calls := by simpa using order.map (·.1)
  have arrived : Apart visit (arrivals calls) ⟨calls.map fun call => .error (.unreachable call.endpoint), [], acceptors⟩
      (phase visit calls acceptors) := by
    refine foldl_apart _ _ ?_ ?_ ?_
    · intro arrival member
      have placed := List.mem_zipIdx_iff_getElem?.1 (order.mem_iff.1 member)
      simpa using (List.getElem?_eq_some_iff.1 placed).1
    · rw [(order.map _).nodup_iff]
      simpa using List.nodup_range'
    · rwa [(hearers_perm sent).nodup_iff]
  refine ⟨?_, arrived.size, ?_⟩
  · apply List.ext_getElem?
    intro place
    rw [List.getElem?_map]
    cases called : calls[place]? with
    | none =>
      have beyond := List.getElem?_eq_none_iff.1 called
      rw [Option.map_none, List.getElem?_eq_none_iff, arrived.length, List.length_map]
      exact beyond
    | some call => exact arrived.replies (call, place) (order.mem_iff.2 (List.mem_zipIdx_iff_getElem?.2 called))
  · intro place
    rw [arrived.world]
    simp only [(hearers_perm sent).mem_iff]

end Delivery

/-- What kind of calls the links of some kind make. A call leads where its link leads, and leaves the link of its kind. -/
def Link.Makes (next : Link α → Call ρ × Link α) (fit : Link α → Prop) (made : Call ρ → Prop) : Prop :=
  ∀ l, fit l → made (next l).1 ∧ (next l).1.acceptor = l.acceptor ∧ fit (next l).2 ∧ (next l).2.acceptor = l.acceptor

namespace Cluster

theorem dial_makes {next : Link α → Call ρ × Link α} {fit : Link α → Prop} {made : Call ρ → Prop}
    (makes : Link.Makes next fit made) (places : List Nat) (links : List (Link α))
    (ready : ∀ place ∈ places, ∃ link, links[place]? = some link ∧ fit link) :
    (∀ call ∈ (dial next places links).1, made call) ∧
      (dial next places links).1.map (some ·.acceptor) = places.map ((links.map (·.acceptor))[·]?) ∧
      (∀ (place : Nat) link, links[place]? = some link → fit link →
        ∃ link', (dial next places links).2[place]? = some link' ∧ fit link') ∧
      (dial next places links).2.map (·.acceptor) = links.map (·.acceptor) := by
  induction places generalizing links with
  | nil => exact ⟨nofun, rfl, fun _ link found fits => ⟨link, found, fits⟩, rfl⟩
  | cons place rest ih =>
    obtain ⟨link, found, fits⟩ := ready place (by simp)
    obtain ⟨called, reached, fits', same⟩ := makes link fits
    have held : (links.map (·.acceptor))[place]? = some link.acceptor := by
      rw [List.getElem?_map, found]
      rfl
    have table : (links.set place (next link).2).map (·.acceptor) = links.map (·.acceptor) := by
      rw [List.map_set, same]
      apply List.ext_getElem?
      intro other
      rw [getElem?_set_held held]
      split
      next equal => rw [← equal, held]
      · rfl
    have kept (other : Nat) (old : Link α) (there : links[other]? = some old) (fit' : fit old) :
        ∃ new, (links.set place (next link).2)[other]? = some new ∧ fit new := by
      rw [getElem?_set_held found]
      split
      · exact ⟨_, rfl, fits'⟩
      · exact ⟨old, there, fit'⟩
    obtain ⟨called', reached', kept', table'⟩ := ih (links.set place (next link).2) fun other member => by
      obtain ⟨old, there, fit'⟩ := ready other (List.mem_cons_of_mem _ member)
      exact kept other old there fit'
    simp only [dial, found]
    refine ⟨?_, ?_, ?_, table'.trans table⟩
    · intro call member
      rcases List.mem_cons.1 member with rfl | member
      · exact called
      · exact called' call member
    · rw [List.map_cons, List.map_cons, reached', table, reached, held]
    · intro other old there fit'
      obtain ⟨new, there', fit''⟩ := kept other old there fit'
      exact kept' other new there' fit''

end Cluster

end Synod
