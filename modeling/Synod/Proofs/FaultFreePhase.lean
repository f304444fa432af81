import Mathlib.Data.List.Basic
import Mathlib.Data.List.Perm.Basic
import Synod.Proofs.PhaseDelivery

/-! A phase over links without faults. Every request arrives and every answer comes back, in whatever order. If the
links lead to different acceptors no request is told of another one, so the order does not matter. -/

namespace Synod

variable {α ρ : Type}

namespace Delivery

theorem deliver_answered {visit : Visit α ρ} {call : Call ρ} {acceptors : List (Acceptor α)} {acceptor : Acceptor α}
    (answered : call.fate = .answered) (found : acceptors[call.acceptor]? = some acceptor) :
    (deliver visit call acceptors).1 = .ok (visit.answer acceptor).1 := by
  simp only [deliver, answered, found]

private theorem hearers_answered {calls : List (Call ρ)} (answered : ∀ call ∈ calls, call.fate = .answered) :
    hearers calls = calls.map (·.acceptor) := by
  have heard : calls.filter (·.heard) = calls := List.filter_eq_self.2 fun call member => by
    rw [Call.heard, answered call member]
  rw [hearers, heard]

/-- A phase in which every acceptor is asked once. All records are equal before it, so all replies are equal, and
all records are equal after it. -/
theorem phase_uniform {visit : Visit α ρ} {act : Record α → ρ × Record α} {calls : List (Call ρ)}
    {acceptors : List (Acceptor α)} {record : Record α}
    (acts : ∀ acceptor, visit.answer acceptor = ((act acceptor.record).1, ⟨acceptor.id, (act acceptor.record).2⟩))
    (answered : ∀ call ∈ calls, call.fate = .answered)
    (cover : (calls.map (·.acceptor)).Perm (List.range acceptors.length))
    (uniform : ∀ acceptor ∈ acceptors, acceptor.record = record) :
    (phase visit calls acceptors).replies = List.replicate acceptors.length (.ok (act record).1) ∧
      (phase visit calls acceptors).world.length = acceptors.length ∧
      ∀ acceptor ∈ (phase visit calls acceptors).world, acceptor.record = (act record).2 := by
  have inside : ∀ call ∈ calls, call.acceptor < acceptors.length := by
    intro call member
    exact List.mem_range.1 (cover.mem_iff.1 (List.mem_map_of_mem member))
  have heard := hearers_answered answered
  have distinct : (hearers calls).Nodup := by
    rw [heard]
    exact cover.nodup_iff.2 List.nodup_range
  obtain ⟨replies, size, world⟩ := phase_apart visit acceptors distinct
  refine ⟨?_, size, ?_⟩
  · have count : calls.length = acceptors.length := by simpa using cover.length_eq
    rw [replies, ← count, ← List.map_const']
    apply List.map_congr_left
    intro call member
    have held := List.getElem?_eq_getElem (inside call member)
    rw [deliver_answered (answered call member) held, acts, uniform _ (List.mem_of_getElem? held)]
  · intro acceptor member
    obtain ⟨place, found⟩ := List.getElem?_of_mem member
    have reached : place < acceptors.length := size ▸ (List.getElem?_eq_some_iff.1 found).1
    have held := List.getElem?_eq_getElem reached
    have asked : place ∈ hearers calls := by
      rw [heard]
      exact cover.mem_iff.2 (List.mem_range.2 reached)
    rw [world, if_pos asked, held, Option.map_some, acts, uniform _ (List.mem_of_getElem? held)] at found
    rw [← Option.some.inj found]

end Delivery

def Link.FaultFree (l : Link α) : Prop :=
  match l.kind with
  | .direct => True
  | .simulated s => s.loss = .never ∧ s.cutOff = false
  | .faulty .. | .canned .. => False

def Link.Answers (next : Link α → Call ρ × Link α) : Prop :=
  ∀ l : Link α, l.FaultFree → (next l).1.fate = .answered ∧ (next l).1.acceptor = l.acceptor ∧
    (next l).2.FaultFree ∧ (next l).2.acceptor = l.acceptor

theorem Link.simulate_answered {l : Link α} {s : Simulation} (loss : s.loss = .never) (joined : s.cutOff = false) :
    (l.simulate (ρ := ρ) s).1.fate = .answered ∧ (l.simulate (ρ := ρ) s).1.acceptor = l.acceptor ∧
      (l.simulate (ρ := ρ) s).2.loss = .never ∧ (l.simulate (ρ := ρ) s).2.cutOff = false := by
  simp [simulate, loss, joined, Loss.draw]

theorem Link.prepare_answers : Answers (α := α) Link.prepare := by
  rintro ⟨endpoint, acceptor, kind⟩ faultFree
  cases kind with
  | direct => exact ⟨rfl, rfl, trivial, rfl⟩
  | simulated s =>
    obtain ⟨answered, reached, loss, joined⟩ := simulate_answered (ρ := Promise α) (l := ⟨endpoint, acceptor, .simulated s⟩)
      faultFree.1 faultFree.2
    exact ⟨answered, reached, ⟨loss, joined⟩, rfl⟩
  | faulty | canned => cases faultFree

theorem Link.accept_answers : Answers (α := α) Link.accept := by
  rintro ⟨endpoint, acceptor, kind⟩ faultFree
  cases kind with
  | direct => exact ⟨rfl, rfl, trivial, rfl⟩
  | simulated s =>
    obtain ⟨answered, reached, loss, joined⟩ := simulate_answered (ρ := Accepted) (l := ⟨endpoint, acceptor, .simulated s⟩)
      faultFree.1 faultFree.2
    exact ⟨answered, reached, ⟨loss, joined⟩, rfl⟩
  | faulty | canned => cases faultFree

namespace Cluster

private theorem dial_answered {next : Link α → Call ρ × Link α} (answers : Link.Answers next) (places : List Nat)
    (links : List (Link α)) (faultFree : ∀ link ∈ links, link.FaultFree) (inside : ∀ place ∈ places, place < links.length) :
    (∀ call ∈ (dial next places links).1, call.fate = .answered) ∧
      (dial next places links).1.map (some ·.acceptor) = places.map ((links.map (·.acceptor))[·]?) ∧
      (∀ link ∈ (dial next places links).2, link.FaultFree) ∧
      (dial next places links).2.map (·.acceptor) = links.map (·.acceptor) := by
  have ready : ∀ place ∈ places, ∃ link, links[place]? = some link ∧ link.FaultFree := by
    intro place member
    have found := List.getElem?_eq_getElem (inside place member)
    exact ⟨_, found, faultFree _ (List.mem_of_getElem? found)⟩
  have makes : Link.Makes next Link.FaultFree fun call => call.fate = .answered := answers
  obtain ⟨answered, reached, kept, table⟩ := dial_makes makes places links ready
  refine ⟨answered, reached, ?_, table⟩
  intro link' member
  obtain ⟨place, found'⟩ := List.getElem?_of_mem member
  have within : place < links.length := by
    have placed := (List.getElem?_eq_some_iff.1 found').1
    rwa [← List.length_map (·.acceptor), table, List.length_map] at placed
  have found := List.getElem?_eq_getElem within
  obtain ⟨_, found'', fit⟩ := kept place _ found (faultFree _ (List.mem_of_getElem? found))
  cases found'.symm.trans found''
  exact fit

/-- Acceptors that all keep the same record, and one fault-free link to each of them. -/
structure Uniform (c : Cluster α) (size : Nat) (record : Record α) : Prop where
  faultFree : ∀ link ∈ c.links, link.FaultFree
  cover : (c.links.map (·.acceptor)).Perm (List.range size)
  acceptors : c.acceptors.length = size
  records : ∀ acceptor ∈ c.acceptors, acceptor.record = record

theorem Uniform.phase {c : Cluster α} {size : Nat} {record : Record α} (uniform : c.Uniform size record)
    {visit : Visit α ρ} {act : Record α → ρ × Record α} {next : Link α → Call ρ × Link α} {places : List Nat}
    (acts : ∀ acceptor, visit.answer acceptor = ((act acceptor.record).1, ⟨acceptor.id, (act acceptor.record).2⟩))
    (answers : Link.Answers next) (uses : places.Perm (List.range size)) :
    (Cluster.phase visit next places c).replies = List.replicate size (.ok (act record).1) ∧
      (Cluster.phase visit next places c).world.Uniform size (act record).2 := by
  have links : c.links.length = size := by simpa using uniform.cover.length_eq
  have inside : ∀ place ∈ places, place < c.links.length := by
    intro place member
    rw [links]
    exact List.mem_range.1 (uses.mem_iff.1 member)
  obtain ⟨answered, reached, kept, table⟩ := dial_answered answers places c.links uniform.faultFree inside
  have cover : ((dial next places c.links).1.map (·.acceptor)).Perm (List.range c.acceptors.length) := by
    have all : (List.range size).map ((c.links.map (·.acceptor))[·]?) = (c.links.map (·.acceptor)).map some := by
      refine List.ext_getElem (by simp [links]) fun place left right => ?_
      simp only [List.getElem_map, List.getElem_range]
      rw [List.getElem?_eq_getElem (by simpa using right), List.getElem_map]
    have mapped : ((dial next places c.links).1.map (some ·.acceptor)).Perm ((c.links.map (·.acceptor)).map some) := by
      rw [reached, ← all]
      exact uses.map _
    rw [uniform.acceptors]
    refine List.Perm.trans ?_ uniform.cover
    simpa [List.filterMap_map] using mapped.filterMap id
  obtain ⟨replies, length, records⟩ := Delivery.phase_uniform acts answered cover uniform.records
  rw [uniform.acceptors] at replies length
  refine ⟨replies, ⟨kept, ?_, length, records⟩⟩
  change ((dial next places c.links).2.map (·.acceptor)).Perm (List.range size)
  rw [table]
  exact uniform.cover

end Cluster

end Synod
