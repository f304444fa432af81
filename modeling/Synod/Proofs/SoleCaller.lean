import Synod.Proofs.AtomicRegister
import Synod.Proofs.BallotOrder
import Synod.Transform

/-! A caller that has the register to itself. Its ballots rise, so no call of it is turned away, and the register goes
through its transforms one after another. For text this says that every suffix is appended once, and which transforms
may be sent again when their reply was lost. -/

namespace Synod

variable {α : Type}

namespace Register

def after (transforms : List (Transform α)) (content : Option (Value α)) : Option (Value α) :=
  transforms.foldl (fun content transform => (update transform content).2) content

/-- Served calls, with what each of them finds and what becomes of it. -/
def answers : List (Ballot × Transform α) → Option (Value α) → List (Answer α)
  | [], _ => []
  | (ballot, transform) :: rest, content =>
    ⟨ballot, some content, (update transform content).1⟩ :: answers rest (update transform content).2

/-- The calls of one caller are all served, as long as its counter lasts and is not behind those of earlier calls. -/
theorem serve_sole {mints : List Mint} {caller : Nat} {mint : Mint} {r : Register α} {transforms : List (Transform α)}
    (known : mints[caller]? = some mint) (room : mint.round.toNat + transforms.length < 2 ^ 64)
    (ahead : ∀ earlier ∈ r.ballots, earlier.round.toNat ≤ mint.round.toNat) (acceptors : Nat) :
    serve acceptors (transforms.map (caller, ·)) mints r =
      (answers ((mint.take transforms.length).zip transforms) r.content,
        ⟨after transforms r.content, r.ballots ++ mint.take transforms.length⟩) := by
  induction transforms generalizing mints mint r with
  | nil => simp [serve, answers, after, Mint.take]
  | cons transform rest ih =>
    rw [List.length_cons] at room
    obtain ⟨minted, left⟩ := Mint.next_round (m := mint) (by omega)
    have above : ∀ earlier ∈ r.ballots, earlier < mint.next.1 := by
      intro earlier called
      have := ahead earlier called
      exact Ballot.lt_of_round (by omega)
    have ahead' : ∀ earlier ∈ r.ballots ++ [mint.next.1], earlier.round.toNat ≤ mint.next.2.round.toNat := by
      intro earlier called
      rcases List.mem_append.1 called with called | called
      · have := ahead earlier called
        omega
      · rw [List.mem_singleton.1 called]
        omega
    have known' : (mints.set caller mint.next.2)[caller]? = some mint.next.2 :=
      List.getElem?_set_self (List.getElem?_eq_some_iff.1 known).1
    simp only [List.map_cons, serve, known, call, if_pos above]
    rw [ih known' (by omega) ahead']
    simp [answers, after, Mint.take]

def writes : Option (Value α) → Nat
  | none => 0
  | some value => value.state.toNat + 1

private theorem update_cases (transform : Transform α) (content : Option (Value α)) :
    (update transform content).2 = content ∨
      ∃ payload state, transform content = .write payload ∧ (update transform content).2 = some ⟨payload, state⟩ := by
  unfold update
  split
  · exact .inl rfl
  next payload chosen => exact .inr ⟨payload, 0, chosen, rfl⟩
  next payload value chosen =>
    split
    · exact .inl rfl
    · exact .inr ⟨payload, value.state + 1, chosen, rfl⟩

private theorem update_write {transform : Transform α} {content : Option (Value α)} {payload : α}
    (chosen : transform content = .write payload) (room : writes content < 2 ^ 64) :
    update transform content = (.ok (.ofNat (writes content)), some ⟨payload, .ofNat (writes content)⟩) := by
  cases content with
  | none => simp only [update, chosen]; rfl
  | some value =>
    have unspent : value.state ≠ 0xFFFFFFFFFFFFFFFF := by
      rintro last
      simp [writes, last] at room
    have state : value.state + 1 = .ofNat (value.state.toNat + 1) := by simp
    simp only [update, chosen, if_neg unspent, state, writes]

end Register

namespace Transform

open Register (after answers writes)

theorem initially_eq (text : String) : initially text = compareAndSet none text := by
  funext current
  cases current <;> simp [initially, compareAndSet]

/-- A transform that may be sent again: the second time it leaves the text as it is. -/
def Settles (transform : Transform String) : Prop :=
  ∀ current, content (Register.update transform (Register.update transform current).2).2 =
    content (Register.update transform current).2

/-- A transform settles if, on top of what it wrote, it writes the same again or gives up. -/
theorem settles_of_repeats {transform : Transform String}
    (repeats : ∀ current payload again state, transform current = .write payload →
      transform (some ⟨payload, state⟩) = .write again → again = payload) : Settles transform := by
  intro current
  rcases Register.update_cases transform current with same | ⟨payload, state, chosen, written⟩
  · rw [same, same]
  · rw [written]
    rcases Register.update_cases transform (some ⟨payload, state⟩) with same | ⟨again, state', chosen', written'⟩
    · rw [same]
    · rw [written', repeats current payload again state chosen chosen']
      rfl

theorem text_settles (text : String) :
    ∀ transform ∈ [initially text, update text, unlessThere text, keep, giveUp], Settles transform := by
  intro transform member
  apply settles_of_repeats
  intro current payload again state chosen chosen'
  simp only [List.mem_cons, List.not_mem_nil, or_false] at member
  rcases member with rfl | rfl | rfl | rfl | rfl
  · cases chosen'
  · cases current with
    | none => cases chosen
    | some value => cases chosen; cases chosen'; rfl
  · have writes_text {current : Option (Value String)} {payload : String}
        (chosen : unlessThere text current = .write payload) : payload = text := by
      unfold unlessThere at chosen
      split at chosen
      · cases chosen; rfl
      · split at chosen <;> cases chosen
        rfl
    rw [writes_text chosen, writes_text chosen']
  · cases chosen'; rfl
  · cases chosen'

/-- To append is not safe to repeat, unless there is nothing to append. -/
theorem append_settles_iff (suffix : String) : Settles (append suffix) ↔ suffix = "" := by
  constructor
  · intro settles
    have twice : "" ++ suffix ++ suffix = "" ++ suffix := settles none
    have length := congrArg String.length twice
    simp only [String.length_append] at length
    exact String.length_eq_zero_iff.1 (by omega)
  · rintro rfl
    apply settles_of_repeats
    intro current payload again state chosen chosen'
    cases chosen'
    simp [content]

theorem update_append (suffix : String) {current : Option (Value String)} (room : writes current < 2 ^ 64) :
    Register.update (append suffix) current =
      (.ok (.ofNat (writes current)), some ⟨content current ++ suffix, .ofNat (writes current)⟩) :=
  Register.update_write rfl room

private theorem writes_append (suffix : String) {current : Option (Value String)} (room : writes current < 2 ^ 64) :
    writes (Register.update (append suffix) current).2 = writes current + 1 := by
  rw [update_append suffix room, writes, UInt64.toNat_ofNat_of_lt' room]

theorem after_appends {suffixes : List String} {current : Option (Value String)}
    (room : writes current + suffixes.length ≤ 2 ^ 64) :
    content (after (suffixes.map append) current) = suffixes.foldl (· ++ ·) (content current) := by
  induction suffixes generalizing current with
  | nil => rfl
  | cons suffix rest ih =>
    rw [List.length_cons] at room
    have written : writes (Register.update (append suffix) current).2 = _ := writes_append suffix (by omega)
    refine (@ih (Register.update (append suffix) current).2 (by omega)).trans ?_
    rw [update_append suffix (by omega)]
    rfl

theorem answers_appends {ballots : List Ballot} {suffixes : List String} {current : Option (Value String)}
    (each : ballots.length = suffixes.length) (room : writes current + suffixes.length ≤ 2 ^ 64) :
    (answers (ballots.zip (suffixes.map append)) current).map (·.outcome) =
      (List.range' (writes current) suffixes.length).map fun state => .ok (.ofNat state) := by
  induction suffixes generalizing ballots current with
  | nil => simp [answers]
  | cons suffix rest ih =>
    obtain ⟨ballot, ballots, rfl⟩ := List.exists_cons_of_length_eq_add_one each
    rw [List.length_cons] at room
    have written : writes (Register.update (append suffix) current).2 = _ := writes_append suffix (by omega)
    rw [List.map_cons, List.zip_cons_cons, answers, List.map_cons, ih (Nat.succ.inj each) (by omega), written,
      update_append suffix (by omega), List.length_cons, List.range'_succ, List.map_cons]

end Transform

namespace Session

variable {size caller : Nat} {p : Proposer}

/-- The calls of one caller to a cluster without faults go through its transforms one after another. -/
theorem serve_sole {s : Session α} {transforms : List (Transform α)} (several : 0 < size)
    (empty : s.cluster.Uniform size .empty)
    (fresh : ∀ p ∈ s.proposers, p.mint.round = 0 ∧ p.links.Perm (List.range size))
    (found : s.proposers[caller]? = some p) (few : transforms.length < 2 ^ 64) :
    let after := Session.serve (transforms.map (caller, ·)) s
    after.1.map (·.answer) = Register.answers ((p.mint.take transforms.length).zip transforms) none ∧
      ∃ record, after.2.cluster.Uniform size record ∧
        record.accepted.map (·.value) = Register.after transforms none := by
  intro after
  obtain ⟨answered, _, _, record, uniform, kept, _⟩ :=
    (Realizes.initial empty fresh).serve several (transforms.map (caller, ·))
  obtain ⟨first, _⟩ := fresh p (List.mem_of_getElem? found)
  have known : (s.proposers.map (·.mint))[caller]? = some p.mint := by rw [List.getElem?_map, found]; rfl
  rw [Register.serve_sole known (by simpa [first] using few) (fun _ called => absurd called List.not_mem_nil)]
    at answered kept
  exact ⟨answered, record, uniform, kept⟩

/-- Appends that one caller makes to a cluster without faults are all committed, one state after the other, and every
acceptor keeps the suffixes in their order. -/
theorem appends_kept {s : Session String} {suffixes : List String} (several : 0 < size)
    (empty : s.cluster.Uniform size .empty)
    (fresh : ∀ p ∈ s.proposers, p.mint.round = 0 ∧ p.links.Perm (List.range size))
    (found : s.proposers[caller]? = some p) (few : suffixes.length < 2 ^ 64) :
    let after := Session.serve ((suffixes.map Transform.append).map (caller, ·)) s
    after.1.map (·.outcome) = (List.range suffixes.length).map (fun state => .ok (.ofNat state)) ∧
      ∃ record, after.2.cluster.Uniform size record ∧
        Transform.content (record.accepted.map (·.value)) = String.join suffixes := by
  intro after
  have few' : (suffixes.map Transform.append).length < 2 ^ 64 := by rwa [List.length_map]
  obtain ⟨answered, record, uniform, kept⟩ := serve_sole several empty fresh found few'
  have room : Register.writes (none : Option (Value String)) + suffixes.length ≤ 2 ^ 64 := by
    simp only [Register.writes]
    omega
  refine ⟨?_, record, uniform, ?_⟩
  · have outcomes := congrArg (List.map (·.outcome)) answered
    have each : (p.mint.take (suffixes.map Transform.append).length).length = suffixes.length := by
      rw [Mint.take_length, List.length_map]
    rw [Transform.answers_appends each room, List.map_map] at outcomes
    rw [List.range_eq_range']
    exact outcomes
  · rw [kept, Transform.after_appends room]
    rfl

end Session

end Synod
