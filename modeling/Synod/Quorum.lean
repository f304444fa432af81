/-! Counting votes. Each link of a phase casts one vote, and a phase succeeds when more than
half of all links granted it, whatever became of the rest. -/

namespace Synod

/-- The least number of votes that is more than half of `links`. -/
def majority (links : Nat) : Nat := links / 2 + 1

/-- What one link contributes to a phase: it agreed, it refused, or it gave no usable answer. -/
inductive Vote where
  | grant
  | reject
  | fail
deriving DecidableEq, Repr

structure Tally where
  granted : Nat := 0
  rejected : Nat := 0
  failed : Nat := 0
deriving DecidableEq, Repr, Inhabited

namespace Tally

def add (t : Tally) : Vote → Tally
  | .grant => { t with granted := t.granted + 1 }
  | .reject => { t with rejected := t.rejected + 1 }
  | .fail => { t with failed := t.failed + 1 }

def ofVotes (votes : List Vote) : Tally := votes.foldl add {}

private theorem foldl_add (votes : List Vote) (t : Tally) :
    votes.foldl add t =
      ⟨t.granted + votes.count .grant, t.rejected + votes.count .reject, t.failed + votes.count .fail⟩ := by
  induction votes generalizing t with
  | nil => rfl
  | cons vote rest ih =>
    rw [List.foldl_cons, ih]
    cases vote <;> simp [add] <;> omega

theorem ofVotes_eq (votes : List Vote) :
    ofVotes votes = ⟨votes.count .grant, votes.count .reject, votes.count .fail⟩ := by
  simp [ofVotes, foldl_add]

def HasMajority (t : Tally) (links : Nat) : Prop := majority links ≤ t.granted

instance (t : Tally) (links : Nat) : Decidable (t.HasMajority links) :=
  inferInstanceAs (Decidable (majority links ≤ t.granted))

/-- The count before the first vote and after each one. -/
def progress (votes : List Vote) : List Tally := go {} votes
where
  go (t : Tally) : List Vote → List Tally
    | [] => [t]
    | vote :: rest => t :: go (t.add vote) rest

private theorem go_getElem? (votes : List Vote) (t : Tally) (place : Nat) :
    (progress.go t votes)[place]? = if place ≤ votes.length then some ((votes.take place).foldl add t) else none := by
  induction votes generalizing t place with
  | nil => cases place <;> simp [progress.go]
  | cons vote rest ih =>
    cases place with
    | zero => simp [progress.go]
    | succ place => simp [progress.go, ih]

theorem progress_getElem? (votes : List Vote) (place : Nat) :
    (progress votes)[place]? = if place ≤ votes.length then some (ofVotes (votes.take place)) else none :=
  go_getElem? votes {} place

theorem ofVotes_total (votes : List Vote) :
    (ofVotes votes).granted + (ofVotes votes).rejected + (ofVotes votes).failed = votes.length := by
  rw [ofVotes_eq]
  induction votes with
  | nil => rfl
  | cons vote rest ih => cases vote <;> simp at ih ⊢ <;> omega

/-- No later vote takes a majority away. -/
theorem progress_rises (votes : List Vote) (links : Nat) :
    (progress votes).Pairwise fun before after => before.HasMajority links → after.HasMajority links := by
  rw [List.pairwise_iff_getElem]
  intro early late inside inside' order reached
  have counted (place : Nat) (inside : place < (progress votes).length) :
      (progress votes)[place].granted = (votes.take place).count .grant := by
    have found := progress_getElem? votes place
    rw [List.getElem?_eq_getElem inside] at found
    split at found
    · rw [Option.some.inj found, ofVotes_eq]
    · cases found
  have fewer : (votes.take early).count .grant ≤ (votes.take late).count .grant :=
    (List.take_sublist_take_left (Nat.le_of_lt order)).count_le _
  rw [HasMajority, counted] at reached ⊢
  exact Nat.le_trans reached fewer

end Tally

end Synod
