import Mathlib.Data.List.Basic
import Synod.Proofs.MessageSize

/-! Requests served one after another. Each of them meets what the requests before it left. -/

namespace Synod

section

variable {ι ρ S : Type}

def serveAll (step : ι → S → ρ × S) : List ι → S → List ρ × S
  | [], s => ([], s)
  | request :: rest, s =>
    let (reply, s) := step request s
    let (replies, s) := serveAll step rest s
    (reply :: replies, s)

variable (step : ι → S → ρ × S) (s : S)

theorem serveAll_append (first rest : List ι) :
    serveAll step (first ++ rest) s =
      ((serveAll step first s).1 ++ (serveAll step rest (serveAll step first s).2).1,
        (serveAll step rest (serveAll step first s).2).2) := by
  induction first generalizing s with
  | nil => rfl
  | cons request first ih => simp [serveAll, ih]

theorem serveAll_length (requests : List ι) : (serveAll step requests s).1.length = requests.length := by
  induction requests generalizing s with
  | nil => rfl
  | cons request rest ih => simp [serveAll, ih]

variable {requests : List ι} {place : Nat} {request : ι}

theorem serveAll_next (sent : requests[place]? = some request) :
    (serveAll step (requests.take (place + 1)) s).2 = (step request (serveAll step (requests.take place) s).2).2 := by
  rw [List.take_add_one, sent, serveAll_append]
  rfl

theorem serveAll_reply (sent : requests[place]? = some request) :
    (serveAll step requests s).1[place]? = some (step request (serveAll step (requests.take place) s).2).1 := by
  obtain ⟨inside, same⟩ := List.getElem?_eq_some_iff.1 sent
  have split : requests = requests.take place ++ request :: requests.drop (place + 1) := by
    rw [← same, ← List.drop_eq_getElem_cons inside, List.take_append_drop]
  have before : (serveAll step (requests.take place) s).1.length = place := by
    rw [serveAll_length, List.length_take]
    omega
  conv_lhs => rw [split, serveAll_append]
  rw [List.getElem?_append_right (Nat.le_of_eq before), before, Nat.sub_self]
  rfl

theorem serveAll_take (place : Nat) :
    (serveAll step (requests.take place) s).1 = (serveAll step requests s).1.take place := by
  by_cases inside : place ≤ requests.length
  · have before : (serveAll step (requests.take place) s).1.length = place := by
      rw [serveAll_length, List.length_take, Nat.min_eq_left inside]
    conv_rhs => rw [← List.take_append_drop place requests, serveAll_append]
    rw [List.take_left' before]
  · have beyond := Nat.le_of_not_le inside
    rw [List.take_of_length_le beyond, List.take_of_length_le]
    rwa [serveAll_length]

/-- Two ways to serve that agree wherever the requests lead are the same. -/
theorem serveAll_congr {step' : ι → S → ρ × S} (agree : ∀ (place : Nat) request, requests[place]? = some request →
      step' request (serveAll step (requests.take place) s).2 = step request (serveAll step (requests.take place) s).2) :
    serveAll step' requests s = serveAll step requests s := by
  induction requests generalizing s with
  | nil => rfl
  | cons request rest ih =>
    have first : step' request s = step request s := agree 0 request rfl
    have others := ih (step request s).2 fun place other sent => agree (place + 1) other sent
    simp only [serveAll, first, others]

theorem serveAll_map {ρ' : Type} (view : ρ → ρ') (requests : List ι) :
    serveAll (fun request s => (view (step request s).1, (step request s).2)) requests s =
      ((serveAll step requests s).1.map view, (serveAll step requests s).2) := by
  induction requests generalizing s with
  | nil => rfl
  | cons request rest ih => simp [serveAll, ih]

end

end Synod
