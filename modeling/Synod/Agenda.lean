/-! What is to happen, and when. Things happen in the order of their times, and those of one time in the order in
which they were planned. -/

namespace Synod.Agenda

variable {β : Type}

/-- Plan something, after all that is to happen at the same time. -/
def insert (entry : Nat × β) : List (Nat × β) → List (Nat × β)
  | [] => [entry]
  | first :: rest => if first.1 ≤ entry.1 then first :: insert entry rest else entry :: first :: rest

def insertAll (entries agenda : List (Nat × β)) : List (Nat × β) :=
  entries.foldl (fun agenda entry => insert entry agenda) agenda

theorem insert_perm (entry : Nat × β) (agenda : List (Nat × β)) : (insert entry agenda).Perm (entry :: agenda) := by
  induction agenda with
  | nil => exact .refl _
  | cons first rest ih =>
    rw [insert]
    split
    · exact (ih.cons first).trans (.swap entry first rest)
    · exact .refl _

theorem insertAll_perm (entries agenda : List (Nat × β)) : (insertAll entries agenda).Perm (entries ++ agenda) := by
  induction entries generalizing agenda with
  | nil => exact .refl _
  | cons entry rest ih =>
    exact (ih (insert entry agenda)).trans (((insert_perm entry agenda).append_left rest).trans List.perm_middle)

theorem insert_ordered {entry : Nat × β} {agenda : List (Nat × β)} (ordered : agenda.Pairwise (·.1 ≤ ·.1)) :
    (insert entry agenda).Pairwise (·.1 ≤ ·.1) := by
  induction agenda with
  | nil => exact List.pairwise_singleton ..
  | cons first rest ih =>
    obtain ⟨least, ordered⟩ := List.pairwise_cons.1 ordered
    rw [insert]
    split
    next early =>
      refine List.pairwise_cons.2 ⟨?_, ih ordered⟩
      intro other member
      rcases List.mem_cons.1 ((insert_perm entry rest).mem_iff.1 member) with rfl | member
      · exact early
      · exact least other member
    next late =>
      refine List.pairwise_cons.2 ⟨?_, List.pairwise_cons.2 ⟨least, ordered⟩⟩
      intro other member
      rcases List.mem_cons.1 member with rfl | member
      · omega
      · have := least other member
        omega

theorem insertAll_ordered {entries agenda : List (Nat × β)} (ordered : agenda.Pairwise (·.1 ≤ ·.1)) :
    (insertAll entries agenda).Pairwise (·.1 ≤ ·.1) := by
  induction entries generalizing agenda with
  | nil => exact ordered
  | cons entry rest ih => exact ih (insert_ordered ordered)

theorem insert_filter {entry : Nat × β} {agenda : List (Nat × β)} (ordered : agenda.Pairwise (·.1 ≤ ·.1)) (time : Nat) :
    (insert entry agenda).filter (·.1 == time) =
      agenda.filter (·.1 == time) ++ if entry.1 = time then [entry] else [] := by
  induction agenda with
  | nil => simp [insert, List.filter_cons]
  | cons first rest ih =>
    obtain ⟨least, ordered⟩ := List.pairwise_cons.1 ordered
    rw [insert]
    split
    · simp only [List.filter_cons, ih ordered]
      split <;> rfl
    next late =>
      by_cases same : entry.1 = time
      · -- Nothing behind the new entry is due at its time.
        have none : (first :: rest).filter (·.1 == time) = [] := by
          refine List.filter_eq_nil_iff.2 fun other member due => ?_
          rcases List.mem_cons.1 member with rfl | member
          · simp only [beq_iff_eq] at due
            omega
          · have := least other member
            simp only [beq_iff_eq] at due
            omega
        rw [List.filter_cons, none]
        simp [same]
      · rw [List.filter_cons]
        simp [same]

theorem insertAll_filter {entries agenda : List (Nat × β)} (ordered : agenda.Pairwise (·.1 ≤ ·.1)) (time : Nat) :
    (insertAll entries agenda).filter (·.1 == time) = (agenda ++ entries).filter (·.1 == time) := by
  induction entries generalizing agenda with
  | nil => rw [List.append_nil]; rfl
  | cons entry rest ih =>
    refine (ih (insert_ordered ordered)).trans ?_
    rw [List.filter_append, insert_filter ordered, List.append_assoc, List.filter_append, List.filter_cons]
    by_cases same : entry.1 = time <;> simp [same]

end Synod.Agenda
