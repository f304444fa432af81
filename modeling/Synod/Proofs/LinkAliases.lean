import Mathlib.Algebra.Group.Nat.Even
import Mathlib.Data.List.Basic
import Mathlib.Data.List.Nodup
import Mathlib.Data.List.Perm.Subperm
import Synod.Proofs.Elections

/-! Majorities where several links lead to one acceptor. Votes are counted link by link, so an acceptor weighs as much
as the links that lead to it. A prepare phase finds each acceptor once, because no acceptor grants a ballot twice; an
accept phase may count one acceptor several times. -/

namespace Synod

section

variable {ι : Type} {links links' known : List ι} {votes votes' : List Vote}

/-- The acceptors behind the links that granted, one entry for each such link. -/
def grantors (links : List ι) (votes : List Vote) : List ι :=
  ((links.zip votes).filter fun entry => entry.2 = .grant).map (·.1)

/-- Two of the links lead to one acceptor, which is counted twice. -/
example : grantors [7, 7, 8, 9] [.grant, .grant, .fail, .grant] = [7, 7, 9] := by decide

private theorem grantors_sublist (same : votes.length = links.length) : (grantors links votes).Sublist links := by
  have firsts : (links.zip votes).map (·.1) = links := List.map_fst_zip (ge_of_eq same)
  have inside : (grantors links votes).Sublist ((links.zip votes).map (·.1)) := List.filter_sublist.map _
  rwa [firsts] at inside

theorem grantors_length (same : votes.length = links.length) : (grantors links votes).length = votes.count .grant := by
  have seconds : (links.zip votes).map (·.2) = votes := List.map_snd_zip (le_of_eq same)
  calc (grantors links votes).length
    _ = (links.zip votes).countP fun entry => entry.2 = .grant := by
      rw [grantors, List.length_map, List.countP_eq_length_filter]
    _ = ((links.zip votes).map (·.2)).countP fun vote => vote = .grant := by rw [List.countP_map]; rfl
    _ = votes.count .grant := by
      rw [seconds]
      exact List.countP_congr fun vote _ => by simp

/-- Links that granted lead to different acceptors, if no acceptor is behind two of them. -/
theorem grantors_nodup (apart : ∀ (link link' : Nat) acceptor, links[link]? = some acceptor → votes[link]? = some .grant →
    links[link']? = some acceptor → votes[link']? = some .grant → link = link') : (grantors links votes).Nodup := by
  rw [grantors, List.Nodup, List.pairwise_map, List.pairwise_filter, List.pairwise_iff_getElem]
  intro link link' inside inside' before granted granted' same
  have entry := List.getElem?_eq_getElem inside
  have entry' := List.getElem?_eq_getElem inside'
  rw [List.getElem?_zip_eq_some] at entry entry'
  have voted : votes[link]? = some .grant := by rw [entry.2, of_decide_eq_true granted]
  have voted' : votes[link']? = some .grant := by rw [entry'.2, of_decide_eq_true granted']
  have equal := apart link link' _ entry.1 voted (entry'.1.trans (congrArg some same.symm)) voted'
  omega

theorem grantors_enough (same : votes.length = links.length) (many : (Tally.ofVotes votes).HasMajority links.length) :
    links.length < 2 * (grantors links votes).length := by
  rw [Tally.ofVotes_eq] at many
  simp only [Tally.HasMajority, majority] at many
  rw [grantors_length same]
  omega

private theorem Tally.half_refused {count : Nat} (half : votes.count .grant = count / 2) :
    ¬ (Tally.ofVotes votes).HasMajority count := by
  rw [Tally.ofVotes_eq]
  simp only [Tally.HasMajority, majority]
  omega

/-- Parts of one table that are together longer than the table have an entry in common, whatever the table repeats. -/
theorem sublists_meet {part part' : List ι} (inside : part.Sublist links) (inside' : part'.Sublist links')
    (order : links'.Perm links) (many : links.length < part.length + part'.length) : ∃ entry ∈ part, entry ∈ part' := by
  classical
  by_contra apart
  push Not at apart
  have first : part.length ≤ links.countP (· ∈ part) := by
    have all : part.countP (· ∈ part) = part.length := List.countP_eq_length.2 fun _ member => by simpa using member
    rw [← all]
    exact inside.countP_le
  have second : part'.length ≤ links.countP (· ∉ part) := by
    have none : part'.countP (· ∉ part) = part'.length :=
      List.countP_eq_length.2 fun entry member => by simpa using fun other => apart entry other member
    rw [← none, ← order.countP_eq]
    exact inside'.countP_le
  have split := List.length_eq_countP_add_countP (fun entry => decide (entry ∈ part)) (l := links)
  simp only [decide_not, decide_eq_true_eq] at split second
  omega

/-- Rows without repetition that are together longer than the row of all that they are made of have an entry in
common. -/
theorem rows_meet {row row' : List ι} (distinct : row.Nodup) (distinct' : row'.Nodup) (inside : row ⊆ known)
    (inside' : row' ⊆ known) (many : known.length < row.length + row'.length) : ∃ entry ∈ row, entry ∈ row' := by
  by_contra apart
  push Not at apart
  have together : (row ++ row').Nodup := distinct.append distinct' fun entry member member' => apart entry member member'
  have bounded := (List.Nodup.subperm together (List.append_subset.2 ⟨inside, inside'⟩)).length_le
  rw [List.length_append] at bounded
  omega

end

namespace System

variable {α : Type}

/-- The promises that a round heard were granted by different acceptors, also where routes lead to one acceptor. -/
theorem Valid.grantors_nodup {s : System α} (valid : Valid s) {attempt : Nat} {a : Attempt α}
    (begun : s.attempts[attempt]? = some a) :
    (grantors (s.routes.map (·.acceptor)) (a.heard.map (Reply.vote (·.ok)))).Nodup := by
  have granted (route acceptor : Nat) (leads : (s.routes.map (·.acceptor))[route]? = some acceptor)
      (voted : (a.heard.map (Reply.vote (·.ok)))[route]? = some .grant) :
      ∃ promise, s.Promised attempt route acceptor a.ballot promise ∧ promise.ok = true := by
    rw [List.getElem?_map, Option.map_eq_some_iff] at leads voted
    obtain ⟨link, leads, rfl⟩ := leads
    obtain ⟨reply, heard, vote⟩ := voted
    obtain ⟨promise, rfl, ok⟩ := Reply.vote_grant.1 vote
    obtain ⟨link', leads', promised⟩ := valid.promised begun heard
    obtain rfl : link = link' := Option.some.inj (leads.symm.trans leads')
    exact ⟨promise, promised, ok⟩
  apply Synod.grantors_nodup
  intro route route' acceptor leads voted leads' voted'
  obtain ⟨promise, promised, ok⟩ := granted route acceptor leads voted
  obtain ⟨promise', promised', ok'⟩ := granted route' acceptor leads' voted'
  exact (valid.consistent.once promised ok promised' ok').2

/-- Two majorities have an acceptor in common, also where links lead to one acceptor. In every run the links that grant
a prepare phase lead to different acceptors. A majority that promised and one that accepted share an acceptor, whatever
the table repeats and in whatever order it is called; two majorities that promised share one even over different
tables, because each acceptor counts for one link only. Half of the links is no majority, and two halves of an even
number may be apart. -/
theorem majorities_share_acceptor :
    (∀ {α : Type} (acceptors : Nat) (routes : List Route) (actions : List (Action α)) (attempt : Nat) (a : Attempt α),
      ((System.initial acceptors routes).run actions).attempts[attempt]? = some a →
      (grantors (routes.map (·.acceptor)) (a.heard.map (Reply.vote (·.ok)))).Nodup) ∧
    (∀ {ι : Type} (links links' : List ι) (prepares accepts : List Vote),
      prepares.length = links.length → accepts.length = links'.length → links'.Perm links →
      (Tally.ofVotes prepares).HasMajority links.length → (Tally.ofVotes accepts).HasMajority links'.length →
      ∃ acceptor ∈ grantors links prepares, acceptor ∈ grantors links' accepts) ∧
    (∀ {ι : Type} (links links' known : List ι) (prepares prepares' : List Vote),
      prepares.length = links.length → prepares'.length = links'.length → links'.length = links.length →
      known.length ≤ links.length → links ⊆ known → links' ⊆ known →
      (grantors links prepares).Nodup → (grantors links' prepares').Nodup →
      (Tally.ofVotes prepares).HasMajority links.length → (Tally.ofVotes prepares').HasMajority links'.length →
      ∃ acceptor ∈ grantors links prepares, acceptor ∈ grantors links' prepares') ∧
    (∀ links : Nat, ∃ votes : List Vote, votes.length = links ∧ votes.count .grant = links / 2 ∧
      ¬ (Tally.ofVotes votes).HasMajority links) ∧
    (∀ links : Nat, Even links → ∃ votes votes' : List Vote, votes.length = links ∧ votes'.length = links ∧
      votes.count .grant = links / 2 ∧ votes'.count .grant = links / 2 ∧
      ¬ (Tally.ofVotes votes).HasMajority links ∧ ¬ (Tally.ofVotes votes').HasMajority links ∧
      ∀ link : Nat, votes[link]? = some .grant → votes'[link]? ≠ some .grant) := by
  refine ⟨?_, ?_, ?_, ?_, ?_⟩
  · intro α acceptors routes actions attempt a begun
    have valid := (Valid.initial acceptors routes).run actions
    have apart := valid.grantors_nodup begun
    rwa [(run_grows _ actions).routes] at apart
  · intro ι links links' prepares accepts voted voted' order majority majority'
    have enough := grantors_enough voted majority
    have enough' := grantors_enough voted' majority'
    apply sublists_meet (grantors_sublist voted) (grantors_sublist voted') order
    rw [order.length_eq] at enough'
    omega
  · intro ι links links' known prepares prepares' voted voted' same bounded inside inside' distinct distinct' majority
      majority'
    have enough := grantors_enough voted majority
    have enough' := grantors_enough voted' majority'
    have listed := List.Subset.trans (grantors_sublist voted).subset inside
    have listed' := List.Subset.trans (grantors_sublist voted').subset inside'
    apply rows_meet distinct distinct' listed listed'
    omega
  · intro links
    have half : (.replicate (links / 2) .grant ++ .replicate (links - links / 2) .fail : List Vote).count .grant = links / 2 := by
      simp [List.count_replicate]
    refine ⟨_, ?_, half, Tally.half_refused half⟩
    rw [List.length_append, List.length_replicate, List.length_replicate]
    omega
  · rintro links ⟨pairs, rfl⟩
    have half : (.replicate pairs .grant ++ .replicate pairs .reject : List Vote).count .grant = (pairs + pairs) / 2 := by
      simp [List.count_replicate]
      omega
    have half' : (.replicate pairs .reject ++ .replicate pairs .grant : List Vote).count .grant = (pairs + pairs) / 2 := by
      simp [List.count_replicate]
      omega
    refine ⟨_, _, by simp, by simp, half, half', Tally.half_refused half, Tally.half_refused half', ?_⟩
    intro link granted granted'
    rcases Nat.lt_or_ge link pairs with before | behind
    · rw [List.getElem?_append_left (by simpa using before), List.getElem?_replicate, if_pos before] at granted'
      cases granted'
    · rw [List.getElem?_append_right (by simpa using behind), List.getElem?_replicate] at granted
      split at granted <;> cases granted

/-- Acceptor 0 is behind two of five links. The prepare phase finds it over one of them, the accept phase over both. -/
theorem majorities_share_acceptor_of_five :
    let links := [0, 0, 1, 2, 3]
    let prepares := [.reject, .grant, .grant, .fail, .grant]
    let accepts := [.grant, .grant, .fail, .grant, .reject]
    grantors links prepares = [0, 1, 3] ∧ grantors links accepts = [0, 0, 2] ∧
      ∃ acceptor ∈ grantors links prepares, acceptor ∈ grantors links accepts :=
  ⟨by decide, by decide, majorities_share_acceptor.2.1 _ _ _ _ rfl rfl (.refl _) (by decide) (by decide)⟩

end System

end Synod
