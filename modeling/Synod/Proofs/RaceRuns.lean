import Mathlib.Algebra.BigOperators.Ring.List
import Mathlib.Algebra.Ring.Nat
import Mathlib.Data.List.Basic
import Mathlib.Data.List.Perm.Basic
import Synod.Proofs.WriteChain
import Synod.Race

/-! A race is a run of the system. The clock chooses the order of the actions and adds nothing to them, so what holds
of all runs holds of a race. Every round of a racer ends once, the results are the outcomes of the rounds, and the
number of steps that a race is given lets all of them end. -/

namespace Synod.Race

variable {α : Type}

@[simp]
private theorem send_system (r : Race α) (now racer : Nat) (runner : Runner α) :
    (r.send now racer runner).system = r.system := rfl

@[simp]
private theorem send_runners (r : Race α) (now racer : Nat) (runner : Runner α) :
    (r.send now racer runner).runners = r.runners := rfl

@[simp]
private theorem finishRound_system (r : Race α) (now racer : Nat) (runner : Runner α)
    (result : Except ProposeError UInt64) : (r.finishRound now racer runner result).system = r.system := rfl

@[simp]
private theorem finishRound_runners (r : Race α) (now racer : Nat) (runner : Runner α)
    (result : Except ProposeError UInt64) :
    (r.finishRound now racer runner result).runners = r.runners.set racer (runner.note result) := rfl

theorem perform_runs (r : Race α) (now racer : Nat) (task : Task) :
    ∃ actions, (r.perform now racer task).system = r.system.run actions := by
  unfold perform
  split
  · exact ⟨[], rfl⟩
  next runner _ =>
    cases task with
    | begin =>
      dsimp only
      split
      · exact ⟨[], rfl⟩
      next payload _ _ => exact ⟨[.start racer (compareAndSet _ payload)], rfl⟩
    | arrive route =>
      dsimp only
      split
      · exact ⟨[], rfl⟩
      next attempt _ =>
        exact ⟨[if attempt.preparing then .prepare runner.attempt route else .accept runner.attempt route], rfl⟩
    | finish =>
      dsimp only
      split
      · exact ⟨[], rfl⟩
      next attempt _ =>
        refine ⟨[if attempt.preparing then .resolve runner.attempt runner.unreachable
          else .conclude runner.attempt runner.unreachable], ?_⟩
        split <;> rfl

theorem advance_runs (r : Race α) (steps : Nat) : ∃ actions, (r.advance steps).system = r.system.run actions := by
  induction steps generalizing r with
  | zero => exact ⟨[], rfl⟩
  | succ steps ih =>
    rw [advance]
    split
    · exact ⟨[], rfl⟩
    next now racer task agenda _ =>
      obtain ⟨first, performed⟩ := perform_runs { r with agenda } now racer task
      obtain ⟨rest, advanced⟩ := ih ({ r with agenda }.perform now racer task)
      exact ⟨first ++ rest, by rw [advanced, performed, System.run_append]⟩

/-- A race is a run of the system from its beginning. -/
theorem run_runs (acceptors : Nat) (racers : List (Racer α)) :
    ∃ actions, (run acceptors racers).system = (System.initial acceptors (routes acceptors)).run actions := by
  obtain ⟨actions, advanced⟩ := advance_runs (initial acceptors racers) _
  exact ⟨racers.map (fun racer => .join racer.nodeId) ++ actions, by rw [System.run_append]; exact advanced⟩

section

variable {β : Type} {items : List β} {place : Nat} {old : β}

private theorem set_split (held : items[place]? = some old) (new : β) :
    ∃ before after, items = before ++ old :: after ∧ items.set place new = before ++ new :: after := by
  obtain ⟨inside, same⟩ := List.getElem?_eq_some_iff.1 held
  refine ⟨items.take place, items.drop (place + 1), ?_, ?_⟩
  · rw [← same, ← List.drop_eq_getElem_cons inside, List.take_append_drop]
  · rw [List.set_eq_take_append_cons_drop, if_pos inside]

private theorem set_same (held : items[place]? = some old) : items.set place old = items := by
  obtain ⟨inside, rfl⟩ := List.getElem?_eq_some_iff.1 held
  exact List.set_getElem_self inside

private theorem map_set_same {γ : Type} (held : items[place]? = some old) (new : β) (view : β → γ)
    (same : view new = view old) : (items.set place new).map view = items.map view := by
  obtain ⟨before, after, split, changed⟩ := set_split held new
  rw [split] at changed ⊢
  rw [changed]
  simp [same]

private theorem filterMap_set_same {γ : Type} (held : items[place]? = some old) (new : β) (view : β → Option γ)
    (same : view new = view old) : (items.set place new).filterMap view = items.filterMap view := by
  obtain ⟨before, after, split, changed⟩ := set_split held new
  rw [split] at changed ⊢
  rw [changed]
  simp [List.filterMap_cons, same]

private theorem sum_map_set (held : items[place]? = some old) (new : β) (weight : β → Nat) :
    ((items.set place new).map weight).sum + weight old = (items.map weight).sum + weight new := by
  obtain ⟨before, after, split, changed⟩ := set_split held new
  rw [split] at changed ⊢
  rw [changed]
  simp only [List.map_append, List.map_cons, List.sum_append, List.sum_cons]
  omega

end

/-- How far a round has come: what an arrival leaves alone. -/
def progress (a : Attempt α) : Option (Round.Draft α) × Option (Except ProposeError UInt64) := (a.draft, a.outcome)

private theorem arrive_progress (s : System α) (a : Attempt α) (attempt route : Nat) :
    let s' := s.step (if a.preparing then .prepare attempt route else .accept attempt route)
    s'.mints = s.mints ∧ s'.attempts.map progress = s.attempts.map progress := by
  dsimp only
  split
  · simp only [System.step, System.arrivePrepare]
    split
    next begun _ =>
      split
      · exact ⟨rfl, map_set_same begun _ progress rfl⟩
      · exact ⟨rfl, rfl⟩
    · exact ⟨rfl, rfl⟩
  · simp only [System.step, System.arriveAccept]
    split
    next begun _ =>
      split
      · exact ⟨rfl, map_set_same begun _ progress rfl⟩
      · exact ⟨rfl, rfl⟩
    · exact ⟨rfl, rfl⟩

/-- The end of a phase ends the round or begins its accept phase. -/
theorem finish_progress (s : System α) {a : Attempt α} {attempt : Nat} (begun : s.attempts[attempt]? = some a)
    (unfinished : a.outcome = none) (lost : Nat → Option TransportError) :
    ∃ a', s.step (if a.preparing then .resolve attempt lost else .conclude attempt lost) =
        { s with attempts := s.attempts.set attempt a' } ∧
      (a'.outcome = none → a.draft = none ∧ a'.draft.isSome) := by
  cases drafted : a.draft with
  | none =>
    have preparing : a.preparing = true := by simp [Attempt.preparing, drafted, unfinished]
    refine ⟨a.resolve (System.replies s.routes a.promises lost), ?_, fun open' => ⟨rfl, ?_⟩⟩
    · simp [System.step, begun, preparing]
    · unfold Attempt.resolve at open' ⊢
      split
      · rfl
      next error refused =>
        rw [refused] at open'
        cases open'
  | some draft =>
    have accepting : a.preparing = false := Attempt.not_preparing_of_draft drafted
    refine ⟨{ a with outcome := some (Round.conclude draft (System.replies s.routes a.accepts lost)) }, ?_, ?_⟩
    · simp [System.step, begun, accepting, drafted, unfinished]
    · intro open'
      cases open'

/-- What a step of a race can do. The end of a phase is looked at where a round is under way. -/
inductive Turn (r : Race α) (now racer : Nat) : Task → Race α → Prop where
  | absent {task : Task} (missing : r.runners[racer]? = none) : Turn r now racer task r
  | rested {runner : Runner α} (found : r.runners[racer]? = some runner) (done : runner.left = []) :
      Turn r now racer .begin r
  | began {runner : Runner α} {next : Expectation × α} {left : List (Expectation × α)} {system : System α} {a : Attempt α}
      (found : r.runners[racer]? = some runner) (more : runner.left = next :: left)
      (mints : system.mints.length = r.system.mints.length) (attempts : system.attempts = r.system.attempts ++ [a])
      (undrafted : a.draft = none) (unfinished : a.outcome = none) :
      Turn r now racer .begin ({ r with
        system
        runners := r.runners.set racer { runner with left, attempt := r.system.attempts.length } }.send now racer
          { runner with left, attempt := r.system.attempts.length })
  | arrived {runner : Runner α} {route : Nat} {system : System α} (found : r.runners[racer]? = some runner)
      (mints : system.mints = r.system.mints) (same : system.attempts.map progress = r.system.attempts.map progress) :
      Turn r now racer (.arrive route) { r with system }
  | sent {runner : Runner α} {a a' : Attempt α} (found : r.runners[racer]? = some runner)
      (begun : r.system.attempts[runner.attempt]? = some a) (unfinished : a.outcome = none) (undrafted : a.draft = none)
      (drafted : a'.draft.isSome) (open' : a'.outcome = none) :
      Turn r now racer .finish
        ({ r with system.attempts := r.system.attempts.set runner.attempt a' }.send now racer runner)
  | ended {runner : Runner α} {a a' : Attempt α} {result : Except ProposeError UInt64}
      (found : r.runners[racer]? = some runner) (begun : r.system.attempts[runner.attempt]? = some a)
      (unfinished : a.outcome = none) (finished : a'.outcome = some result) :
      Turn r now racer .finish
        ({ r with system.attempts := r.system.attempts.set runner.attempt a' }.finishRound now racer runner result)

theorem perform_turn (r : Race α) (now racer : Nat) (task : Task) (minted : r.runners.length ≤ r.system.mints.length)
    (waiting : task = .finish → ∀ runner, r.runners[racer]? = some runner →
      ∃ a, r.system.attempts[runner.attempt]? = some a ∧ a.outcome = none) :
    Turn r now racer task (r.perform now racer task) := by
  unfold perform
  split
  next missing => exact .absent missing
  next runner found =>
    cases task with
    | begin =>
      dsimp only
      split
      next done => exact .rested found done
      next more =>
        have inside := (List.getElem?_eq_some_iff.1 found).1
        have known := List.getElem?_eq_getElem (Nat.lt_of_lt_of_le inside minted)
        simp only [System.step, known]
        exact .began found more List.length_set rfl rfl rfl
    | arrive route =>
      dsimp only
      split
      · exact .arrived found rfl rfl
      next attempt _ =>
        obtain ⟨mints, same⟩ := arrive_progress r.system attempt runner.attempt route
        exact .arrived found mints same
    | finish =>
      obtain ⟨a, begun, unfinished⟩ := waiting rfl runner found
      obtain ⟨a', stepped, drafted⟩ := finish_progress r.system begun unfinished runner.unreachable
      have inside := (List.getElem?_eq_some_iff.1 begun).1
      simp only [begun, stepped, List.getElem?_set_self inside, Option.bind_some]
      cases finished : a'.outcome with
      | none => exact .sent found begun unfinished (drafted finished).1 (drafted finished).2 finished
      | some result => exact .ended found begun unfinished finished

/-! ### Who is due -/

def due (racer : Nat) (agenda : List (Nat × Nat × Task)) : List Task :=
  agenda.filterMap fun (_, who, task) =>
    match task with
    | .arrive _ => none
    | task => if who = racer then some task else none

private theorem due_perm {agenda agenda' : List (Nat × Nat × Task)} (same : agenda.Perm agenda') (racer : Nat) :
    (due racer agenda).Perm (due racer agenda') := same.filterMap _

@[simp]
private theorem due_nil (racer : Nat) : due racer [] = [] := rfl

@[simp]
private theorem due_arrive (racer now who route : Nat) (agenda : List (Nat × Nat × Task)) :
    due racer ((now, who, .arrive route) :: agenda) = due racer agenda := rfl

private theorem due_other {racer who : Nat} (different : racer ≠ who) (now : Nat) (task : Task)
    (agenda : List (Nat × Nat × Task)) : due racer ((now, who, task) :: agenda) = due racer agenda := by
  cases task <;> simp [due, different.symm]

@[simp]
private theorem due_begin (racer now : Nat) (agenda : List (Nat × Nat × Task)) :
    due racer ((now, racer, .begin) :: agenda) = .begin :: due racer agenda := by simp [due]

@[simp]
private theorem due_finish (racer now : Nat) (agenda : List (Nat × Nat × Task)) :
    due racer ((now, racer, .finish) :: agenda) = .finish :: due racer agenda := by simp [due]

private theorem plan_due (r : Race α) (entry : Nat × Nat × Task) (racer : Nat) :
    (due racer (r.plan entry).agenda).Perm (due racer (entry :: r.agenda)) :=
  due_perm (Agenda.insert_perm entry r.agenda) racer

private theorem send_due (r : Race α) (now who : Nat) (runner : Runner α) (racer : Nat) :
    (due racer (r.send now who runner).agenda).Perm
      (due racer ((now + runner.phaseLength, who, .finish) :: r.agenda)) := by
  refine (due_perm (Agenda.insertAll_perm _ r.agenda) racer).trans (.of_eq ?_)
  rw [List.append_assoc, due, List.filterMap_append]
  refine (congrArg (· ++ _) (List.filterMap_eq_nil_iff.2 ?_)).trans (List.nil_append _)
  intro entry arrival
  obtain ⟨⟨latency, route⟩, _, sent⟩ := List.mem_filterMap.1 arrival
  obtain ⟨time, _, rfl⟩ := Option.map_eq_some_iff.1 sent
  rfl

private theorem send_waits {r : Race α} {racer : Nat} (alone : due racer r.agenda = []) (now : Nat)
    (runner : Runner α) : due racer (r.send now racer runner).agenda = [.finish] :=
  List.perm_singleton.1 ((send_due r now racer runner racer).trans (.of_eq (by rw [due_finish, alone])))

private theorem send_others {racer other : Nat} (different : other ≠ racer) (r : Race α) (now : Nat)
    (runner : Runner α) : (due other (r.send now racer runner).agenda).Perm (due other r.agenda) :=
  (send_due r now racer runner other).trans (.of_eq (due_other different _ _ _))

private theorem finishRound_begins {r : Race α} {racer : Nat} (alone : due racer r.agenda = []) (now : Nat)
    (runner : Runner α) (result : Except ProposeError UInt64) :
    due racer (r.finishRound now racer runner result).agenda = [.begin] :=
  List.perm_singleton.1 ((plan_due _ _ racer).trans (.of_eq (by rw [due_begin]; exact congrArg _ alone)))

private theorem finishRound_others {racer other : Nat} (different : other ≠ racer) (r : Race α) (now : Nat)
    (runner : Runner α) (result : Except ProposeError UInt64) :
    (due other (r.finishRound now racer runner result).agenda).Perm (due other r.agenda) :=
  (plan_due _ _ other).trans (.of_eq (due_other different _ _ _))

/-! ### What a race keeps -/

def UnderWay (s : System α) (attempt : Nat) : Prop := ∃ a, s.attempts[attempt]? = some a ∧ a.outcome = none

inductive Stands (s : System α) (runner : Runner α) : List Task → Prop where
  | resting (done : runner.left = []) : Stands s runner []
  | starting : Stands s runner [.begin]
  | waiting (underWay : UnderWay s runner.attempt) : Stands s runner [.finish]

private theorem underWay_set {s : System α} {attempt : Nat} (underWay : UnderWay s attempt) (place : Nat)
    (a : Attempt α) : attempt = place ∨ UnderWay { s with attempts := s.attempts.set place a } attempt := by
  obtain ⟨b, begun, unfinished⟩ := underWay
  by_cases same : place = attempt
  · exact .inl same.symm
  · exact .inr ⟨b, (List.getElem?_set_ne same).trans begun, unfinished⟩

private theorem Stands.underWay {s : System α} {runner : Runner α} {tasks : List Task}
    (stands : Stands s runner (.finish :: tasks)) : UnderWay s runner.attempt := by
  cases stands with
  | waiting underWay => exact underWay

/-- A racer has one thing to do at a time. -/
private theorem Stands.nil_of_cons {s : System α} {runner : Runner α} {task : Task} {tasks : List Task}
    (stands : Stands s runner (task :: tasks)) : tasks = [] := by
  cases stands <;> rfl

private theorem Stands.eq_of_perm {s : System α} {runner : Runner α} {tasks tasks' : List Task}
    (stands : Stands s runner tasks) (same : tasks'.Perm tasks) : tasks' = tasks := by
  cases stands with
  | resting => exact List.perm_nil.1 same
  | starting => exact List.perm_singleton.1 same
  | waiting => exact List.perm_singleton.1 same

private theorem Stands.later {s s' : System α} {runner : Runner α} {tasks : List Task} (stands : Stands s runner tasks)
    (kept : tasks = [.finish] → UnderWay s runner.attempt → UnderWay s' runner.attempt) : Stands s' runner tasks := by
  cases stands with
  | resting done => exact .resting done
  | starting => exact .starting
  | waiting underWay => exact .waiting (kept rfl underWay)

/-- Every round of a racer has its result, is under way, or is still to come. -/
structure Keeps (s : System α) (entrant : Racer α) (runner : Runner α) (tasks : List Task) : Prop where
  latencies : runner.latencies = entrant.latencies
  stands : Stands s runner tasks
  rounds : runner.results.length + tasks.count .finish + runner.left.length = entrant.rounds.length

structure Sound (racers : List (Racer α)) (r : Race α) : Prop where
  mints : racers.length ≤ r.system.mints.length
  runners : r.runners.length = racers.length
  keeps : ∀ (racer : Nat) entrant runner, racers[racer]? = some entrant → r.runners[racer]? = some runner →
    Keeps r.system entrant runner (due racer r.agenda)
  apart : ∀ (racer other : Nat) runner runner', r.runners[racer]? = some runner → r.runners[other]? = some runner' →
    due racer r.agenda = [.finish] → due other r.agenda = [.finish] → runner.attempt = runner'.attempt → racer = other
  noted : (r.system.attempts.filterMap (·.outcome)).Perm (r.runners.flatMap (·.results))

variable {racers : List (Racer α)} {r r' : Race α} {now racer : Nat} {runner runner' : Runner α}

theorem Sound.stands (sound : Sound racers r) (found : r.runners[racer]? = some runner) :
    Stands r.system runner (due racer r.agenda) :=
  (sound.keeps racer _ runner (List.getElem?_eq_getElem (sound.runners ▸ (List.getElem?_eq_some_iff.1 found).1))
    found).stands

private theorem Sound.starts {agenda : List (Nat × Nat × Task)} (sound : Sound racers r)
    (first : r.agenda = (now, racer, .begin) :: agenda) (found : r.runners[racer]? = some runner) :
    due racer agenda = [] ∧ due racer r.agenda = [.begin] := by
  have stands := sound.stands found
  rw [first, due_begin] at stands ⊢
  have alone := stands.nil_of_cons
  exact ⟨alone, congrArg _ alone⟩

private theorem Sound.waits {agenda : List (Nat × Nat × Task)} (sound : Sound racers r)
    (first : r.agenda = (now, racer, .finish) :: agenda) (found : r.runners[racer]? = some runner) :
    due racer agenda = [] ∧ due racer r.agenda = [.finish] ∧ UnderWay r.system runner.attempt := by
  have stands := sound.stands found
  rw [first, due_finish] at stands ⊢
  have alone := stands.nil_of_cons
  exact ⟨alone, congrArg _ alone, stands.underWay⟩

/-- Whoever does not act keeps its place: its round stays under way, and nobody else takes it up. -/
private theorem Sound.acts (sound : Sound racers r) (found : r.runners[racer]? = some runner)
    (mints : r'.system.mints.length = r.system.mints.length) (replaced : r'.runners = r.runners.set racer runner')
    (others : ∀ other ≠ racer, (due other r'.agenda).Perm (due other r.agenda))
    (kept : ∀ attempt, UnderWay r.system attempt →
      attempt = runner.attempt ∧ due racer r.agenda = [.finish] ∨ UnderWay r'.system attempt)
    (fresh : due racer r'.agenda = [.finish] →
      runner'.attempt = runner.attempt ∧ due racer r.agenda = [.finish] ∨ ¬ UnderWay r.system runner'.attempt)
    (keeps : ∀ entrant, Keeps r.system entrant runner (due racer r.agenda) →
      Keeps r'.system entrant runner' (due racer r'.agenda))
    (noted : (r'.system.attempts.filterMap (·.outcome)).Perm (r'.runners.flatMap (·.results))) : Sound racers r' := by
  have lookup (other : Nat) : r'.runners[other]? = if racer = other then some runner' else r.runners[other]? := by
    rw [replaced, getElem?_set_held found]
  have still : ∀ {other : Nat} {waiter : Runner α}, racer ≠ other → r.runners[other]? = some waiter →
      due other r'.agenda = due other r.agenda := fun different known =>
    (sound.stands known).eq_of_perm (others _ (Ne.symm different))
  have apart : ∀ {other : Nat} {waiter : Runner α}, racer ≠ other → r.runners[other]? = some waiter →
      due other r'.agenda = [.finish] → due racer r'.agenda = [.finish] → runner'.attempt ≠ waiter.attempt := by
    intro other waiter different known waiting acting same
    rw [still different known] at waiting
    rcases fresh acting with ⟨stays, before⟩ | new
    · exact different (sound.apart racer other runner waiter found known before waiting (stays.symm.trans same))
    · exact new (same ▸ Stands.underWay (waiting ▸ sound.stands known))
  refine ⟨mints ▸ sound.mints, by rw [replaced, List.length_set, sound.runners], ?_, ?_, noted⟩
  · intro other entrant waiter entered known
    rw [lookup] at known
    split at known
    next same =>
      cases known
      subst same
      exact keeps entrant (sound.keeps racer entrant runner entered found)
    next different =>
      have before := sound.keeps other entrant waiter entered known
      rw [still different known]
      refine ⟨before.latencies, before.stands.later fun waiting underWay => ?_, before.rounds⟩
      rcases kept waiter.attempt underWay with ⟨same, acting⟩ | stays
      · exact (different (sound.apart racer other runner waiter found known acting waiting same.symm)).elim
      · exact stays
  · intro first second waiter waiter' known known' waiting waiting' same
    rw [lookup] at known known'
    split at known <;> split at known'
    next acts acts' => exact acts.symm.trans acts'
    next acts different =>
      cases known
      subst acts
      exact (apart different known' waiting' waiting same).elim
    next different acts =>
      cases known'
      subst acts
      exact (apart different known waiting waiting' same.symm).elim
    next different different' =>
      rw [still different known] at waiting
      rw [still different' known'] at waiting'
      exact sound.apart first second waiter waiter' known known' waiting waiting' same

section

variable {agenda : List (Nat × Nat × Task)} (sound : Sound racers r)
include sound

private theorem Sound.absent {task : Task} (first : r.agenda = (now, racer, task) :: agenda)
    (missing : r.runners[racer]? = none) : Sound racers { r with agenda } := by
  have others {other : Nat} {waiter : Runner α} (known : r.runners[other]? = some waiter) :
      due other agenda = due other r.agenda := by
    have different : other ≠ racer := by
      rintro rfl
      rw [missing] at known
      cases known
    rw [first, due_other different]
  refine ⟨sound.mints, sound.runners, ?_, ?_, sound.noted⟩
  · intro other entrant waiter entered known
    simpa only [others known] using sound.keeps other entrant waiter entered known
  · intro one other waiter waiter' known known' waiting waiting'
    exact sound.apart one other waiter waiter' known known' ((others known).symm.trans waiting)
      ((others known').symm.trans waiting')

private theorem Sound.rested (first : r.agenda = (now, racer, .begin) :: agenda)
    (found : r.runners[racer]? = some runner) (done : runner.left = []) : Sound racers { r with agenda } := by
  obtain ⟨alone, starting⟩ := sound.starts first found
  refine sound.acts found rfl (set_same found).symm ?_ (fun _ underWay => .inr underWay) ?_ ?_ sound.noted
  · intro other different
    rw [first, due_other different]
  · intro waiting
    rw [show due racer agenda = [.finish] from waiting] at alone
    cases alone
  · intro entrant keeps
    rw [starting] at keeps
    change Keeps r.system entrant runner (due racer agenda)
    rw [alone]
    exact ⟨keeps.latencies, .resting done, keeps.rounds⟩

private theorem Sound.began {next : Expectation × α} {left : List (Expectation × α)} {system : System α} {a : Attempt α}
    (first : r.agenda = (now, racer, .begin) :: agenda) (found : r.runners[racer]? = some runner)
    (more : runner.left = next :: left) (mints : system.mints.length = r.system.mints.length)
    (attempts : system.attempts = r.system.attempts ++ [a]) (unfinished : a.outcome = none) :
    Sound racers ({ r with
      agenda
      system
      runners := r.runners.set racer { runner with left, attempt := r.system.attempts.length } }.send now racer
        { runner with left, attempt := r.system.attempts.length }) := by
  obtain ⟨alone, starting⟩ := sound.starts first found
  refine sound.acts found mints rfl ?_ ?_ ?_ ?_ ?_
  · intro other different
    refine (send_others different _ now _).trans (.of_eq ?_)
    rw [first, due_other different]
  · rintro attempt ⟨b, begun, open'⟩
    have inside := (List.getElem?_eq_some_iff.1 begun).1
    have kept := (congrArg (·[attempt]?) attempts).trans (List.getElem?_append_left inside)
    exact .inr ⟨b, kept.trans begun, open'⟩
  · rintro -
    refine .inr ?_
    rintro ⟨b, begun, _⟩
    exact Nat.lt_irrefl _ (List.getElem?_eq_some_iff.1 begun).1
  · intro entrant keeps
    rw [starting] at keeps
    rw [send_waits alone]
    refine ⟨keeps.latencies, .waiting ⟨a, ?_, unfinished⟩, ?_⟩
    · exact (congrArg (·[r.system.attempts.length]?) attempts).trans List.getElem?_concat_length
    · have rounds := keeps.rounds
      simp only [more, List.length_cons] at rounds
      simp at rounds ⊢
      omega
  · rw [send_system, send_runners]
    refine .trans (.of_eq ?_) (sound.noted.trans (.of_eq ?_))
    · simp [attempts, unfinished]
    · exact congrArg List.flatten (map_set_same found { runner with left, attempt := r.system.attempts.length }
        Runner.results rfl).symm

private theorem Sound.arrived {route : Nat} {system : System α}
    (first : r.agenda = (now, racer, .arrive route) :: agenda) (found : r.runners[racer]? = some runner)
    (mints : system.mints = r.system.mints)
    (same : system.attempts.map progress = r.system.attempts.map progress) : Sound racers { r with agenda, system } := by
  have others (other : Nat) : due other agenda = due other r.agenda := by rw [first, due_arrive]
  have kept : ∀ attempt, UnderWay r.system attempt → UnderWay system attempt := by
    rintro attempt ⟨a, begun, unfinished⟩
    have held : (system.attempts.map progress)[attempt]? = some (progress a) := by
      rw [same, List.getElem?_map, begun, Option.map_some]
    rw [List.getElem?_map] at held
    obtain ⟨a', begun', same⟩ := Option.map_eq_some_iff.1 held
    exact ⟨a', begun', (congrArg Prod.snd same).trans unfinished⟩
  refine sound.acts found (congrArg List.length mints) (set_same found).symm (fun other _ => .of_eq (others other))
    (fun attempt underWay => .inr (kept attempt underWay)) ?_ ?_ ?_
  · intro waiting
    exact .inl ⟨rfl, (others racer).symm.trans waiting⟩
  · intro entrant keeps
    rw [← others racer] at keeps
    exact ⟨keeps.latencies, keeps.stands.later fun _ => kept runner.attempt, keeps.rounds⟩
  · have outcomes := congrArg (List.filterMap Prod.snd) same
    rw [List.filterMap_map, List.filterMap_map] at outcomes
    exact (List.Perm.of_eq outcomes).trans sound.noted

private theorem Sound.sent {a a' : Attempt α} (first : r.agenda = (now, racer, .finish) :: agenda)
    (found : r.runners[racer]? = some runner) (begun : r.system.attempts[runner.attempt]? = some a)
    (unfinished : a.outcome = none) (open' : a'.outcome = none) :
    Sound racers ({ r with
      agenda, system.attempts := r.system.attempts.set runner.attempt a' }.send now racer runner) := by
  obtain ⟨alone, waiting, _⟩ := sound.waits first found
  refine sound.acts found rfl (set_same found).symm ?_ ?_ (fun _ => .inl ⟨rfl, waiting⟩) ?_ ?_
  · intro other different
    refine (send_others different _ now _).trans (.of_eq ?_)
    rw [first, due_other different]
  · intro attempt underWay
    exact (underWay_set underWay runner.attempt a').imp_left fun same => ⟨same, waiting⟩
  · intro entrant keeps
    rw [waiting] at keeps
    rw [send_waits alone]
    have inside := (List.getElem?_eq_some_iff.1 begun).1
    exact ⟨keeps.latencies, .waiting ⟨a', List.getElem?_set_self inside, open'⟩, keeps.rounds⟩
  · exact .trans (.of_eq (filterMap_set_same begun a' Attempt.outcome (open'.trans unfinished.symm))) sound.noted

private theorem Sound.ended {a a' : Attempt α} {result : Except ProposeError UInt64}
    (first : r.agenda = (now, racer, .finish) :: agenda)
    (found : r.runners[racer]? = some runner) (begun : r.system.attempts[runner.attempt]? = some a)
    (unfinished : a.outcome = none) (finished : a'.outcome = some result) :
    Sound racers ({ r with
      agenda, system.attempts := r.system.attempts.set runner.attempt a' }.finishRound now racer runner result) := by
  obtain ⟨alone, waiting, _⟩ := sound.waits first found
  refine sound.acts found rfl rfl ?_ ?_ ?_ ?_ ?_
  · intro other different
    refine (finishRound_others different _ now _ _).trans (.of_eq ?_)
    rw [first, due_other different]
  · intro attempt underWay
    exact (underWay_set underWay runner.attempt a').imp_left fun same => ⟨same, waiting⟩
  · rw [finishRound_begins alone]
    intro waiting'
    cases waiting'
  · intro entrant keeps
    rw [waiting] at keeps
    rw [finishRound_begins alone]
    refine ⟨keeps.latencies, .starting, ?_⟩
    have rounds := keeps.rounds
    simp [Runner.note] at rounds ⊢
    omega
  · obtain ⟨before, after, split, changed⟩ := set_split begun a'
    obtain ⟨before', after', split', changed'⟩ := set_split found (runner.note result)
    have noted := sound.noted
    rw [split, split'] at noted
    change (List.filterMap _ (r.system.attempts.set runner.attempt a')).Perm
      (List.flatMap _ (r.runners.set racer (runner.note result)))
    rw [changed, changed']
    simp only [List.filterMap_append, List.filterMap_cons, List.flatMap_append, List.flatMap_cons, unfinished, finished,
      Runner.note, List.cons_append] at noted ⊢
    exact List.perm_middle.trans ((noted.cons result).trans List.perm_middle.symm)

theorem Sound.turn {task : Task} (first : r.agenda = (now, racer, task) :: agenda)
    (turn : Turn { r with agenda } now racer task r') : Sound racers r' := by
  cases turn with
  | absent missing => exact sound.absent first missing
  | rested found done => exact sound.rested first found done
  | began found more mints attempts undrafted unfinished => exact sound.began first found more mints attempts unfinished
  | arrived found mints same => exact sound.arrived first found mints same
  | sent found begun unfinished undrafted drafted open' => exact sound.sent first found begun unfinished open'
  | ended found begun unfinished finished => exact sound.ended first found begun unfinished finished

end

theorem Sound.performs {task : Task} {agenda : List (Nat × Nat × Task)} (sound : Sound racers r)
    (first : r.agenda = (now, racer, task) :: agenda) :
    Turn { r with agenda } now racer task ({ r with agenda }.perform now racer task) := by
  refine perform_turn { r with agenda } now racer task (sound.runners ▸ sound.mints) ?_
  rintro rfl runner found
  exact (sound.waits first found).2.2

theorem Sound.advance (sound : Sound racers r) (steps : Nat) : Sound racers (r.advance steps) := by
  induction steps generalizing r with
  | zero => exact sound
  | succ steps ih =>
    rw [Race.advance]
    split
    · exact sound
    next first => exact ih (sound.turn first (sound.performs first))

private theorem run_joins (s : System α) (racers : List (Racer α)) :
    s.run (racers.map fun racer => .join racer.nodeId) =
      { s with mints := s.mints ++ racers.map fun racer => .fresh racer.nodeId } := by
  induction racers generalizing s with
  | nil => simp [System.run]
  | cons racer rest ih =>
    refine (ih (s.step (.join racer.nodeId))).trans ?_
    simp [System.step]

private theorem initial_due (racers : List (Racer α)) (first racer : Nat) :
    due racer ((racers.zipIdx first).map fun (entrant, place) => (entrant.start, place, .begin)) =
      if first ≤ racer ∧ racer < first + racers.length then [.begin] else [] := by
  induction racers generalizing first with
  | nil => simp [due]
  | cons entrant rest ih =>
    rw [List.zipIdx_cons, List.map_cons]
    by_cases same : racer = first
    · subst same
      have last : ¬(racer + 1 ≤ racer ∧ racer < racer + 1 + rest.length) := by omega
      rw [due_begin, ih, if_neg last]
      simp
    · rw [due_other same, ih]
      simp only [List.length_cons]
      congr 1
      simp only [eq_iff_iff]
      omega

theorem initial_sound (acceptors : Nat) (racers : List (Racer α)) : Sound racers (initial acceptors racers) := by
  have system : (initial acceptors racers).system = _ := run_joins (System.initial acceptors (routes acceptors)) racers
  have starts (racer : Nat) : due racer (initial acceptors racers).agenda =
      if racer < racers.length then [.begin] else [] := by
    have same := due_perm (Agenda.insertAll_perm
      (racers.zipIdx.map fun (entrant, place) => (entrant.start, place, Task.begin)) []) racer
    rw [List.append_nil, initial_due] at same
    simp only [Nat.zero_le, true_and, Nat.zero_add] at same
    split at same
    next inside => rw [if_pos inside]; exact List.perm_singleton.1 same
    next outside => rw [if_neg outside]; exact List.perm_nil.1 same
  refine ⟨?_, ?_, ?_, ?_, ?_⟩
  · rw [system]; simp [System.initial]
  · simp [initial]
  · intro racer entrant runner entered found
    have inside := (List.getElem?_eq_some_iff.1 entered).1
    rw [starts, if_pos inside]
    simp only [initial, List.getElem?_map, entered, Option.map_some, Option.some.injEq] at found
    subst found
    exact ⟨rfl, .starting, by simp⟩
  · intro racer other _ _ _ _ waiting
    rw [starts] at waiting
    split at waiting <;> cases waiting
  · rw [system]
    simp [System.initial, initial]

theorem run_sound (acceptors : Nat) (racers : List (Racer α)) : Sound racers (run acceptors racers) :=
  (initial_sound acceptors racers).advance _

/-! ### How long a race takes -/

def stage (acceptors : Nat) : Option (Round.Draft α) × Option (Except ProposeError UInt64) → Nat
  | (_, some _) => 0
  | (some _, none) => 1
  | (none, none) => acceptors + 2

def cost (acceptors : Nat) (r : Race α) : Nat :=
  r.agenda.length + (r.runners.map (·.left.length * stepsPerRound acceptors)).sum +
    (r.system.attempts.map fun a => stage acceptors (progress a)).sum

private theorem send_length (r : Race α) (now racer : Nat) (runner : Runner α) :
    (r.send now racer runner).agenda.length ≤ r.agenda.length + runner.latencies.length + 1 := by
  refine Nat.le_trans (Nat.le_of_eq (Agenda.insertAll_perm _ r.agenda).length_eq) ?_
  have arrivals : ∀ f : Option Nat × Nat → Option (Nat × Nat × Task),
      (runner.latencies.zipIdx.filterMap f).length ≤ runner.latencies.length := fun f =>
    Nat.le_trans (List.length_filterMap_le f _) (Nat.le_of_eq List.length_zipIdx)
  rw [List.length_append, List.length_append, List.length_singleton, Nat.add_comm _ r.agenda.length]
  exact Nat.add_le_add_left (Nat.add_le_add_right (arrivals _) 1) _

private theorem finishRound_length (r : Race α) (now racer : Nat) (runner : Runner α)
    (result : Except ProposeError UInt64) :
    (r.finishRound now racer runner result).agenda.length = r.agenda.length + 1 :=
  (Agenda.insert_perm _ _).length_eq

/-- A step costs what it takes from the agenda. -/
theorem Turn.cost_le {task : Task} {acceptors : Nat} (turn : Turn r now racer task r')
    (bounded : ∀ runner ∈ r.runners, runner.latencies.length ≤ acceptors) : cost acceptors r' ≤ cost acceptors r := by
  cases turn with
  | absent => exact Nat.le_refl _
  | rested => exact Nat.le_refl _
  | @began runner next left system a found more mints attempts undrafted unfinished =>
    have few := bounded runner (List.mem_of_getElem? found)
    have sent := send_length { r with
      system
      runners := r.runners.set racer { runner with left, attempt := r.system.attempts.length } } now racer
        { runner with left, attempt := r.system.attempts.length }
    have taken := sum_map_set found { runner with left, attempt := r.system.attempts.length }
      (·.left.length * stepsPerRound acceptors)
    have begun : stage acceptors (progress a) = acceptors + 2 := by simp [progress, undrafted, unfinished, stage]
    simp only [cost, send_system, send_runners, attempts, List.map_append, List.map_cons, List.map_nil, List.sum_append,
      List.sum_cons, List.sum_nil, begun]
    simp only [more, List.length_cons, Nat.succ_mul] at taken sent
    simp only [stepsPerRound] at taken ⊢
    omega
  | arrived found mints same =>
    have stages := congrArg (List.map (stage acceptors)) same
    simp only [List.map_map, Function.comp_def] at stages
    simp only [cost, stages, Nat.le_refl]
  | @sent runner a a' found begun unfinished undrafted drafted open' =>
    have few := bounded runner (List.mem_of_getElem? found)
    have sent := send_length { r with system.attempts := r.system.attempts.set runner.attempt a' } now racer runner
    have taken := sum_map_set begun a' fun a => stage acceptors (progress a)
    obtain ⟨draft, drafted⟩ := Option.isSome_iff_exists.1 drafted
    have before : stage acceptors (progress a) = acceptors + 2 := by simp [progress, undrafted, unfinished, stage]
    have after : stage acceptors (progress a') = 1 := by simp [progress, drafted, open', stage]
    simp only [cost, send_system, send_runners]
    simp only [before, after] at taken sent
    omega
  | @ended runner a a' result found begun unfinished finished =>
    have taken := sum_map_set begun a' fun a => stage acceptors (progress a)
    have kept := sum_map_set found (runner.note result) (·.left.length * stepsPerRound acceptors)
    have length := finishRound_length { r with system.attempts := r.system.attempts.set runner.attempt a' } now racer
      runner result
    have before : 1 ≤ stage acceptors (progress a) := by
      rw [progress, unfinished]
      cases a.draft <;> simp [stage]
    have after : stage acceptors (progress a') = 0 := by simp [progress, finished, stage]
    have same : (runner.note result).left = runner.left := rfl
    simp only [same] at kept
    simp only [cost, length, finishRound_system, finishRound_runners]
    omega

private theorem Sound.bounded {acceptors : Nat} (sound : Sound racers r)
    (bounded : ∀ entrant ∈ racers, entrant.latencies.length ≤ acceptors) :
    ∀ runner ∈ r.runners, runner.latencies.length ≤ acceptors := by
  intro runner member
  obtain ⟨racer, found⟩ := List.mem_iff_getElem?.1 member
  have entered := List.getElem?_eq_getElem (sound.runners ▸ (List.getElem?_eq_some_iff.1 found).1)
  rw [(sound.keeps racer _ runner entered found).latencies]
  exact bounded _ (List.mem_of_getElem? entered)

/-- As many steps as a race costs bring it to its end. -/
theorem Sound.advance_ends {acceptors steps : Nat} (sound : Sound racers r)
    (bounded : ∀ entrant ∈ racers, entrant.latencies.length ≤ acceptors) (enough : cost acceptors r ≤ steps) :
    (r.advance steps).agenda = [] := by
  induction steps generalizing r with
  | zero =>
    have empty : r.agenda.length = 0 := by simp only [cost] at enough; omega
    exact List.eq_nil_of_length_eq_zero empty
  | succ steps ih =>
    rw [Race.advance]
    split
    next empty => exact empty
    next now racer task agenda first =>
      have turn := sound.performs first
      have cheaper := turn.cost_le (sound.bounded bounded)
      have paid : cost acceptors r = cost acceptors { r with agenda } + 1 := by
        simp only [cost, first, List.length_cons]
        omega
      exact ih (sound.turn first turn) (by omega)

private theorem rounds_sum (racers : List (Racer α)) (before : Nat) :
    racers.foldl (fun rounds racer => rounds + racer.rounds.length + 1) before =
      before + racers.length + (racers.map (·.rounds.length)).sum := by
  induction racers generalizing before with
  | nil => simp
  | cons racer rest ih =>
    rw [List.foldl_cons, ih, List.map_cons, List.sum_cons, List.length_cons]
    omega

private theorem initial_cost (acceptors : Nat) (racers : List (Racer α)) :
    cost acceptors (initial acceptors racers) ≤
      racers.foldl (fun rounds racer => rounds + racer.rounds.length + 1) 0 * stepsPerRound acceptors := by
  have system : (initial acceptors racers).system = _ := run_joins (System.initial acceptors (routes acceptors)) racers
  have length : (initial acceptors racers).agenda.length = racers.length := by
    refine (Agenda.insertAll_perm _ []).length_eq.trans ?_
    simp
  rw [cost, system, length, rounds_sum]
  simp only [initial, System.initial, List.map_map, Function.comp_def, List.map_nil, List.sum_nil]
  rw [Nat.zero_add, Nat.add_mul]
  have positive : racers.length ≤ racers.length * stepsPerRound acceptors :=
    Nat.le_mul_of_pos_right _ (by simp [stepsPerRound])
  have rounds := List.sum_map_mul_right racers (·.rounds.length) (stepsPerRound acceptors)
  omega

/-- Every round of every racer ends, and has its result, before the steps of a race are used up. -/
theorem run_ends {acceptors : Nat} {racers : List (Racer α)}
    (bounded : ∀ entrant ∈ racers, entrant.latencies.length ≤ acceptors) : (run acceptors racers).agenda = [] ∧
      (run acceptors racers).results.map List.length = racers.map (·.rounds.length) := by
  have sound := run_sound acceptors racers
  have ends : (run acceptors racers).agenda = [] :=
    (initial_sound acceptors racers).advance_ends bounded (initial_cost acceptors racers)
  refine ⟨ends, List.ext_getElem (by simp [results, sound.runners]) fun racer inside inside' => ?_⟩
  simp only [List.length_map] at inside'
  have found := List.getElem?_eq_getElem (sound.runners ▸ inside')
  have keeps := sound.keeps racer _ _ (List.getElem?_eq_getElem inside') found
  rw [ends, due_nil] at keeps
  cases keeps.stands with
  | resting done =>
    have rounds := keeps.rounds
    rw [done] at rounds
    simpa [results] using rounds

/-! ### What holds of all runs -/

/-- What the racers are told are the outcomes of the rounds of the system, each of them once. -/
theorem results_perm (acceptors : Nat) (racers : List (Racer α)) :
    (run acceptors racers).results.flatten.Perm
      ((run acceptors racers).system.attempts.filterMap (·.outcome)) := by
  refine .trans ?_ (run_sound acceptors racers).noted.symm
  rw [results, ← List.flatMap_def]
  exact List.Perm.flatMap_left _ fun runner _ => runner.results.reverse_perm

theorem run_valid (acceptors : Nat) (racers : List (Racer α)) : (run acceptors racers).system.Valid := by
  obtain ⟨actions, same⟩ := run_runs acceptors racers
  rw [same]
  exact (System.Valid.initial acceptors (routes acceptors)).run actions

/-- No two rounds of a race commit the same state. -/
theorem committed_nodup (acceptors : Nat) (racers : List (Racer α)) :
    ((run acceptors racers).results.flatten.filterMap (·.toOption)).Nodup := by
  have valid := run_valid acceptors racers
  refine (((results_perm acceptors racers).filterMap _).nodup_iff).2 ?_
  rw [List.filterMap_filterMap, List.Nodup, List.pairwise_filterMap, List.pairwise_iff_getElem]
  intro early late inside inside' order state ok state' ok' same
  subst same
  have committed {a : Attempt α} (told : a.outcome.bind (·.toOption) = some state) : a.outcome = some (.ok state) := by
    obtain ⟨outcome, finished, told⟩ := Option.bind_eq_some_iff.1 told
    cases outcome with
    | error => cases told
    | ok => cases told; exact finished
  have once := valid.committed_once (List.getElem?_eq_getElem inside) (committed ok) (List.getElem?_eq_getElem inside')
    (committed ok')
  omega

end Synod.Race
