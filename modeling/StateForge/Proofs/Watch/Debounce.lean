import Mathlib.Data.Nat.Count
import StateForge.Proofs.Generation.Outcome
import StateForge.Watch

/-!
# When the watch mode generates

While the watch mode runs, things happen in any order: the document is rewritten, events and
problems come in, the timer fires, somebody asks for a generation, somebody asks for the end.
`WatchStep` lists them, and `Watcher.steps` is what the watcher does in a whole history.

* `Watcher.step_eq` says what one step does to the watcher, to the files and what it says, for all
  kinds of steps at once. Everything else follows from that.
* `Watcher.Pending` and `Watcher.DueAt` say of a history, without a look at any state, that a
  generation is waiting and that a firing starts one. `Watcher.GeneratesAt` adds the generations
  that are asked for.
* `Watcher.Accounts` is the invariant that ties the two, and `Watcher.accounts_steps` carries it
  through a history. The main result is `debounce_accounting`.

The states of a watcher are compared with its history as a whole, so the induction is over the end
of the history: what was pending before the last step is known from the shorter one.
-/

set_option autoImplicit false

namespace StateForge

/-! ## Histories -/

/-- Something that happens while the watch mode runs. -/
inductive WatchStep where
  /-- The document gets a new content. -/
  | rewrite (content : Text)
  /-- The watcher is handed an event. -/
  | event (e : FileEvent)
  /-- The loop is handed signals; it takes none after the end was asked for. -/
  | feed (signals : List Watcher.Signal)
  /-- The time of the scheduled generation is over. -/
  | fire
  /-- A generation is asked for. -/
  | run
  /-- The end is asked for. -/
  | cancel
deriving DecidableEq

/-- Does the step hand something to the watcher? -/
def WatchStep.isDelivery : WatchStep → Bool
  | .event _ => true
  | .feed _ => true
  | _ => false

/-- The files after a step that does not generate: only a rewrite of the document changes one. -/
def WatchStep.edit (input : Text) (fs : FileSystem) : WatchStep → FileSystem
  | .rewrite content => fs.put input content
  | _ => fs

theorem WatchStep.edit_of_isDelivery {a : WatchStep} (h : a.isDelivery = true) (input : Text)
    (fs : FileSystem) : a.edit input fs = fs := by
  cases a with
  | rewrite content => exact absurd h (by simp [isDelivery])
  | _ => rfl

namespace Watcher

/-- A watcher that nothing has happened to. -/
def fresh (options : GenerateOptions) (target : Text) : Watcher :=
  { options, target }

/-- What a step does. -/
def step (w : Watcher) (fs : FileSystem) : WatchStep → WatchOutcome
  | .rewrite content => ⟨w, fs.put w.options.input content, []⟩
  | .event e => w.handle fs e
  | .feed signals => w.loop fs signals
  | .fire => w.fire fs
  | .run => w.run fs
  | .cancel => ⟨w.cancel, fs, []⟩

/-- What a history does. -/
def steps (w : Watcher) (fs : FileSystem) : List WatchStep → WatchOutcome
  | [] => ⟨w, fs, []⟩
  | a :: rest =>
    let first := w.step fs a
    let others := first.watcher.steps first.fileSystem rest
    { others with notices := first.notices ++ others.notices }

theorem steps_append (w : Watcher) (fs : FileSystem) (before after : List WatchStep) :
    w.steps fs (before ++ after) =
      { (w.steps fs before).watcher.steps (w.steps fs before).fileSystem after with
        notices := (w.steps fs before).notices ++
          ((w.steps fs before).watcher.steps (w.steps fs before).fileSystem after).notices } := by
  induction before generalizing w fs with
  | nil => rfl
  | cons a rest ih => simp only [List.cons_append, steps, ih, List.append_assoc]

theorem steps_concat (w : Watcher) (fs : FileSystem) (before : List WatchStep) (a : WatchStep) :
    w.steps fs (before ++ [a]) =
      { (w.steps fs before).watcher.step (w.steps fs before).fileSystem a with
        notices := (w.steps fs before).notices ++
          ((w.steps fs before).watcher.step (w.steps fs before).fileSystem a).notices } := by
  rw [steps_append]
  simp only [steps, List.append_nil]

end Watcher

/-! ## One step -/

namespace Watcher

/-- Is the signal a change of the document? The document was created, which is bit 0 of the kinds,
or written, which is bit 1, and the name in the event stands for its path. -/
def isChange (w : Watcher) (fs : FileSystem) : Signal → Bool
  | .event e => (e.kinds.testBit 0 || e.kinds.testBit 1) && fs.absolutePath e.name == w.target
  | .problem _ => false

theorem isRelevant_eq_isChange (w : Watcher) (fs : FileSystem) (e : FileEvent) :
    w.isRelevant fs e = w.isChange fs (.event e) :=
  rfl

/-- Does the step bring a change of the document? The loop takes nothing if it is `closed`. -/
def announces (w : Watcher) (fs : FileSystem) (closed : Bool) : WatchStep → Bool
  | .event e => w.isChange fs (.event e)
  | .feed signals => !closed && signals.any (w.isChange fs)
  | _ => false

/-- What is said of a signal, in verbose mode only. -/
def remarks (w : Watcher) (fs : FileSystem) (s : Signal) : List Notice :=
  if w.options.verbose then
    match s with
    | .event _ => if w.isChange fs s then [.changeSeen w.target] else []
    | .problem text => [.watcherError text]
  else []

/-- What is said of the signals that a step hands over. -/
def stepRemarks (w : Watcher) (fs : FileSystem) (closed : Bool) : WatchStep → List Notice
  | .event e => w.remarks fs (.event e)
  | .feed signals => if closed then [] else signals.flatMap (w.remarks fs)
  | _ => []

/-- Does the step generate? -/
def generates (w : Watcher) : WatchStep → Bool
  | .run => true
  | .fire => w.scheduled && !w.cancelled
  | _ => false

theorem generates_iff {w : Watcher} {a : WatchStep} :
    w.generates a = true ↔
      a = .run ∨ (a = .fire ∧ w.scheduled = true ∧ w.cancelled = false) := by
  cases a <;> simp [generates]

/-- An event only schedules. -/
theorem handle_eq (w : Watcher) (fs : FileSystem) (e : FileEvent) :
    w.handle fs e = ⟨{ w with scheduled := w.scheduled || w.isChange fs (.event e) }, fs,
      w.remarks fs (.event e)⟩ := by
  rw [handle, isRelevant_eq_isChange, remarks]
  cases w.isChange fs (.event e) <;> simp

/-- A signal only schedules. -/
theorem receive_eq (w : Watcher) (fs : FileSystem) (s : Signal) :
    w.receive fs s
      = ⟨{ w with scheduled := w.scheduled || w.isChange fs s }, fs, w.remarks fs s⟩ := by
  cases s with
  | problem text => simp [receive, isChange, remarks]
  | event e => exact w.handle_eq fs e

/-- The loop only schedules. -/
theorem loop_eq (w : Watcher) (fs : FileSystem) (signals : List Signal) :
    w.loop fs signals =
      ⟨{ w with scheduled := w.scheduled || (!w.cancelled && signals.any (w.isChange fs)) }, fs,
        if w.cancelled then [] else signals.flatMap (w.remarks fs)⟩ := by
  induction signals generalizing w with
  | nil => simp [loop]
  | cons s rest ih =>
    rw [loop]
    split
    · rename_i h
      obtain ⟨options, target, scheduled, runs, cancelled⟩ := w
      cases h
      simp
    · rename_i h
      -- neither what is a change nor what is said of it depends on what is scheduled
      have hchange : ∀ b, { w with scheduled := b }.isChange fs = w.isChange fs :=
        fun _ => funext fun s' => by cases s' <;> rfl
      have hremarks : ∀ b, { w with scheduled := b }.remarks fs = w.remarks fs :=
        fun b => funext fun s' => by simp only [remarks, hchange]
      rw [receive_eq]
      simp only [ih, hchange, hremarks]
      simp [h, Bool.or_assoc]

/-- **What a step does.** A firing unschedules, a change of the document schedules, and a generation
is counted. A generation writes what it has to write, and says how it ended; otherwise nothing
happens to the files but that the document is rewritten. -/
theorem step_eq (w : Watcher) (fs : FileSystem) (a : WatchStep) :
    w.step fs a =
      { watcher :=
          { w with
            scheduled := a ≠ .fire && (w.scheduled || w.announces fs w.cancelled a)
            runs := w.runs + if w.generates a then 1 else 0
            cancelled := w.cancelled || a = .cancel }
        fileSystem :=
          if w.generates a then (w.options.generate fs).fileSystem else a.edit w.options.input fs
        notices :=
          if w.generates a then
            (w.options.generate fs).notices ++ w.resultNotices (w.options.generate fs).result
          else w.stepRemarks fs w.cancelled a } := by
  cases a with
  | rewrite content => simp [step, announces, generates, WatchStep.edit, stepRemarks]
  | event e => simp [step, announces, generates, WatchStep.edit, stepRemarks, handle_eq]
  | feed signals => simp [step, announces, generates, WatchStep.edit, stepRemarks, loop_eq]
  | fire =>
    obtain ⟨options, target, scheduled, runs, cancelled⟩ := w
    rw [step, fire]
    cases scheduled <;> cases cancelled <;>
      simp [generates, WatchStep.edit, stepRemarks, run, resultNotices]
  | run => simp [step, run, announces, generates]
  | cancel => simp [step, Watcher.cancel, announces, generates, WatchStep.edit, stepRemarks]

theorem step_watcher (w : Watcher) (fs : FileSystem) (a : WatchStep) :
    (w.step fs a).watcher =
      { w with
        scheduled := a ≠ .fire && (w.scheduled || w.announces fs w.cancelled a)
        runs := w.runs + if w.generates a then 1 else 0
        cancelled := w.cancelled || a = .cancel } := by
  rw [step_eq]

theorem step_fileSystem (w : Watcher) (fs : FileSystem) (a : WatchStep) :
    (w.step fs a).fileSystem =
      if w.generates a then (w.options.generate fs).fileSystem
      else a.edit w.options.input fs := by
  rw [step_eq]

theorem step_notices (w : Watcher) (fs : FileSystem) (a : WatchStep) :
    (w.step fs a).notices =
      if w.generates a then
        (w.options.generate fs).notices ++ w.resultNotices (w.options.generate fs).result
      else w.stepRemarks fs w.cancelled a := by
  rw [step_eq]

theorem generates_of_isDelivery {a : WatchStep} (h : a.isDelivery = true) (w : Watcher) :
    w.generates a = false := by
  cases a with
  | event e => rfl
  | feed signals => rfl
  | _ => exact absurd h (by simp [WatchStep.isDelivery])

/-- What is handed over changes no file. -/
theorem step_fileSystem_of_isDelivery {a : WatchStep} (h : a.isDelivery = true) (w : Watcher)
    (fs : FileSystem) : (w.step fs a).fileSystem = fs := by
  rw [step_fileSystem, generates_of_isDelivery h, if_neg (by simp), a.edit_of_isDelivery h]

/-- Nothing happens when something is handed over that is no change of the document. -/
theorem step_watcher_of_quiet {w : Watcher} {fs : FileSystem} {a : WatchStep}
    (hdelivery : a.isDelivery = true) (hquiet : w.announces fs w.cancelled a = false) :
    (w.step fs a).watcher = w := by
  have hfire : a ≠ .fire := by
    rintro rfl
    exact absurd hdelivery (by simp [WatchStep.isDelivery])
  have hcancel : a ≠ .cancel := by
    rintro rfl
    exact absurd hdelivery (by simp [WatchStep.isDelivery])
  rw [step_watcher, generates_of_isDelivery hdelivery, hquiet]
  simp [hfire, hcancel]

/-- A firing unschedules, so the firings after it do nothing. -/
theorem steps_fires (w : Watcher) (fs : FileSystem) (n : Nat) :
    w.steps fs (.fire :: List.replicate n .fire) = w.step fs .fire := by
  have hidle : ∀ (w : Watcher) (fs : FileSystem), w.scheduled = false →
      w.steps fs (List.replicate n .fire) = ⟨w, fs, []⟩ := by
    intro w fs h
    induction n with
    | zero => rfl
    | succ n ih => simp [List.replicate_succ, steps, step, fire, h, ih]
  have hnone : (w.step fs .fire).watcher.scheduled = false := by simp [step_watcher]
  rw [steps, hidle _ _ hnone, List.append_nil]

/-- A step takes nothing away. -/
theorem step_extends (w : Watcher) (fs : FileSystem) (a : WatchStep) :
    fs.Extends (w.step fs a).fileSystem := by
  rw [step_fileSystem]
  split
  · exact w.options.generate_extends fs
  · cases a with
    | rewrite content => exact fs.put_extends _ _
    | _ => exact .refl fs

section Congr

variable {w w' : Watcher} {fs fs' : FileSystem}

/-- Whether a signal is a change depends on the target and on the current directory only. -/
theorem isChange_congr (htarget : w'.target = w.target) (hcurrent : fs'.current = fs.current) :
    w'.isChange fs' = w.isChange fs := by
  funext s
  cases s <;>
    simp only [isChange, FileSystem.absolutePath, FileSystem.currentPath, htarget, hcurrent]

theorem announces_congr (htarget : w'.target = w.target) (hcurrent : fs'.current = fs.current)
    (closed : Bool) (a : WatchStep) : w'.announces fs' closed a = w.announces fs closed a := by
  cases a <;> simp only [announces, isChange_congr htarget hcurrent]

theorem stepRemarks_congr (hoptions : w'.options = w.options) (htarget : w'.target = w.target)
    (hcurrent : fs'.current = fs.current) (closed : Bool) (a : WatchStep) :
    w'.stepRemarks fs' closed a = w.stepRemarks fs closed a := by
  have hremarks : w'.remarks fs' = w.remarks fs := by
    funext s
    simp only [remarks, isChange_congr htarget hcurrent, hoptions, htarget]
  cases a <;> simp only [stepRemarks, hremarks]

theorem resultNotices_congr (hoptions : w'.options = w.options) :
    w'.resultNotices = w.resultNotices := by
  funext result
  cases result <;> simp only [resultNotices, hoptions]

end Congr

end Watcher

/-! ## Reading the accounts off a history -/

namespace Watcher

variable (w : Watcher) (fs : FileSystem)

/-- At index `i` of the history a change of the document reaches the watcher. -/
def noticedAt (history : List WatchStep) (i : Nat) : Bool :=
  history[i]?.any (w.announces fs (.cancel ∈ history.take i))

/-- A change has reached the watcher, and the timer has not fired since. -/
def Pending (history : List WatchStep) : Prop :=
  ∃ i < history.length, w.noticedAt fs history i = true ∧
    ∀ j < history.length, i < j → history[j]? ≠ some .fire

/-- At index `i` the timer fires, a change has come since it last did, and the end was not asked
for. -/
def DueAt (history : List WatchStep) (i : Nat) : Prop :=
  history[i]? = some .fire ∧ .cancel ∉ history.take i ∧ w.Pending fs (history.take i)

instance (history : List WatchStep) : Decidable (w.Pending fs history) :=
  inferInstanceAs (Decidable (∃ i < history.length, w.noticedAt fs history i = true ∧
    ∀ j < history.length, i < j → history[j]? ≠ some .fire))

instance (history : List WatchStep) : DecidablePred (w.DueAt fs history) := fun i =>
  inferInstanceAs (Decidable (history[i]? = some .fire ∧ .cancel ∉ history.take i ∧
    w.Pending fs (history.take i)))

/-- At index `i` a generation is asked for, or one is due. -/
def GeneratesAt (history : List WatchStep) (i : Nat) : Prop :=
  history[i]? = some .run ∨ w.DueAt fs history i

instance (history : List WatchStep) : DecidablePred (w.GeneratesAt fs history) := fun i =>
  inferInstanceAs (Decidable (history[i]? = some .run ∨ w.DueAt fs history i))

/-- The number of generations that a history has to cause. -/
def generationsDue (history : List WatchStep) : Nat :=
  history.count .run + Nat.count (w.DueAt fs history) history.length

variable {w fs} {history : List WatchStep} {a : WatchStep}

theorem noticedAt_concat_of_lt {i : Nat} (hi : i < history.length) :
    w.noticedAt fs (history ++ [a]) i = w.noticedAt fs history i := by
  rw [noticedAt, noticedAt, List.getElem?_append_left hi, List.take_append_of_le_length hi.le]

theorem noticedAt_concat_length :
    w.noticedAt fs (history ++ [a]) history.length = w.announces fs (.cancel ∈ history) a := by
  rw [noticedAt, List.getElem?_concat_length, List.take_left]
  rfl

/-- What is pending after one more step. -/
theorem pending_concat :
    w.Pending fs (history ++ [a]) ↔
      (a ≠ .fire ∧ w.Pending fs history) ∨ w.announces fs (.cancel ∈ history) a = true := by
  have hlast : (history ++ [a])[history.length]? = some a := List.getElem?_concat_length
  constructor
  · rintro ⟨i, hi, hnoticed, hsince⟩
    rw [List.length_append, List.length_singleton] at hi hsince
    rcases Nat.lt_succ_iff_lt_or_eq.mp hi with hlt | rfl
    · refine .inl ⟨fun ha => ?_, i, hlt, noticedAt_concat_of_lt hlt ▸ hnoticed, fun j hj hij => ?_⟩
      · exact hsince _ (Nat.lt_succ_self _) hlt (by rw [hlast, ha])
      · rw [← List.getElem?_append_left hj]
        exact hsince j (by omega) hij
    · exact .inr (noticedAt_concat_length ▸ hnoticed)
  · rintro (⟨ha, i, hi, hnoticed, hsince⟩ | hannounced)
    · refine ⟨i, by simp; omega, (noticedAt_concat_of_lt hi).trans hnoticed, fun j hj hij => ?_⟩
      rw [List.length_append, List.length_singleton] at hj
      rcases Nat.lt_succ_iff_lt_or_eq.mp hj with hlt | rfl
      · rw [List.getElem?_append_left hlt]
        exact hsince j hlt hij
      · rw [hlast]
        exact fun h => ha (Option.some.inj h)
    · refine ⟨history.length, by simp, noticedAt_concat_length.trans hannounced, fun j hj hij => ?_⟩
      rw [List.length_append, List.length_singleton] at hj
      omega

/-- What is pending stays so until the timer fires. -/
theorem pending_append {more : List WatchStep} (h : w.Pending fs history) (hfire : .fire ∉ more) :
    w.Pending fs (history ++ more) := by
  induction more using List.reverseRecOn with
  | nil => rwa [List.append_nil]
  | append_singleton more a ih =>
    rw [List.mem_append, not_or] at hfire
    rw [← List.append_assoc, pending_concat]
    refine .inl ⟨?_, ih hfire.1⟩
    rintro rfl
    exact hfire.2 (by simp)

/-- A change that has come is pending until the timer fires. -/
theorem pending_of_announces {more : List WatchStep} (hcancel : .cancel ∉ history)
    (ha : w.announces fs false a = true) (hfire : .fire ∉ more) :
    w.Pending fs (history ++ a :: more) := by
  rw [List.append_cons]
  refine pending_append (pending_concat.mpr (.inr ?_)) hfire
  rw [decide_eq_false hcancel, ha]

theorem dueAt_concat_length :
    w.DueAt fs (history ++ [a]) history.length ↔
      a = .fire ∧ .cancel ∉ history ∧ w.Pending fs history := by
  rw [DueAt, List.getElem?_concat_length, List.take_left, Option.some.injEq]

theorem generatesAt_concat_length :
    w.GeneratesAt fs (history ++ [a]) history.length ↔
      a = .run ∨ (a = .fire ∧ .cancel ∉ history ∧ w.Pending fs history) := by
  rw [GeneratesAt, dueAt_concat_length, List.getElem?_concat_length, Option.some.injEq]

/-- What is due after one more step: a run, or a firing with something pending. -/
theorem generationsDue_concat :
    w.generationsDue fs (history ++ [a]) = w.generationsDue fs history +
      if a = .run ∨ (a = .fire ∧ .cancel ∉ history ∧ w.Pending fs history) then 1 else 0 := by
  have hearlier : ∀ i < history.length, w.DueAt fs (history ++ [a]) i ↔ w.DueAt fs history i := by
    intro i hi
    rw [DueAt, DueAt, List.getElem?_append_left hi, List.take_append_of_le_length hi.le]
  have hcount : Nat.count (w.DueAt fs (history ++ [a])) history.length
      = Nat.count (w.DueAt fs history) history.length := by
    rw [Nat.count_eq_card_filter_range, Nat.count_eq_card_filter_range]
    exact congrArg Finset.card
      (Finset.filter_congr fun i hi => hearlier i (Finset.mem_range.mp hi))
  rw [generationsDue, generationsDue, List.length_append, List.length_singleton, Nat.count_succ,
    hcount, if_congr dueAt_concat_length rfl rfl, List.count_append, List.count_singleton]
  by_cases hrun : a = .run
  · simp [hrun]; omega
  · simp [hrun]; omega

end Watcher

/-! ## The accounts are right -/

namespace Watcher

/-- The state that a watcher is in after a history. -/
structure Accounts (w : Watcher) (fs : FileSystem) (history : List WatchStep)
    (now : WatchOutcome) : Prop where
  options : now.watcher.options = w.options
  target : now.watcher.target = w.target
  current : now.fileSystem.current = fs.current
  cancelled : now.watcher.cancelled = decide (.cancel ∈ history)
  scheduled : now.watcher.scheduled = decide (w.Pending fs history)
  runs : now.watcher.runs = w.generationsDue fs history

/-- A step generates exactly where a generation is asked for or due. -/
theorem Accounts.generates_iff {w : Watcher} {fs : FileSystem} {history : List WatchStep}
    {now : WatchOutcome} (h : w.Accounts fs history now) (a : WatchStep) :
    now.watcher.generates a = true ↔ w.GeneratesAt fs (history ++ [a]) history.length := by
  rw [Watcher.generates_iff, h.scheduled, h.cancelled, decide_eq_true_iff, decide_eq_false_iff_not,
    and_comm (a := w.Pending fs history), generatesAt_concat_length]

/-- **The accounts are kept**, whatever happens in whatever order. -/
theorem accounts_steps (o : GenerateOptions) (target : Text) (fs : FileSystem)
    (history : List WatchStep) :
    (fresh o target).Accounts fs history ((fresh o target).steps fs history) := by
  induction history using List.reverseRecOn with
  | nil =>
    have hnothing : ¬ (fresh o target).Pending fs [] := by
      rintro ⟨i, hi, -⟩
      exact absurd hi (Nat.not_lt_zero i)
    exact ⟨rfl, rfl, rfl, rfl, (decide_eq_false hnothing).symm, rfl⟩
  | append_singleton history a ih =>
    have hannounces := fun closed => announces_congr ih.target ih.current closed a
    have hgenerates := (ih.generates_iff a).trans generatesAt_concat_length
    rw [steps_concat]
    constructor
    · rw [step_watcher]
      exact ih.options
    · rw [step_watcher]
      exact ih.target
    · exact (step_extends _ _ a).current.trans ih.current
    · simp only [step_watcher, ih.cancelled, List.mem_append, List.mem_singleton, eq_comm (a := a),
        Bool.decide_or]
    · rw [Bool.eq_iff_iff, decide_eq_true_iff, pending_concat]
      simp only [step_watcher, hannounces, ih.scheduled, ih.cancelled]
      by_cases hfire : a = .fire
      · subst hfire
        simp [announces]
      · simp [hfire]
    · simp only [step_watcher, ih.runs, generationsDue_concat, if_congr hgenerates rfl rfl]

section Effects

variable {w : Watcher} {fs : FileSystem} {history : List WatchStep} {a : WatchStep}
  (h : w.Accounts fs history (w.steps fs history))
include h

/-- A generation that is asked for or due writes what it has to write, and says how it ended. -/
theorem Accounts.generated (ha : w.GeneratesAt fs (history ++ [a]) history.length) :
    let outcome := w.options.generate (w.steps fs history).fileSystem
    (w.steps fs (history ++ [a])).fileSystem = outcome.fileSystem ∧
    (w.steps fs (history ++ [a])).notices
      = (w.steps fs history).notices ++ (outcome.notices ++ w.resultNotices outcome.result) := by
  have hgenerates := (h.generates_iff a).mpr ha
  rw [steps_concat, step_fileSystem, step_notices, if_pos hgenerates, if_pos hgenerates, h.options,
    resultNotices_congr h.options]
  exact ⟨rfl, rfl⟩

/-- All other steps leave the files to those who rewrite the document. -/
theorem Accounts.idle (ha : ¬ w.GeneratesAt fs (history ++ [a]) history.length) :
    (w.steps fs (history ++ [a])).fileSystem
      = a.edit w.options.input (w.steps fs history).fileSystem ∧
    (w.steps fs (history ++ [a])).notices
      = (w.steps fs history).notices ++ w.stepRemarks fs (.cancel ∈ history) a := by
  have hgenerates := (h.generates_iff a).not.mpr ha
  rw [steps_concat, step_fileSystem, step_notices, if_neg hgenerates, if_neg hgenerates, h.options,
    h.cancelled, stepRemarks_congr h.options h.target h.current]
  exact ⟨rfl, rfl⟩

end Effects

end Watcher

/-! ## Bursts -/

namespace Watcher

variable {w : Watcher} {fs : FileSystem} {history burst : List WatchStep}

/-- Nothing is generated while events and problems come in. -/
theorem steps_burst (hburst : ∀ a ∈ burst, a.isDelivery = true) :
    (w.steps fs (history ++ burst)).watcher.runs = (w.steps fs history).watcher.runs ∧
    (w.steps fs (history ++ burst)).fileSystem = (w.steps fs history).fileSystem := by
  induction burst using List.reverseRecOn with
  | nil => rw [List.append_nil]; exact ⟨rfl, rfl⟩
  | append_singleton burst a ih =>
    have ha := hburst a (by simp)
    obtain ⟨hruns, hfiles⟩ := ih fun b hb => hburst b (by simp [hb])
    rw [← List.append_assoc, steps_concat]
    refine ⟨?_, (step_fileSystem_of_isDelivery ha _ _).trans hfiles⟩
    simp only [step_watcher, generates_of_isDelivery ha, hruns, Bool.false_eq_true, if_false,
      Nat.add_zero]

theorem cancel_notMem_burst (hburst : ∀ a ∈ burst, a.isDelivery = true)
    (hcancel : .cancel ∉ history) : .cancel ∉ history ++ burst := by
  rw [List.mem_append]
  rintro (hmem | hmem)
  · exact hcancel hmem
  · exact absurd (hburst _ hmem) (by simp [WatchStep.isDelivery])

/-- After a change, something is pending as long as nothing but events and problems comes in. -/
theorem pending_burst (hburst : ∀ a ∈ burst, a.isDelivery = true) (hcancel : .cancel ∉ history)
    (hchange : ∃ a ∈ burst, w.announces fs false a = true) : w.Pending fs (history ++ burst) := by
  obtain ⟨a, ha, hannounces⟩ := hchange
  obtain ⟨earlier, later, rfl⟩ := List.append_of_mem ha
  rw [← List.append_assoc]
  refine pending_of_announces ?_ hannounces fun hfire => ?_
  · exact cancel_notMem_burst (fun b hb => hburst b (by simp [hb])) hcancel
  · exact absurd (hburst .fire (by simp [hfire])) (by simp [WatchStep.isDelivery])

/-- The firings after the first one add nothing to a history. -/
theorem steps_append_fires (n : Nat) :
    w.steps fs (history ++ .fire :: List.replicate n .fire) = w.steps fs (history ++ [.fire]) := by
  rw [steps_append, steps_fires, steps_concat]

end Watcher

/-- **Debouncing.** After any history a generation is scheduled exactly if a change has come since
the timer last fired, and the generations are those that were asked for and those of the firings
that found a change and no request to end. Each of them generates from the files as they are then,
and no other step does: the files change only when the document is rewritten, and nothing is said
but remarks on what was handed over. So

* any number of events with a change among them causes no generation by itself, one at the next
  firing, and none at the firings after that,
* events and problems without a change among them do nothing,
* a generation that is asked for leaves the scheduled one as it is, and
* after a request to end, a firing neither generates nor touches a file. -/
theorem debounce_accounting (o : GenerateOptions) (target : Text) (fs : FileSystem)
    (history : List WatchStep) :
    let w := Watcher.fresh o target
    let now := w.steps fs history
    let outcome := o.generate now.fileSystem
    (now.watcher.scheduled = true ↔ w.Pending fs history) ∧
    now.watcher.runs = history.count .run + Nat.count (w.DueAt fs history) history.length ∧
    (∀ a : WatchStep, w.GeneratesAt fs (history ++ [a]) history.length →
      (w.steps fs (history ++ [a])).fileSystem = outcome.fileSystem ∧
      (w.steps fs (history ++ [a])).notices
        = now.notices ++ (outcome.notices ++ w.resultNotices outcome.result)) ∧
    (∀ a : WatchStep, ¬ w.GeneratesAt fs (history ++ [a]) history.length →
      (w.steps fs (history ++ [a])).fileSystem = a.edit o.input now.fileSystem ∧
      (w.steps fs (history ++ [a])).notices
        = now.notices ++ w.stepRemarks fs (.cancel ∈ history) a) ∧
    (∀ burst : List WatchStep, (∀ a ∈ burst, a.isDelivery = true) →
      (∃ a ∈ burst, w.announces fs false a = true) → .cancel ∉ history → ∀ n,
      let waiting := w.steps fs (history ++ burst)
      let after := w.steps fs (history ++ burst ++ .fire :: List.replicate n .fire)
      (waiting.watcher.runs = now.watcher.runs ∧ waiting.fileSystem = now.fileSystem) ∧
      after.watcher.runs = now.watcher.runs + 1 ∧ after.fileSystem = outcome.fileSystem ∧
      after.notices
        = waiting.notices ++ (outcome.notices ++ w.resultNotices outcome.result)) ∧
    (∀ a : WatchStep, a.isDelivery = true → w.announces fs (.cancel ∈ history) a = false →
      (w.steps fs (history ++ [a])).watcher = now.watcher ∧
      (w.steps fs (history ++ [a])).fileSystem = now.fileSystem) ∧
    (w.steps fs (history ++ [.run])).watcher.scheduled = now.watcher.scheduled ∧
    (.cancel ∈ history →
      (w.steps fs (history ++ [.fire])).watcher.runs = now.watcher.runs ∧
      (w.steps fs (history ++ [.fire])).fileSystem = now.fileSystem) := by
  intro w now outcome
  have hnow : w.Accounts fs history now := Watcher.accounts_steps o target fs history
  refine ⟨by rw [hnow.scheduled, decide_eq_true_iff], hnow.runs, fun a => hnow.generated,
    fun a => hnow.idle, ?_, ?_, ?_, ?_⟩
  · intro burst hburst hchange hcancel n waiting after
    have hwaiting : w.Accounts fs (history ++ burst) waiting :=
      Watcher.accounts_steps o target fs (history ++ burst)
    have hdue : w.GeneratesAt fs (history ++ burst ++ [.fire]) (history ++ burst).length :=
      Watcher.generatesAt_concat_length.mpr (.inr ⟨rfl,
        Watcher.cancel_notMem_burst hburst hcancel, Watcher.pending_burst hburst hcancel hchange⟩)
    have hsame : waiting.watcher.runs = now.watcher.runs ∧ waiting.fileSystem = now.fileSystem :=
      Watcher.steps_burst hburst
    obtain ⟨hfiles, hnotices⟩ := hwaiting.generated hdue
    have hafter : after = w.steps fs (history ++ burst ++ [.fire]) := Watcher.steps_append_fires n
    refine ⟨hsame, ?_, ?_, ?_⟩
    · rw [hafter, Watcher.steps_concat]
      simp only [Watcher.step_watcher]
      rw [if_pos ((hwaiting.generates_iff .fire).mpr hdue), ← hsame.1]
    · rw [hafter, hfiles]
      exact congrArg (fun files => (o.generate files).fileSystem) hsame.2
    · rw [hafter, hnotices]
      exact congrArg (fun files => waiting.notices ++
        ((o.generate files).notices ++ w.resultNotices (o.generate files).result)) hsame.2
  · intro a hdelivery hnone
    have hquiet : now.watcher.announces now.fileSystem now.watcher.cancelled a = false := by
      rw [Watcher.announces_congr hnow.target hnow.current, hnow.cancelled, hnone]
    rw [Watcher.steps_concat]
    exact ⟨Watcher.step_watcher_of_quiet hdelivery hquiet,
      Watcher.step_fileSystem_of_isDelivery hdelivery _ _⟩
  · rw [Watcher.steps_concat]
    simp [Watcher.step_watcher, Watcher.announces, now]
  · intro hcancel
    have hend : now.watcher.cancelled = true := hnow.cancelled.trans (decide_eq_true hcancel)
    have hidle : now.watcher.generates .fire = false := by simp [Watcher.generates, hend]
    rw [Watcher.steps_concat]
    simp [Watcher.step_watcher, Watcher.step_fileSystem, WatchStep.edit, hidle, now]

/-- An event that says that the document was written. -/
def documentWritten : FileEvent :=
  ⟨"./blinker.json", 2⟩

/-- An event that says that the document was created. -/
def documentCreated : FileEvent :=
  ⟨"/blinker.json", 1⟩

/-- The document changes twice, among an event and a problem that have nothing to do with it. -/
def noisyBurst : List WatchStep :=
  [.event ⟨"other.json", 2⟩, .event documentWritten,
    .feed [.problem "overflow", .event documentWritten]]

/-- After a generation that was asked for, a burst causes one more. A document that is created is
generated from at the next firing, and a change of its mode alone is not. After a request to end, a
change that came before it causes nothing. -/
theorem blinker_debounced :
    let w := Watcher.fresh blinkerOptions "/blinker.json"
    let created := w.steps blinkerFiles [.event documentCreated]
    let touched := w.steps blinkerFiles [.event ⟨"/blinker.json", 16⟩]
    let ended : List WatchStep := [.event documentWritten, .cancel]
    (w.steps blinkerFiles ([.run] ++ noisyBurst)).watcher.runs
      = (w.steps blinkerFiles [.run]).watcher.runs ∧
    (w.steps blinkerFiles ([.run] ++ noisyBurst ++ .fire :: List.replicate 3 .fire)).watcher.runs
      = (w.steps blinkerFiles [.run]).watcher.runs + 1 ∧
    (w.steps blinkerFiles ([.event documentCreated] ++ [.fire])).fileSystem
      = (blinkerOptions.generate created.fileSystem).fileSystem ∧
    (w.steps blinkerFiles ([.event ⟨"/blinker.json", 16⟩] ++ [.fire])).fileSystem
      = touched.fileSystem ∧
    w.Pending blinkerFiles ended ∧
    (w.steps blinkerFiles (ended ++ [.fire])).watcher.runs
      = (w.steps blinkerFiles ended).watcher.runs ∧
    (w.steps blinkerFiles (ended ++ [.fire])).fileSystem
      = (w.steps blinkerFiles ended).fileSystem := by
  have hchange : (Watcher.fresh blinkerOptions "/blinker.json").announces blinkerFiles false
      (.event documentWritten) = true := by decide +kernel
  have hscheduled : ((Watcher.fresh blinkerOptions "/blinker.json").steps blinkerFiles
      [.event documentWritten, .cancel]).watcher.scheduled = true := by decide +kernel
  obtain ⟨-, -, -, -, hburst, -⟩ :=
    debounce_accounting blinkerOptions "/blinker.json" blinkerFiles [.run]
  obtain ⟨hbefore, hafter, -⟩ := hburst noisyBurst (by decide)
    ⟨.event documentWritten, by simp [noisyBurst], hchange⟩ (by decide) 3
  obtain ⟨hpending, -, -, -, -, -, -, hended⟩ := debounce_accounting blinkerOptions "/blinker.json"
    blinkerFiles [.event documentWritten, .cancel]
  obtain ⟨-, -, hgenerated, -⟩ :=
    debounce_accounting blinkerOptions "/blinker.json" blinkerFiles [.event documentCreated]
  obtain ⟨-, -, -, hidle, -⟩ :=
    debounce_accounting blinkerOptions "/blinker.json" blinkerFiles [.event ⟨"/blinker.json", 16⟩]
  exact ⟨hbefore.1, hafter, (hgenerated .fire (by decide +kernel)).1,
    (hidle .fire (by decide +kernel)).1, hpending.mp hscheduled, hended (by simp)⟩

end StateForge
