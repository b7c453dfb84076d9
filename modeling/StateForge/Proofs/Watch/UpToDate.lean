import StateForge.Proofs.Generation.Rerun
import StateForge.Proofs.Watch.Debounce

/-!
# No change of the document is lost

In watch mode the document can be rewritten at any time, also between an event and the firing that
follows it, and a firing can come before the event that belongs to a rewrite. Still, when the last
rewrite was announced and the timer has fired after that, the files are those of the document as it
is, or a generation from it has failed and said so.

A generation leaves the document alone, so everything that is generated after the last rewrite is
generated from one document, and one that succeeds leaves the files up to date. So it is enough that
some generation comes after the last rewrite (`Watcher.failedOn_or_upToDate`).
-/

set_option autoImplicit false

namespace StateForge

open FileSystem

/-! ## Generations after the last rewrite -/

namespace Watcher

/-- Somewhere in the history a generation failed and said so, and the document that it read is the
one that is there `now`. -/
def FailedOn (w : Watcher) (fs now : FileSystem) (history : List WatchStep) : Prop :=
  ∃ done a rest e, history = done ++ a :: rest ∧ (w.steps fs done).watcher.generates a = true ∧
    (w.steps fs done).fileSystem.resolve true w.options.input = now.resolve true w.options.input ∧
    (w.options.generate (w.steps fs done).fileSystem).result = .error e ∧
    (w.steps fs (done ++ [a])).notices.getLast? = some (.failed e)

theorem steps_options (w : Watcher) (fs : FileSystem) (history : List WatchStep) :
    (w.steps fs history).watcher.options = w.options := by
  induction history generalizing w fs with
  | nil => rfl
  | cons a rest ih =>
    rw [steps]
    simp only [ih, step_watcher]

/-- A step that neither generates nor rewrites the document leaves all files as they are. -/
theorem step_fileSystem_of_idle {w : Watcher} {fs : FileSystem} {a : WatchStep}
    (hidle : w.generates a = false) (hrewrite : ∀ content, a ≠ .rewrite content) :
    (w.step fs a).fileSystem = fs := by
  rw [step_fileSystem, hidle, if_neg (by simp)]
  cases a with
  | rewrite content => exact absurd rfl (hrewrite content)
  | _ => rfl

/-- **If any generation comes after the last rewrite, then one has failed or the files are up to
date.** The induction is over the end of the history: the last generation decides. -/
theorem failedOn_or_upToDate {w : Watcher} {fs : FileSystem} {history : List WatchStep}
    (hchecked : w.options.unchecked = false) (hbase : Text.newline ∉ w.options.baseName)
    (hplatform : Text.newline ∉ w.options.platform)
    (hlast : ∀ content, .rewrite content ∉ history)
    (h : ∀ m, w.options.FilesApart m (w.steps fs history).fileSystem)
    (hgenerates : ∃ done a rest, history = done ++ a :: rest ∧
      (w.steps fs done).watcher.generates a = true) :
    w.FailedOn fs (w.steps fs history).fileSystem history ∨
      w.options.UpToDate (w.steps fs history).fileSystem := by
  induction history using List.reverseRecOn with
  | nil =>
    obtain ⟨done, a, rest, hsplit, -⟩ := hgenerates
    exact absurd hsplit (by simp)
  | append_singleton history b ih =>
    have hafter : (w.steps fs (history ++ [b])).fileSystem
        = ((w.steps fs history).watcher.step (w.steps fs history).fileSystem b).fileSystem := by
      rw [steps_concat]
    cases hb : (w.steps fs history).watcher.generates b with
    | true =>
      have hsaid := (w.steps fs history).watcher.step_notices (w.steps fs history).fileSystem b
      rw [if_pos hb] at hsaid
      rw [step_fileSystem, if_pos hb, steps_options] at hafter
      cases hresult : (w.options.generate (w.steps fs history).fileSystem).result with
      | ok stats =>
        rw [hafter] at h ⊢
        exact .inr (GenerateOptions.upToDate_of_generate hchecked hbase hplatform (fun m _ => h m)
          hresult)
      | error e =>
        refine .inl ⟨history, b, [], e, rfl, hb, ?_, hresult, ?_⟩
        · rw [hafter] at h ⊢
          exact (GenerateOptions.resolve_input_of_generate fun m _ => h m).symm
        · rw [steps_concat]
          simp [hsaid, steps_options, hresult, resultNotices]
    | false =>
      have hrewrite : ∀ content, b ≠ .rewrite content := fun content hb' =>
        hlast content (by simp [hb'])
      rw [step_fileSystem_of_idle hb hrewrite] at hafter
      rw [hafter] at h ⊢
      have hearlier : ∃ done a rest, history = done ++ a :: rest ∧
          (w.steps fs done).watcher.generates a = true := by
        obtain ⟨done, a, rest, hsplit, ha⟩ := hgenerates
        rcases List.eq_nil_or_concat' rest with rfl | ⟨rest, c, rfl⟩
        · obtain ⟨rfl, hab⟩ := List.append_inj' hsplit rfl
          rw [List.singleton_inj.mp hab, ha] at hb
          exact absurd hb (by simp)
        · rw [← List.cons_append, ← List.append_assoc] at hsplit
          exact ⟨done, a, rest, (List.append_inj' hsplit rfl).1, ha⟩
      refine (ih (fun content hmem => hlast content (by simp [hmem])) h hearlier).imp_left ?_
      rintro ⟨done, a, rest, e, rfl, hfailed⟩
      exact ⟨done, a, rest ++ [b], e, by simp, hfailed⟩

/-- The first firing after a change generates, if the end was not asked for. -/
theorem exists_generates {o : GenerateOptions} {target : Text} {fs : FileSystem}
    {before since : List WatchStep} {notice : WatchStep} (hcancel : .cancel ∉ before ++ since)
    (hnotice : (fresh o target).announces fs false notice = true)
    (hfire : [notice, .fire].Sublist since) :
    ∃ done a rest, since = done ++ a :: rest ∧
      ((fresh o target).steps fs (before ++ done)).watcher.generates a = true := by
  obtain ⟨first, second, rfl, hmem, hsecond⟩ := List.cons_sublist_iff.mp hfire
  obtain ⟨earlier, later, rfl⟩ := List.append_of_mem hmem
  obtain ⟨between, after, hsplit, hnone⟩ := List.eq_append_cons_of_mem
    (List.mem_append_right later (List.singleton_sublist.mp hsecond))
  have hsince : earlier ++ notice :: later ++ second
      = (earlier ++ notice :: between) ++ .fire :: after := by
    simp [hsplit]
  have hopen : .cancel ∉ before ++ (earlier ++ notice :: between) := by
    rw [hsince, ← List.append_assoc] at hcancel
    exact fun h => hcancel (List.mem_append_left _ h)
  have haccounts := accounts_steps o target fs (before ++ (earlier ++ notice :: between))
  have hpending : (fresh o target).Pending fs (before ++ (earlier ++ notice :: between)) := by
    rw [← List.append_assoc] at hopen ⊢
    exact pending_of_announces (fun h => hopen (List.mem_append_left _ h)) hnotice hnone
  refine ⟨_, .fire, after, hsince, ?_⟩
  rw [generates_iff]
  exact .inr ⟨rfl, haccounts.scheduled.trans (decide_eq_true hpending),
    haccounts.cancelled.trans (decide_eq_false hopen)⟩

end Watcher

/-- **No change of the document is lost.** Let `since` be what has happened after the last rewrite.
If a change was announced in it and the timer has fired after that, then a generation from the
document as it is has failed and said so, or the files are those of the document as it is. -/
theorem watch_catches_up {o : GenerateOptions} {target : Text} {fs : FileSystem}
    {before since : List WatchStep} {notice : WatchStep} (hchecked : o.unchecked = false)
    (hbase : Text.newline ∉ o.baseName) (hplatform : Text.newline ∉ o.platform)
    (hcancel : .cancel ∉ before ++ since) (hlast : ∀ content, .rewrite content ∉ since)
    (hnotice : (Watcher.fresh o target).announces fs false notice = true)
    (hfire : [notice, .fire].Sublist since)
    (hapart : ∀ m,
      o.FilesApart m ((Watcher.fresh o target).steps fs (before ++ since)).fileSystem) :
    let earlier := (Watcher.fresh o target).steps fs before
    let now := (Watcher.fresh o target).steps fs (before ++ since)
    earlier.watcher.FailedOn earlier.fileSystem now.fileSystem since ∨
      o.UpToDate now.fileSystem := by
  intro earlier now
  have hoptions : earlier.watcher.options = o := Watcher.steps_options _ _ _
  have hsteps : ∀ history, (earlier.watcher.steps earlier.fileSystem history).watcher
        = ((Watcher.fresh o target).steps fs (before ++ history)).watcher ∧
      (earlier.watcher.steps earlier.fileSystem history).fileSystem
        = ((Watcher.fresh o target).steps fs (before ++ history)).fileSystem := by
    intro history
    rw [Watcher.steps_append]
    exact ⟨rfl, rfl⟩
  obtain ⟨done, a, rest, hsplit, hgenerates⟩ := Watcher.exists_generates hcancel hnotice hfire
  rw [← (hsteps done).1] at hgenerates
  rw [← (hsteps since).2, ← hoptions] at hapart
  rw [← hoptions] at hchecked hbase hplatform
  have hresult := Watcher.failedOn_or_upToDate hchecked hbase hplatform hlast hapart
    ⟨done, a, rest, hsplit, hgenerates⟩
  rwa [(hsteps since).2, hoptions] at hresult

/-- A document for another machine than the one that was there. -/
def steadyContent : Text :=
  "\x7b\"start\":\"OFF\",\"states\":[\x7b\"name\":\"OFF\",\"run\":\"rest\"\x7d]\x7d"

/-- What happens after the document was rewritten: the timer fires too early, an event comes that
has nothing to do with it, the change is announced, and the timer fires again. -/
def afterRewrite : List WatchStep :=
  [.fire, .event ⟨"other.json", 2⟩, .event documentWritten, .event ⟨"blinker.json", 16⟩, .fire]

/-- The files catch up with a document that was rewritten after a first generation. -/
theorem blinker_catches_up :
    let w := Watcher.fresh blinkerOptions "/blinker.json"
    let now := w.steps blinkerFiles ([.run, .rewrite steadyContent] ++ afterRewrite)
    w.announces blinkerFiles false (.event documentWritten) = true ∧
      blinkerOptions.UpToDate now.fileSystem := by
  intro w now
  have hnotice : w.announces blinkerFiles false (.event documentWritten) = true := by
    decide +kernel
  have hapart : blinkerOptions.FilesApart blinker now.fileSystem := by decide +kernel
  have hlast : ∀ content, .rewrite content ∉ afterRewrite := by simp [afterRewrite]
  refine ⟨hnotice, (watch_catches_up rfl (by decide) (by decide) (by decide) hlast hnotice
    (by decide) fun _ => ⟨hapart.outputs, hapart.header, hapart.source⟩).resolve_left ?_⟩
  -- no generation would have failed, whichever step it came with
  have hok : ∀ i < 5, (blinkerOptions.generate (w.steps blinkerFiles
      ([.run, .rewrite steadyContent] ++ afterRewrite.take i)).fileSystem).result.toOption.isSome
        = true := by
    decide +kernel
  rintro ⟨done, a, rest, e, hsplit, -, -, hfailed, -⟩
  have hlength : 5 = (done ++ a :: rest).length := congrArg List.length hsplit
  rw [List.length_append, List.length_cons] at hlength
  have hfine := hok done.length (by omega)
  rw [hsplit, List.take_left, Watcher.steps_append] at hfine
  rw [Watcher.steps_options] at hfailed
  exact absurd (congrArg Except.toOption hfailed) (Option.isSome_iff_ne_none.mp hfine)

end StateForge
