import ScriptTypings.Proofs.Session.Actions

/-!
# Failures that are reported

A run reports failures of its input. An action is `Silent` if it never fails in such a way: the
failures of writing files are of this kind, and those at values that are no texts.
-/

namespace ScriptTypings.Action

variable {α β : Type} {action : Action α} {next : α → Action β} {before between : Session}

theorem runOn_bind_of_ok {a : α} (h : action.runOn before = (.ok a, between)) :
    (action >>= next).runOn before = (next a).runOn between := by
  rw [runOn_bind, h]

theorem runOn_bind_of_error {failure : Failure}
    (h : action.runOn before = (.error failure, between)) :
    (action >>= next).runOn before = (.error failure, between) := by
  rw [runOn_bind, h]

/-- The action does not fail, or fails without a report. -/
def Silent (action : Action α) : Prop :=
  ∀ session failure, (action.runOn session).1 = .error failure → failure.report? = none

theorem silent_pure (a : α) : Silent (pure a : Action α) :=
  fun _ _ h => nomatch h

theorem silent_throw {failure : Failure} (h : failure.report? = none) :
    Silent (throw failure : Action α) :=
  fun _ _ hfailure => Except.error.inj hfailure ▸ h

theorem Silent.bind (h : Silent action) (hnext : ∀ a, Silent (next a)) :
    Silent (action >>= next) := by
  intro session failure hfailure
  rcases hrun : action.runOn session with ⟨earlier | a, between⟩
  · rw [runOn_bind_of_error hrun] at hfailure
    exact h session failure (by rw [hrun, Except.error.inj hfailure])
  · rw [runOn_bind_of_ok hrun] at hfailure
    exact hnext a between failure hfailure

theorem leads_readText {s : Storage} {path : Path} {text : String}
    (h : s.readText path = .ok text) (failure : FileError → Failure) :
    Leads s (readText path failure) text s := by
  rintro before rfl
  refine ⟨before, ?_, rfl⟩
  rw [runOn_readText, h]

theorem silent_logAll (records : List LogRecord) : Silent (logAll records) :=
  fun _ _ h => nomatch h

theorem silent_printLine (text : String) : Silent (printLine text) :=
  fun _ _ h => nomatch h

theorem silent_stopAt (cause : Option Misfit) : Silent (stopAt cause) := by
  cases cause with
  | none => exact silent_pure ()
  | some misfit => exact silent_throw rfl

theorem silent_stopIfTorn (isTorn : Bool) : Silent (stopIfTorn isTorn) := by
  cases isTorn with
  | false => exact silent_pure ()
  | true => exact silent_throw rfl

theorem silent_makeParent (path : Path) : Silent (makeParent path) := by
  intro session failure h
  rw [runOn_makeParent] at h
  split at h
  · cases h
  · rw [← Except.error.inj h]
    rfl

theorem silent_writeText (path : Path) (text : String) : Silent (writeText path text) := by
  intro session failure h
  rw [runOn_writeText] at h
  split at h
  · cases h
  · rw [← Except.error.inj h]
    rfl

end ScriptTypings.Action
