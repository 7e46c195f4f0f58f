import ScriptTypings.Proofs.Reading
import ScriptTypings.Session.Basic

/-!
# Outcomes of actions

An action that consists of two has the outcome of the second on the session behind the first, unless
the first fails. Reading a file leaves the session alone; making its folder and writing it change
the storage only. An action that `Yields` values of some kind only looks at the files; one that
`Leads` from a storage to another with a result succeeds there, whatever was logged before.
-/

namespace ScriptTypings.Action

variable {α β : Type}

theorem runOn_bind (action : Action α) (next : α → Action β) (session : Session) :
    (action >>= next).runOn session =
      match action.runOn session with
      | (.ok a, between) => (next a).runOn between
      | (.error failure, between) => (.error failure, between) := by
  change (ExceptT.bindCont next (action session).1) (action session).2 =
    match (action session) with
    | (.ok a, between) => (next a).runOn between
    | (.error failure, between) => (.error failure, between)
  rcases action session with ⟨_ | _, between⟩ <;> rfl

/-- An action of two parts succeeds if both do. -/
theorem runOn_bind_eq_ok {action : Action α} {next : α → Action β} {before after : Session}
    {b : β} : (action >>= next).runOn before = (.ok b, after) ↔
      ∃ a between, action.runOn before = (.ok a, between) ∧
        (next a).runOn between = (.ok b, after) := by
  rw [runOn_bind]
  rcases action.runOn before with ⟨_ | a, between⟩
  · simp
  · constructor
    · exact fun h => ⟨a, between, rfl, h⟩
    · rintro ⟨a', between', heq, h⟩
      obtain ⟨ha, rfl⟩ := Prod.mk.inj heq
      exact Except.ok.inj ha ▸ h

theorem runOn_ask (question : Storage → Except FileError Bool) (session : Session) :
    (ask question).runOn session =
      match question session.storage with
      | .ok answer => (.ok answer, session)
      | .error e => (.error (.file e), session) := by
  change (match question session.storage with
      | .ok answer => (pure answer : Action Bool)
      | .error e => throw (Failure.file e)).runOn session = _
  cases question session.storage <;> rfl

theorem runOn_log (level : LogLevel) (source : LogSource) (text : String) (session : Session) :
    (log level source text).runOn session =
      (.ok (), { session with log := session.log ++ [⟨level, source, text⟩] }) :=
  rfl

theorem runOn_pure (a : α) (session : Session) :
    (pure a : Action α).runOn session = (.ok a, session) :=
  rfl

theorem runOn_readText (path : Path) (failure : FileError → Failure) (session : Session) :
    (readText path failure).runOn session =
      match session.storage.readText path with
      | .ok text => (.ok text, session)
      | .error e => (.error (failure e), session) := by
  change (match session.storage.readText path with
      | .ok text => (pure text : Action String)
      | .error e => throw (failure e)).runOn session = _
  cases session.storage.readText path <;> rfl

/-- Even if the folder cannot be made, some of those around it may have been. -/
theorem runOn_makeParent (path : Path) (session : Session) :
    (makeParent path).runOn session =
      match session.storage.makeFolder path.parent with
      | (made, none) => (.ok (), { session with storage := made })
      | (made, some e) => (.error (.file e), { session with storage := made }) := by
  have hget : (get : Action Session).runOn session = (.ok session, session) := rfl
  simp only [makeParent, runOn_bind, hget]
  rcases session.storage.makeFolder path.parent with ⟨made, _ | e⟩ <;> rfl

theorem runOn_writeText (path : Path) (text : String) (session : Session) :
    (writeText path text).runOn session =
      match session.storage.writeText path text with
      | .ok storage => (.ok (), { session with storage })
      | .error e => (.error (.file e), session) := by
  change (match session.storage.writeText path text with
      | .ok storage => (modify (fun s : Session => { s with storage := storage }) : Action Unit)
      | .error e => throw (Failure.file e)).runOn session = _
  cases session.storage.writeText path text <;> rfl

theorem runOn_writeText_eq_ok {path : Path} {text : String} {before after : Session} :
    (writeText path text).runOn before = (.ok (), after) ↔
      before.storage.writeText path text = .ok after.storage ∧
        after = { before with storage := after.storage } := by
  rw [runOn_writeText]
  cases before.storage.writeText path text with
  | error e => simp
  | ok storage =>
    constructor
    · intro h
      obtain ⟨-, rfl⟩ := Prod.mk.inj h
      exact ⟨rfl, rfl⟩
    · rintro ⟨hwrite, hafter⟩
      rw [hafter, Except.ok.inj hwrite]

theorem writeText_of_runOn {path : Path} {text : String} {before after : Session}
    (h : (writeText path text).runOn before = (.ok (), after)) :
    before.storage.writeText path text = .ok after.storage :=
  (runOn_writeText_eq_ok.mp h).1

/-! ### Actions that only look at files -/

/-- The action leaves the storage alone, and what it gives satisfies a condition. -/
def Yields (action : Action α) (P : α → Prop) : Prop :=
  ∀ session, (action.runOn session).2.storage = session.storage ∧
    Gives (action.runOn session).1 P

variable {action : Action α} {P : α → Prop}

theorem yields_pure {a : α} (h : P a) : Yields (pure a) P :=
  fun _ => ⟨rfl, Gives.ok h⟩

theorem yields_throw (failure : Failure) (P : α → Prop) : Yields (throw failure) P :=
  fun _ => ⟨rfl, Gives.error failure P⟩

theorem yields_get : Yields get fun _ => True :=
  fun _ => ⟨rfl, Gives.anything _⟩

theorem yields_log (level : LogLevel) (source : LogSource) (text : String) :
    Yields (log level source text) fun _ => True :=
  fun _ => ⟨rfl, Gives.anything _⟩

theorem yields_logAll (records : List LogRecord) : Yields (logAll records) fun _ => True :=
  fun _ => ⟨rfl, Gives.anything _⟩

theorem yields_stopAt (cause : Option Misfit) : Yields (stopAt cause) fun _ => cause = none := by
  cases cause with
  | none => exact yields_pure rfl
  | some misfit => exact yields_throw _ _

theorem yields_stopIfTorn (isTorn : Bool) : Yields (stopIfTorn isTorn) fun _ => isTorn = false := by
  cases isTorn with
  | false => exact yields_pure rfl
  | true => exact yields_throw _ _

theorem yields_printLine (text : String) : Yields (printLine text) fun _ => True :=
  fun _ => ⟨rfl, Gives.anything _⟩

theorem Yields.bind {next : α → Action β} {Q : β → Prop} (h : Yields action P)
    (hnext : ∀ a, P a → Yields (next a) Q) : Yields (action >>= next) Q := by
  intro session
  obtain ⟨hkept, hgives⟩ := h session
  rw [runOn_bind]
  rcases hrun : action.runOn session with ⟨failure | a, between⟩
  · rw [hrun] at hkept
    exact ⟨hkept, Gives.error failure Q⟩
  · rw [hrun] at hkept hgives
    obtain ⟨hkept', hgives'⟩ := hnext a (hgives a rfl) between
    exact ⟨hkept'.trans hkept, hgives'⟩

theorem yields_ask (question : Storage → Except FileError Bool) :
    Yields (ask question) fun _ => True := by
  refine yields_get.bind fun session _ => ?_
  split
  · exact yields_pure trivial
  · exact yields_throw _ _

theorem yields_readText (path : Path) (failure : FileError → Failure) :
    Yields (readText path failure) fun _ => True := by
  refine yields_get.bind fun session _ => ?_
  split
  · exact yields_pure trivial
  · exact yields_throw _ _

theorem Yields.of_runOn (h : Yields action P) {a : α} {before after : Session}
    (hrun : action.runOn before = (.ok a, after)) : after.storage = before.storage ∧ P a := by
  obtain ⟨hkept, hgives⟩ := h before
  rw [hrun] at hkept hgives
  exact ⟨hkept, hgives a rfl⟩

/-! ### Actions that succeed -/

/-- From the first storage on, the action gives the result and leaves the second storage. -/
def Leads (s : Storage) (action : Action α) (a : α) (s' : Storage) : Prop :=
  ∀ before, before.storage = s →
    ∃ after, action.runOn before = (.ok a, after) ∧ after.storage = s'

variable {next : α → Action β} {a : α} {b : β} {s s' s'' : Storage}

theorem Leads.bind (h : Leads s action a s') (hnext : Leads s' (next a) b s'') :
    Leads s (action >>= next) b s'' := by
  intro before hbefore
  obtain ⟨between, hrun, hbetween⟩ := h before hbefore
  obtain ⟨after, hrun', hafter⟩ := hnext between hbetween
  exact ⟨after, runOn_bind_eq_ok.mpr ⟨a, between, hrun, hrun'⟩, hafter⟩

/-- What an action leads to is all that it can come to. -/
theorem Leads.of_runOn (h : Leads s action a s') {a' : α} {before after : Session}
    (hbefore : before.storage = s) (hrun : action.runOn before = (.ok a', after)) :
    a' = a ∧ after.storage = s' := by
  obtain ⟨after', hrun', hafter⟩ := h before hbefore
  obtain ⟨ha, rfl⟩ := Prod.mk.inj (hrun.symm.trans hrun')
  exact ⟨Except.ok.inj ha, hafter⟩

theorem leads_pure (s : Storage) (a : α) : Leads s (pure a) a s :=
  fun before hbefore => ⟨before, rfl, hbefore⟩

theorem leads_ask {question : Storage → Except FileError Bool} {answer : Bool}
    (h : question s = .ok answer) : Leads s (ask question) answer s := by
  rintro before rfl
  refine ⟨before, ?_, rfl⟩
  rw [runOn_ask, h]

theorem leads_log (s : Storage) (level : LogLevel) (source : LogSource) (text : String) :
    Leads s (log level source text) () s :=
  fun _ hbefore => ⟨_, rfl, hbefore⟩

theorem leads_logAll (s : Storage) (records : List LogRecord) : Leads s (logAll records) () s :=
  fun _ hbefore => ⟨_, rfl, hbefore⟩

theorem leads_printLine (s : Storage) (text : String) : Leads s (printLine text) () s :=
  fun _ hbefore => ⟨_, rfl, hbefore⟩

theorem leads_writeText {path : Path} {text : String} (h : s.writeText path text = .ok s') :
    Leads s (writeText path text) () s' := by
  rintro before rfl
  refine ⟨{ before with storage := s' }, ?_, rfl⟩
  rw [runOn_writeText, h]

end ScriptTypings.Action
