import ScriptTypings.Markup.Reader
import ScriptTypings.Proofs.Corpus.Building
import ScriptTypings.Proofs.Corpus.Cache
import ScriptTypings.Proofs.Storage.Parents

/-!
# Calls over a cache

Corpora are asked for again and again while the documents change, and at first there is no cache.
Then the cache holds the text of a corpus at all times: `loadOrBuild_allOrNothing` says what every
call leaves in it.
-/

namespace ScriptTypings.Corpus

variable {cache : Path} {before after : Session}

/-! ### Saving -/

theorem content?_of_save {corpus : Corpus}
    (h : (save corpus cache).runOn before = (.ok (), after)) :
    after.storage.content? cache = some corpus.text.toUTF8 := by
  obtain ⟨storage, hwritten⟩ := exists_writeText_of_save h
  exact Storage.content?_writeText hwritten

/-- A corpus that cannot be saved leaves the cache as it was. -/
theorem content?_of_save_failed {corpus : Corpus} {failure : Failure}
    (h : (save corpus cache).runOn before = (.error failure, after)) :
    after.storage.content? cache = before.storage.content? cache := by
  rw [save, Action.runOn_bind, Action.runOn_makeParent] at h
  cases hmake : before.storage.makeFolder cache.parent with
  | mk made error? =>
    rw [hmake] at h
    cases error? with
    | some reason =>
      rw [← (Prod.mk.inj h).2]
      exact Storage.content?_of_makeFolder hmake
    | none =>
      simp only [Action.runOn_writeText] at h
      split at h
      · cases h
      · rename_i reason hwrite
        have hnone := Storage.content?_of_writeText hwrite
        rw [← (Prod.mk.inj h).2, hnone]
        cases hbefore : before.storage.content? cache with
        | none => rfl
        | some content =>
          rw [Storage.content?_of_makeFolder_ok hmake hbefore] at hnone
          cases hnone

/-! ### One call -/

/-- The cache holds the text of a well-formed corpus, or there is none. -/
def Holds (cache : Path) (session : Session) : Prop :=
  ∀ content, session.storage.content? cache = some content →
    ∃ corpus : Corpus, corpus.WellFormed ∧ content = corpus.text.toUTF8

abbrev CallOutcome := Except Failure (Corpus × Option BuildReport) × Session

/-- A call that fails leaves the cache as it was, one that builds a corpus leaves the text of this
corpus, and one that builds none writes nothing and gives a corpus whose text is in the cache. -/
def AllOrNothing (cache : Path) (before : Session) : CallOutcome → Prop
  | (.error _, after) => after.storage.content? cache = before.storage.content? cache
  | (.ok (corpus, some _), after) => after.storage.content? cache = some corpus.text.toUTF8
  | (.ok (corpus, none), after) =>
    after.storage = before.storage ∧
      before.storage.content? cache = some corpus.text.toUTF8

/-- The outcome of a call that does not use the cache: it fails, or it builds a well-formed corpus
and leaves its text. -/
def FailsOrBuilds (cache : Path) (before : Session) : CallOutcome → Prop
  | (.error _, after) => after.storage.content? cache = before.storage.content? cache
  | (.ok (corpus, report), after) =>
    report.isSome ∧ corpus.WellFormed ∧
      after.storage.content? cache = some corpus.text.toUTF8

variable {reader : PageReader} {options : DocumentOptions} {strict force : Bool}
  {folder : Option Path}

theorem failsOrBuilds_of_build
    (hbuild : ∀ found, hasCache before.storage cache = .ok found → (found && !force) = false) :
    FailsOrBuilds cache before
      ((loadOrBuild reader options strict force folder cache).runOn before) := by
  simp only [loadOrBuild, Action.runOn_bind, Action.runOn_ask]
  cases hhas : hasCache before.storage cache with
  | error e => exact rfl
  | ok found =>
    simp only [hbuild found hhas, Bool.false_eq_true, if_false]
    cases folder with
    | none => exact rfl
    | some folder =>
      obtain ⟨hkept, hgives⟩ := yields_build reader options strict folder before
      simp only [Action.runOn_bind]
      rcases hrun : (build reader options strict folder).runOn before with
        ⟨failure | built, between⟩
      · rw [hrun] at hkept
        exact congrArg (Storage.content? · cache) hkept
      · rw [hrun] at hkept hgives
        obtain ⟨corpus, report⟩ := built
        dsimp only
        rcases hsave : (save corpus cache).runOn between with ⟨failure | _, saved⟩
        · exact (content?_of_save_failed hsave).trans (congrArg (Storage.content? · cache) hkept)
        · have hwell : corpus.WellFormed := hgives _ rfl
          have hsaved : saved.storage.content? cache = some corpus.text.toUTF8 :=
            content?_of_save hsave
          exact ⟨rfl, hwell, hsaved⟩

theorem load_of_content? {corpus : Corpus} (h : corpus.WellFormed)
    (hcontent : before.storage.content? cache = some corpus.text.toUTF8) :
    (load cache).runOn before = (.ok corpus.reloaded, before) := by
  refine load_eq ?_ (ofText_text h cache)
  exact Storage.readText_eq_ok.mpr ⟨_, hcontent, textOfBytes?_toUTF8 (not_mem_text corpus)⟩

theorem load_of_no_content (hcontent : before.storage.content? cache = none) :
    ∃ failure, (load cache).runOn before = (.error failure, before) := by
  rw [load, Action.runOn_bind, Action.runOn_readText, Storage.readText]
  cases hread : before.storage.read cache with
  | error e => exact ⟨_, rfl⟩
  | ok content =>
    rw [Storage.content?_eq_some.mpr hread] at hcontent
    cases hcontent

/-- Where something stands at the path of the cache, a call that need not build loads it. -/
theorem loadOrBuild_of_has (reader : PageReader) (options : DocumentOptions) (strict : Bool)
    (folder : Option Path) (hhas : hasCache before.storage cache = .ok true) :
    ∃ noted : Session, noted.storage = before.storage ∧
      (loadOrBuild reader options strict false folder cache).runOn before =
        match (load cache).runOn noted with
        | (.ok corpus, after) => (.ok (corpus, none), after)
        | (.error failure, after) => (.error failure, after) := by
  simp only [loadOrBuild, Action.runOn_bind, Action.runOn_ask, hhas, Bool.not_false, Bool.and_self,
    if_true, Action.runOn_log]
  refine ⟨{ before with
    log := before.log ++ [⟨.info, .corpus, "Using cached corpus " ++ cache.text⟩] }, rfl, ?_⟩
  generalize (load cache).runOn _ = loaded
  rcases loaded with ⟨_ | _, _⟩ <;> rfl

/-- What a call can do: it uses the corpus of the cache if there is one and it need not build, or
else it fails or builds. -/
theorem Holds.loadOrBuild_cases (h : Holds cache before) (reader : PageReader)
    (options : DocumentOptions) (strict force : Bool) (folder : Option Path) :
    (force = false ∧ ∃ (corpus : Corpus) (after : Session), corpus.WellFormed ∧
      before.storage.content? cache = some corpus.text.toUTF8 ∧
      after.storage = before.storage ∧
      (loadOrBuild reader options strict force folder cache).runOn before =
        (.ok (corpus.reloaded, none), after)) ∨
    (¬ (force = false ∧ (before.storage.content? cache).isSome) ∧
      FailsOrBuilds cache before
        ((loadOrBuild reader options strict force folder cache).runOn before)) := by
  cases force with
  | true => exact .inr ⟨by simp, failsOrBuilds_of_build fun found _ => Bool.and_false found⟩
  | false =>
    cases hcontent : before.storage.content? cache with
    | some content =>
      obtain ⟨corpus, hwell, rfl⟩ := h content hcontent
      obtain ⟨noted, hnoted, hrun⟩ :=
        loadOrBuild_of_has reader options strict folder (Storage.has_of_content? hcontent)
      rw [load_of_content? hwell (hnoted ▸ hcontent)] at hrun
      exact .inl ⟨rfl, corpus, noted, hwell, rfl, hnoted, hrun⟩
    | none =>
      refine .inr ⟨by simp, ?_⟩
      cases hhas : hasCache before.storage cache with
      | error e =>
        exact failsOrBuilds_of_build fun found hfound => by rw [hhas] at hfound; cases hfound
      | ok found =>
        cases found with
        | false =>
          refine failsOrBuilds_of_build fun found hfound => ?_
          rw [hhas] at hfound
          rw [← Except.ok.inj hfound, Bool.false_and]
        | true =>
          -- what stands there is a folder
          obtain ⟨noted, hnoted, hrun⟩ := loadOrBuild_of_has reader options strict folder hhas
          have hnone : noted.storage.content? cache = none := hnoted ▸ hcontent
          obtain ⟨failure, hload⟩ := load_of_no_content hnone
          rw [hrun, hload]
          exact congrArg (Storage.content? · cache) hnoted

/-! ### Calls in a row -/

/-- The sessions that calls lead to where there was no cache at first, with any changes between the
calls that leave the cache alone. -/
inductive Reachable (cache : Path) : Session → Prop
  | start {session : Session} (h : session.storage.content? cache = none) :
    Reachable cache session
  | call {session : Session} (h : Reachable cache session) (reader : PageReader)
    (options : DocumentOptions) (strict force : Bool) (folder : Option Path) :
    Reachable cache ((loadOrBuild reader options strict force folder cache).runOn session).2
  | change {session changed : Session} (h : Reachable cache session)
    (hkept : changed.storage.content? cache = session.storage.content? cache) :
    Reachable cache changed

theorem Holds.of_content? (h : Holds cache before)
    (hkept : after.storage.content? cache = before.storage.content? cache) : Holds cache after :=
  fun content hcontent => h content (hkept ▸ hcontent)

theorem Holds.call (h : Holds cache before) (reader : PageReader) (options : DocumentOptions)
    (strict force : Bool) (folder : Option Path) :
    Holds cache ((loadOrBuild reader options strict force folder cache).runOn before).2 := by
  obtain ⟨-, corpus, after, -, -, hkept, hrun⟩ | ⟨-, houtcome⟩ :=
    h.loadOrBuild_cases reader options strict force folder
  · rw [hrun]
    exact h.of_content? (congrArg (Storage.content? · cache) hkept)
  · revert houtcome
    rcases (loadOrBuild reader options strict force folder cache).runOn before with
      ⟨failure | ⟨corpus, report⟩, after⟩
    · exact fun hkept => h.of_content? hkept
    · rintro ⟨-, hwell, hsaved⟩ content hcontent
      exact ⟨corpus, hwell, Option.some.inj (hcontent.symm.trans hsaved)⟩

theorem Reachable.holds (h : Reachable cache before) : Holds cache before := by
  induction h with
  | start hnone => exact fun content hcontent => by rw [hnone] at hcontent; cases hcontent
  | call _ reader options strict force folder ih => exact ih.call reader options strict force folder
  | change _ hkept ih => exact ih.of_content? hkept

/-- Of all calls over a cache that was not there at first, each leaves all of its corpus in the
cache or nothing new, and it uses the corpus of the cache, whatever the documents are, exactly if
there is one and it is not told to build. -/
theorem loadOrBuild_allOrNothing (h : Reachable cache before) (reader : PageReader)
    (options : DocumentOptions) (strict force : Bool) (folder : Option Path) :
    AllOrNothing cache before
        ((loadOrBuild reader options strict force folder cache).runOn before) ∧
      ((force = false ∧ (before.storage.content? cache).isSome) ↔ ∃ corpus after,
        (loadOrBuild reader options strict force folder cache).runOn before =
          (.ok (corpus, none), after)) := by
  obtain ⟨hforce, corpus, after, -, hcontent, hkept, hrun⟩ | ⟨hnone, houtcome⟩ :=
    h.holds.loadOrBuild_cases reader options strict force folder
  · rw [hrun]
    refine ⟨⟨hkept, ?_⟩, fun _ => ⟨_, _, rfl⟩, fun _ => ⟨hforce, ?_⟩⟩
    · rw [text_reloaded, hcontent]
    · rw [hcontent]
      rfl
  · revert houtcome
    rcases (loadOrBuild reader options strict force folder cache).runOn before with
      ⟨failure | ⟨corpus, report⟩, after⟩
    · exact fun hkept => ⟨hkept, fun hforce => absurd hforce hnone, nofun⟩
    · rintro ⟨hreport, -, hsaved⟩
      obtain ⟨report, rfl⟩ := Option.isSome_iff_exists.mp hreport
      exact ⟨hsaved, fun hforce => absurd hforce hnone, nofun⟩

/-- A folder for documents that has none yet. -/
def emptyFolder : Session where
  storage := { items := [(["docs"], .folder)] }

/-- The session behind a first call on this folder. -/
def calledOnce : Session :=
  ((loadOrBuild Markup.readPage {} false false (some ⟨0, ["docs"]⟩) ⟨0, ["cache.json"]⟩).runOn
    emptyFolder).2

theorem build_emptyFolder : ∃ between,
    (build Markup.readPage {} false ⟨0, ["docs"]⟩).runOn emptyFolder =
      (.ok ({}, { total := 0 }), between) := by
  have hfolder : emptyFolder.storage.hasFolder ⟨0, ["docs"]⟩ = .ok true := rfl
  have hlocate : emptyFolder.storage.locate ⟨0, ["docs"]⟩ = .ok ["docs"] := rfl
  have hget : (get : Action Session).runOn emptyFolder = (.ok emptyFolder, emptyFolder) := rfl
  have hfiles : emptyFolder.storage.filesBelow ⟨0, ["docs"]⟩ = [] := by
    rw [Storage.filesBelow, hlocate]
    exact List.mergeSort_nil
  have hsources : sources emptyFolder.storage ⟨0, ["docs"]⟩ = [] := by
    rw [sources, hfiles]
    rfl
  have hitems : ({} : Corpus).items = [] := List.mergeSort_nil
  have hlink : ({} : Corpus).linkExtensions? = some ⟨{}, []⟩ := by
    rw [linkExtensions?, stoppingKey?, hitems]
    rfl
  simp only [build, Action.runOn_bind, Action.runOn_ask, hfolder, if_true, hget, hsources,
    ofSources, readSources, Action.runOn_pure, hlink]
  exact ⟨_, rfl⟩

theorem content?_calledOnce :
    calledOnce.storage.content? ⟨0, ["cache.json"]⟩ = some ({} : Corpus).text.toUTF8 := by
  obtain ⟨between, hbuild⟩ := build_emptyFolder
  have hkept := (yields_build Markup.readPage {} false ⟨0, ["docs"]⟩ emptyFolder).1
  rw [hbuild] at hkept
  obtain ⟨saved, hsave⟩ : ∃ saved,
      (save {} ⟨0, ["cache.json"]⟩).runOn between = (.ok (), saved) := by
    have hlocate : emptyFolder.storage.locate ⟨0, ["cache.json"]⟩ = .ok ["cache.json"] := rfl
    have hfolder : emptyFolder.storage.hasFolder (Path.parent ⟨0, ["cache.json"]⟩) = .ok true := rfl
    rw [← show between.storage = emptyFolder.storage from hkept] at hlocate hfolder
    refine exists_save hfolder hlocate ?_ _
    rw [show between.storage = emptyFolder.storage from hkept]
    exact nofun
  have hcalled : calledOnce.storage = saved.storage := by
    have hhas : hasCache emptyFolder.storage ⟨0, ["cache.json"]⟩ = .ok false := rfl
    simp only [calledOnce, loadOrBuild, Action.runOn_bind, Action.runOn_ask, hhas, Bool.false_and,
      Bool.false_eq_true, if_false, hbuild, hsave]
    rfl
  rw [hcalled]
  exact content?_of_save hsave

theorem loadOrBuild_allOrNothing_calledOnce :
    Reachable ⟨0, ["cache.json"]⟩ calledOnce ∧ ∃ corpus after,
      (loadOrBuild Markup.readPage {} true false none ⟨0, ["cache.json"]⟩).runOn calledOnce =
        (.ok (corpus, none), after) := by
  have hreachable : Reachable ⟨0, ["cache.json"]⟩ calledOnce := .call (.start rfl) _ _ _ _ _
  refine ⟨hreachable, ?_⟩
  refine (loadOrBuild_allOrNothing hreachable Markup.readPage {} true false none).2.mp ⟨rfl, ?_⟩
  rw [content?_calledOnce]
  rfl

end ScriptTypings.Corpus
