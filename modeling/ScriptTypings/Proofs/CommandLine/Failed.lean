import ScriptTypings.Proofs.CommandLine.Repeated
import ScriptTypings.Proofs.Session.Reports
import ScriptTypings.Proofs.Supplies.Sorting

/-!
# Runs that fail

A run that reports a failure, or whose corpus has errors, ends before anything is merged: what it
wrote by then are tables in canonical form and the cache of a corpus that was built. So the
documents, the reflected tree and what earlier runs wrote for others are as before, which
`leaves_perform` says of command lines whose paths are apart.
-/

namespace ScriptTypings

open ScriptTypings.Action

namespace Corpus

/-- To save a corpus adds folders on the way to the file, and writes the file if it can. -/
theorem item?_save (corpus : Corpus) (cache : Path) (session : Session) (at_ : List String) :
    let saved := ((save corpus cache).runOn session).2.storage
    saved.item? at_ = session.storage.item? at_ ∨
      at_ ∈ cache.parent.way ∧ session.storage.item? at_ = none ∧ saved.item? at_ = some .folder ∨
      at_ = cache.place ∧ saved.item? at_ = some (.file corpus.text.toUTF8) := by
  intro saved
  have hmade := Storage.addsFolders_makeFolder session.storage cache.parent at_
  have hparent := runOn_makeParent cache session
  have hsaved : saved = ((save corpus cache).runOn session).2.storage := rfl
  rcases hmake : session.storage.makeFolder cache.parent with ⟨made, _ | e⟩ <;>
    rw [hmake] at hparent hmade
  · rw [save, runOn_bind_of_ok hparent, runOn_writeText] at hsaved
    cases hwrite : made.writeText cache corpus.text with
    | error e =>
      rw [hwrite] at hsaved
      exact hsaved ▸ hmade.imp_right .inl
    | ok written =>
      rw [hwrite] at hsaved
      rcases Storage.item?_writeText hwrite at_ with hsame | hplace
      · rw [hsaved, hsame]
        exact hmade.imp_right .inl
      · exact .inr (.inr (hsaved ▸ hplace))
  · rw [save, runOn_bind_of_error hparent] at hsaved
    exact hsaved ▸ hmade.imp_right .inl

theorem yields_load (cache : Path) : Yields (load cache) fun _ => True := by
  refine (yields_readText _ _).bind fun text _ => ?_
  split
  · exact yields_pure trivial
  · exact yields_throw _ _

theorem silent_save (corpus : Corpus) (cache : Path) : Silent (save corpus cache) :=
  (silent_makeParent cache).bind fun _ => silent_writeText cache _

variable {α β : Type} {reader : PageReader} {options : DocumentOptions} {strict : Bool}
  {folder? : Option Path} {cache : Path} {action : Action α} {next : α → Action β} {P : α → Prop}

/-- The corpus was built, with certain files around, from the folder of documents. -/
def BuiltFrom (reader : PageReader) (options : DocumentOptions) (strict : Bool)
    (folder? : Option Path) (s : Storage) (corpus : Corpus) (built : Session) : Prop :=
  ∃ folder report asked, folder? = some folder ∧ asked.storage = s ∧
    (build reader options strict folder).runOn asked = (.ok (corpus, report), built)

/-- The action changes files only where it has built a corpus, by saving this corpus, and does not
succeed unless this does. -/
def OnlySaves (reader : PageReader) (options : DocumentOptions) (strict : Bool)
    (folder? : Option Path) (cache : Path) (action : Action α) : Prop :=
  ∀ session, (action.runOn session).2.storage = session.storage ∨
    ∃ corpus built, BuiltFrom reader options strict folder? session.storage corpus built ∧
      (action.runOn session).2.storage = ((save corpus cache).runOn built).2.storage ∧
      ∀ failure, ((save corpus cache).runOn built).1 = .error failure →
        (action.runOn session).1 = .error failure

theorem onlySaves_of_yields (h : Yields action fun _ => True) :
    OnlySaves reader options strict folder? cache action :=
  fun session => .inl (h session).1

/-- What comes before only looks at the files. -/
theorem onlySaves_bind (h : Yields action P)
    (hnext : ∀ a, OnlySaves reader options strict folder? cache (next a)) :
    OnlySaves reader options strict folder? cache (action >>= next) := by
  intro session
  have hkept := (h session).1
  rcases hrun : action.runOn session with ⟨failure | a, between⟩ <;> rw [hrun] at hkept
  · rw [runOn_bind_of_error hrun]
    exact .inl hkept
  · rw [runOn_bind_of_ok hrun, ← show between.storage = session.storage from hkept]
    exact hnext a between

/-- What comes behind only looks at the files. -/
theorem OnlySaves.bind {Q : β → Prop} (h : OnlySaves reader options strict folder? cache action)
    (hnext : ∀ a, Yields (next a) Q) :
    OnlySaves reader options strict folder? cache (action >>= next) := by
  intro session
  have hcases := h session
  rcases hrun : action.runOn session with ⟨failure | a, between⟩ <;> rw [hrun] at hcases
  · rw [runOn_bind_of_error hrun]
    refine hcases.imp_right fun ⟨corpus, built, hbuilt, hstored, hfailed⟩ =>
      ⟨corpus, built, hbuilt, hstored, ?_⟩
    exact fun reported hsave => Except.error.inj (hfailed reported hsave) ▸ rfl
  · rw [runOn_bind_of_ok hrun, (hnext a between).1]
    refine hcases.imp_right fun ⟨corpus, built, hbuilt, hstored, hfailed⟩ =>
      ⟨corpus, built, hbuilt, hstored, ?_⟩
    exact fun reported hsave => nomatch hfailed reported hsave

theorem onlySaves_loadOrBuild (reader : PageReader) (options : DocumentOptions)
    (strict force : Bool) (folder? : Option Path) (cache : Path) :
    OnlySaves reader options strict folder? cache
      (loadOrBuild reader options strict force folder? cache) := by
  refine onlySaves_bind (yields_ask _) fun found => ?_
  split
  · exact onlySaves_of_yields ((yields_log _ _ _).bind fun _ _ => (yields_load cache).bind
      fun corpus _ => yields_pure trivial)
  · cases folder? with
    | none => exact onlySaves_of_yields (yields_throw .noPath fun _ => True)
    | some folder =>
      intro session
      have hkept := (yields_build reader options strict folder session).1
      rcases hbuild : (build reader options strict folder).runOn session with
        ⟨failure | built, between⟩
      · rw [hbuild] at hkept
        rw [runOn_bind_of_error hbuild]
        exact .inl hkept
      · obtain ⟨corpus, report⟩ := built
        rw [runOn_bind_of_ok hbuild]
        refine .inr ⟨corpus, between, ⟨folder, report, session, rfl, rfl, hbuild⟩, ?_⟩
        rcases hsave : (save corpus cache).runOn between with ⟨failure | _, saved⟩
        · rw [runOn_bind_of_error hsave]
          exact ⟨rfl, fun _ h => congrArg Except.error (Except.error.inj h)⟩
        · rw [runOn_bind_of_ok hsave]
          exact ⟨rfl, nofun⟩

end Corpus

namespace CommandLine

variable {reader : PageReader} {arguments : Arguments} {before after : Session}

/-! ### Where a run can fail -/

/-- A run ends with status 1: with a failure that is reported, or at a corpus with errors. -/
def Fails (result : Except Failure Bool) : Prop :=
  result = .ok false ∨ ∃ failure, result = .error failure ∧ failure.report? ≠ none

theorem not_fails_done (session : Session) :
    ¬ Fails ((pure true : Action Bool).runOn session).1 := by
  rintro (hvalid | ⟨failure, hfailure, -⟩)
  · cases hvalid
  · cases hfailure

theorem not_fails_throw {failure : Failure} (h : failure.report? = none) (session : Session) :
    ¬ Fails ((throw failure : Action Bool).runOn session).1 := by
  rintro (hvalid | ⟨reported, hfailure, hreport⟩)
  · cases hvalid
  · exact hreport (Except.error.inj hfailure ▸ h)

theorem not_fails_bind {α : Type} {action : Action α} {next : α → Action Bool}
    (h : Silent action) (hnext : ∀ a session, ¬ Fails ((next a).runOn session).1)
    (session : Session) : ¬ Fails ((action >>= next).runOn session).1 := by
  rcases hrun : action.runOn session with ⟨failure | a, between⟩
  · rw [runOn_bind_of_error hrun]
    rintro (hvalid | ⟨reported, hfailure, hreport⟩)
    · cases hvalid
    · exact hreport (h session reported (by rw [hrun, Except.error.inj hfailure]))
  · rw [runOn_bind_of_ok hrun]
    exact hnext a between

theorem silent_mergeInputs (inputs : Inputs) (corpus : Corpus) :
    Silent (mergeInputs inputs corpus) :=
  (silent_printLine _).bind fun _ => (silent_stopAt _).bind fun _ => (silent_logAll _).bind fun _ =>
    (silent_stopAt _).bind fun _ => (silent_printLine _).bind fun _ => silent_pure _

theorem silent_writeFile (path : Path) (text : String) : Silent (writeFile path text) :=
  (silent_makeParent path).bind fun _ => silent_writeText path text

theorem silent_writeDump (hasLone : Bool) (surface : Surface) (dump : Option Path) :
    Silent (writeDump hasLone surface dump) := by
  cases dump with
  | none => exact silent_pure ()
  | some path =>
    exact (silent_writeFile path _).bind fun _ => (silent_stopIfTorn _).bind fun _ =>
      silent_printLine _

theorem silent_writeDeclarations (hasLone : Bool) (supplies : Supplies) (surface : Surface)
    (path : Path) : Silent (writeDeclarations hasLone supplies surface path) :=
  (silent_writeFile path _).bind fun _ => (silent_logAll _).bind fun _ =>
    (silent_stopAt _).bind fun _ => (silent_stopIfTorn _).bind fun _ =>
      (silent_writeText path _).bind fun _ => silent_printLine _

theorem silent_checkCorpus (hasLone strict : Bool) (corpus : Corpus) :
    Silent (checkCorpus hasLone strict corpus) := by
  refine (silent_logAll _).bind fun _ => Silent.bind ?_ fun _ => silent_pure _
  induction validationLines (corpus.validate strict) with
  | nil => exact silent_pure ()
  | cons line lines ih =>
    have hline := (silent_stopIfTorn (hasLone && Json.standsIn line)).bind
      fun _ => silent_printLine line
    exact hline.bind fun _ => ih

/-- A run fails at its inputs, or else it changes no files behind its corpus. -/
theorem cases_of_fails (h : Fails ((run reader arguments).runOn before).1) :
    (∃ failure loaded, (loadInputs arguments).runOn before = (.error failure, loaded) ∧
      (run reader arguments).runOn before = (.error failure, loaded)) ∨
    ∃ inputs loaded, (loadInputs arguments).runOn before = (.ok inputs, loaded) ∧
      ((run reader arguments).runOn before).2.storage =
        ((loadCorpus reader arguments).runOn loaded).2.storage ∧
      ∀ failure, ((loadCorpus reader arguments).runOn loaded).1 = .error failure →
        failure.report? ≠ none := by
  rw [run] at h ⊢
  split at h
  · exact absurd h (not_fails_throw rfl before)
  · rename_i hsupplies
    rw [if_neg hsupplies]
    rcases hinputs : (loadInputs arguments).runOn before with ⟨failure | inputs, loaded⟩
    · exact .inl ⟨failure, loaded, rfl, runOn_bind_of_error hinputs⟩
    · refine .inr ⟨inputs, loaded, rfl, ?_⟩
      rw [loadInputs] at hinputs
      rw [runOn_bind_of_ok hinputs] at h ⊢
      rcases hcorpus : (loadCorpus reader arguments).runOn loaded with ⟨failure | corpus, cached⟩
      · rw [runOn_bind_of_error hcorpus] at h ⊢
        obtain hvalid | ⟨reported, hfailure, hreport⟩ := h
        · cases hvalid
        · refine ⟨rfl, fun failed hfailed => ?_⟩
          rwa [← Except.error.inj hfailed, Except.error.inj hfailure]
      · have hlone : Leads cached.storage
            (ask fun storage => .ok (readsLone storage arguments.cache?))
            (readsLone cached.storage arguments.cache?) cached.storage := leads_ask rfl
        obtain ⟨asked, hask, hasked⟩ := hlone cached rfl
        rw [runOn_bind_of_ok hcorpus, runOn_bind_of_ok hask] at h ⊢
        have hsilent := silent_checkCorpus (readsLone cached.storage arguments.cache?)
          arguments.settings.strict corpus asked
        have hchecked := (yields_checkCorpus (readsLone cached.storage arguments.cache?)
          arguments.settings.strict corpus asked).1
        rcases hcheck : (checkCorpus (readsLone cached.storage arguments.cache?)
          arguments.settings.strict corpus).runOn asked with ⟨failure | isValid, checked⟩
        · rw [runOn_bind_of_error hcheck] at h
          rw [hcheck] at hsilent
          obtain hvalid | ⟨reported, hfailure, hreport⟩ := h
          · cases hvalid
          · exact absurd (hsilent reported hfailure) hreport
        rw [hcheck, hasked] at hchecked
        rw [runOn_bind_of_ok hcheck] at h ⊢
        split at h
        · -- whatever fails from here on is not reported
          refine absurd h (not_fails_bind (silent_mergeInputs inputs corpus) (fun surface => ?_) _)
          refine not_fails_bind (silent_printLine _) fun _ => ?_
          refine not_fails_bind (silent_writeDump _ _ _) fun _ => ?_
          cases arguments.output with
          | none => exact not_fails_throw rfl
          | some output =>
            exact not_fails_bind (silent_writeDeclarations _ _ _ _) fun _ => not_fails_done
        · rename_i hvalid
          rw [if_neg hvalid]
          refine ⟨hchecked, fun failure hfailed => ?_⟩
          cases hfailed

/-! ### What a failed run leaves -/

open Storage (IsBelow)

theorem yields_printLines (lines : List String) : Yields (printLines lines) fun _ => True := by
  induction lines with
  | nil => exact yields_pure trivial
  | cons line lines ih => exact (yields_printLine line).bind fun _ _ => ih

theorem onlySaves_loadCorpus {cache : Path} (hcache : arguments.cache? = some cache) :
    Corpus.OnlySaves reader arguments.settings.options arguments.settings.strict
      arguments.documents? cache (loadCorpus reader arguments) := by
  rw [loadCorpus, hcache]
  refine Corpus.onlySaves_bind (yields_printLine _) fun _ => ?_
  refine (Corpus.onlySaves_loadOrBuild _ _ _ _ _ _).bind (Q := fun _ => True) fun found => ?_
  exact (yields_printLines _).bind fun _ _ => yields_pure trivial

/-- A corpus was built in the course of a run, from documents that were as before the run. -/
def Builds (reader : PageReader) (arguments : Arguments) (s : Storage) (corpus : Corpus) : Prop :=
  ∃ between built, Corpus.BuiltFrom reader arguments.settings.options arguments.settings.strict
      arguments.documents? between corpus built ∧
    ∀ documents, arguments.documents? = some documents →
      ∀ at_, IsBelow at_ documents.place → between.item? at_ = s.item? at_

/-- What a failed run may leave at a place: what was there, a table in canonical form, the cache of
a corpus that was built, or a folder made for this cache where there was nothing. -/
inductive Leaves (reader : PageReader) (arguments : Arguments) (s s' : Storage)
    (at_ : List String) : Prop
  | asBefore (hsame : s'.item? at_ = s.item? at_)
  | sortedTable {path : Path} {text : String} {table : List (String × Json)}
    (hpath : path ∈ Inputs.tablePaths arguments.settings.supplies) (hplace : at_ = path.place)
    (htext : s.readText path = .ok text) (htable : Supplies.tableOfText path text = .ok table)
    (hitem : s'.item? at_ = some (.file (Supplies.tableText table).toUTF8))
  | builtCache {cache : Path} {corpus : Corpus} (hcache : arguments.cache? = some cache)
    (hbuilds : Builds reader arguments s corpus) (hplace : at_ = cache.place)
    (hitem : s'.item? at_ = some (.file corpus.text.toUTF8))
  | madeFolder {cache : Path} {corpus : Corpus} (hcache : arguments.cache? = some cache)
    (hbuilds : Builds reader arguments s corpus) (hway : at_ ∈ cache.parent.way)
    (hnone : s.item? at_ = none) (hitem : s'.item? at_ = some .folder)

/-- The paths of a run that are only read, or written last. -/
def keptPaths (arguments : Arguments) : List Path :=
  arguments.documents?.toList ++ arguments.reflection.toList ++ arguments.output.toList ++
    arguments.dump.toList

/-- The paths that a run is given or takes by default. -/
def chosenPaths (arguments : Arguments) : List Path :=
  keptPaths arguments ++ (arguments.cache?.toList ++ arguments.settings.supplies.toList)

variable {at_ : List String} {path : Path}

/-- Whatever a failed run leaves, it leaves alone what is apart from its cache and its supplementary
files. -/
theorem Leaves.item? {s s' : Storage} (h : Leaves reader arguments s s' at_)
    (hcache : ∀ cache, arguments.cache? = some cache → path.IsApart cache)
    (hsupplies : ∀ folder, arguments.settings.supplies = some folder → path.IsApart folder)
    (hat : IsBelow at_ path.place) : s'.item? at_ = s.item? at_ := by
  cases h with
  | asBefore hsame => exact hsame
  | sortedTable htable hplace =>
    obtain ⟨folder, name, hfolder, hfile, hroot, hback⟩ := Inputs.exists_of_mem_tablePaths htable
    rw [hplace, hfile] at hat
    exact absurd hat ((hsupplies folder hfolder).not_isBelow hroot hback)
  | @builtCache cache _ hgiven _ hplace =>
    exact absurd ⟨at_, hplace ▸ cache.place_mem_way, hat⟩ (hcache cache hgiven).2
  | @madeFolder cache _ hgiven _ hway =>
    exact absurd ⟨at_, cache.way_parent_subset hway, hat⟩ (hcache cache hgiven).2

theorem leaves_of_tidied {loaded : Session} {s' : Storage}
    (h : Supplies.Tidied (Inputs.tablePaths arguments.settings.supplies) before loaded)
    (hsame : s'.item? at_ = loaded.storage.item? at_) :
    Leaves reader arguments before.storage s' at_ := by
  rcases h.item at_ with hkept | ⟨path, hpath, hplace, text, table, htext, htable, hitem⟩
  · exact .asBefore (hsame.trans hkept)
  · exact .sortedTable hpath hplace htext htable (hsame.trans hitem)

/-- Behind tables that were put into canonical form, a built corpus is saved to its cache. -/
theorem leaves_of_built {loaded built : Session} {corpus : Corpus} {cache : Path}
    (htidied : Supplies.Tidied (Inputs.tablePaths arguments.settings.supplies) before loaded)
    (hcache : arguments.cache? = some cache)
    (hbuilds : Builds reader arguments before.storage corpus)
    (hbuilt : built.storage = loaded.storage) (at_ : List String) :
    Leaves reader arguments before.storage ((corpus.save cache).runOn built).2.storage at_ := by
  obtain hsame | ⟨hway, hnone, hmade⟩ | ⟨hplace, hitem⟩ := corpus.item?_save cache built at_
  · rw [hbuilt] at hsame
    exact leaves_of_tidied htidied hsame
  · rw [hbuilt] at hnone
    -- where there is nothing now, there was no table before
    rcases htidied.item at_ with hkept | ⟨_, _, _, _, _, _, _, hitem⟩
    · exact .madeFolder hcache hbuilds hway (hkept ▸ hnone) hmade
    · rw [hnone] at hitem
      cases hitem
  · exact .builtCache hcache hbuilds hplace hitem

/-- Behind tables that were put into canonical form, the corpus of a run is loaded, or it is built
and saved; there is no other way to go on. -/
theorem leaves_loadCorpus {loaded : Session} {s' : Storage}
    (htidied : Supplies.Tidied (Inputs.tablePaths arguments.settings.supplies) before loaded)
    (hdocuments : ∀ documents, arguments.documents? = some documents →
      ∀ folder, arguments.settings.supplies = some folder → documents.IsApart folder)
    (hstored : s' = ((loadCorpus reader arguments).runOn loaded).2.storage)
    (hreported : ∀ failure, ((loadCorpus reader arguments).runOn loaded).1 = .error failure →
      failure.report? ≠ none) :
    (∀ at_, Leaves reader arguments before.storage s' at_) ∧
      ∀ cache, arguments.cache? = some cache →
        s'.item? cache.place = loaded.storage.item? cache.place ∨
          ∃ corpus, Builds reader arguments before.storage corpus ∧
            s'.item? cache.place = some (.file corpus.text.toUTF8) := by
  cases hcache : arguments.cache? with
  | none =>
    refine absurd rfl (hreported .noPath ?_)
    rw [loadCorpus, hcache]
    rfl
  | some cache =>
    obtain hsame | ⟨corpus, built, hbuilt, hsaved, hfailed⟩ := onlySaves_loadCorpus hcache loaded
    · rw [hstored, hsame]
      exact ⟨fun at_ => leaves_of_tidied htidied rfl, fun _ hgiven => .inl rfl⟩
    · have hbuilds : Builds reader arguments before.storage corpus :=
        ⟨loaded.storage, built, hbuilt, fun documents hgiven at_ hbelow =>
          Inputs.item?_of_tidied htidied (hdocuments documents hgiven) (.inr hbelow)⟩
      obtain ⟨folder, report, asked, -, hasked, hbuild⟩ := hbuilt
      have hbuilt : built.storage = loaded.storage :=
        ((Corpus.yields_build _ _ _ _).of_runOn hbuild).1.trans hasked
      rw [hstored, hsaved]
      refine ⟨leaves_of_built htidied hcache hbuilds hbuilt,
        fun given hgiven => .inr ⟨corpus, hbuilds, ?_⟩⟩
      rcases hsave : (corpus.save cache).runOn built with ⟨failure | _, saved⟩
      · rw [hsave] at hfailed
        have hsilent := Corpus.silent_save corpus cache built failure (by rw [hsave])
        exact absurd hsilent (hreported failure (hfailed failure rfl))
      · rw [← Option.some.inj hgiven]
        exact Storage.item?_place_of_content? (Corpus.content?_of_save hsave)

variable {words : List String} {storage : Storage}

theorem fails_of_perform (h : Request.ofArguments words = .ok (.run arguments))
    (hstatus : (perform reader words storage).outcome.status? = some 1) :
    Fails ((run reader arguments).runOn { storage }).1 := by
  rw [perform, h] at hstatus
  dsimp only at hstatus
  cases hrun : ((run reader arguments).runOn { storage }).1 with
  | error failure =>
    refine .inr ⟨failure, rfl, fun hreport => ?_⟩
    rw [hrun, Outcome.status?, hreport] at hstatus
    cases hstatus
  | ok isValid =>
    rw [hrun] at hstatus
    cases isValid with
    | false => exact .inl rfl
    | true => cases hstatus

theorem perform_of_error (h : Request.ofArguments words = .ok (.run arguments)) {failure : Failure}
    {left : Session} (hrun : (run reader arguments).runOn { storage } = (.error failure, left)) :
    (perform reader words storage).outcome = .failed failure ∧
      (perform reader words storage).printed = left.printed ∧
      (perform reader words storage).log =
        left.log.filter (LogRecord.isShown arguments.logLevel) := by
  rw [perform, h]
  dsimp only
  rw [hrun]
  exact ⟨rfl, rfl, rfl⟩

/-- The paths of a run are apart from its cache and from its supplementary files. -/
structure KeepsApart (arguments : Arguments) : Prop where
  cache : ∀ path ∈ keptPaths arguments, ∀ cache, arguments.cache? = some cache →
    path.IsApart cache
  supplies : ∀ path ∈ keptPaths arguments, ∀ folder, arguments.settings.supplies = some folder →
    path.IsApart folder
  cacheSupplies : ∀ cache, arguments.cache? = some cache → ∀ folder,
    arguments.settings.supplies = some folder → cache.IsApart folder

theorem keepsApart_of_pairwise (h : (chosenPaths arguments).Pairwise Path.IsApart) :
    KeepsApart arguments := by
  obtain ⟨-, hchosen, hkept⟩ := List.pairwise_append.mp h
  refine ⟨fun path hpath cache hcache => ?_, fun path hpath folder hfolder => ?_,
    fun cache hcache folder hfolder => ?_⟩
  · exact hkept path hpath cache (List.mem_append_left _ (Option.mem_toList.mpr hcache))
  · exact hkept path hpath folder (List.mem_append_right _ (Option.mem_toList.mpr hfolder))
  · exact (List.pairwise_append.mp hchosen).2.2 cache (Option.mem_toList.mpr hcache) folder
      (Option.mem_toList.mpr hfolder)

theorem documents_mem_keptPaths {documents : Path} (h : arguments.documents? = some documents) :
    documents ∈ keptPaths arguments := by
  simp only [keptPaths, List.append_assoc]
  exact List.mem_append_left _ (Option.mem_toList.mpr h)

/-- No table that cannot be written makes a run fail in a way that is reported. -/
theorem tidied_of_fails (hfails : Fails ((run reader arguments).runOn before).1) :
    Supplies.Tidied (Inputs.tablePaths arguments.settings.supplies) before
      ((loadInputs arguments).runOn before).2 := by
  refine Inputs.tidying_load arguments.settings.supplies arguments.reflection before fun htorn => ?_
  obtain ⟨failure, _, hinputs, hrun⟩ | ⟨_, _, hinputs, -⟩ := cases_of_fails hfails
  · have hfailure : failure = .unencodable :=
      Except.error.inj ((congrArg Prod.fst hinputs).symm.trans htorn)
    obtain hvalid | ⟨reported, hreported, hreport⟩ := hfails <;> rw [hrun] at *
    · cases hvalid
    · rw [← Except.error.inj hreported, hfailure] at hreport
      exact hreport rfl
  · cases (congrArg Prod.fst hinputs).symm.trans htorn

/-- A failed run has loaded its inputs, or it ended there; its files are those behind its corpus. -/
theorem leaves_of_fails (hapart : KeepsApart arguments)
    (hfails : Fails ((run reader arguments).runOn before).1) :
    (∀ at_,
      Leaves reader arguments before.storage ((run reader arguments).runOn before).2.storage at_) ∧
      ∀ cache, arguments.cache? = some cache →
        ((run reader arguments).runOn before).2.storage.item? cache.place =
            before.storage.item? cache.place ∨
          ∃ corpus, Builds reader arguments before.storage corpus ∧
            ((run reader arguments).runOn before).2.storage.item? cache.place =
              some (.file corpus.text.toUTF8) := by
  have htidied := tidied_of_fails hfails
  obtain ⟨failure, loaded, hinputs, hrun⟩ | ⟨inputs, loaded, hinputs, hcorpus, hreported⟩ :=
    cases_of_fails hfails
  · rw [hinputs] at htidied
    rw [hrun]
    refine ⟨fun at_ => leaves_of_tidied htidied rfl, fun cache hgiven => .inl ?_⟩
    exact Inputs.item?_of_tidied htidied (hapart.cacheSupplies cache hgiven)
      (.inl cache.place_mem_way)
  · rw [hinputs] at htidied
    obtain ⟨hleaves, hcached⟩ := leaves_loadCorpus htidied
      (fun documents h => hapart.supplies documents (documents_mem_keptPaths h)) hcorpus hreported
    refine ⟨hleaves, fun cache hgiven => (hcached cache hgiven).imp_left fun hsame => ?_⟩
    rw [hsame]
    exact Inputs.item?_of_tidied htidied (hapart.cacheSupplies cache hgiven)
      (.inl cache.place_mem_way)

/-- Inputs that fail to load end a failed run, before anything changes on the way to the cache. -/
theorem refused_of_loadInputs (hapart : KeepsApart arguments)
    (hfails : Fails ((run reader arguments).runOn before).1) {failure : Failure} {left : Session}
    (hinputs : (loadInputs arguments).runOn before = (.error failure, left)) :
    (run reader arguments).runOn before = (.error failure, left) ∧ left.printed = before.printed ∧
      (∃ records, left.log = before.log ++ records ∧
        ∀ record ∈ records, record.source = .supplies) ∧
      ∀ cache, arguments.cache? = some cache → ∀ at_ ∈ cache.way,
        left.storage.item? at_ = before.storage.item? at_ := by
  have hrun : (run reader arguments).runOn before = (.error failure, left) := by
    obtain ⟨_, _, hinputs', hrun⟩ | ⟨_, _, hinputs', -⟩ := cases_of_fails hfails
    · obtain ⟨hfailure, rfl⟩ := Prod.mk.inj (hinputs.symm.trans hinputs')
      rw [hrun, Except.error.inj hfailure]
    · cases congrArg Prod.fst (hinputs.symm.trans hinputs')
  have htidied := tidied_of_fails hfails
  rw [hinputs] at htidied
  exact ⟨hrun, htidied.printed, htidied.log, fun cache hgiven at_ hway =>
    Inputs.item?_of_tidied htidied (hapart.cacheSupplies cache hgiven) (.inl hway)⟩

/-- If a command line whose paths are apart ends with status 1, then what it reads and what it would
write last are as they were. The cache is as it was unless the corpus could be built from the
documents, of which it then holds the text; everywhere else, tables in canonical form and folders
made for the cache are all that is new. Inputs that fail to load end the run: then no document was
read, and nothing changed on the way to the cache. -/
theorem leaves_perform (hwords : Request.ofArguments words = .ok (.run arguments))
    (hapart : (chosenPaths arguments).Pairwise Path.IsApart)
    (hstatus : (perform reader words storage).outcome.status? = some 1) :
    let finished := perform reader words storage
    (∀ path ∈ keptPaths arguments, ∀ at_, IsBelow at_ path.place →
      finished.storage.item? at_ = storage.item? at_) ∧
    (∀ cache, arguments.cache? = some cache →
      finished.storage.item? cache.place = storage.item? cache.place ∨
        ∃ corpus, Builds reader arguments storage corpus ∧
          finished.storage.item? cache.place = some (.file corpus.text.toUTF8)) ∧
    (∀ at_, Leaves reader arguments storage finished.storage at_) ∧
    ∀ failure left, (loadInputs arguments).runOn { storage } = (.error failure, left) →
      finished.outcome = .failed failure ∧ finished.printed = "" ∧
      (∀ record ∈ finished.log, record.source = .supplies) ∧
      ∀ cache, arguments.cache? = some cache → ∀ at_ ∈ cache.way,
        finished.storage.item? at_ = storage.item? at_ := by
  intro finished
  have hpaths := keepsApart_of_pairwise hapart
  have hfails := fails_of_perform hwords hstatus
  have hstored : finished.storage = ((run reader arguments).runOn { storage }).2.storage :=
    (perform_eq hwords storage).1
  obtain ⟨hleaves, hcached⟩ := leaves_of_fails hpaths hfails
  rw [hstored]
  refine ⟨fun path hpath at_ hbelow => ?_, hcached, hleaves, fun failure left hinputs => ?_⟩
  · exact (hleaves at_).item? (hpaths.cache path hpath) (hpaths.supplies path hpath) hbelow
  · obtain ⟨hrun, hprinted, ⟨records, hlog, hsource⟩, hway⟩ :=
      refused_of_loadInputs hpaths hfails hinputs
    obtain ⟨houtcome, hshown, hlogged⟩ := perform_of_error hwords hrun
    refine ⟨houtcome, hshown.trans hprinted, fun record hrecord => ?_, ?_⟩
    · rw [hlogged, hlog, List.nil_append] at hrecord
      exact hsource record (List.mem_of_mem_filter hrecord)
    · rw [hrun]
      exact hway

/-! ### A table that is malformed behind one out of order -/

def failedWords : List String :=
  ["-i", "tree.json", "-o", "out.d.ts", "--docs", "docs", "--cache", "cache.json",
    "--supplies", "supplies"]

def failedArguments : Arguments where
  reflection := some ⟨0, ["tree.json"]⟩
  output := some ⟨0, ["out.d.ts"]⟩
  settings := { documents := ⟨0, ["docs"]⟩, cache := ⟨0, ["cache.json"]⟩,
                supplies := some ⟨0, ["supplies"]⟩ }

/-- Overrides that are not in canonical form. -/
def failedOverrides : String :=
  "\x7b\"b\": \"Windows.B\", \"a\": \"Windows.A\"\x7d"

def failedTable : List (String × Json) :=
  [("a", .text "Windows.A"), ("b", .text "Windows.B")]

/-- The table as it is read. -/
def failedValue : Json :=
  .object [("b", .text "Windows.B"), ("a", .text "Windows.A")]

/-- A folder with the declarations and the cache of an earlier run, and with an array that is never
closed in the place of the numbers of type arguments. -/
def failedFolder : Storage where
  items := [(["docs"], .folder), (["docs", "page.htm"], .file methodPage.toUTF8),
    (["tree.json"], .file methodTree.toUTF8), (["supplies"], .folder),
    (["supplies", "prepend.d.ts"], .file "".toUTF8),
    (["supplies", "shortname-overrides.json"], .file failedOverrides.toUTF8),
    (["supplies", "generic-arity.json"], .file "[".toUTF8),
    (["out.d.ts"], .file "declare var before;".toUTF8), (["cache.json"], .file "before".toUTF8)]

theorem request_failedWords : Request.ofArguments failedWords = .ok (.run failedArguments) := by
  decide +kernel

theorem tableOfText_failedOverrides (path : Path) :
    Supplies.tableOfText path failedOverrides = .ok failedTable := by
  have hvalue : failedValue.isReadable = true := by decide
  have hspells : Json.Spells failedOverrides failedValue.document := rfl
  rw [Supplies.tableOfText_of_read (Json.read_of_spells hspells hvalue) hvalue]
  simp [NameMap.sorted, failedTable, List.mergeSort]

theorem tableText_failedTable : Supplies.tableText failedTable ≠ failedOverrides := by
  decide +kernel

/-- The folder with the overrides in canonical form. -/
def sortedFolder : Storage :=
  failedFolder.put ["supplies", "shortname-overrides.json"]
    (.file (Supplies.tableText failedTable).toUTF8)

theorem loadInputs_failedFolder : ∃ left,
    (loadInputs failedArguments).runOn { storage := failedFolder } =
      (.error (.input (.tableMalformed "supplies/generic-arity.json")), left) ∧
    left.storage.item? ["supplies", "shortname-overrides.json"] =
      some (.file (Supplies.tableText failedTable).toUTF8) := by
  have hheader : failedFolder.readText ⟨0, ["supplies", "prepend.d.ts"]⟩ = .ok "" :=
    Storage.readText_eq_ok.mpr ⟨_, rfl, textOfBytes?_toUTF8 (by decide)⟩
  have htext : failedFolder.readText ⟨0, ["supplies", "shortname-overrides.json"]⟩ =
      .ok failedOverrides := by
    have hchars : failedOverrides.toList = _ := String.toList_ofList
    exact Storage.readText_eq_ok.mpr ⟨_, rfl, textOfBytes?_toUTF8 (by rw [hchars]; decide +kernel)⟩
  have hwrite : failedFolder.writeText ⟨0, ["supplies", "shortname-overrides.json"]⟩
      (Supplies.tableText failedTable) = .ok sortedFolder := rfl
  have harity : sortedFolder.readText ⟨0, ["supplies", "generic-arity.json"]⟩ = .ok "[" :=
    Storage.readText_eq_ok.mpr ⟨_, rfl, textOfBytes?_toUTF8 (by decide)⟩
  obtain ⟨read, hread, hfolder⟩ :=
    leads_readText hheader (Supplies.headerFailure _) { storage := failedFolder } rfl
  obtain ⟨sorted, hsort, hsorted⟩ := Supplies.leads_loadTable htext
    (tableOfText_failedOverrides _) tableText_failedTable hwrite read hfolder
  refine ⟨sorted, ?_, by rw [hsorted]; rfl⟩
  have hmalformed : (Supplies.loadArity ⟨0, ["supplies", "generic-arity.json"]⟩).runOn sorted =
      (.error (.input (.tableMalformed "supplies/generic-arity.json")), sorted) := by
    have hopen : Json.read "[" = .error .malformed := rfl
    refine runOn_bind_of_error ?_
    rw [Supplies.loadTable, runOn_bind, runOn_readText, hsorted, harity]
    dsimp only
    rw [Supplies.tableOfText, hopen]
    rfl
  refine runOn_bind_of_error ?_
  refine (runOn_bind_of_ok hread).trans ?_
  exact (runOn_bind_of_ok hsort).trans (runOn_bind_of_error hmalformed)

theorem leaves_perform_failedWords :
    let finished := perform Markup.readPage failedWords failedFolder
    Request.ofArguments failedWords = .ok (.run failedArguments) ∧
      (chosenPaths failedArguments).Pairwise Path.IsApart ∧ finished.outcome.status? = some 1 ∧
      finished.storage.item? ["supplies", "shortname-overrides.json"] =
        some (.file (Supplies.tableText failedTable).toUTF8) ∧
      finished.storage.item? ["out.d.ts"] = failedFolder.item? ["out.d.ts"] ∧
      finished.storage.item? ["cache.json"] = failedFolder.item? ["cache.json"] ∧
      ∀ record ∈ finished.log, record.source = .supplies := by
  intro finished
  obtain ⟨left, hinputs, hsorted⟩ := loadInputs_failedFolder
  have hrun : (run Markup.readPage failedArguments).runOn { storage := failedFolder } =
      (.error (.input (.tableMalformed "supplies/generic-arity.json")), left) :=
    runOn_bind_of_error hinputs
  have hapart : (chosenPaths failedArguments).Pairwise Path.IsApart := by decide +kernel
  have hstatus : finished.outcome.status? = some 1 := by
    rw [(perform_of_error request_failedWords hrun).1]
    rfl
  obtain ⟨hkept, hcache, hleaves, hlast⟩ := leaves_perform request_failedWords hapart hstatus
  obtain ⟨-, -, hlog, hway⟩ := hlast _ _ hinputs
  refine ⟨request_failedWords, hapart, hstatus, ?_, ?_, hway _ rfl _ (Path.place_mem_way _), hlog⟩
  · rw [(perform_eq request_failedWords _).1, hrun, hsorted]
  · exact hkept ⟨0, ["out.d.ts"]⟩ (by decide) _ (Storage.IsBelow.refl _)

end CommandLine

end ScriptTypings
