import ScriptTypings.CommandLine.Run
import ScriptTypings.Proofs.Corpus.Reloading
import ScriptTypings.Proofs.Corpus.Reuse
import ScriptTypings.Proofs.Storage.Kept

/-!
# Parts of a run

What the parts of a run lead to where they succeed, and which files they may change: writing a file,
checking a corpus and merging a tree with it, and getting the corpus from the cache or from a build.
A corpus that `Passes` is one that a run goes on with to the end.
-/

namespace ScriptTypings

open ScriptTypings.Action

namespace CommandLine

/-! ### Writing -/

section

variable {s s' : Storage} {path : Path} {surface : Surface}

theorem exists_leads_writeFile (h : s.Writable path) (text : String) :
    ∃ s', s.writeText path text = .ok s' ∧ Leads s (writeFile path text) () s' := by
  obtain ⟨s', hwrite⟩ := h.exists_writeText text
  have hparent : Leads s (makeParent path) () s := by
    rintro before rfl
    refine ⟨before, ?_, rfl⟩
    rw [runOn_makeParent, Storage.makeFolder_of_hasFolder h.folder]
  exact ⟨s', hwrite, hparent.bind (leads_writeText hwrite)⟩

variable {hasLone : Bool}

theorem exists_leads_writeDump (h : s.Writable path)
    (hwhole : (hasLone && surface.dump.hasStandIn) = false) :
    ∃ s', s.writeText path (dumpText surface) = .ok s' ∧
      Leads s (writeDump hasLone surface (some path)) () s' := by
  obtain ⟨s', hwrite, hleads⟩ := exists_leads_writeFile h (dumpText surface)
  refine ⟨s', hwrite, ?_⟩
  rw [writeDump, hwhole]
  exact hleads.bind ((leads_pure s' ()).bind (leads_printLine _ _))

theorem exists_leads_writeDeclarations {supplies : Supplies} (h : s.Writable path)
    (hdeclared : (Declarations.rootTrace (.ofPairs supplies.arity) surface).misfit? = none)
    (hwhole : (hasLone && Json.standsIn (declarationText supplies surface)) = false) :
    ∃ s', Leads s (writeDeclarations hasLone supplies surface path) () s' := by
  obtain ⟨emptied, hempty, hemptied⟩ := exists_leads_writeFile h ""
  obtain ⟨s', hwrite⟩ := (h.of_writeText hempty).exists_writeText (declarationText supplies surface)
  have hpass : Leads emptied
      (stopIfTorn (hasLone && Json.standsIn (declarationText supplies surface))) () emptied := by
    rw [hwhole]
    exact leads_pure emptied ()
  refine ⟨s', ?_⟩
  rw [writeDeclarations]
  refine hemptied.bind ((leads_logAll _ _).bind ?_)
  rw [hdeclared]
  refine (leads_pure _ _).bind (hpass.bind ?_)
  exact (leads_writeText hwrite).bind (leads_printLine _ _)

theorem writes_writeFile (path : Path) (text : String) :
    Writes [path.place] (writeFile path text) :=
  (writes_makeParent path).bind fun _ => writes_writeText path text

theorem content?_of_writeDump {before after : Session}
    (h : (writeDump hasLone surface (some path)).runOn before = (.ok (), after)) :
    (hasLone && surface.dump.hasStandIn) = false ∧
      Storage.Keeps [path.place] before.storage after.storage ∧
      after.storage.content? path = some (dumpText surface).toUTF8 := by
  obtain ⟨_, written, hfile, h⟩ := runOn_bind_eq_ok.mp h
  obtain ⟨_, checked, hstop, hprint⟩ := runOn_bind_eq_ok.mp h
  obtain ⟨hchecked, hwhole⟩ := (yields_stopIfTorn _).of_runOn hstop
  rw [hwhole] at hfile
  obtain ⟨_, made, hparent, hwrite⟩ := runOn_bind_eq_ok.mp hfile
  have hkept := writes_writeFile path (dumpText surface) before
  rw [show (writeFile path (dumpText surface)).runOn before = _ from hfile] at hkept
  rw [((yields_printLine _).of_runOn hprint).1, hchecked]
  exact ⟨hwhole, hkept, Storage.content?_writeText (writeText_of_runOn hwrite)⟩

theorem content?_of_writeDeclarations {supplies : Supplies} {before after : Session}
    (h : (writeDeclarations hasLone supplies surface path).runOn before = (.ok (), after)) :
    (Declarations.rootTrace (.ofPairs supplies.arity) surface).misfit? = none ∧
      (hasLone && Json.standsIn (declarationText supplies surface)) = false ∧
      Storage.Keeps [path.place] before.storage after.storage ∧
      after.storage.content? path = some (declarationText supplies surface).toUTF8 := by
  obtain ⟨_, emptied, hempty, h⟩ := runOn_bind_eq_ok.mp h
  obtain ⟨_, logged, hlog, h⟩ := runOn_bind_eq_ok.mp h
  obtain ⟨_, checked, hstop, h⟩ := runOn_bind_eq_ok.mp h
  obtain ⟨_, passed, hpass, h⟩ := runOn_bind_eq_ok.mp h
  obtain ⟨_, written, hwrite, hprint⟩ := runOn_bind_eq_ok.mp h
  obtain ⟨hchecked, hdeclared⟩ := (yields_stopAt _).of_runOn hstop
  obtain ⟨hpassed, hwhole⟩ := (yields_stopIfTorn _).of_runOn hpass
  have hstorage := writeText_of_runOn hwrite
  have hkept := writes_writeFile path "" before
  rw [hempty] at hkept
  rw [hpassed, hchecked, ((yields_logAll _).of_runOn hlog).1] at hstorage
  rw [((yields_printLine _).of_runOn hprint).1]
  refine ⟨hdeclared, hwhole, (hkept.trans (Storage.keeps_writeText hstorage)).mono ?_,
    Storage.content?_writeText hstorage⟩
  exact List.append_subset.mpr ⟨List.Subset.refl _, List.Subset.refl _⟩

end

/-! ### Checking and merging -/

theorem leads_printLines (s : Storage) (lines : List String) : Leads s (printLines lines) () s := by
  induction lines with
  | nil => exact leads_pure s ()
  | cons line lines ih => exact (leads_printLine s line).bind ih

theorem leads_printUntilTorn (s : Storage) (lines : List String) :
    Leads s (printUntilTorn false lines) () s := by
  induction lines with
  | nil => exact leads_pure s ()
  | cons line lines ih => exact ((leads_pure s ()).bind (leads_printLine s line)).bind ih

theorem leads_checkCorpus (s : Storage) (strict : Bool) (corpus : Corpus) :
    Leads s (checkCorpus false strict corpus) (corpus.validate strict).errors.isEmpty s :=
  (leads_logAll s _).bind ((leads_printUntilTorn s _).bind (leads_pure s _))

theorem yields_printUntilTorn (hasLone : Bool) (lines : List String) :
    Yields (printUntilTorn hasLone lines) fun _ => True := by
  induction lines with
  | nil => exact yields_pure trivial
  | cons line lines ih =>
    have hline := (yields_stopIfTorn (hasLone && Json.standsIn line)).bind
      fun _ _ => yields_printLine line
    exact hline.bind fun _ _ => ih

theorem yields_checkCorpus (hasLone strict : Bool) (corpus : Corpus) :
    Yields (checkCorpus hasLone strict corpus) fun isValid =>
      isValid = (corpus.validate strict).errors.isEmpty :=
  (yields_logAll _).bind fun _ _ => (yields_printUntilTorn _ _).bind fun _ _ => yields_pure rfl

/-- The merge of the reflected tree of a run with a corpus. -/
def mergedWith (inputs : Inputs) (corpus : Corpus) : Merger.Merged :=
  mergeTree inputs.root corpus inputs.supplies.overrides

theorem leads_mergeInputs (s : Storage) {inputs : Inputs} {corpus : Corpus}
    (hnamed : ShortNames.misfit? corpus = none)
    (hmerged : (mergedWith inputs corpus).trace.misfit? = none) :
    Leads s (mergeInputs inputs corpus) (mergedWith inputs corpus).surface s := by
  rw [mergedWith] at hmerged
  rw [mergeInputs, hnamed]
  refine (leads_printLine s _).bind ((leads_pure s ()).bind ((leads_logAll s _).bind ?_))
  rw [hmerged]
  exact (leads_pure s ()).bind ((leads_printLine s _).bind (leads_pure s _))

theorem yields_mergeInputs (inputs : Inputs) (corpus : Corpus) :
    Yields (mergeInputs inputs corpus) fun surface =>
      ShortNames.misfit? corpus = none ∧ (mergedWith inputs corpus).trace.misfit? = none ∧
        surface = (mergedWith inputs corpus).surface := by
  refine (yields_printLine _).bind fun _ _ => (yields_stopAt _).bind fun _ hnamed => ?_
  refine (yields_logAll _).bind fun _ _ => (yields_stopAt _).bind fun _ hmerged => ?_
  exact (yields_printLine _).bind fun _ _ => yields_pure ⟨hnamed, hmerged, rfl⟩

/-- What a run asks of a corpus from pages that it goes on with to the end. -/
structure Passes (strict : Bool) (inputs : Inputs) (corpus : Corpus) : Prop where
  valid : (corpus.validate strict).errors = []
  named : ShortNames.misfit? corpus = none
  merged : (mergedWith inputs corpus).trace.misfit? = none
  declared : (Declarations.rootTrace (.ofPairs inputs.supplies.arity)
    (mergedWith inputs corpus).surface).misfit? = none
  dumped : (inputs.hasLone && (mergedWith inputs corpus).surface.dump.hasStandIn) = false
  written : (inputs.hasLone && Json.standsIn
    (declarationText inputs.supplies (mergedWith inputs corpus).surface)) = false

theorem surface_reloaded {corpus : Corpus} (h : corpus.WellFormed) (inputs : Inputs) :
    (mergedWith inputs corpus.reloaded).surface =
      (mergedWith inputs corpus).surface.mapSnippets NameMap.sorted := by
  rw [mergedWith, Merger.mergeTree_mapsTo _
    (Reference.ofCorpus_mapsTo_reloaded h inputs.supplies.overrides)]
  rfl

theorem declarationText_reloaded {corpus : Corpus} (h : corpus.WellFormed) (inputs : Inputs) :
    declarationText inputs.supplies (mergedWith inputs corpus.reloaded).surface =
      declarationText inputs.supplies (mergedWith inputs corpus).surface := by
  rw [declarationText, mergedWith, (Corpus.interchangeable_reloaded h).declarationText?]
  rfl

/-- A run can go on with a corpus that was saved as with one that was built. -/
theorem Passes.reloaded {strict : Bool} {inputs : Inputs} {corpus : Corpus}
    (h : Passes strict inputs corpus) (hwell : corpus.WellFormed) :
    Passes strict inputs corpus.reloaded where
  valid := by rw [(Corpus.interchangeable_reloaded hwell).validate, h.valid]
  named := (Corpus.interchangeable_reloaded hwell).misfit?.trans h.named
  merged := by rw [mergedWith, (Corpus.interchangeable_reloaded hwell).trace]; exact h.merged
  declared := by
    rw [mergedWith, (Corpus.interchangeable_reloaded hwell).rootTrace]
    exact h.declared
  dumped := by rw [surface_reloaded hwell, Surface.hasStandIn_dump_mapSnippets, h.dumped]
  written := by rw [declarationText_reloaded hwell, h.written]

/-! ### The corpus -/

theorem writes_loadOrBuild (reader : PageReader) (options : DocumentOptions) (strict force : Bool)
    (folder : Option Path) (cache : Path) :
    Writes [cache.place] (Corpus.loadOrBuild reader options strict force folder cache) := by
  have hsave : ∀ corpus : Corpus, Writes [cache.place] (corpus.save cache) := fun corpus =>
    (writes_makeParent cache).bind fun _ => writes_writeText cache corpus.text
  have hload : Yields (Corpus.load cache) fun _ => True := by
    refine (yields_readText _ _).bind fun text _ => ?_
    split
    · exact yields_pure trivial
    · exact yields_throw _ _
  have hdone : ∀ found : Corpus × Option BuildReport, Yields (pure found) fun _ => True :=
    fun found => yields_pure trivial
  have hask : Yields (ask (Corpus.hasCache · cache)) fun _ => True := yields_ask _
  refine hask.writes.bind fun found => ?_
  split
  · have huse := (yields_log .info .corpus ("Using cached corpus " ++ cache.text)).bind
      fun _ _ => hload.bind fun corpus _ => hdone (corpus, none)
    exact huse.writes.mono (List.nil_subset _)
  · cases folder with
    | none =>
      have hstop := yields_throw (α := Corpus × Option BuildReport) .noPath fun _ => True
      exact hstop.writes.mono (List.nil_subset _)
    | some folder =>
      refine (Corpus.yields_build reader options strict folder).writes.bind fun built => ?_
      refine (hsave built.1).bind fun _ => ?_
      exact ((yields_log _ _ _).bind fun _ _ => hdone (built.1, some built.2)).writes

variable {reader : PageReader} {arguments : Arguments} {cache : Path} {corpus : Corpus}

/-- The corpus of a run is saved in the cache, whether it was built or found there. -/
theorem content?_of_loadCorpus (hcache : arguments.cache? = some cache) {before after : Session}
    (hholds : Corpus.Holds cache before)
    (h : (loadCorpus reader arguments).runOn before = (.ok corpus, after)) :
    corpus.WellFormed ∧ after.storage.content? cache = some corpus.text.toUTF8 ∧
      Storage.Keeps [cache.place] before.storage after.storage := by
  rw [loadCorpus, hcache] at h
  obtain ⟨_, started, hstart, h⟩ := runOn_bind_eq_ok.mp h
  obtain ⟨⟨found, report⟩, between, hload, h⟩ := runOn_bind_eq_ok.mp h
  obtain ⟨_, printed, hprint, hpure⟩ := runOn_bind_eq_ok.mp h
  obtain ⟨hfound, rfl⟩ := Prod.mk.inj hpure
  obtain rfl := Except.ok.inj hfound
  have hstarted := ((yields_printLine _).of_runOn hstart).1
  have hprinted := ((leads_printLines _ _).of_runOn rfl hprint).2
  have hkept := writes_loadOrBuild reader arguments.settings.options
    arguments.settings.strict arguments.rebuild arguments.documents? cache started
  rw [hload, hstarted] at hkept
  rw [hprinted]
  have hholds' : Corpus.Holds cache started := hholds.of_content? (by rw [hstarted])
  obtain ⟨-, saved, left, hwell, hcontent, hleft, hrun⟩ | ⟨-, hbuilt⟩ := hholds'.loadOrBuild_cases
    reader arguments.settings.options arguments.settings.strict arguments.rebuild
    arguments.documents?
  · obtain ⟨hsame, rfl⟩ := Prod.mk.inj (hload.symm.trans hrun)
    obtain ⟨rfl, -⟩ := Prod.mk.inj (Except.ok.inj hsame)
    refine ⟨hwell.reloaded, ?_, hkept⟩
    rw [Corpus.text_reloaded, hleft, hcontent]
  · rw [hload] at hbuilt
    obtain ⟨-, hwell, hsaved⟩ := hbuilt
    exact ⟨hwell, hsaved, hkept⟩

theorem leads_loadCorpus {s : Storage} (hcache : arguments.cache? = some cache)
    (hrebuild : arguments.rebuild = false) (hwell : corpus.WellFormed)
    (hcontent : s.content? cache = some corpus.text.toUTF8) :
    Leads s (loadCorpus reader arguments) corpus.reloaded s := by
  have hload : Leads s (Corpus.loadOrBuild reader arguments.settings.options
      arguments.settings.strict arguments.rebuild arguments.documents? cache)
      (corpus.reloaded, none) s := by
    rintro before rfl
    obtain ⟨noted, hnoted, hrun⟩ := Corpus.loadOrBuild_of_has reader
      arguments.settings.options arguments.settings.strict arguments.documents?
      (Storage.has_of_content? hcontent)
    rw [Corpus.load_of_content? hwell (hnoted ▸ hcontent)] at hrun
    exact ⟨noted, hrebuild ▸ hrun, hnoted⟩
  rw [loadCorpus, hcache]
  refine (leads_printLine s _).bind (hload.bind ?_)
  exact (leads_printLines s _).bind (leads_pure s _)

/-- No lone surrogates come from the cache of a corpus. -/
theorem readsLone_of_content? {s : Storage} (hwell : corpus.WellFormed)
    (hcontent : s.content? cache = some corpus.text.toUTF8) :
    readsLone s (some cache) = false := by
  have htext : s.readText cache = .ok corpus.text :=
    Storage.readText_eq_ok.mpr ⟨_, hcontent, textOfBytes?_toUTF8 corpus.not_mem_text⟩
  rw [readsLone, Option.map_some, htext]
  exact Corpus.readsLone_text hwell

/-- A corpus that can be built is saved if there is no cache. -/
theorem exists_leads_loadOrBuild {s : Storage} {options : DocumentOptions} {strict : Bool}
    {folder : Path} {report : BuildReport} (hhas : Corpus.hasCache s cache = .ok false)
    (hbuild : Leads s (Corpus.build reader options strict folder) (corpus, report) s)
    (hwritable : s.Writable cache) (force : Bool) :
    ∃ s', s.writeText cache corpus.text = .ok s' ∧
      Leads s (Corpus.loadOrBuild reader options strict force (some folder) cache)
        (corpus, some report) s' := by
  obtain ⟨s', hwrite, hsave⟩ := exists_leads_writeFile hwritable corpus.text
  refine ⟨s', hwrite, (leads_ask hhas).bind ?_⟩
  rw [Bool.false_and, if_neg Bool.false_ne_true]
  refine hbuild.bind ((show Leads s (corpus.save cache) () s' from hsave).bind ?_)
  exact (leads_log _ _ _ _).bind (leads_pure _ _)

end CommandLine

end ScriptTypings
