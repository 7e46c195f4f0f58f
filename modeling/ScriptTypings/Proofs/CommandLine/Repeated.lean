import ScriptTypings.Main
import ScriptTypings.Proofs.CommandLine.Parts
import ScriptTypings.Proofs.Corpus.Canonical
import ScriptTypings.Proofs.Supplies.Reloading

/-!
# Runs that are repeated

A run that succeeded has left its corpus in the cache, and its inputs as they can be loaded again.
What it `Left` is enough for the next run: this uses the cache, succeeds and writes the same
declarations, as `perform_again` says. Its dump shows the code samples in the order of the cache.
-/

namespace ScriptTypings

open ScriptTypings.Action

namespace CommandLine

variable {reader : PageReader} {arguments : Arguments} {cache : Path} {corpus : Corpus}

/-! ### Whole runs -/

theorem Arguments.eq_of_cache? (h : arguments.cache? = some cache) :
    arguments.settings.cache = cache := by
  rw [Arguments.cache?, Arguments.unlessLacking] at h
  split at h
  · cases h
  · exact Option.some.inj h

/-- What a run chooses that writes a dump. -/
structure Chooses (arguments : Arguments) (cache dump output : Path) : Prop where
  supplies : arguments.lacking.contains .supplies = false
  cache : arguments.cache? = some cache
  dump : arguments.dump = some dump
  output : arguments.output = some output

/-- The files that the inputs of a run are loaded from. -/
def inputPaths (arguments : Arguments) : List Path :=
  Inputs.paths arguments.settings.supplies arguments.reflection

def loadInputs (arguments : Arguments) : Action Inputs :=
  Inputs.load arguments.settings.supplies arguments.reflection

/-- What a run with some inputs and a corpus leaves: inputs that can be loaded again, the corpus in
the cache, the dump of the merged surface, and its declarations. -/
structure Left (arguments : Arguments) (cache dump output : Path) (inputs : Inputs)
    (corpus : Corpus) (s : Storage) : Prop where
  loads : ∀ later : Session, Storage.Retains (inputPaths arguments) s later.storage →
    (loadInputs arguments).runOn later = (.ok inputs, later)
  wellFormed : corpus.WellFormed
  passes : Passes arguments.settings.strict inputs corpus
  cached : s.content? cache = some corpus.text.toUTF8
  dumped : s.content? dump = some (dumpText (mergedWith inputs corpus).surface).toUTF8
  declared : s.content? output =
    some (declarationText inputs.supplies (mergedWith inputs corpus).surface).toUTF8

variable {dump output : Path}

/-- The files that a run writes last are apart from its inputs and its cache. -/
structure Apart (paths : List Path) (cache dump output : Path) : Prop where
  distinct : (paths.map Path.place).Nodup
  retained : ∀ path ∈ paths, path.place ∉ [cache.place, dump.place, output.place]
  cache : cache.place ∉ [dump.place, output.place]
  dump : dump.place ≠ output.place

theorem Chooses.apart (h : Chooses arguments cache dump output)
    (hdistinct : ((pathsOf arguments).map Path.place).Nodup) :
    Apart (inputPaths arguments) cache dump output := by
  have hperm : (pathsOf arguments).Perm
      (arguments.settings.documents :: cache :: dump :: output :: inputPaths arguments) := by
    rw [List.perm_iff_count]
    intro path
    simp only [pathsOf, inputPaths, Inputs.paths, Arguments.eq_of_cache? h.cache, h.dump,
      h.output, Option.toList_some, List.count_append, List.count_cons, List.count_nil]
    have hsame : Supplies.paths = fun folder => [Supplies.headerPath folder,
      Supplies.overridesPath folder, Supplies.arityPath folder] := rfl
    rw [hsame]
    omega
  rw [(hperm.map Path.place).nodup_iff] at hdistinct
  simp only [List.map_cons, List.nodup_cons, List.mem_cons, not_or] at hdistinct
  obtain ⟨-, ⟨hcache, hcache', hinputs⟩, ⟨hdump, hinputs'⟩, hinputs'', hnodup⟩ := hdistinct
  refine ⟨hnodup, fun path hpath hmem => ?_, ?_, hdump⟩
  · have hplace := List.mem_map_of_mem (f := Path.place) hpath
    simp only [List.mem_cons, List.not_mem_nil, or_false] at hmem
    rcases hmem with heq | heq | heq <;> rw [heq] at hplace
    · exact hinputs hplace
    · exact hinputs' hplace
    · exact hinputs'' hplace
  · simp only [List.mem_cons, List.not_mem_nil, or_false, not_or]
    exact ⟨hcache, hcache'⟩

/-- A run that succeeds has made its choices. -/
theorem chooses_of_run {before after : Session} (hdump : arguments.dump = some dump)
    (houtput : arguments.output = some output)
    (h : (run reader arguments).runOn before = (.ok true, after)) :
    Chooses arguments arguments.settings.cache dump output := by
  have hsupplies : arguments.lacking.contains .supplies = false := by
    refine Bool.eq_false_iff.mpr fun hlacking => ?_
    rw [run, hlacking] at h
    cases h
  refine ⟨hsupplies, ?_, hdump, houtput⟩
  rw [run, hsupplies] at h
  obtain ⟨inputs, loaded, -, h⟩ := runOn_bind_eq_ok.mp h
  obtain ⟨corpus, cached, hcorpus, -⟩ := runOn_bind_eq_ok.mp h
  rw [loadCorpus] at hcorpus
  obtain ⟨_, started, -, hcorpus⟩ := runOn_bind_eq_ok.mp hcorpus
  cases hcache : arguments.cache? with
  | none =>
    rw [hcache] at hcorpus
    cases hcorpus
  | some cache => rw [Arguments.eq_of_cache? hcache]

/-- A run that succeeds with some inputs and a corpus leaves these. -/
theorem left_of_run (hchooses : Chooses arguments cache dump output)
    (hapart : Apart (inputPaths arguments) cache dump output)
    {before loaded cached after : Session} {inputs : Inputs}
    (hholds : Corpus.Holds cache before)
    (hinputs : (loadInputs arguments).runOn before = (.ok inputs, loaded))
    (hcorpus : (loadCorpus reader arguments).runOn loaded = (.ok corpus, cached))
    (h : (run reader arguments).runOn before = (.ok true, after)) :
    Left arguments cache dump output inputs corpus after.storage := by
  rw [run, hchooses.supplies] at h
  obtain ⟨inputs', loaded', hinputs', h⟩ := runOn_bind_eq_ok.mp h
  obtain ⟨hsame, rfl⟩ := Prod.mk.inj (hinputs.symm.trans hinputs')
  obtain rfl := Except.ok.inj hsame
  obtain ⟨corpus', cached', hcorpus', h⟩ := runOn_bind_eq_ok.mp h
  obtain ⟨hsame, rfl⟩ := Prod.mk.inj (hcorpus.symm.trans hcorpus')
  obtain rfl := Except.ok.inj hsame
  obtain ⟨loneCorpus, asked, hask, h⟩ := runOn_bind_eq_ok.mp h
  obtain ⟨rfl, hasked⟩ := (leads_ask rfl).of_runOn rfl hask
  obtain ⟨passed, checked, hcheck, h⟩ := runOn_bind_eq_ok.mp h
  obtain ⟨hchecked, rfl⟩ := (yields_checkCorpus _ _ _).of_runOn hcheck
  rw [hasked] at hchecked
  split at h
  · rename_i hvalid
    obtain ⟨surface, merged, hmerge, h⟩ := runOn_bind_eq_ok.mp h
    obtain ⟨_, printed, hprint, h⟩ := runOn_bind_eq_ok.mp h
    rw [hchooses.dump, hchooses.output] at h
    obtain ⟨_, dumped, hdump, h⟩ := runOn_bind_eq_ok.mp h
    obtain ⟨_, left, hdeclare, h⟩ := runOn_bind_eq_ok.mp h
    obtain ⟨-, rfl⟩ := Prod.mk.inj h
    have hsettles := Inputs.settles_load hapart.distinct
    -- to load the inputs may put tables in order, but there is no cache among them
    have hloaded : loaded.storage.content? cache = before.storage.content? cache := by
      refine hsettles.kept hinputs cache fun hmem => ?_
      obtain ⟨path, hpath, hplace⟩ := List.mem_map.mp hmem
      exact hapart.retained path hpath (hplace ▸ List.mem_cons_self)
    obtain ⟨hwell, hcontent, hkept⟩ :=
      content?_of_loadCorpus hchooses.cache (hholds.of_content? hloaded) hcorpus
    rw [hchooses.cache, readsLone_of_content? hwell hcontent, Bool.or_false] at hdump hdeclare
    obtain ⟨hmerged, hnamed, hmisfit, rfl⟩ := (yields_mergeInputs _ _).of_runOn hmerge
    have hprinted := ((yields_printLine _).of_runOn hprint).1
    obtain ⟨hwhole, hkept₁, hdumped⟩ := content?_of_writeDump hdump
    obtain ⟨hdeclared, hwhole', hkept₂, hwritten⟩ := content?_of_writeDeclarations hdeclare
    rw [hprinted, hmerged, hchecked] at hkept₁
    -- from the corpus on, only the dump and the declarations are written
    have hlast := hkept₁.trans hkept₂
    have hretained := (hkept.trans hlast).retains hapart.retained
    refine ⟨fun later hlater => hsettles.again hinputs (hretained.trans hlater), hwell,
      ⟨List.isEmpty_iff.mp hvalid, hnamed, hmisfit, hdeclared, hwhole, hwhole'⟩, ?_, ?_, hwritten⟩
    · exact hlast cache _ hapart.cache hcontent
    · exact hkept₂ dump _ (fun hmem => hapart.dump (List.mem_singleton.mp hmem)) hdumped
  · cases h

theorem exists_left_of_run (hchooses : Chooses arguments cache dump output)
    (hapart : Apart (inputPaths arguments) cache dump output) {before after : Session}
    (hholds : Corpus.Holds cache before)
    (h : (run reader arguments).runOn before = (.ok true, after)) :
    ∃ inputs corpus, Left arguments cache dump output inputs corpus after.storage := by
  have hrun := h
  rw [run, hchooses.supplies] at hrun
  obtain ⟨inputs, loaded, hinputs, hrun⟩ := runOn_bind_eq_ok.mp hrun
  obtain ⟨corpus, cached, hcorpus, -⟩ := runOn_bind_eq_ok.mp hrun
  exact ⟨inputs, corpus, left_of_run hchooses hapart hholds hinputs hcorpus h⟩

/-- A run succeeds if its corpus passes and its files can be written. -/
theorem exists_leads_run {inputs : Inputs} {s s₁ s₂ : Storage}
    (hchooses : Chooses arguments cache dump output)
    (hapart : Apart (inputPaths arguments) cache dump output)
    (hholds : Corpus.Holds cache { storage := s })
    (hinputs : Leads s (loadInputs arguments) inputs s₁)
    (hcorpus : Leads s₁ (loadCorpus reader arguments) corpus s₂)
    (hlone : readsLone s₂ (some cache) = false)
    (hpasses : Passes arguments.settings.strict inputs corpus)
    (hdump : s₂.Writable dump) (houtput : s₂.Writable output) :
    ∃ s', Leads s (run reader arguments) true s' ∧
      Left arguments cache dump output inputs corpus s' := by
  obtain ⟨s₃, hwrite, hdumped⟩ := exists_leads_writeDump hdump hpasses.dumped
  obtain ⟨s₄, hdeclared⟩ := exists_leads_writeDeclarations (houtput.of_writeText hwrite)
    hpasses.declared hpasses.written
  have hrun : Leads s (run reader arguments) true s₄ := by
    rw [run, hchooses.supplies]
    have hask : Leads s₂ (ask fun storage => .ok (readsLone storage arguments.cache?)) false s₂ :=
      leads_ask (by rw [hchooses.cache, hlone])
    refine hinputs.bind (hcorpus.bind (hask.bind ((leads_checkCorpus s₂ _ _).bind ?_)))
    rw [hpasses.valid, Bool.or_false]
    have hmerge := leads_mergeInputs s₂ hpasses.named hpasses.merged
    refine hmerge.bind ((leads_printLine s₂ _).bind ?_)
    rw [hchooses.dump, hchooses.output]
    exact hdumped.bind (hdeclared.bind (leads_pure _ true))
  obtain ⟨after, hafter, hlast⟩ := hrun { storage := s } rfl
  obtain ⟨loaded, hloaded, hstored⟩ := hinputs { storage := s } rfl
  obtain ⟨cached, hcached, -⟩ := hcorpus loaded hstored
  exact ⟨s₄, hrun, hlast ▸ left_of_run hchooses hapart hholds hloaded hcached hafter⟩

/-- The next run leaves the same, but for the order of entries and code samples. -/
theorem Left.again {inputs : Inputs} {s : Storage}
    (h : Left arguments cache dump output inputs corpus s)
    (hchooses : Chooses arguments cache dump output)
    (hapart : Apart (inputPaths arguments) cache dump output)
    (hrebuild : arguments.rebuild = false) :
    ∃ s', Leads s (run reader arguments) true s' ∧
      Left arguments cache dump output inputs corpus.reloaded s' := by
  have hinputs : Leads s (loadInputs arguments) inputs s := by
    rintro before rfl
    exact ⟨before, h.loads before fun _ _ _ hcontent => hcontent, rfl⟩
  have hholds : Corpus.Holds cache { storage := s } := fun content hcontent =>
    ⟨corpus, h.wellFormed, Option.some.inj (hcontent.symm.trans h.cached)⟩
  exact exists_leads_run hchooses hapart hholds hinputs
    (leads_loadCorpus hchooses.cache hrebuild h.wellFormed h.cached)
    (readsLone_of_content? h.wellFormed h.cached) (h.passes.reloaded h.wellFormed)
    (Storage.writable_of_content? h.dumped) (Storage.writable_of_content? h.declared)

/-! ### Command lines -/

/-- A dump tells all that can be read from it. -/
theorem dump_eq_of_dumpText {a b : Surface} (ha : a.dump.isReadable = true)
    (hb : b.dump.isReadable = true) (h : dumpText a = dumpText b) : a.dump = b.dump := by
  have hread := Json.read_write_newline ⟨some 2⟩ ha
  have hread' := Json.read_write_newline ⟨some 2⟩ hb
  rw [dumpText, dumpText] at h
  rw [h, hread'] at hread
  rw [← Json.value_document ha, ← Json.value_document hb, Except.ok.inj hread]

variable {words : List String} {storage : Storage}

theorem perform_eq (h : Request.ofArguments words = .ok (.run arguments)) (storage : Storage) :
    (perform reader words storage).storage = ((run reader arguments).runOn { storage }).2.storage ∧
      ((perform reader words storage).outcome.status? = some 0 ↔
        ((run reader arguments).runOn { storage }).1 = .ok true) := by
  rw [perform, h]
  dsimp only
  rcases (run reader arguments).runOn { storage } with ⟨failure | isValid, after⟩
  · refine ⟨rfl, fun hstatus => ?_, nofun⟩
    simp only [Outcome.status?] at hstatus
    cases hreport : failure.report? <;> rw [hreport] at hstatus <;> cases hstatus
  · refine ⟨rfl, fun hstatus => ?_, fun hvalid => ?_⟩
    · cases isValid with
      | true => rfl
      | false => cases hstatus
    · rw [Except.ok.inj hvalid]
      rfl

theorem perform_of_leads (h : Request.ofArguments words = .ok (.run arguments)) {s' : Storage}
    (hrun : Leads storage (run reader arguments) true s') :
    (perform reader words storage).outcome.status? = some 0 ∧
      (perform reader words storage).storage = s' := by
  obtain ⟨hstored, hstatus⟩ := perform_eq h storage
  obtain ⟨after, hafter, hlast⟩ := hrun { storage } rfl
  rw [hafter] at hstored hstatus
  exact ⟨hstatus.mpr rfl, hstored.trans hlast⟩

/-- A command line that succeeded where there was no cache succeeds again with the cache it wrote:
its declarations are the same, and its dump is that of the same surface with the code samples of
every signature in ascending order. -/
theorem perform_again (hwords : Request.ofArguments words = .ok (.run arguments))
    (hrebuild : arguments.rebuild = false) (hdump : arguments.dump = some dump)
    (houtput : arguments.output = some output)
    (hdistinct : ((pathsOf arguments).map Path.place).Nodup)
    (hnew : storage.content? arguments.settings.cache = none)
    (hfirst : (perform reader words storage).outcome.status? = some 0) :
    let first := perform reader words storage
    let second := perform reader words first.storage
    second.outcome.status? = some 0 ∧
      (∃ declarations, first.storage.content? output = some declarations ∧
        second.storage.content? output = some declarations) ∧
      ∃ surface : Surface, first.storage.content? dump = some (dumpText surface).toUTF8 ∧
        second.storage.content? dump =
          some (dumpText (surface.mapSnippets NameMap.sorted)).toUTF8 := by
  intro first second
  obtain ⟨hstored, hstatus⟩ := perform_eq hwords storage
  have hrun : (run reader arguments).runOn { storage } =
      (.ok true, ((run reader arguments).runOn { storage }).2) := Prod.ext (hstatus.mp hfirst) rfl
  have hchooses := chooses_of_run hdump houtput hrun
  have hapart := hchooses.apart hdistinct
  have hholds : Corpus.Holds arguments.settings.cache { storage } :=
    fun content hcontent => nomatch hnew.symm.trans hcontent
  obtain ⟨inputs, corpus, hleft⟩ := exists_left_of_run hchooses hapart hholds hrun
  rw [← hstored] at hleft
  obtain ⟨s', hleads, hleft'⟩ := hleft.again hchooses hapart hrebuild
  obtain ⟨hsecond, hlast⟩ := perform_of_leads hwords hleads
  rw [← hlast] at hleft'
  refine ⟨hsecond, ⟨_, hleft.declared, ?_⟩, _, hleft.dumped, ?_⟩
  · rw [hleft'.declared, declarationText_reloaded hleft.wellFormed]
  · rw [hleft'.dumped, surface_reloaded hleft.wellFormed]

/-! ### A method with code samples out of order -/

/-- A method with a code sample for scripts before one for another language. -/
def methodPage : String :=
  "<meta name=\"Microsoft.Help.Id\" content=\"M:Windows.f\"/>" ++
  "<meta name=\"Microsoft.Help.Category\" content=\"DevLang:JavaScript\"/>" ++
  "<div class=\"title\">f method</div><div id=\"mainSection\"><h2>Syntax</h2>" ++
  "<codesnippet language=\"JavaScript\">f()</codesnippet>" ++
  "<codesnippet language=\"C#\">F();</codesnippet><h2>Parameters</h2><p>None.</p></div>"

def methodTree : String :=
  "\x7b\"__fullname\": \"Windows\", \"__type\": \"structure\", \"f\": \"function\"\x7d"

/-- A folder with a page and the reflected tree of a namespace with one function. -/
def methodFolder (page : String) : Storage where
  items := [(["docs"], .folder), (["docs", "page.htm"], .file page.toUTF8),
    (["tree.json"], .file methodTree.toUTF8)]

def methodWords : List String :=
  ["-i", "tree.json", "-o", "out.d.ts", "-d", "debug.json", "--docs", "docs",
    "--cache", "cache.json"]

def methodArguments : Arguments where
  reflection := some ⟨0, ["tree.json"]⟩
  output := some ⟨0, ["out.d.ts"]⟩
  dump := some ⟨0, ["debug.json"]⟩
  settings := { documents := ⟨0, ["docs"]⟩, cache := ⟨0, ["cache.json"]⟩ }

def methodSignature : Signature :=
  { snippets := [("JavaScript", .text "f()"), ("C#", .text "F();")] }

def methodCorpus : Corpus where
  entries := [("windows.f",
    { identifier := .text "Windows.f", content := .function [methodSignature] })]

def methodInputs : Inputs where
  supplies := .bundled
  root := ⟨"Windows", [("f", .placeholder "function")]⟩
  hasLone := false

def methodSurface (signature : Signature) : Surface :=
  .space "Windows" "Windows" (.text "") [("f", .function [signature])]

def sortedSignature : Signature :=
  { snippets := [("C#", .text "F();"), ("JavaScript", .text "f()")] }

theorem methodPage_facts : '\r' ∉ methodPage.toList ∧ Document.parse Markup.readPage {} methodPage =
    .ok ⟨"f method", some .method, .entries methodCorpus.entries⟩ := by
  have hchars : methodPage.toList = _ :=
    Text.toList_append_of (Text.toList_append_of (Text.toList_append_of (Text.toList_append_of
      String.toList_ofList String.toList_ofList) String.toList_ofList) String.toList_ofList)
      String.toList_ofList
  rw [Document.parse, Markup.readPage, Markup.readNodes, Markup.Token.scan, hchars]
  exact ⟨by decide +kernel, by decide +kernel⟩

theorem request_methodWords :
    Request.ofArguments methodWords = .ok (.run methodArguments) := by
  decide +kernel

/-- What is read of the reflected tree. -/
def methodTreeValue : Json :=
  .object [("__fullname", .text "Windows"), ("__type", .text "structure"),
    ("f", .text "function")]

theorem isReadable_methodTreeValue : methodTreeValue.isReadable = true := by
  decide

theorem read_methodTree : Json.read methodTree = .ok methodTreeValue.document :=
  Json.read_of_spells rfl isReadable_methodTreeValue

theorem rootOfText_methodTree (path : Path) :
    Reflected.rootOfText path methodTree = .ok methodInputs.root :=
  decodeText_of_read read_methodTree isReadable_methodTreeValue rfl

theorem readsLone_methodTree : Json.readsLone methodTree = false := by
  rw [Json.readsLone, read_methodTree]
  rfl

theorem not_mem_methodTree : '\r' ∉ methodTree.toList := by
  have hchars : methodTree.toList = _ := String.toList_ofList
  rw [hchars]
  decide +kernel

theorem chooses_methodArguments :
    Chooses methodArguments ⟨0, ["cache.json"]⟩ ⟨0, ["debug.json"]⟩ ⟨0, ["out.d.ts"]⟩ :=
  ⟨rfl, rfl, rfl, rfl⟩

theorem nodup_methodArguments : ((pathsOf methodArguments).map Path.place).Nodup := by
  decide

theorem mergedWith_methodCorpus :
    (mergedWith methodInputs methodCorpus).surface = methodSurface methodSignature ∧
      (mergedWith methodInputs methodCorpus).trace.misfit? = none := by
  have hnone : ∀ (r : Reference) (owners : NameMap Nat) (p : Merger.Progress),
      p.memory.names = [] → Merger.backfill r owners p = p := by
    intro r owners p hp
    rw [Merger.backfill, hp, Merger.backfillFrom]
  rw [mergedWith, mergeTree, Merger.merge]
  dsimp only
  rw [hnone _ _ _ rfl]
  exact ⟨rfl, rfl⟩

theorem passes_methodCorpus : Passes false methodInputs methodCorpus where
  valid := by simp [Corpus.validate]
  named := by
    have hitems : methodCorpus.items = methodCorpus.entries := List.mergeSort_singleton _
    rw [ShortNames.misfit?, ShortNames.referable, hitems]
    rfl
  merged := mergedWith_methodCorpus.2
  declared := by
    rw [mergedWith_methodCorpus.1]
    rfl
  dumped := rfl
  written := rfl

theorem sources_methodFolder (page : String) :
    Corpus.sources (methodFolder page) ⟨0, ["docs"]⟩ = [("page.htm", page.toUTF8)] := by
  have hlocate : (methodFolder page).locate ⟨0, ["docs"]⟩ = .ok ["docs"] := rfl
  rw [Corpus.sources, Storage.filesBelow, hlocate]
  show ((List.mergeSort [(["page.htm"], page.toUTF8)] _).filter _).map _ = _
  rw [List.mergeSort_singleton]
  rfl

theorem apart_methodArguments : Apart (inputPaths methodArguments) ⟨0, ["cache.json"]⟩
    ⟨0, ["debug.json"]⟩ ⟨0, ["out.d.ts"]⟩ :=
  chooses_methodArguments.apart nodup_methodArguments

theorem exists_left_methodFolder {page : String} (hpage : '\r' ∉ page.toList)
    (hparse : Document.parse reader {} page =
      .ok ⟨"f method", some .method, .entries methodCorpus.entries⟩) :
    ∃ s, Leads (methodFolder page) (run reader methodArguments) true s ∧
      Left methodArguments ⟨0, ["cache.json"]⟩ ⟨0, ["debug.json"]⟩ ⟨0, ["out.d.ts"]⟩
        methodInputs methodCorpus s := by
  have hinputs : Leads (methodFolder page) (loadInputs methodArguments) methodInputs
      (methodFolder page) := by
    have htext : (methodFolder page).readText ⟨0, ["tree.json"]⟩ = .ok methodTree :=
      Storage.readText_eq_ok.mpr ⟨_, rfl, textOfBytes?_toUTF8 not_mem_methodTree⟩
    rintro before hbefore
    refine ⟨before, ?_, hbefore⟩
    have hroot : (Reflected.load ⟨0, ["tree.json"]⟩).runOn before =
        (.ok (methodInputs.root, false), before) := by
      rw [Reflected.load, runOn_bind, runOn_readText, hbefore, htext]
      simp only [rootOfText_methodTree, readsLone_methodTree]
      rfl
    refine runOn_bind_eq_ok.mpr ⟨.bundled, before, rfl, ?_⟩
    exact runOn_bind_eq_ok.mpr ⟨(methodInputs.root, false), before, hroot, rfl⟩
  have hbuild : Leads (methodFolder page) (Corpus.build reader {} false ⟨0, ["docs"]⟩)
      (methodCorpus, Corpus.reportOf reader {} [("page.htm", page.toUTF8)])
      (methodFolder page) := by
    rintro before hbefore
    have hfolder : before.storage.hasFolder ⟨0, ["docs"]⟩ = .ok true := by rw [hbefore]; rfl
    have hsources : Corpus.sources before.storage ⟨0, ["docs"]⟩ =
        [("page.htm", page.toUTF8)] := by rw [hbefore, sources_methodFolder]
    have hbuilt := Corpus.build_of_page hfolder hsources hpage hparse (by decide +kernel)
      (by decide) (by decide) false
    refine ⟨_, Prod.ext hbuilt rfl, ?_⟩
    rw [(Corpus.yields_build reader {} false ⟨0, ["docs"]⟩ before).1, hbefore]
  have hhas : Corpus.hasCache (methodFolder page) ⟨0, ["cache.json"]⟩ = .ok false := rfl
  obtain ⟨s, hwrite, hcorpus⟩ := exists_leads_loadOrBuild hhas hbuild
    ⟨rfl, ["cache.json"], rfl, nofun⟩ false
  have hleads : Leads (methodFolder page) (loadCorpus reader methodArguments) methodCorpus s := by
    refine (leads_printLine _ _).bind (hcorpus.bind ?_)
    exact (leads_printLines _ _).bind (leads_pure _ _)
  have hholds : Corpus.Holds ⟨0, ["cache.json"]⟩ { storage := methodFolder page } := nofun
  have hlone : readsLone s (some ⟨0, ["cache.json"]⟩) = false :=
    readsLone_of_content? ⟨by decide, by decide, by decide⟩ (Storage.content?_writeText hwrite)
  have hdump : (methodFolder page).Writable ⟨0, ["debug.json"]⟩ := ⟨rfl, ["debug.json"], rfl, nofun⟩
  have houtput : (methodFolder page).Writable ⟨0, ["out.d.ts"]⟩ := ⟨rfl, ["out.d.ts"], rfl, nofun⟩
  exact exists_leads_run chooses_methodArguments apart_methodArguments hholds hinputs hleads
    hlone passes_methodCorpus (hdump.of_writeText hwrite) (houtput.of_writeText hwrite)


theorem mapSnippets_methodSurface :
    (methodSurface methodSignature).mapSnippets NameMap.sorted = methodSurface sortedSignature := by
  have hsorted : NameMap.sorted methodSignature.snippets = sortedSignature.snippets := by
    simp [NameMap.sorted, methodSignature, sortedSignature, List.mergeSort]
  have hsignature : methodSignature.mapSnippets NameMap.sorted = sortedSignature := by
    rw [Signature.mapSnippets, hsorted]
    rfl
  simp only [methodSurface, Surface.mapSnippets, Surface.mapSnippetsOf, List.map_cons, List.map_nil,
    hsignature]

theorem dumpText_methodSurface :
    dumpText (methodSurface methodSignature) ≠ dumpText (methodSurface sortedSignature) := by
  intro hsame
  have hdump := dump_eq_of_dumpText (by decide +kernel) (by decide +kernel) hsame
  exact absurd hdump (by decide +kernel)

/-- The code samples of the page come in another order from the cache. -/
theorem dump_differs_of_page {page : String} (hpage : '\r' ∉ page.toList)
    (hparse : Document.parse reader {} page =
      .ok ⟨"f method", some .method, .entries methodCorpus.entries⟩) :
    let first := perform reader methodWords (methodFolder page)
    let second := perform reader methodWords first.storage
    first.outcome.status? = some 0 ∧ second.outcome.status? = some 0 ∧
      first.storage.content? ⟨0, ["debug.json"]⟩ ≠
        second.storage.content? ⟨0, ["debug.json"]⟩ := by
  intro first second
  obtain ⟨s, hrun, hleft⟩ := exists_left_methodFolder hpage hparse
  obtain ⟨s', hrun', hleft'⟩ := hleft.again chooses_methodArguments apart_methodArguments rfl
  obtain ⟨hfirst, rfl⟩ := perform_of_leads request_methodWords hrun
  obtain ⟨hsecond, rfl⟩ := perform_of_leads request_methodWords hrun'
  have hbytes : ∀ a b : String, a.toUTF8 = b.toUTF8 → a = b := fun _ _ => String.toByteArray_inj.mp
  refine ⟨hfirst, hsecond, ?_⟩
  rw [hleft.dumped, hleft'.dumped, surface_reloaded hleft.wellFormed, mergedWith_methodCorpus.1,
    mapSnippets_methodSurface]
  exact fun hsame => dumpText_methodSurface (hbytes _ _ (Option.some.inj hsame))

theorem dump_differs_methodPage :
    let first := perform Markup.readPage methodWords (methodFolder methodPage)
    let second := perform Markup.readPage methodWords first.storage
    Request.ofArguments methodWords = .ok (.run methodArguments) ∧
      methodArguments.rebuild = false ∧ methodArguments.output = some ⟨0, ["out.d.ts"]⟩ ∧
      methodArguments.dump = some ⟨0, ["debug.json"]⟩ ∧
      ((pathsOf methodArguments).map Path.place).Nodup ∧
      (methodFolder methodPage).content? methodArguments.settings.cache = none ∧
      first.outcome.status? = some 0 ∧ second.outcome.status? = some 0 ∧
      first.storage.content? ⟨0, ["debug.json"]⟩ ≠
        second.storage.content? ⟨0, ["debug.json"]⟩ := by
  obtain ⟨hpage, hparse⟩ := methodPage_facts
  refine ⟨request_methodWords, rfl, rfl, rfl, nodup_methodArguments, rfl, ?_⟩
  exact dump_differs_of_page hpage hparse

theorem perform_again_methodPage :
    let first := perform Markup.readPage methodWords (methodFolder methodPage)
    let second := perform Markup.readPage methodWords first.storage
    first.outcome.status? = some 0 ∧ second.outcome.status? = some 0 ∧
      ∃ declarations, first.storage.content? ⟨0, ["out.d.ts"]⟩ = some declarations ∧
        second.storage.content? ⟨0, ["out.d.ts"]⟩ = some declarations := by
  obtain ⟨hpage, hparse⟩ := methodPage_facts
  obtain ⟨s, hrun, -⟩ := exists_left_methodFolder hpage hparse
  have hfirst := (perform_of_leads request_methodWords hrun).1
  obtain ⟨hsecond, hdeclared, -⟩ := perform_again request_methodWords rfl rfl rfl
    nodup_methodArguments rfl hfirst
  exact ⟨hfirst, hsecond, hdeclared⟩

end CommandLine

end ScriptTypings
