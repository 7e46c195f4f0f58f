import ScriptTypings.Proofs.Session.Reports
import ScriptTypings.Proofs.Storage.Changes
import ScriptTypings.Proofs.Supplies.Reloading

/-!
# Tables that are sorted on the way

To load the inputs of a run may put the files of its tables into canonical form, and changes no
other file, whether or not all inputs can be loaded: `tidying_load` says so. Only a table that
cannot be written is an exception.
-/

namespace ScriptTypings

namespace Supplies

/-- Between two sessions at most some tables were put into canonical form, and this was said in the
log. -/
structure Tidied (paths : List Path) (before after : Session) : Prop where
  item : ∀ at_, after.storage.item? at_ = before.storage.item? at_ ∨
    ∃ path ∈ paths, at_ = path.place ∧ ∃ text table,
      before.storage.readText path = .ok text ∧ tableOfText path text = .ok table ∧
        after.storage.item? at_ = some (.file (tableText table).toUTF8)
  printed : after.printed = before.printed
  log : ∃ records, after.log = before.log ++ records ∧ ∀ record ∈ records, record.source = .supplies

variable {α β : Type} {paths paths' settled : List Path} {before between after : Session}

theorem Tidied.refl (paths : List Path) (session : Session) : Tidied paths session session :=
  ⟨fun _ => .inl rfl, rfl, [], (List.append_nil _).symm, nofun⟩

/-- Tables that are put into canonical form one after the other, the later ones as they were at
first. -/
theorem Tidied.trans (h : Tidied paths before between) (h' : Tidied paths' between after)
    (hkept : ∀ path ∈ paths', between.storage.content? path = before.storage.content? path) :
    Tidied (paths ++ paths') before after := by
  obtain ⟨records, hlog, hsource⟩ := h.log
  obtain ⟨records', hlog', hsource'⟩ := h'.log
  refine ⟨fun at_ => ?_, h'.printed.trans h.printed, records ++ records', ?_, ?_⟩
  · rcases h'.item at_ with hsame | ⟨path, hpath, hplace, text, table, htext, htable, hitem⟩
    · rcases h.item at_ with hsame' | ⟨path, hpath, hplace, text, table, htext, htable, hitem⟩
      · exact .inl (hsame.trans hsame')
      · exact .inr ⟨path, List.mem_append_left _ hpath, hplace, text, table, htext, htable,
          hsame.trans hitem⟩
    · have htext' : before.storage.readText path = .ok text := by
        rwa [Storage.readText_eq_ok, ← hkept path hpath, ← Storage.readText_eq_ok]
      exact .inr ⟨path, List.mem_append_right _ hpath, hplace, text, table, htext', htable, hitem⟩
  · rw [hlog', hlog, List.append_assoc]
  · intro record hrecord
    rcases List.mem_append.mp hrecord with hrecord | hrecord
    · exact hsource record hrecord
    · exact hsource' record hrecord

/-- However it ends, the action at most puts some tables into canonical form, unless it finds one
that cannot be written. -/
def Tidying (paths : List Path) (action : Action α) : Prop :=
  ∀ session, (action.runOn session).1 ≠ .error .unencodable →
    Tidied paths session (action.runOn session).2

theorem tidying_pure (a : α) : Tidying [] (pure a : Action α) :=
  fun session _ => Tidied.refl [] session

theorem tidying_throw (failure : Failure) : Tidying [] (throw failure : Action α) :=
  fun session _ => Tidied.refl [] session

theorem tidying_readText (path : Path) (failure : FileError → Failure) :
    Tidying [] (Action.readText path failure) := by
  intro session _
  rw [Action.runOn_readText]
  cases session.storage.readText path <;> exact Tidied.refl [] session

variable {action : Action α}

/-- Two actions in turn, if the first one leaves the tables of the second one as they were. -/
theorem Tidying.bind {next : α → Action β} (h : Tidying paths action)
    (hkept : ∀ {before after : Session} {a : α}, action.runOn before = (.ok a, after) →
      ∀ path ∈ paths', after.storage.content? path = before.storage.content? path)
    (hnext : ∀ a, Tidying paths' (next a)) : Tidying (paths ++ paths') (action >>= next) := by
  intro session hwritable
  have htidied := h session
  rw [Action.runOn_bind] at hwritable ⊢
  rcases hrun : action.runOn session with ⟨failure | a, between⟩
  · rw [hrun] at htidied hwritable
    have hfound := htidied fun hfailure => hwritable (by rw [Except.error.inj hfailure])
    refine ⟨fun at_ => ?_, hfound.printed, hfound.log⟩
    exact (hfound.item at_).imp_right fun ⟨path, hpath, hsorted⟩ =>
      ⟨path, List.mem_append_left _ hpath, hsorted⟩
  · rw [hrun] at htidied hwritable
    exact (htidied nofun).trans (hnext a between hwritable) (hkept hrun)

/-- What comes behind an action need not touch tables. -/
theorem Tidying.bind_nil {next : α → Action β} (h : Tidying paths action)
    (hnext : ∀ a, Tidying [] (next a)) : Tidying paths (action >>= next) := by
  have hbound : Tidying (paths ++ []) (action >>= next) := h.bind (fun _ => nofun) hnext
  rwa [List.append_nil] at hbound

theorem tidying_loadTable (path : Path) : Tidying [path] (loadTable path) := by
  intro session hwritable
  have hloading := loading_loadTable path session
  rcases hrun : (loadTable path).runOn session with ⟨result, after⟩
  rw [hrun] at hloading hwritable
  cases hloading with
  | unread => exact Tidied.refl _ session
  | refused => exact Tidied.refl _ session
  | kept => exact Tidied.refl _ session
  | emptied => exact absurd rfl hwritable
  | sorted htext htable _ hwrite =>
    refine ⟨fun at_ => ?_, rfl, _, rfl, List.forall_mem_singleton.mpr rfl⟩
    rcases Storage.item?_writeText hwrite at_ with hsame | ⟨hplace, hitem⟩
    · exact .inl hsame
    · exact .inr ⟨path, List.mem_singleton_self path, hplace, _, _, htext, htable, hitem⟩

/-- A table that is out of order is loaded, and its file is put into canonical form. -/
theorem leads_loadTable {s s' : Storage} {path : Path} {text : String}
    {table : List (String × Json)} (htext : s.readText path = .ok text)
    (htable : tableOfText path text = .ok table) (hsorted : tableText table ≠ text)
    (hwrite : s.writeText path (tableText table) = .ok s') :
    Action.Leads s (loadTable path) table s' := by
  rintro before rfl
  obtain ⟨hsame, -⟩ | ⟨-, written, hwrite', hrun⟩ :=
    (loading_loadTable path before).of_table htext htable
  · exact absurd hsame hsorted
  · exact ⟨_, hrun, Except.ok.inj (hwrite'.symm.trans hwrite)⟩

theorem tidying_loadArity (path : Path) : Tidying [path] (loadArity path) := by
  refine (tidying_loadTable path).bind_nil fun table => ?_
  cases table.mapM arityOf with
  | ok counts => exact tidying_pure counts
  | error e => exact tidying_throw _

/-- The files of the tables in a folder. -/
def tablePaths (folder : Path) : List Path :=
  [overridesPath folder, arityPath folder]

theorem tidying_load (folder : Path) : Tidying (tablePaths folder) (load folder) := by
  have hplaces : (arityPath folder).place ∉ [overridesPath folder].map Path.place := by
    rw [List.map_singleton, List.mem_singleton, arityPath, overridesPath,
      folder.place_file (by decide), folder.place_file (by decide)]
    intro hsame
    exact absurd (List.append_cancel_left hsame) (by decide)
  show Tidying ([] ++ ([overridesPath folder] ++ [arityPath folder])) _
  refine (tidying_readText _ _).bind (fun hrun path _ => ?_) fun header => ?_
  · rw [((Action.yields_readText _ _).of_runOn hrun).1]
  · refine (tidying_loadTable _).bind (fun hrun => ?_) fun overrides => ?_
    · exact List.forall_mem_singleton.mpr ((settles_loadTable _).kept hrun _ hplaces)
    · exact (tidying_loadArity _).bind_nil fun arity => tidying_pure _

end Supplies

theorem Reflected.tidying_load (path : Path) : Supplies.Tidying [] (load path) := by
  refine (Supplies.tidying_readText _ _).bind_nil fun text => ?_
  cases rootOfText path text with
  | ok root => exact Supplies.tidying_pure (root, _)
  | error failure => exact Supplies.tidying_throw failure

namespace Inputs

open Supplies

/-- The files of the tables that are loaded. -/
def tablePaths (suppliesFolder : Option Path) : List Path :=
  suppliesFolder.toList.flatMap Supplies.tablePaths

/-- To load the inputs of a run changes no files but those of the tables, and writes these only in
canonical form. -/
theorem tidying_load (suppliesFolder reflection : Option Path) :
    Tidying (tablePaths suppliesFolder) (load suppliesFolder reflection) := by
  refine Tidying.bind_nil ?_ fun supplies => ?_
  · cases suppliesFolder with
    | none => exact tidying_pure _
    | some folder =>
      rw [tablePaths, Option.toList_some, List.flatMap_singleton]
      exact Supplies.tidying_load folder
  · cases reflection with
    | none => exact tidying_throw .noPath
    | some path => exact (Reflected.tidying_load path).bind_nil fun root => tidying_pure _

/-- A table stands directly in the folder of the supplementary files. -/
theorem exists_of_mem_tablePaths {suppliesFolder : Option Path} {path : Path}
    (h : path ∈ tablePaths suppliesFolder) : ∃ folder name, suppliesFolder = some folder ∧
      path.place = folder.place ++ [name] ∧ name ≠ "/" ∧ name ≠ ".." := by
  obtain ⟨folder, hfolder, hpath⟩ := List.mem_flatMap.mp h
  refine ⟨folder, ?_⟩
  rw [Supplies.tablePaths, List.mem_cons, List.mem_singleton] at hpath
  rcases hpath with rfl | rfl
  · exact ⟨_, Option.mem_toList.mp hfolder, folder.place_file (by decide), by decide, by decide⟩
  · exact ⟨_, Option.mem_toList.mp hfolder, folder.place_file (by decide), by decide, by decide⟩

/-- What is on the way along a path, or below it, is left alone if the path is apart from the
supplementary files. -/
theorem item?_of_tidied {suppliesFolder : Option Path} {path : Path} {before after : Session}
    {at_ : List String} (h : Tidied (tablePaths suppliesFolder) before after)
    (hapart : ∀ folder, suppliesFolder = some folder → path.IsApart folder)
    (hat : at_ ∈ path.way ∨ Storage.IsBelow at_ path.place) :
    after.storage.item? at_ = before.storage.item? at_ := by
  refine (h.item at_).resolve_right ?_
  rintro ⟨table, htable, rfl, -⟩
  obtain ⟨folder, name, hfolder, hplace, hroot, hback⟩ := exists_of_mem_tablePaths htable
  rw [hplace] at hat
  rcases hat with hway | hbelow
  · exact (hapart folder hfolder).not_mem_way hroot hback hway
  · exact (hapart folder hfolder).not_isBelow hroot hback hbelow

end Inputs

end ScriptTypings
