import Mathlib.Data.List.DropRight
import ScriptTypings.Corpus.Encoding
import ScriptTypings.Proofs.NameMap
import ScriptTypings.Proofs.Text.LowerCase

/-!
# Entries that are added one after the other

What a corpus holds under a key is decided by the entries that are added under it in any casing, in
the order in which they are added (`find?_addAll`). The functions behind the last entry of another
kind are put together, and nothing in front of them is left (`gathered_concat`, `find?_ofPairs`).
The order of entries under different keys is not seen in the items (`items_ofPairs_congr`,
`addedUnder_perm`).
-/

namespace ScriptTypings.Corpus

open Text

/-- The entries that are added under a key, in any casing, in their order. -/
def addedUnder (key : String) (pairs : List (String × Entry)) : List Entry :=
  (pairs.filter fun p => lowered p.1 = key).map Prod.snd

theorem addedUnder_cons (key : String) (pair : String × Entry) (pairs : List (String × Entry)) :
    addedUnder key (pair :: pairs) =
      if lowered pair.1 = key then pair.2 :: addedUnder key pairs else addedUnder key pairs := by
  by_cases hkey : lowered pair.1 = key <;> simp [addedUnder, hkey]

/-- Two neighbours under different keys may change their places. -/
theorem addedUnder_swap {one two : String × Entry} (h : lowered one.1 ≠ lowered two.1)
    (key : String) (pairs : List (String × Entry)) :
    addedUnder key (one :: two :: pairs) = addedUnder key (two :: one :: pairs) := by
  rw [addedUnder_cons, addedUnder_cons, addedUnder_cons, addedUnder_cons]
  by_cases hone : lowered one.1 = key
  · have htwo : lowered two.1 ≠ key := hone ▸ h.symm
    simp only [hone, htwo, if_true, if_false]
  · simp only [hone, if_false]

/-- An entry may be added before those under other keys. -/
theorem addedUnder_append_cons {before : List (String × Entry)} {pair : String × Entry}
    (h : ∀ p ∈ before, lowered p.1 ≠ lowered pair.1) (key : String)
    (after : List (String × Entry)) :
    addedUnder key (before ++ pair :: after) = addedUnder key (pair :: (before ++ after)) := by
  induction before with
  | nil => rfl
  | cons p before ih =>
    obtain ⟨hp, hbefore⟩ := List.forall_mem_cons.mp h
    rw [List.cons_append, addedUnder_cons, ih hbefore, ← addedUnder_cons, addedUnder_swap hp,
      List.cons_append]

/-- Entries under different keys may be added in any order. -/
theorem addedUnder_perm {pairs pairs' : List (String × Entry)} (h : pairs.Perm pairs')
    (hkeys : (pairs.map fun p => lowered p.1).Nodup) (key : String) :
    addedUnder key pairs = addedUnder key pairs' := by
  induction h with
  | nil => rfl
  | cons pair _ ih => rw [addedUnder_cons, addedUnder_cons, ih (List.nodup_cons.mp hkeys).2]
  | swap one two pairs =>
    have hdiffer : lowered two.1 ≠ lowered one.1 := fun hsame =>
      (List.nodup_cons.mp hkeys).1 (List.mem_cons.mpr (.inl hsame))
    exact addedUnder_swap hdiffer key pairs
  | trans hfirst _ ih ih' => exact (ih hkeys).trans (ih' ((hfirst.map _).nodup_iff.mp hkeys))

theorem find?_add (corpus : Corpus) (key name : String) (entry : Entry) :
    NameMap.find? name (corpus.add key entry).entries =
      if lowered key = name then some (combine (NameMap.find? name corpus.entries) entry)
      else NameMap.find? name corpus.entries := by
  split
  · rename_i hname
    rw [← hname]
    exact NameMap.find?_put_self _ _ _
  · rename_i hname
    exact NameMap.find?_put_of_ne (Ne.symm hname) _ _

/-- What stands under a key is put together from the entries that are added under it. -/
theorem find?_addAll (corpus : Corpus) (pairs : List (String × Entry)) (key : String) :
    NameMap.find? key (corpus.addAll pairs).entries =
      (addedUnder key pairs).foldl (fun before entry => some (combine before entry))
        (NameMap.find? key corpus.entries) := by
  induction pairs generalizing corpus with
  | nil => rfl
  | cons p pairs ih =>
    have hstep : corpus.addAll (p :: pairs) = (corpus.add p.1 p.2).addAll pairs := rfl
    rw [hstep, ih, find?_add, addedUnder_cons]
    split <;> rfl

theorem nodup_names_addAll {corpus : Corpus} (h : corpus.entries.names.Nodup)
    (pairs : List (String × Entry)) : (corpus.addAll pairs).entries.names.Nodup := by
  induction pairs generalizing corpus with
  | nil => exact h
  | cons p pairs ih => exact ih (NameMap.nodup_names_put h _ _)

/-! ### What entries under one key come to -/

/-- The signatures of a function; other entries have none. -/
def signaturesOf (entry : Entry) : List Signature :=
  match entry.content with
  | .function signatures => signatures
  | _ => []

def isFunction (entry : Entry) : Bool :=
  match entry.content with
  | .function _ => true
  | _ => false

/-- The functions behind the last entry that is none. -/
def finalRun (entries : List Entry) : List Entry :=
  entries.rtakeWhile isFunction

/-- What the entries under one key come to: the last one if it is no function, or else the functions
behind the last entry that is none, as one function with the name and the description of the
first. -/
def gathered (entries : List Entry) : Option Entry :=
  match finalRun entries with
  | [] => entries.getLast?
  | first :: rest =>
    some { first with content := .function ((first :: rest).flatMap signaturesOf) }

theorem content_of_isFunction {entry : Entry} (h : isFunction entry = true) :
    entry.content = .function (signaturesOf entry) := by
  obtain ⟨identifier, description, content⟩ := entry
  cases content with
  | function signatures => rfl
  | _ => cases h

/-- What was there is lost, unless both are functions. -/
theorem combine_of_other {before : Option Entry} {entry : Entry}
    (h : isFunction entry = true → ∀ e ∈ before, isFunction e = false) :
    combine before entry = entry := by
  unfold combine
  split
  · rename_i hnew
    have hfunction : isFunction entry = true := by rw [isFunction, hnew]
    cases h hfunction _ rfl
  · rfl

theorem combine_of_isFunction {first entry : Entry} {old : List Signature}
    (h : isFunction entry = true) :
    combine (some { first with content := .function old }) entry =
      { first with content := .function (old ++ signaturesOf entry) } := by
  have hnew := content_of_isFunction h
  simp only [combine, hnew]

/-- One more entry: a function continues the run, and another entry ends it. -/
theorem gathered_concat (entries : List Entry) (entry : Entry) :
    gathered (entries ++ [entry]) = some (combine (gathered entries) entry) := by
  by_cases hentry : isFunction entry = true
  · have hrun : finalRun (entries ++ [entry]) = finalRun entries ++ [entry] :=
      List.rtakeWhile_concat_pos _ _ _ hentry
    cases hbefore : finalRun entries with
    | nil =>
      have hlast : ∀ e ∈ gathered entries, isFunction e = false := by
        intro e he
        rw [gathered, hbefore] at he
        obtain ⟨hne, rfl⟩ := List.mem_getLast?_eq_getLast he
        exact Bool.eq_false_iff.mpr (List.rtakeWhile_eq_nil_iff.mp hbefore hne)
      rw [combine_of_other fun _ => hlast, gathered, hrun, hbefore]
      have hsame : { entry with content := .function (signaturesOf entry) } = entry := by
        rw [← content_of_isFunction hentry]
      simpa using hsame
    | cons first rest =>
      have hgathered : gathered entries =
          some { first with content := .function ((first :: rest).flatMap signaturesOf) } := by
        rw [gathered, hbefore]
      rw [hgathered, combine_of_isFunction hentry, gathered, hrun, hbefore, List.cons_append]
      simp
  · have hrun : finalRun (entries ++ [entry]) = [] := List.rtakeWhile_concat_neg _ _ _ hentry
    rw [combine_of_other fun hfunction => absurd hfunction hentry, gathered, hrun]
    exact List.getLast?_concat

/-- Entries that are added in turn under one key. -/
theorem foldl_combine (entries : List Entry) :
    entries.foldl (fun before entry => some (combine before entry)) none = gathered entries := by
  induction entries using List.reverseRecOn with
  | nil => rfl
  | append_singleton entries entry ih => rw [List.foldl_concat, ih, gathered_concat]

theorem find?_ofPairs (pairs : List (String × Entry)) (key : String) :
    NameMap.find? key (ofPairs pairs).entries = gathered (addedUnder key pairs) := by
  rw [ofPairs, find?_addAll, ← foldl_combine]
  rfl

theorem nodup_names_ofPairs (pairs : List (String × Entry)) :
    (ofPairs pairs).entries.names.Nodup := by
  have hempty : ({} : Corpus).entries.names.Nodup := List.nodup_nil
  exact nodup_names_addAll hempty pairs

/-! ### The order of the keys -/

/-- Entries may be added in any order in which those of each key keep theirs. -/
theorem items_ofPairs_congr {pairs pairs' : List (String × Entry)}
    (h : ∀ key, addedUnder key pairs = addedUnder key pairs') :
    (ofPairs pairs).items = (ofPairs pairs').items := by
  have hnodup := nodup_names_ofPairs
  refine NameMap.sorted_congr (NameMap.perm_of_find? (hnodup pairs) (hnodup pairs') fun key => ?_)
    (hnodup pairs)
  rw [find?_ofPairs, find?_ofPairs, h]

theorem text_congr {corpus corpus' : Corpus} (h : corpus.items = corpus'.items) :
    corpus.text = corpus'.text := by
  rw [text, text, toJson, toJson, h]

theorem mem_items_ofPairs {pairs : List (String × Entry)} {key : String} {entry : Entry} :
    (key, entry) ∈ (ofPairs pairs).items ↔ gathered (addedUnder key pairs) = some entry := by
  rw [← find?_ofPairs, items, (NameMap.sorted_perm _).mem_iff]
  exact ⟨NameMap.find?_of_mem (nodup_names_ofPairs pairs), NameMap.mem_of_find?_eq_some⟩

theorem pairwise_items_ofPairs (pairs : List (String × Entry)) :
    (ofPairs pairs).items.Pairwise fun a b => a.1 < b.1 := by
  have hnames := List.pairwise_map.mp (NameMap.nodup_names_sorted (nodup_names_ofPairs pairs))
  refine (NameMap.pairwise_sorted _).imp₂ (fun a b hle hne => ?_) hnames
  by_contra hlt
  exact hne (String.le_antisymm (of_decide_eq_true hle) (String.not_lt.mp hlt))

/-- A corpus that is filled entry by entry has under every key what the entries that are added under
it come to, and nothing else. They may be added in any order in which those of each key keep
theirs: the entries found, the items and the text are the same. -/
theorem accumulates_ofPairs (pairs : List (String × Entry)) :
    (∀ key, (ofPairs pairs).get? key = gathered (addedUnder (lowered key) pairs)) ∧
    (∀ key entry, (key, entry) ∈ (ofPairs pairs).items ↔
      gathered (addedUnder key pairs) = some entry) ∧
    ((ofPairs pairs).items.Pairwise fun a b => a.1 < b.1) ∧
    ∀ pairs' : List (String × Entry), (∀ key, addedUnder key pairs = addedUnder key pairs') →
      (∀ key, (ofPairs pairs).get? key = (ofPairs pairs').get? key) ∧
      (ofPairs pairs).items = (ofPairs pairs').items ∧
      (ofPairs pairs).text = (ofPairs pairs').text := by
  refine ⟨fun key => find?_ofPairs pairs (lowered key), fun key entry => mem_items_ofPairs,
    pairwise_items_ofPairs pairs, fun pairs' h => ⟨fun key => ?_, ?_, ?_⟩⟩
  · rw [get?, get?, find?_ofPairs, find?_ofPairs, h]
  · exact items_ofPairs_congr h
  · exact text_congr (items_ofPairs_congr h)

/-- A method on four pages, one of which is about an enumeration. -/
def stepPairs : List (String × Entry) :=
  [("N.Go", ⟨"N.Go", "Old.", .function [{ description := "a" }]⟩),
   ("N.Go", ⟨"N.Go", "", .enumeration⟩),
   ("N.GO", ⟨"N.GO", "First.", .function [{ description := "b" }, { description := "c" }]⟩),
   ("n.go", ⟨"n.go", "Last.", .function [{ description := "b" }]⟩)]

/-- The signatures behind the enumeration are kept, wherever a class is added. -/
theorem accumulates_ofPairs_step :
    let box : String × Entry := ("N.Box", ⟨"N.Box", "", .cls [] false⟩)
    let pairs := stepPairs.take 3 ++ box :: stepPairs.drop 3
    (∀ key, addedUnder key pairs = addedUnder key (box :: stepPairs)) ∧
    (ofPairs pairs).get? "n.Go" = some ⟨"N.GO", "First.",
      .function [{ description := "b" }, { description := "c" }, { description := "b" }]⟩ ∧
    (ofPairs pairs).items = (ofPairs (box :: stepPairs)).items := by
  intro box pairs
  have horder : ∀ key, addedUnder key pairs = addedUnder key (box :: stepPairs) := fun key =>
    addedUnder_append_cons (by decide +kernel) key (stepPairs.drop 3)
  obtain ⟨hget, -, -, hcongr⟩ := accumulates_ofPairs pairs
  refine ⟨horder, ?_, (hcongr _ horder).2.1⟩
  rw [hget]
  decide +kernel

end ScriptTypings.Corpus
