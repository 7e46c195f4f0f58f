import Mathlib.Data.List.Nodup
import Mathlib.Data.List.Perm.Subperm
import Mathlib.Order.Bounds.Basic
import ScriptTypings.Proofs.Corpus.Linking
import ScriptTypings.Proofs.Text.LowerCase

/-!
# Maximal families of interfaces

The interfaces `k`, `k2`, `k3` up to `km` are a family if all of them are in the corpus and no two
of them have members of one name. What is recorded for `k` are the identifiers of `k2` up to `km`
for the greatest such `m` (`exists_linked_maximal`). The search ends there and not where its fuel
does: the keys of a family are different, so it has no more interfaces than the corpus has entries.
What was recorded before is not looked at, so that recording once more changes nothing.
-/

namespace ScriptTypings.Corpus

open Text

variable {corpus : Corpus} {key : String}

/-! ### Numbered keys -/

/-- The key of an interface of a family: that of the first is the base, and the others have their
number behind it. -/
def numbered (key : String) (number : Nat) : String :=
  if number = 1 then key else key ++ toString number

theorem numbered_one (key : String) : numbered key 1 = key := if_pos rfl

theorem numbered_of_two_le {number : Nat} (h : 2 ≤ number) :
    numbered key number = key ++ toString number :=
  if_neg (by omega)

theorem numbered_injective (key : String) : Function.Injective (numbered key) := by
  intro i j hsame
  have hlist := congrArg String.toList hsame
  by_cases hi : i = 1 <;> by_cases hj : j = 1
  · omega
  · simp [numbered, hi, hj] at hlist
  · simp [numbered, hi, hj] at hlist
  · simp only [numbered, if_neg hi, if_neg hj, String.toList_append, Nat.toString_eq_repr,
      Nat.toList_repr] at hlist
    have hdigits := List.append_cancel_left hlist
    have hvalue := congrArg (fun digits => Nat.ofDigitChars 10 digits 0) hdigits
    simpa using hvalue

theorem isLower_of_mem_toDigits {c : Char} {number : Nat} (h : c ∈ Nat.toDigits 10 number) :
    IsLower c := by
  have hdigit := Nat.isDigit_of_mem_toDigits (by decide) (by decide) h
  have hcode : 48 ≤ c.toNat ∧ c.toNat ≤ 57 := by
    simpa [Char.isDigit, UInt32.le_iff_toNat_le] using hdigit
  refine ⟨?_, ?_, ?_⟩
  · rw [lowerShift?_ascii (by omega), if_neg (by omega)]
  · rintro rfl
    exact absurd hcode.2 (by decide)
  · rintro rfl
    exact absurd hcode.2 (by decide)

/-- A number does not change the case of a key. -/
theorem lowered_numbered (h : lowered key = key) (number : Nat) :
    lowered (numbered key number) = numbered key number := by
  have hkey : ∀ c ∈ key.toList, IsLower c := by
    intro c hc
    rw [← h, lowered, String.toList_ofList] at hc
    exact isLower_of_mem_lowerFrom hc
  have hall : ∀ c ∈ (numbered key number).toList, IsLower c := by
    intro c hc
    rw [numbered] at hc
    split at hc
    · exact hkey c hc
    · rw [String.toList_append, Nat.toString_eq_repr, Nat.toList_repr, List.mem_append] at hc
      exact hc.elim (hkey c) isLower_of_mem_toDigits
  rw [lowered, lower, lowerFrom_of_isLower hall, String.ofList_toList]

/-! ### Families -/

/-- The names of the members of the interface with a number. -/
def namesAt (corpus : Corpus) (key : String) (number : Nat) : List String :=
  ((corpus.interface? (numbered key number)).map memberNames).getD []

/-- Every number up to the last has an interface, and no two of these share the name of a member. -/
structure IsFamily (corpus : Corpus) (key : String) (last : Nat) : Prop where
  one_le : 1 ≤ last
  found : ∀ n, 1 ≤ n → n ≤ last → (corpus.interface? (numbered key n)).isSome
  apart : ∀ i j, 1 ≤ i → i < j → j ≤ last →
    (corpus.namesAt key i).Disjoint (corpus.namesAt key j)

theorem namesAt_of_interface? {listing : InterfaceListing} {number : Nat}
    (h : corpus.interface? (numbered key number) = some listing) :
    corpus.namesAt key number = memberNames listing := by
  rw [namesAt, h]
  rfl

theorem interface?_eq_map (key : String) :
    corpus.interface? key = (corpus.interfaceEntry? key).map Prod.snd := by
  rw [interface?, interfaceEntry?]
  cases corpus.get? key with
  | none => rfl
  | some entry =>
    obtain ⟨identifier, description, content⟩ := entry
    cases content <;> rfl

theorem isFamily_one (h : (corpus.interface? key).isSome) : corpus.IsFamily key 1 where
  one_le := le_rfl
  found n hone hlast := by
    obtain rfl : n = 1 := by omega
    rwa [numbered_one]
  apart i j hone hij hlast := by omega

/-- One more interface, if its names are new. -/
theorem IsFamily.succ {last : Nat} (h : corpus.IsFamily key last)
    (hfound : (corpus.interface? (numbered key (last + 1))).isSome)
    (hnew : ∀ i, 1 ≤ i → i ≤ last →
      (corpus.namesAt key i).Disjoint (corpus.namesAt key (last + 1))) :
    corpus.IsFamily key (last + 1) where
  one_le := by omega
  found n hone hlast := by
    by_cases hn : n = last + 1
    · rwa [hn]
    · exact h.found n hone (by omega)
  apart i j hone hij hlast := by
    by_cases hj : j = last + 1
    · rw [hj]
      exact hnew i hone (by omega)
    · exact h.apart i j hone hij (by omega)

/-- A family has no more interfaces than the corpus has entries, since their keys are different. -/
theorem IsFamily.le_size {last : Nat} (h : corpus.IsFamily key last) (hkey : lowered key = key) :
    last ≤ corpus.size := by
  have hnodup : ((List.range' 1 last).map (numbered key)).Nodup :=
    List.Nodup.map (numbered_injective key) List.nodup_range'
  have hsubset : (List.range' 1 last).map (numbered key) ⊆ corpus.entries.names := by
    intro name hname
    obtain ⟨n, hn, rfl⟩ := List.mem_map.mp hname
    rw [List.mem_range'_1] at hn
    obtain ⟨listing, hlisting⟩ := Option.isSome_iff_exists.mp (h.found n hn.1 (by omega))
    rw [interface?_eq_map] at hlisting
    obtain ⟨⟨identifier, found⟩, hentry, -⟩ := Option.map_eq_some_iff.mp hlisting
    obtain ⟨description, hget⟩ := interfaceEntry?_eq_some hentry
    have hmem := mem_entries_of_get? hget
    rw [lowered_numbered hkey] at hmem
    exact List.mem_map_of_mem hmem
  have hlength := (List.subperm_of_subset hnodup hsubset).length_le
  rwa [List.length_map, List.length_range', NameMap.names, List.length_map] at hlength

/-- Where no interface has the next number, a family ends. -/
theorem IsFamily.isGreatest_of_missing {last : Nat} (h : corpus.IsFamily key last)
    (hmissing : corpus.interface? (numbered key (last + 1)) = none) :
    IsGreatest {m | corpus.IsFamily key m} last := by
  refine ⟨h, fun m hm => ?_⟩
  by_contra hlast
  have hfound := hm.found (last + 1) (by omega) (by omega)
  rw [hmissing] at hfound
  cases hfound

/-- Where the next interface repeats a name, a family ends. -/
theorem IsFamily.isGreatest_of_shared {last : Nat} (h : corpus.IsFamily key last) {i : Nat}
    (hone : 1 ≤ i) (hi : i ≤ last) {name : String} (hbefore : name ∈ corpus.namesAt key i)
    (hnext : name ∈ corpus.namesAt key (last + 1)) :
    IsGreatest {m | corpus.IsFamily key m} last := by
  refine ⟨h, fun m hm => ?_⟩
  by_contra hlast
  exact hm.apart i (last + 1) hone (by omega) (by omega) hbefore hnext

/-! ### The search -/

/-- An identifier is that of the interface with a number. -/
def HasNumber (corpus : Corpus) (key : String) (number : Nat) (identifier : Json) : Prop :=
  ∃ listing, corpus.interfaceEntry? (key ++ toString number) = some (identifier, listing)

/-- The names that the interfaces up to a number have. -/
def HasSeen (corpus : Corpus) (key : String) (last : Nat) (seen : List String) : Prop :=
  ∀ name, name ∈ seen ↔ ∃ i, 1 ≤ i ∧ i ≤ last ∧ name ∈ corpus.namesAt key i

theorem hasSeen_one (corpus : Corpus) (key : String) :
    corpus.HasSeen key 1 (corpus.namesAt key 1) := by
  intro name
  constructor
  · exact fun hmem => ⟨1, le_rfl, le_rfl, hmem⟩
  · rintro ⟨i, hone, hlast, hmem⟩
    obtain rfl : i = 1 := by omega
    exact hmem

theorem HasSeen.succ {last : Nat} {seen : List String} (h : corpus.HasSeen key last seen) :
    corpus.HasSeen key (last + 1) (seen ++ corpus.namesAt key (last + 1)) := by
  intro name
  rw [List.mem_append, h name]
  constructor
  · rintro (⟨i, hone, hlast, hmem⟩ | hmem)
    · exact ⟨i, hone, by omega, hmem⟩
    · exact ⟨last + 1, by omega, le_rfl, hmem⟩
  · rintro ⟨i, hone, hlast, hmem⟩
    by_cases hi : i = last + 1
    · exact .inr (hi ▸ hmem)
    · exact .inl ⟨i, hone, by omega, hmem⟩

/-- What the search does behind a number: it stops where a family ends, or goes on with one more
interface of the family. -/
theorem extensionsFrom_cases (h : corpus.WellFormed) (identifier : Json) (fuel : Nat)
    {last : Nat} {seen : List String} (hfamily : corpus.IsFamily key last)
    (hseen : corpus.HasSeen key last seen) :
    (IsGreatest {m | corpus.IsFamily key m} last ∧
      (corpus.extensionsFrom key identifier (fuel + 1) (last + 1) seen).1 = []) ∨
    ∃ extension, corpus.IsFamily key (last + 1) ∧ corpus.HasNumber key (last + 1) extension ∧
      (corpus.extensionsFrom key identifier (fuel + 1) (last + 1) seen).1 =
        extension :: (corpus.extensionsFrom key identifier fuel (last + 2)
          (seen ++ corpus.namesAt key (last + 1))).1 := by
  have hone := hfamily.one_le
  have hnumbered : numbered key (last + 1) = key ++ toString (last + 1) :=
    numbered_of_two_le (by omega)
  cases hentry : corpus.interfaceEntry? (key ++ toString (last + 1)) with
  | none =>
    refine .inl ⟨hfamily.isGreatest_of_missing ?_, ?_⟩
    · rw [hnumbered, interface?_eq_map, hentry]
      rfl
    · rw [extensionsFrom, hentry]
  | some found =>
    obtain ⟨extension, listing⟩ := found
    have hlisting : corpus.interface? (numbered key (last + 1)) = some listing := by
      rw [hnumbered, interface?_eq_map, hentry]
      rfl
    have hnames := namesAt_of_interface? hlisting
    have hmisfit := memberMisfit?_eq_none (h.isWellTyped_interface hentry)
    cases hcollisions : collisions seen (memberNames listing) with
    | nil =>
      refine .inr ⟨extension, hfamily.succ (hlisting ▸ rfl) ?_, ⟨listing, hentry⟩, ?_⟩
      · intro i hi hlast name hbefore hnext
        have hmem : name ∈ collisions seen (memberNames listing) :=
          mem_collisions.mpr ⟨(hseen name).mpr ⟨i, hi, hlast, hbefore⟩, hnames ▸ hnext⟩
        rw [hcollisions] at hmem
        exact List.not_mem_nil hmem
      · rw [extensionsFrom, hentry, hnames]
        simp only [hmisfit, hcollisions]
    | cons name shared =>
      have hmem : name ∈ collisions seen (memberNames listing) :=
        hcollisions ▸ List.mem_cons_self
      obtain ⟨hbefore, hnext⟩ := mem_collisions.mp hmem
      obtain ⟨i, hi, hlast, hbefore⟩ := (hseen name).mp hbefore
      refine .inl ⟨hfamily.isGreatest_of_shared hi hlast hbefore (hnames ▸ hnext), ?_⟩
      rw [extensionsFrom, hentry]
      simp only [hmisfit, hcollisions]

/-- The search goes on to the end of the greatest family, if there is fuel for every entry that is
left. -/
theorem exists_last_extensionsFrom (h : corpus.WellFormed) (hkey : lowered key = key)
    (identifier : Json) {fuel number : Nat} {seen : List String}
    (hfamily : corpus.IsFamily key number) (hseen : corpus.HasSeen key number seen)
    (hfuel : corpus.size ≤ fuel + number) :
    ∃ last, number ≤ last ∧ IsGreatest {m | corpus.IsFamily key m} last ∧
      List.Forall₂ (corpus.HasNumber key) (List.range' (number + 1) (last - number))
        (corpus.extensionsFrom key identifier fuel (number + 1) seen).1 := by
  induction fuel generalizing number seen with
  | zero =>
    refine ⟨number, le_rfl, ⟨hfamily, fun m hm => ?_⟩, ?_⟩
    · have hsize := hm.le_size hkey
      omega
    · rw [Nat.sub_self]
      exact .nil
  | succ fuel ih =>
    rcases extensionsFrom_cases h identifier fuel hfamily hseen with
      ⟨hgreatest, hnil⟩ | ⟨extension, hgrown, hnumber, hcons⟩
    · refine ⟨number, le_rfl, hgreatest, ?_⟩
      rw [hnil, Nat.sub_self]
      exact .nil
    · obtain ⟨last, hlast, hgreatest, hfound⟩ := ih hgrown hseen.succ (by omega)
      refine ⟨last, by omega, hgreatest, ?_⟩
      obtain ⟨rest, hrest⟩ : ∃ rest, last - number = rest + 1 := ⟨last - number - 1, by omega⟩
      rw [hcons, hrest, List.range'_succ]
      refine .cons hnumber ?_
      rwa [show last - (number + 1) = rest by omega] at hfound

/-! ### Recording -/

/-- What recording makes of an entry. A base lists the greatest family behind it, whatever it listed
before, and everything else stays. -/
inductive Records (corpus : Corpus) (key : String) : Entry → Entry → Prop
  | base {identifier description : Json} {listing : InterfaceListing} {extensions : List Json}
    {last : Nat} (hkey : endsWithDigit? key ≠ some true)
    (hlast : IsGreatest {m | corpus.IsFamily key m} last)
    (hextensions :
      List.Forall₂ (corpus.HasNumber key) (List.range' 2 (last - 1)) extensions) :
    Records corpus key ⟨identifier, description, .interface listing⟩
      ⟨identifier, description, .interface { listing with extensions }⟩
  | numbered {entry : Entry} (hkey : endsWithDigit? key = some true) :
    Records corpus key entry entry
  | other {entry : Entry} (hentry : ∀ listing, entry.content ≠ .interface listing) :
    Records corpus key entry entry

/-- What is recorded for a base. -/
theorem Records.exists_last {identifier description : Json} {listing : InterfaceListing}
    {after : Entry}
    (h : corpus.Records key ⟨identifier, description, .interface listing⟩ after)
    (hkey : endsWithDigit? key ≠ some true) :
    ∃ last extensions, IsGreatest {m | corpus.IsFamily key m} last ∧
      List.Forall₂ (corpus.HasNumber key) (List.range' 2 (last - 1)) extensions ∧
      after = ⟨identifier, description, .interface { listing with extensions }⟩ := by
  cases h with
  | base _ hlast hextensions => exact ⟨_, _, hlast, hextensions, rfl⟩
  | numbered hnumber => exact absurd hnumber hkey
  | other hother => exact absurd rfl (hother _)

theorem WellFormed.get?_of_mem (h : corpus.WellFormed) {entry : Entry}
    (hmem : (key, entry) ∈ corpus.entries) : corpus.get? key = some entry := by
  rw [get?, h.lowered_key _ hmem]
  exact NameMap.find?_of_mem h.nodup hmem

theorem WellFormed.interfaceEntry?_of_mem (h : corpus.WellFormed) {identifier description : Json}
    {listing : InterfaceListing}
    (hmem : (key, ⟨identifier, description, .interface listing⟩) ∈ corpus.entries) :
    corpus.interfaceEntry? key = some (identifier, listing) := by
  unfold interfaceEntry?
  rw [h.get?_of_mem hmem]

theorem records_linkEntry (h : corpus.WellFormed) {entry : Entry}
    (hmem : (key, entry) ∈ corpus.entries) :
    corpus.Records key entry (corpus.linkEntry key entry).1 := by
  obtain ⟨identifier, description, content⟩ := entry
  cases content with
  | interface listing =>
    have hentry := h.interfaceEntry?_of_mem hmem
    have hlisting : corpus.interface? (Corpus.numbered key 1) = some listing := by
      rw [numbered_one, interface?_eq_map, hentry]
      rfl
    have hseen := corpus.hasSeen_one key
    rw [namesAt_of_interface? hlisting] at hseen
    by_cases hkey : endsWithDigit? key = some true
    · rw [linkEntry, if_pos hkey]
      exact .numbered hkey
    · obtain ⟨last, -, hlast, hextensions⟩ := exists_last_extensionsFrom h (h.lowered_key _ hmem)
        identifier (isFamily_one (hlisting ▸ rfl)) hseen (Nat.le_add_right corpus.size 1)
      rw [linkEntry, if_neg hkey, extensions,
        memberMisfit?_eq_none (h.isWellTyped_interface hentry)]
      exact .base hkey hlast hextensions
  | _ =>
    refine .other fun listing hcontent => ?_
    cases hcontent

/-! ### What was recorded before -/

/-- A listing with other extensions, unless its key has a number. -/
def recordedListing (key : String) (extensions : List Json) (listing : InterfaceListing) :
    InterfaceListing :=
  if endsWithDigit? key = some true then listing else { listing with extensions }

/-- An entry with other extensions, if it is a base. -/
def recorded (key : String) (extensions : List Json) : Entry → Entry
  | ⟨identifier, description, .interface listing⟩ =>
    ⟨identifier, description, .interface (recordedListing key extensions listing)⟩
  | entry => entry

/-- The corpus with the given extensions recorded for the bases. -/
def withPrevious (corpus : Corpus) (previous : String → List Json) : Corpus :=
  ⟨corpus.entries.map fun e => (e.1, recorded e.1 (previous e.1) e.2)⟩

variable {previous : String → List Json}

theorem members_recordedListing (key : String) (extensions : List Json)
    (listing : InterfaceListing) :
    (recordedListing key extensions listing).members = listing.members := by
  unfold recordedListing
  split <;> rfl

theorem memberNames_recordedListing (key : String) (extensions : List Json)
    (listing : InterfaceListing) :
    memberNames (recordedListing key extensions listing) = memberNames listing := by
  rw [memberNames, memberNames, members_recordedListing]

theorem memberMisfit?_recordedListing (key : String) (extensions : List Json)
    (listing : InterfaceListing) :
    memberMisfit? (recordedListing key extensions listing) = memberMisfit? listing := by
  rw [memberMisfit?, memberMisfit?, members_recordedListing]

theorem interfaceEntry?_withPrevious (key : String) :
    interfaceEntry? (corpus.withPrevious previous) key =
      (corpus.interfaceEntry? key).map fun found =>
        (found.1, recordedListing (lowered key) (previous (lowered key)) found.2) := by
  have hget : (corpus.withPrevious previous).get? key =
      (corpus.get? key).map (recorded (lowered key) (previous (lowered key))) :=
    NameMap.find?_map (fun key => recorded key (previous key)) _ _
  unfold interfaceEntry?
  rw [hget]
  cases corpus.get? key with
  | none => rfl
  | some entry =>
    obtain ⟨identifier, description, content⟩ := entry
    cases content <;> rfl

theorem extensionsFrom_withPrevious (key : String) (identifier : Json) (fuel number : Nat)
    (seen : List String) :
    (corpus.withPrevious previous).extensionsFrom key identifier fuel number seen =
      corpus.extensionsFrom key identifier fuel number seen := by
  induction fuel generalizing number seen with
  | zero => rfl
  | succ fuel ih =>
    rw [extensionsFrom, extensionsFrom, interfaceEntry?_withPrevious]
    cases corpus.interfaceEntry? (key ++ toString number) with
    | none => rfl
    | some found =>
      obtain ⟨extension, listing⟩ := found
      simp only [Option.map_some, memberNames_recordedListing, memberMisfit?_recordedListing, ih]

/-- What is recorded for an entry does not depend on what was recorded before, for this one or for
any other. -/
theorem linkEntry_withPrevious (key : String) (entry : Entry) :
    (corpus.withPrevious previous).linkEntry key (recorded key (previous key) entry) =
      corpus.linkEntry key entry := by
  have hsize : (corpus.withPrevious previous).size = corpus.size := List.length_map _
  obtain ⟨identifier, description, content⟩ := entry
  cases content with
  | interface listing =>
    by_cases hkey : endsWithDigit? key = some true
    · simp only [recorded, linkEntry, recordedListing, if_pos hkey]
    · have hextensions : (corpus.withPrevious previous).extensions key identifier
          (recordedListing key (previous key) listing) =
            corpus.extensions key identifier listing := by
        rw [extensions, extensions, memberNames_recordedListing, memberMisfit?_recordedListing,
          hsize, extensionsFrom_withPrevious]
      simp only [recorded, linkEntry, if_neg hkey, hextensions]
      rw [recordedListing, if_neg hkey]
  | _ => rfl

/-- Extensions that were recorded before have no part in what is recorded. -/
theorem linkExtensions?_withPrevious (h : corpus.WellFormed) (previous : String → List Json) :
    (corpus.withPrevious previous).linkExtensions? = corpus.linkExtensions? := by
  have hitems : (corpus.withPrevious previous).items =
      corpus.items.map fun e => (e.1, recorded e.1 (previous e.1) e.2) :=
    NameMap.sorted_map (fun key => recorded key (previous key)) _
  have hunnamed : (corpus.withPrevious previous).hasUnnamedInterface =
      corpus.hasUnnamedInterface := by
    rw [hasUnnamedInterface, interfaceEntry?_withPrevious, Option.isSome_map,
      hasUnnamedInterface]
  have hstop : (corpus.withPrevious previous).stoppingKey? = none := by
    have hnone := stoppingKey?_eq_none h
    rw [stoppingKey?, Option.map_eq_none_iff, List.find?_eq_none] at hnone ⊢
    intro e he
    rw [hitems] at he
    obtain ⟨entry, hentry, rfl⟩ := List.mem_map.mp he
    rw [linkEntry_withPrevious]
    exact hnone entry hentry
  have hlinked : (corpus.withPrevious previous).withExtensions = corpus.withExtensions := by
    rw [withExtensions, withExtensions, withPrevious, List.map_map]
    congr 1
    exact List.map_congr_left fun e _ =>
      Prod.ext rfl (congrArg Prod.fst (linkEntry_withPrevious e.1 e.2))
  have htrace : ((corpus.withPrevious previous).items.flatMap fun e =>
      ((corpus.withPrevious previous).linkEntry e.1 e.2).2.trace) =
        corpus.items.flatMap fun e => (corpus.linkEntry e.1 e.2).2.trace := by
    rw [hitems, List.flatMap_map]
    simp only [linkEntry_withPrevious]
  rw [linkExtensions?_eq h, linkExtensions?, hstop, hunnamed, htrace, ← hlinked]
  rfl

/-- The extensions that are found for the interface with a key. -/
def foundExtensions (corpus : Corpus) (key : String) : List Json :=
  match corpus.interfaceEntry? key with
  | some (identifier, listing) => (corpus.extensions key identifier listing).1
  | none => []

theorem withExtensions_eq_withPrevious (h : corpus.WellFormed) :
    corpus.withExtensions = corpus.withPrevious corpus.foundExtensions := by
  rw [withExtensions, withPrevious]
  congr 1
  refine List.map_congr_left fun e he => Prod.ext rfl ?_
  obtain ⟨key, identifier, description, content⟩ := e
  cases content with
  | interface listing =>
    have hfound : corpus.foundExtensions key = (corpus.extensions key identifier listing).1 := by
      rw [foundExtensions, h.interfaceEntry?_of_mem he]
    by_cases hkey : endsWithDigit? key = some true
    · simp only [linkEntry, recorded, recordedListing, if_pos hkey]
    · simp only [linkEntry, recorded, recordedListing, if_neg hkey, hfound]
  | _ => rfl

/-- Recording comes to an end for every corpus without empty keys. It gives each base the greatest
family of interfaces behind it and leaves all else as it was. Neither what was recorded before
matters nor how often it is done. -/
theorem exists_linked_maximal (h : corpus.WellFormed)
    (hnamed : ∀ e ∈ corpus.entries, e.1 ≠ "") :
    ∃ linked, corpus.linkExtensions? = some linked ∧ linked.trace.misfit? = none ∧
      List.Forall₂ (fun before after => after.1 = before.1 ∧
        corpus.Records before.1 before.2 after.2) corpus.entries linked.corpus.entries ∧
      (∀ previous, (corpus.withPrevious previous).linkExtensions? = some linked) ∧
      linked.corpus.linkExtensions? = some linked := by
  obtain ⟨trace, hlinked, htrace⟩ := h.exists_linked (hasUnnamedInterface_eq_false hnamed)
  have hprevious : ∀ previous, (corpus.withPrevious previous).linkExtensions? =
      some ⟨corpus.withExtensions, trace⟩ := fun previous =>
    (linkExtensions?_withPrevious h previous).trans hlinked
  refine ⟨_, hlinked, htrace, ?_, hprevious, ?_⟩
  · rw [withExtensions, List.forall₂_map_right_iff]
    exact List.forall₂_same.mpr fun e he => ⟨rfl, records_linkEntry h he⟩
  · have hagain := hprevious corpus.foundExtensions
    rwa [← withExtensions_eq_withPrevious h] at hagain

/-- A base with a list from before, two interfaces that continue it, and one that repeats a name of
the second. -/
def seriesCorpus : Corpus where
  entries :=
    [("n.irun", ⟨"N.IRun", "", .interface
        { methods := ["N.IRun.Go"], extensions := ["N.IWalk"] }⟩),
     ("n.irun2", ⟨"N.IRun2", "", .interface { properties := ["N.IRun2.Speed"] }⟩),
     ("n.irun3", ⟨"N.IRun3", "", .interface { methods := ["N.IRun3.Stop"] }⟩),
     ("n.irun4", ⟨"N.IRun4", "", .interface { methods := ["N.IRun4.speed"] }⟩)]

/-- The greatest family behind the base ends before the repeated name. -/
theorem exists_linked_maximal_series :
    seriesCorpus.WellFormed ∧ (∀ e ∈ seriesCorpus.entries, e.1 ≠ "") ∧
    IsGreatest {m | seriesCorpus.IsFamily "n.irun" m} 3 ∧
    ∃ linked, seriesCorpus.linkExtensions? = some linked ∧
      linked.corpus.linkExtensions? = some linked ∧
      ("n.irun", ⟨"N.IRun", "", .interface
        { methods := ["N.IRun.Go"], extensions := ["N.IRun2", "N.IRun3"] }⟩) ∈
          linked.corpus.entries := by
  have hcorpus : seriesCorpus.WellFormed := ⟨by decide, by decide, by decide⟩
  have hnamed : ∀ e ∈ seriesCorpus.entries, e.1 ≠ "" := by decide
  obtain ⟨linked, hlinked, -, hrecords, -, hagain⟩ := exists_linked_maximal hcorpus hnamed
  obtain ⟨trace, hlinked', -⟩ := hcorpus.exists_linked (hasUnnamedInterface_eq_false hnamed)
  cases hlinked.symm.trans hlinked'
  have hentry : (seriesCorpus.linkEntry "n.irun" ⟨"N.IRun", "", .interface
      { methods := ["N.IRun.Go"], extensions := ["N.IWalk"] }⟩).1 = ⟨"N.IRun", "", .interface
        { methods := ["N.IRun.Go"], extensions := ["N.IRun2", "N.IRun3"] }⟩ := by
    decide +kernel
  refine ⟨hcorpus, hnamed, ?_, _, hlinked, hagain, hentry ▸ List.mem_cons_self⟩
  obtain ⟨-, hbase⟩ := (List.forall₂_cons.mp hrecords).1
  obtain ⟨last, extensions, hlast, hextensions, hafter⟩ := hbase.exists_last (by decide)
  have hlength : extensions.length = 2 := by
    have hlists := hentry.symm.trans hafter
    simp only [Entry.mk.injEq, Content.interface.injEq, InterfaceListing.mk.injEq] at hlists
    rw [← hlists.2.2.2.2.2.2]
    rfl
  have hcount := hextensions.length_eq
  rw [List.length_range', hlength] at hcount
  obtain rfl : last = 3 := by omega
  exact hlast

end ScriptTypings.Corpus
