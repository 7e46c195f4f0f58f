import ScriptTypings.Proofs.Json.Scanning
import ScriptTypings.Proofs.Json.Scalars
import ScriptTypings.Proofs.NameMap

/-!
# Documents that are read

A text may spell a document in which an object names a member more than once. `withoutRepeats` is
what is read of it: of the members of one name the last one counts, and it stands where the first
one does. `read_eq_ok_iff` says that a text is read if it spells a document without too long a
number. `isReadable_of_read` says that what is read has a readable value.
-/

namespace ScriptTypings.Json

open Text

namespace Document

mutual

/-- What is read of a document. -/
def withoutRepeats : Document → Document
  | list items => .list (itemsWithoutRepeats items)
  | object members => .object (NameMap.ofPairs (membersWithoutRepeats members))
  | other => other

def itemsWithoutRepeats : List Document → List Document
  | [] => []
  | item :: items => item.withoutRepeats :: itemsWithoutRepeats items

/-- What is read of all members, also of those that are named again. -/
def membersWithoutRepeats : List (List CodePoint × Document) → List (List CodePoint × Document)
  | [] => []
  | (name, value) :: members => (name, value.withoutRepeats) :: membersWithoutRepeats members

end

theorem itemsWithoutRepeats_eq_map (items : List Document) :
    itemsWithoutRepeats items = items.map withoutRepeats := by
  induction items with
  | nil => rfl
  | cons item items ih => rw [itemsWithoutRepeats, ih, List.map_cons]

theorem membersWithoutRepeats_eq_mapValues (members : List (List CodePoint × Document)) :
    membersWithoutRepeats members = NameMap.mapValues withoutRepeats members := by
  induction members with
  | nil => rfl
  | cons member members ih =>
    rw [membersWithoutRepeats, ih]
    rfl

theorem withoutRepeats_list (items : List Document) :
    (list items).withoutRepeats = list (items.map withoutRepeats) := by
  rw [withoutRepeats, itemsWithoutRepeats_eq_map]

theorem withoutRepeats_object (members : List (List CodePoint × Document)) :
    (object members).withoutRepeats =
      object (NameMap.ofPairs (NameMap.mapValues withoutRepeats members)) := by
  rw [withoutRepeats, membersWithoutRepeats_eq_mapValues]

/-- What is read as an object is an object. -/
theorem exists_of_withoutRepeats_eq_object {document : Document}
    {found : List (List CodePoint × Document)} (h : document.withoutRepeats = object found) :
    ∃ members, document = object members ∧
      found = NameMap.ofPairs (NameMap.mapValues withoutRepeats members) := by
  cases document with
  | object members =>
    rw [withoutRepeats_object] at h
    exact ⟨members, rfl, (object.inj h).symm⟩
  | _ => cases h

theorem withoutRepeats_of_isScalar {value : Document} (h : value.isScalar = true) :
    value.withoutRepeats = value := by
  cases value with
  | list items => cases h
  | object members => cases h
  | _ => rfl

end Document

theorem tokens_of_isScalar {value : Document} (h : value.isScalar = true) :
    tokens value = [.scalar value] := by
  cases value with
  | list items => cases h
  | object members => cases h
  | _ => rfl

/-- A text spells a document: cut into tokens, it is the tokens of the document. -/
def Spells (text : String) (document : Document) : Prop :=
  Token.scan text.toList = tokens document

/-- A whole number that has no more digits than can be read, or any other token. -/
def Token.isShort : Token → Bool
  | .scalar (.whole n) => Number.digitCount n.natAbs ≤ mostDigits
  | _ => true

def AreShort (ts : List Token) : Prop :=
  ∀ t ∈ ts, t.isShort = true

instance (ts : List Token) : Decidable (AreShort ts) :=
  inferInstanceAs (Decidable (∀ t ∈ ts, t.isShort = true))

theorem AreShort.subset {ts ts' : List Token} (h : AreShort ts) (hsubset : ts' ⊆ ts) :
    AreShort ts' :=
  fun t ht => h t (hsubset ht)

/-! ### The tokens of parts -/

theorem itemTokens_subset {item : Document} {items : List Document} (h : item ∈ items) :
    tokens item ⊆ itemTokens items := by
  induction items with
  | nil => cases h
  | cons first items ih =>
    rw [itemTokens]
    rcases List.mem_cons.mp h with rfl | h
    · exact fun t ht => List.mem_cons_of_mem _ (List.mem_append_left _ ht)
    · exact fun t ht => List.mem_cons_of_mem _ (List.mem_append_right _ (ih h ht))

theorem memberTokens_subset {member : List CodePoint × Document}
    {members : List (List CodePoint × Document)} (h : member ∈ members) :
    tokens member.2 ⊆ memberTokens members := by
  induction members with
  | nil => cases h
  | cons first members ih =>
    obtain ⟨name, value⟩ := first
    rw [memberTokens]
    intro t ht
    refine List.mem_cons_of_mem _ (List.mem_cons_of_mem _ (List.mem_cons_of_mem _ ?_))
    rcases List.mem_cons.mp h with rfl | h
    · exact List.mem_append_left _ ht
    · exact List.mem_append_right _ (ih h ht)

theorem tokens_subset_list {item : Document} {items : List Document} (h : item ∈ items) :
    tokens item ⊆ tokens (.list items) := by
  cases items with
  | nil => cases h
  | cons first items =>
    rw [tokens]
    intro t ht
    refine List.mem_cons_of_mem _ ?_
    rcases List.mem_cons.mp h with rfl | h
    · exact List.mem_append_left _ ht
    · exact List.mem_append_right _ (List.mem_append_left _ (itemTokens_subset h ht))

theorem tokens_subset_object {member : List CodePoint × Document}
    {members : List (List CodePoint × Document)} (h : member ∈ members) :
    tokens member.2 ⊆ tokens (.object members) := by
  cases members with
  | nil => cases h
  | cons first members =>
    obtain ⟨name, value⟩ := first
    rw [tokens]
    intro t ht
    refine List.mem_cons_of_mem _ (List.mem_cons_of_mem _ (List.mem_cons_of_mem _ ?_))
    rcases List.mem_cons.mp h with rfl | h
    · exact List.mem_append_left _ ht
    · exact List.mem_append_right _ (List.mem_append_left _ (memberTokens_subset h ht))

/-! ### Documents are read -/

/-- Where a value is awaited, the reader goes through the tokens of a document. -/
def IsRun (document : Document) : Prop :=
  ∀ stack awaiting ts, awaiting = .value ∨ awaiting = .firstItem →
    run stack awaiting (tokens document ++ ts) =
      run stack (.separator document.withoutRepeats) ts

theorem run_of_step {stack stack' : List Frame} {awaiting awaiting' : Awaiting} {t : Token}
    (h : step stack awaiting t = .ok (stack', awaiting')) (ts : List Token) :
    run stack awaiting (t :: ts) = run stack' awaiting' ts := by
  cases stack <;> simp only [run, h]

theorem run_items {items : List Document} (hitems : ∀ item ∈ items, IsRun item)
    (done : List Document) (value : Document) (stack : List Frame) (ts : List Token) :
    run (.list done :: stack) (.separator value) (itemTokens items ++ .closeList :: ts) =
      run stack
        (.separator (.list (done.reverse ++ value :: items.map Document.withoutRepeats))) ts := by
  induction items generalizing done value with
  | nil =>
    rw [itemTokens, List.nil_append, run_of_step rfl]
    simp [Frame.add]
  | cons item items ih =>
    rw [List.forall_mem_cons] at hitems
    rw [itemTokens, List.cons_append, List.append_assoc, run_of_step rfl,
      hitems.1 _ _ _ (.inl rfl), ih hitems.2]
    simp

theorem run_members {members : List (List CodePoint × Document)}
    (hmembers : ∀ m ∈ members, IsRun m.2) (done : List (List CodePoint × Document))
    (name : List CodePoint) (value : Document) (stack : List Frame) (ts : List Token) :
    run (.object done name :: stack) (.separator value)
        (memberTokens members ++ .closeObject :: ts) =
      run stack
        (.separator (.object (NameMap.update done
          ((name, value) :: NameMap.mapValues Document.withoutRepeats members)))) ts := by
  induction members generalizing done name value with
  | nil =>
    rw [memberTokens, List.nil_append, run_of_step rfl]
    rfl
  | cons member members ih =>
    obtain ⟨name', value'⟩ := member
    rw [List.forall_mem_cons] at hmembers
    have hmember :=
      hmembers.1 (.object (NameMap.put name value done) name' :: stack) .value
    simp only [memberTokens, List.cons_append, List.append_assoc]
    rw [run_of_step rfl, run_of_step rfl, run_of_step rfl, hmember _ (.inl rfl), ih hmembers.2]
    rfl

theorem accept_of_isShort {value : Document} (h : (Token.scalar value).isShort = true) :
    accept value = .ok value := by
  cases value with
  | whole n => exact if_pos (of_decide_eq_true h)
  | _ => rfl

/-- The reader goes through the tokens of a document, if no number in it is too long. -/
theorem isRun {document : Document} (h : AreShort (tokens document)) : IsRun document := by
  induction document using Document.tree_induction with
  | list items ih =>
    have hitems : ∀ item ∈ items, IsRun item :=
      fun item hitem => ih item hitem (h.subset (tokens_subset_list hitem))
    intro stack awaiting ts hawaiting
    have hopen : ∀ ts, run stack awaiting (.openList :: ts) =
        run (.list [] :: stack) .firstItem ts := by
      rcases hawaiting with rfl | rfl <;> exact fun ts => run_of_step rfl ts
    cases items with
    | nil => exact (hopen _).trans (run_of_step rfl ts)
    | cons item items =>
      rw [List.forall_mem_cons] at hitems
      simp only [tokens, List.cons_append, List.append_assoc, List.nil_append]
      rw [hopen, hitems.1 _ _ _ (.inr rfl), run_items hitems.2, Document.withoutRepeats_list]
      rfl
  | object members ih =>
    have hmembers : ∀ m ∈ members, IsRun m.2 :=
      fun m hm => ih m hm (h.subset (tokens_subset_object hm))
    intro stack awaiting ts hawaiting
    have hopen : ∀ ts, run stack awaiting (.openObject :: ts) = run stack (.firstName []) ts := by
      rcases hawaiting with rfl | rfl <;> exact fun ts => run_of_step rfl ts
    cases members with
    | nil => exact (hopen _).trans (run_of_step rfl ts)
    | cons member members =>
      obtain ⟨name, value⟩ := member
      rw [List.forall_mem_cons] at hmembers
      simp only [tokens, List.cons_append, List.append_assoc, List.nil_append]
      rw [hopen, run_of_step rfl, run_of_step rfl, hmembers.1 _ _ _ (.inl rfl),
        run_members hmembers.2, Document.withoutRepeats_object]
      rfl
  | scalar value hscalar =>
    rw [tokens_of_isScalar hscalar] at h
    have haccept := accept_of_isShort (h _ List.mem_cons_self)
    rintro stack awaiting ts (rfl | rfl)
    · rw [tokens_of_isScalar hscalar, Document.withoutRepeats_of_isScalar hscalar]
      exact run_of_step (by rw [step, haccept]; rfl) ts
    · rw [tokens_of_isScalar hscalar, Document.withoutRepeats_of_isScalar hscalar]
      exact run_of_step (by rw [step, haccept]; rfl) ts

/-! ### Nothing else is read -/

/-- The tokens of items that more of them follow. -/
def itemsBefore (items : List Document) : List Token :=
  items.flatMap fun item => tokens item ++ [.comma]

/-- The tokens of members that more of them follow. -/
def membersBefore (members : List (List CodePoint × Document)) : List Token :=
  members.flatMap fun m => .scalar (.text m.1) :: .colon :: (tokens m.2 ++ [.comma])

theorem itemsBefore_concat (items : List Document) (last : Document) :
    itemsBefore (items ++ [last]) = itemsBefore items ++ (tokens last ++ [.comma]) := by
  simp [itemsBefore]

theorem membersBefore_concat (members : List (List CodePoint × Document)) (name : List CodePoint)
    (last : Document) :
    membersBefore (members ++ [(name, last)]) =
      membersBefore members ++ .scalar (.text name) :: .colon :: (tokens last ++ [.comma]) := by
  simp [membersBefore]

theorem itemTokens_concat (items : List Document) (last : Document) :
    itemTokens (items ++ [last]) = .comma :: (itemsBefore items ++ tokens last) := by
  induction items with
  | nil => simp [itemTokens, itemsBefore]
  | cons item items ih => simp [itemTokens, itemsBefore, ih]

theorem tokens_list_concat (items : List Document) (last : Document) :
    tokens (.list (items ++ [last])) =
      .openList :: (itemsBefore items ++ tokens last) ++ [.closeList] := by
  cases items with
  | nil => simp [tokens, itemTokens, itemsBefore]
  | cons item items => simp [tokens, itemTokens_concat, itemsBefore]

theorem memberTokens_concat (members : List (List CodePoint × Document)) (name : List CodePoint)
    (last : Document) :
    memberTokens (members ++ [(name, last)]) =
      .comma :: (membersBefore members ++ .scalar (.text name) :: .colon :: tokens last) := by
  induction members with
  | nil => simp [memberTokens, membersBefore]
  | cons member members ih => simp [memberTokens, membersBefore, ih]

theorem tokens_object_concat (members : List (List CodePoint × Document)) (name : List CodePoint)
    (last : Document) :
    tokens (.object (members ++ [(name, last)])) =
      .openObject :: (membersBefore members ++ .scalar (.text name) :: .colon :: tokens last) ++
        [.closeObject] := by
  cases members with
  | nil => simp [tokens, memberTokens, membersBefore]
  | cons member members => simp [tokens, memberTokens_concat, membersBefore]

/-- What was put into an object so far was read of some members. -/
def AreValuesOf (found documents : List (List CodePoint × Document)) : Prop :=
  found = NameMap.ofPairs (NameMap.mapValues Document.withoutRepeats documents)

theorem AreValuesOf.put {found documents : List (List CodePoint × Document)}
    (h : AreValuesOf found documents) (name : List CodePoint) (document : Document) :
    AreValuesOf (NameMap.put name document.withoutRepeats found)
      (documents ++ [(name, document)]) := by
  have hvalues : NameMap.mapValues Document.withoutRepeats (documents ++ [(name, document)]) =
      NameMap.mapValues Document.withoutRepeats documents ++ [(name, document.withoutRepeats)] :=
    List.map_append
  rw [AreValuesOf, hvalues, NameMap.ofPairs_concat, ← h]

/-- The tokens behind which a container is open that holds what is in the frame. -/
inductive Frame.Opened : Frame → List Token → Prop
  | list (documents : List Document) :
    Opened (.list (documents.map Document.withoutRepeats).reverse)
      (.openList :: itemsBefore documents)
  | object {found documents : List (List CodePoint × Document)} (name : List CodePoint)
    (h : AreValuesOf found documents) :
    Opened (.object found name)
      (.openObject :: (membersBefore documents ++ [.scalar (.text name), .colon]))

/-- The tokens behind which all containers of a stack are open. -/
inductive StackOpened : List Frame → List Token → Prop
  | nil : StackOpened [] []
  | cons {frame : Frame} {stack : List Frame} {ts ts' : List Token} (h : frame.Opened ts')
    (hstack : StackOpened stack ts) : StackOpened (frame :: stack) (ts ++ ts')

theorem StackOpened.of_list {items : List Document} {stack : List Frame} {ts : List Token}
    (h : StackOpened (.list items :: stack) ts) :
    ∃ documents front, items = (documents.map Document.withoutRepeats).reverse ∧
      ts = front ++ .openList :: itemsBefore documents ∧ StackOpened stack front := by
  cases h with
  | cons hframe hstack =>
    cases hframe with
    | list documents => exact ⟨documents, _, rfl, rfl, hstack⟩

theorem StackOpened.of_object {found : List (List CodePoint × Document)} {name : List CodePoint}
    {stack : List Frame} {ts : List Token} (h : StackOpened (.object found name :: stack) ts) :
    ∃ documents front, AreValuesOf found documents ∧
      ts = front ++ .openObject :: (membersBefore documents ++ [.scalar (.text name), .colon]) ∧
      StackOpened stack front := by
  cases h with
  | cons hframe hstack =>
    cases hframe with
    | object _ hvalues => exact ⟨_, _, hvalues, rfl, hstack⟩

/-- The tokens that lead the reader from the beginning to where it is. -/
inductive Consumed : List Frame → Awaiting → List Token → Prop
  | value {stack : List Frame} {ts : List Token} (h : StackOpened stack ts) :
    Consumed stack .value ts
  | firstItem {stack : List Frame} {ts : List Token} (h : StackOpened stack ts) :
    Consumed (.list [] :: stack) .firstItem (ts ++ [.openList])
  | firstName {stack : List Frame} {ts : List Token} (h : StackOpened stack ts) :
    Consumed stack (.firstName []) (ts ++ [.openObject])
  | name {stack : List Frame} {ts : List Token} {found documents : List (List CodePoint × Document)}
    (h : StackOpened stack ts) (hvalues : AreValuesOf found documents) :
    Consumed stack (.name found) (ts ++ .openObject :: membersBefore documents)
  | colon {stack : List Frame} {ts : List Token}
    {found documents : List (List CodePoint × Document)} (h : StackOpened stack ts)
    (name : List CodePoint) (hvalues : AreValuesOf found documents) :
    Consumed stack (.colon found name)
      (ts ++ .openObject :: (membersBefore documents ++ [.scalar (.text name)]))
  | separator {stack : List Frame} {ts : List Token} (h : StackOpened stack ts)
    (document : Document) :
    Consumed stack (.separator document.withoutRepeats) (ts ++ tokens document)

theorem accept_eq_ok {value accepted : Document} (h : accept value = .ok accepted) :
    accepted = value ∧ (Token.scalar value).isShort = true := by
  cases value with
  | whole n =>
    rw [accept] at h
    split at h
    · rename_i hcount
      exact ⟨(Except.ok.inj h).symm, decide_eq_true hcount⟩
    · cases h
  | _ => exact ⟨(Except.ok.inj h).symm, rfl⟩

variable {stack stack' : List Frame} {awaiting awaiting' : Awaiting} {token : Token}
  {ts : List Token}

/-- The value of a scalar is this scalar. -/
theorem StackOpened.consumed_scalar (h : StackOpened stack ts) {value : Document}
    (hscalar : value.isScalar = true) :
    Consumed stack (.separator value) (ts ++ [.scalar value]) := by
  have hconsumed := Consumed.separator h value
  rwa [Document.withoutRepeats_of_isScalar hscalar, tokens_of_isScalar hscalar] at hconsumed

/-- One step of the reader consumes one token. -/
theorem Consumed.step (h : Consumed stack awaiting ts)
    (hscalar : ∀ value, token = .scalar value → value.isScalar = true)
    (hstep : step stack awaiting token = .ok (stack', awaiting')) :
    Consumed stack' awaiting' (ts ++ [token]) ∧ token.isShort = true := by
  have hvalue : ∀ {value : Document} {ts : List Token}, token = .scalar value →
      StackOpened stack ts →
      (accept value).map (fun v => (stack, Awaiting.separator v)) = .ok (stack', awaiting') →
      Consumed stack' awaiting' (ts ++ [token]) ∧ token.isShort = true := by
    rintro value ts rfl hstack hmap
    cases haccept : accept value with
    | error e =>
      rw [haccept] at hmap
      cases hmap
    | ok accepted =>
      rw [haccept] at hmap
      obtain ⟨rfl, rfl⟩ := Prod.mk.inj (Except.ok.inj hmap)
      obtain ⟨rfl, hshort⟩ := accept_eq_ok haccept
      exact ⟨hstack.consumed_scalar (hscalar _ rfl), hshort⟩
  have hgives : ∀ {opened : List Frame} {next : Awaiting} {t : Token} {consumed : List Token},
      Except.ok (opened, next) = Except.ok (ε := ReadError) (stack', awaiting') →
      t.isShort = true → Consumed opened next consumed →
      Consumed stack' awaiting' consumed ∧ t.isShort = true := by
    intro opened next t consumed heq hshort hconsumed
    obtain ⟨rfl, rfl⟩ := Prod.mk.inj (Except.ok.inj heq)
    exact ⟨hconsumed, hshort⟩
  unfold Json.step at hstep
  split at hstep
  -- a scalar, or the beginning of a container, where a value may stand
  case h_1 => cases h with | value hstack => exact hvalue rfl hstack hstep
  case h_2 => cases h with | value hstack => exact hgives hstep rfl (.firstItem hstack)
  case h_3 => cases h with | value hstack => exact hgives hstep rfl (.firstName hstack)
  case h_4 => cases h with | firstItem hstack => exact hvalue rfl (.cons (.list []) hstack) hstep
  case h_5 =>
    cases h with
    | firstItem hstack => exact hgives hstep rfl (.firstItem (.cons (.list []) hstack))
  case h_6 =>
    cases h with
    | firstItem hstack => exact hgives hstep rfl (.firstName (.cons (.list []) hstack))
  case h_7 =>
    cases h with
    | firstItem hstack =>
      rw [List.append_assoc]
      exact hgives hstep rfl (.separator hstack (.list []))
  -- the name of a member, and what stands around it
  case h_8 name =>
    cases h with
    | firstName hstack =>
      rw [List.append_assoc]
      have hnone : AreValuesOf [] [] := rfl
      exact hgives hstep rfl (.colon hstack name hnone)
  case h_9 =>
    cases h with
    | firstName hstack =>
      rw [List.append_assoc]
      exact hgives hstep rfl (.separator hstack (.object []))
  case h_10 name =>
    cases h with
    | name hstack hvalues =>
      rw [List.append_assoc]
      exact hgives hstep rfl (.colon hstack name hvalues)
  case h_11 name =>
    cases h with
    | colon hstack _ hvalues =>
      have hconsumed := Consumed.value (.cons (.object name hvalues) hstack)
      simp only [List.append_assoc, List.cons_append, List.nil_append] at hconsumed ⊢
      exact hgives hstep rfl hconsumed
  -- a finished value goes into its container
  case h_12 =>
    cases h with
    | separator hstack document =>
      obtain ⟨documents, front, rfl, rfl, hrest⟩ := hstack.of_list
      have hopened := Frame.Opened.list (documents ++ [document])
      rw [itemsBefore_concat, List.map_append, List.reverse_append] at hopened
      have hconsumed := Consumed.value (.cons hopened hrest)
      simp only [List.append_assoc, List.cons_append] at hconsumed ⊢
      exact hgives hstep rfl hconsumed
  case h_13 _ name _ _ =>
    cases h with
    | separator hstack document =>
      obtain ⟨documents, front, hvalues, rfl, hrest⟩ := hstack.of_object
      have hconsumed := Consumed.name hrest (hvalues.put name document)
      rw [membersBefore_concat] at hconsumed
      simp only [List.append_assoc, List.cons_append, List.nil_append] at hconsumed ⊢
      exact hgives hstep rfl hconsumed
  case h_14 =>
    cases h with
    | separator hstack document =>
      obtain ⟨documents, front, rfl, rfl, hrest⟩ := hstack.of_list
      have hconsumed := Consumed.separator hrest (.list (documents ++ [document]))
      rw [tokens_list_concat, Document.withoutRepeats_list, List.map_append] at hconsumed
      rw [Frame.add, List.reverse_cons, List.reverse_reverse] at hstep
      simp only [List.append_assoc, List.cons_append] at hconsumed ⊢
      exact hgives hstep rfl hconsumed
  case h_15 _ name _ _ =>
    cases h with
    | separator hstack document =>
      obtain ⟨documents, front, hvalues, rfl, hrest⟩ := hstack.of_object
      have hconsumed := Consumed.separator hrest (.object (documents ++ [(name, document)]))
      rw [tokens_object_concat, Document.withoutRepeats_object,
        ← hvalues.put name document] at hconsumed
      simp only [List.append_assoc, List.cons_append, List.nil_append] at hconsumed ⊢
      exact hgives hstep rfl hconsumed
  case h_16 => cases hstep

/-- What is read to the end was the tokens of a document. -/
theorem Consumed.run (h : Consumed stack awaiting ts) (hshort : AreShort ts) {rest : List Token}
    (hscalars : ∀ value, .scalar value ∈ rest → value.isScalar = true) {value : Document}
    (hrun : run stack awaiting rest = .ok value) :
    ∃ document, ts ++ rest = tokens document ∧ AreShort (tokens document) ∧
      document.withoutRepeats = value := by
  induction rest generalizing stack awaiting ts with
  | nil =>
    unfold Json.run at hrun
    split at hrun
    · cases h with
      | separator hstack document =>
        cases hstack
        exact ⟨document, List.append_nil _, hshort, Except.ok.inj hrun⟩
    · cases hrun
    · rename_i hnil
      cases hnil
  | cons token rest ih =>
    cases hstep : Json.step stack awaiting token with
    | error e =>
      have hfailed : Json.run stack awaiting (token :: rest) = .error e := by
        cases stack <;> simp only [Json.run, hstep]
      rw [hfailed] at hrun
      cases hrun
    | ok next =>
      rw [run_of_step hstep] at hrun
      obtain ⟨hconsumed, htoken⟩ := h.step (fun v hv => hscalars v (hv ▸ List.mem_cons_self)) hstep
      have hshort' : AreShort (ts ++ [token]) :=
        List.forall_mem_append.mpr ⟨hshort, List.forall_mem_singleton.mpr htoken⟩
      obtain ⟨document, htokens, hfound⟩ :=
        ih hconsumed hshort' (fun v hv => hscalars v (List.mem_cons_of_mem _ hv)) hrun
      exact ⟨document, by rw [← htokens, List.append_assoc]; rfl, hfound⟩

/-- A text is read if it spells a document without too long a number. -/
theorem read_eq_ok_iff {s : String} {value : Document} : read s = .ok value ↔
    ∃ document, Spells s document ∧ AreShort (tokens document) ∧
      document.withoutRepeats = value := by
  constructor
  · intro h
    exact (Consumed.value .nil).run nofun (fun _ hv => (isRoundedScalar_of_mem_scanFrom hv).1) h
  · rintro ⟨document, hspells, hshort, rfl⟩
    have hrun := isRun hshort [] .value [] (.inl rfl)
    rw [List.append_nil] at hrun
    rw [read, hspells, hrun]
    rfl

/-! ### The values of what is read -/

/-- What is read of a document has a readable value, if its numbers are short and rounded. -/
theorem isReadable_value {document : Document} (hshort : AreShort (tokens document))
    (hrounded : ∀ t ∈ tokens document, t.isRounded = true) :
    document.withoutRepeats.value.isReadable = true := by
  induction document using Document.tree_induction with
  | list items ih =>
    rw [Document.withoutRepeats_list, Document.value, Document.itemValues_eq_map, List.map_map]
    refine isReadable_list_iff.mpr (List.forall_mem_map.mpr fun item hitem => ?_)
    have hsubset := tokens_subset_list hitem
    exact ih item hitem (hshort.subset hsubset) fun t ht => hrounded t (hsubset ht)
  | object members ih =>
    rw [Document.withoutRepeats_object, Document.value, Document.memberValues_eq_map]
    refine isReadable_object_iff.mpr ⟨NameMap.nodup_names_ofPairs _, fun m hm => ?_⟩
    obtain ⟨found, hfound, rfl⟩ := List.mem_map.mp (NameMap.mem_of_mem_ofPairs hm)
    obtain ⟨member, hmember, rfl⟩ := List.mem_map.mp (NameMap.mem_of_mem_ofPairs hfound)
    have hsubset := tokens_subset_object hmember
    exact ih member hmember (hshort.subset hsubset) fun t ht => hrounded t (hsubset ht)
  | scalar document hscalar =>
    rw [Document.withoutRepeats_of_isScalar hscalar]
    rw [tokens_of_isScalar hscalar] at hshort hrounded
    cases document with
    | whole n => exact hshort _ List.mem_cons_self
    | real x => exact hrounded _ List.mem_cons_self
    | list items => cases hscalar
    | object members => cases hscalar
    | _ => rfl

/-- What is read of a text has a readable value. -/
theorem isReadable_of_read {s : String} {document : Document} (h : read s = .ok document) :
    document.value.isReadable = true := by
  obtain ⟨spelled, hspells, hshort, rfl⟩ := read_eq_ok_iff.mp h
  exact isReadable_value hshort fun t ht => isRounded_of_mem_scanFrom (hspells ▸ ht)

end ScriptTypings.Json
