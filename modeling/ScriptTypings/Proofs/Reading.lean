/-!
# What readings give

A reading gives a value or is refused. `Gives` says of a reading that its value, if there is one,
satisfies a condition; the lemmas follow the ways in which readings are put together.
-/

namespace ScriptTypings

/-- What comes of a reading, unless it is refused, satisfies a condition. -/
def Gives {ε α : Type} (reading : Except ε α) (P : α → Prop) : Prop :=
  ∀ a, reading = .ok a → P a

namespace Gives

variable {ε α β : Type} {reading : Except ε α} {P : α → Prop}

theorem ok {a : α} (h : P a) : Gives (.ok a : Except ε α) P :=
  fun _ heq => Except.ok.inj heq ▸ h

theorem error (e : ε) (P : α → Prop) : Gives (.error e) P :=
  nofun

theorem anything (reading : Except ε α) : Gives reading fun _ => True :=
  fun _ _ => trivial

theorem bind {next : α → Except ε β} {Q : β → Prop} (h : Gives reading P)
    (hnext : ∀ a, P a → Gives (next a) Q) : Gives (reading >>= next) Q := by
  cases reading with
  | error e => exact error e Q
  | ok a => exact hnext a (h a rfl)

theorem map {f : α → β} {Q : β → Prop} (h : Gives reading P) (hf : ∀ a, P a → Q (f a)) :
    Gives (f <$> reading) Q := by
  cases reading with
  | error e => exact error e Q
  | ok a => exact ok (hf a (h a rfl))

/-- What every item gives is what the items of the whole list are. -/
theorem mapM {f : α → Except ε β} {Q : β → Prop} {l : List α} (h : ∀ a ∈ l, Gives (f a) Q) :
    Gives (l.mapM f) fun bs => ∀ b ∈ bs, Q b := by
  induction l with
  | nil => exact ok nofun
  | cons a l ih =>
    rw [List.mapM_cons]
    refine (h a List.mem_cons_self).bind fun b hb => ?_
    refine (ih fun a ha => h a (List.mem_cons_of_mem _ ha)).bind fun bs hbs => ok ?_
    exact List.forall_mem_cons.mpr ⟨hb, hbs⟩

/-- What every step keeps holds in the end. -/
theorem foldlM {f : β → α → Except ε β} {Q : β → Prop} (h : ∀ b a, Q b → Gives (f b a) Q)
    (l : List α) {b : β} (hb : Q b) : Gives (l.foldlM f b) Q := by
  induction l generalizing b with
  | nil => exact ok hb
  | cons a l ih => exact (h b a hb).bind fun _ => ih

end Gives

end ScriptTypings
