import SlotSafe.Proofs.Success

/-!
# Why computations fail

A computation of several steps fails as one of its steps does, with what the steps before it came
to. So a bound on the faults of each step is a bound on those of the whole (`FailsOnly.bind`); what
a step is given is known to have come out of the steps before it. Where there is one step for each
element of a list, the fault is that of the first element whose step fails (`mapM_eq_error_iff`).
-/

namespace SlotSafe

variable {ε ε' α β : Type} {P Q : ε → Prop}

/-- **A computation that fails in no other way than `P` says.** -/
def FailsOnly (P : ε → Prop) (x : Except ε α) : Prop := ∀ e, x = .error e → P e

namespace FailsOnly

theorem ok (a : α) : FailsOnly P (.ok a : Except ε α) := fun _ h => by cases h

theorem error {e : ε} (h : P e) : FailsOnly P (.error e : Except ε α) :=
  fun _ he => Except.error.inj he ▸ h

theorem mono {x : Except ε α} (h : FailsOnly P x) (hPQ : ∀ e, P e → Q e) : FailsOnly Q x :=
  fun e he => hPQ e (h e he)

/-- A computation that succeeds fails in no way. -/
theorem of_eq_ok {x : Except ε α} {a : α} (h : x = .ok a) : FailsOnly P x := h ▸ ok a

/-- **Steps in a row** fail as one of them does. -/
theorem bind {x : Except ε α} {f : α → Except ε β} (hx : FailsOnly P x)
    (hf : ∀ a, x = .ok a → FailsOnly P (f a)) : FailsOnly P (x >>= f) := by
  cases hresult : x with
  | error e => exact error (hx e hresult)
  | ok a => exact hf a hresult

/-- A computation whose result is changed fails as it did. -/
theorem map {x : Except ε α} (hx : FailsOnly P x) (f : α → β) : FailsOnly P (x.map f) := by
  cases hresult : x with
  | error e => exact error (hx e hresult)
  | ok a => exact ok (f a)

/-- A computation whose faults are told in another way. -/
theorem mapError {x : Except ε α} (hx : FailsOnly P x) {f : ε → ε'} {R : ε' → Prop}
    (hf : ∀ e, P e → R (f e)) : FailsOnly R (x.mapError f) := by
  cases hresult : x with
  | error e => exact error (hf e (hx e hresult))
  | ok a => exact ok a

end FailsOnly

/-- **A fault of the first failing step**, where there is a step for each element of a list: those
for the elements before it succeed. -/
def FailsFirst (f : α → Except ε β) (as : List α) (e : ε) : Prop :=
  ∃ before a after, as = before ++ a :: after ∧ (∀ x ∈ before, ∃ b, f x = .ok b) ∧ f a = .error e

/-- **Steps for the elements of a list fail as the first one that fails.** -/
theorem mapM_eq_error_iff {f : α → Except ε β} {as : List α} {e : ε} :
    as.mapM f = .error e ↔ FailsFirst f as e := by
  induction as with
  | nil =>
    constructor
    · intro h
      cases h
    · rintro ⟨before, a, after, hsplit, -⟩
      cases before <;> cases hsplit
  | cons a as ih =>
    rw [List.mapM_cons, bind_eq_error_iff]
    constructor
    · rintro (ha | ⟨b, hb, hrest⟩)
      · exact ⟨[], a, as, rfl, List.forall_mem_nil _, ha⟩
      · obtain hrest | ⟨bs, -, h⟩ := bind_eq_error_iff.mp hrest
        · obtain ⟨before, x, after, rfl, hbefore, hx⟩ := ih.mp hrest
          exact ⟨a :: before, x, after, rfl, List.forall_mem_cons.mpr ⟨⟨b, hb⟩, hbefore⟩, hx⟩
        · cases h
    · rintro ⟨before, x, after, hsplit, hbefore, hx⟩
      cases before with
      | nil =>
        obtain ⟨rfl, rfl⟩ := List.cons.inj hsplit
        exact .inl hx
      | cons y before =>
        obtain ⟨rfl, rfl⟩ := List.cons.inj hsplit
        obtain ⟨⟨b, hb⟩, hbefore⟩ := List.forall_mem_cons.mp hbefore
        have hrest := ih.mpr ⟨before, x, after, rfl, hbefore, hx⟩
        exact .inr ⟨b, hb, bind_eq_error_iff.mpr (.inl hrest)⟩

end SlotSafe
