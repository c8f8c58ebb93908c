import Mathlib.Data.Nat.Notation

/-!
# Computations that raise and change a state

`Py ρ ε α` reads and changes a state `ρ` and returns an `α` or raises an `ε`. What
was changed before an exception stays changed, as in the interpreter: a log line
written before a `raise` is not taken back. `tryElse` is `try`/`except`/`else`.
`Keeps I m` says that `m` preserves the invariant `I` of the state whether it
returns or raises, `Raises P m` that whatever `m` raises satisfies `P`, `Returns P m` that
whatever it returns does, `Triple I m Q` that from a state with `I` what it returns satisfies `Q`
together with the state, and `Fails m` that `m` always raises. `Commutes f m` says that `m`
does not see the change `f` of the state: it ends the same way with and without it, and
leaves it in place.
-/

namespace Python

def Py (ρ ε α : Type) : Type := ρ → Except ε α × ρ

namespace Py

variable {ρ ε α β : Type}

instance : Monad (Py ρ ε) where
  pure a := fun r => (.ok a, r)
  bind m f := fun r =>
    match m r with
    | (.ok a, r') => f a r'
    | (.error e, r') => (.error e, r')

def raise (e : ε) : Py ρ ε α := fun r => (.error e, r)

/-- The state as it is now. -/
def state : Py ρ ε ρ := fun r => (.ok r, r)

def modify (f : ρ → ρ) : Py ρ ε Unit := fun r => (.ok (), f r)

/-- A value computed without touching the state. -/
def lift (x : Except ε α) : Py ρ ε α := fun r => (x, r)

/-- `try: m` with one continuation for each way `m` can end. -/
def tryElse (m : Py ρ ε α) (onError : ε → Py ρ ε β) (onReturn : α → Py ρ ε β) : Py ρ ε β :=
  fun r =>
    match m r with
    | (.ok a, r') => onReturn a r'
    | (.error e, r') => onError e r'

/-! ## Running -/

@[simp] theorem pure_apply (a : α) (r : ρ) : (pure a : Py ρ ε α) r = (.ok a, r) := rfl

theorem bind_apply (m : Py ρ ε α) (f : α → Py ρ ε β) (r : ρ) :
    (m >>= f) r = match m r with
      | (.ok a, r') => f a r'
      | (.error e, r') => (.error e, r') := rfl

theorem bind_of_ok {m : Py ρ ε α} {f : α → Py ρ ε β} {r r' : ρ} {a : α}
    (h : m r = (.ok a, r')) : (m >>= f) r = f a r' := by
  rw [bind_apply, h]

theorem bind_of_error {m : Py ρ ε α} {f : α → Py ρ ε β} {r r' : ρ} {e : ε}
    (h : m r = (.error e, r')) : (m >>= f) r = (.error e, r') := by
  rw [bind_apply, h]

@[simp] theorem raise_apply (e : ε) (r : ρ) : (raise e : Py ρ ε α) r = (.error e, r) := rfl

@[simp] theorem state_apply (r : ρ) : (state : Py ρ ε ρ) r = (.ok r, r) := rfl

@[simp] theorem modify_apply (f : ρ → ρ) (r : ρ) :
    (modify f : Py ρ ε Unit) r = (.ok (), f r) := rfl

@[simp] theorem lift_apply (x : Except ε α) (r : ρ) : (lift x : Py ρ ε α) r = (x, r) := rfl

/-! ## Invariants of the state -/

/-- Every run of `m` from a state with `I` ends in a state with `I`. -/
def Keeps (I : ρ → Prop) (m : Py ρ ε α) : Prop := ∀ r, I r → I (m r).2

variable {I : ρ → Prop}

theorem keeps_pure (a : α) : Keeps I (pure a : Py ρ ε α) := fun _ h => h

theorem keeps_raise (e : ε) : Keeps I (raise e : Py ρ ε α) := fun _ h => h

theorem keeps_state : Keeps I (state : Py ρ ε ρ) := fun _ h => h

theorem keeps_lift (x : Except ε α) : Keeps I (lift x : Py ρ ε α) := fun _ h => h

theorem keeps_modify {f : ρ → ρ} (hf : ∀ r, I r → I (f r)) :
    Keeps I (modify f : Py ρ ε Unit) := hf

theorem keeps_bind {m : Py ρ ε α} {f : α → Py ρ ε β} (hm : Keeps I m)
    (hf : ∀ a, Keeps I (f a)) : Keeps I (m >>= f) := by
  intro r hr
  have hr' := hm r hr
  rw [bind_apply]
  cases h : m r with
  | mk out r' =>
      rw [h] at hr'
      cases out with
      | ok a => exact hf a r' hr'
      | error e => exact hr'

theorem keeps_tryElse {m : Py ρ ε α} {onError : ε → Py ρ ε β} {onReturn : α → Py ρ ε β}
    (hm : Keeps I m) (he : ∀ e, Keeps I (onError e)) (hr : ∀ a, Keeps I (onReturn a)) :
    Keeps I (tryElse m onError onReturn) := by
  intro r h
  have h' := hm r h
  unfold tryElse
  cases hout : m r with
  | mk out r' =>
      rw [hout] at h'
      cases out with
      | ok a => exact hr a r' h'
      | error e => exact he e r' h'

/-! ## What can be raised -/

def Raises (P : ε → Prop) (m : Py ρ ε α) : Prop := ∀ r e r', m r = (.error e, r') → P e

variable {P : ε → Prop}

theorem raises_pure (a : α) : Raises P (pure a : Py ρ ε α) := by
  intro r e r' h
  cases h

theorem raises_raise {e : ε} (he : P e) : Raises P (raise e : Py ρ ε α) := by
  intro r e' r' h
  cases h
  exact he

theorem raises_state : Raises P (state : Py ρ ε ρ) := by
  intro r e r' h
  cases h

theorem raises_modify (f : ρ → ρ) : Raises P (modify f : Py ρ ε Unit) := by
  intro r e r' h
  cases h

theorem raises_lift {x : Except ε α} (hx : ∀ e, x = .error e → P e) :
    Raises P (lift x : Py ρ ε α) := by
  intro r e r' h
  exact hx e (congrArg Prod.fst h)

theorem raises_bind {m : Py ρ ε α} {f : α → Py ρ ε β} (hm : Raises P m)
    (hf : ∀ a, Raises P (f a)) : Raises P (m >>= f) := by
  intro r e r' h
  rw [bind_apply] at h
  split at h
  · exact hf _ _ _ _ h
  · next hout =>
      cases h
      exact hm _ _ _ hout

theorem raises_tryElse {m : Py ρ ε α} {onError : ε → Py ρ ε β} {onReturn : α → Py ρ ε β}
    (he : ∀ e r r', m r = (.error e, r') → Raises P (onError e))
    (hr : ∀ a, Raises P (onReturn a)) : Raises P (tryElse m onError onReturn) := by
  intro r e r' h
  rw [tryElse] at h
  split at h
  · exact hr _ _ _ _ h
  · next hout => exact he _ _ _ hout _ _ _ h

/-! ## What can be returned -/

def Returns (P : α → Prop) (m : Py ρ ε α) : Prop := ∀ r a r', m r = (.ok a, r') → P a

section Returns

variable {P : α → Prop} {Q : β → Prop}

theorem returns_pure {a : α} (ha : P a) : Returns P (pure a : Py ρ ε α) := by
  intro r a' r' h
  cases h
  exact ha

theorem returns_raise (e : ε) : Returns P (raise e : Py ρ ε α) := by
  intro r a r' h
  cases h

theorem returns_lift {x : Except ε α} (hx : ∀ a, x = .ok a → P a) :
    Returns P (lift x : Py ρ ε α) := by
  intro r a r' h
  exact hx a (congrArg Prod.fst h)

theorem returns_bind {m : Py ρ ε α} {f : α → Py ρ ε β} (hm : Returns P m)
    (hf : ∀ a, P a → Returns Q (f a)) : Returns Q (m >>= f) := by
  intro r b r' h
  rw [bind_apply] at h
  split at h
  · next hout => exact hf _ (hm _ _ _ hout) _ _ _ h
  · cases h

theorem returns_bind_right (m : Py ρ ε α) {f : α → Py ρ ε β} (hf : ∀ a, Returns Q (f a)) :
    Returns Q (m >>= f) :=
  returns_bind (P := fun _ => True) (fun _ _ _ _ => trivial) fun a _ => hf a

theorem returns_tryElse {m : Py ρ ε α} {onError : ε → Py ρ ε β} {onReturn : α → Py ρ ε β}
    (hm : Returns P m) (he : ∀ e, Returns Q (onError e)) (hr : ∀ a, P a → Returns Q (onReturn a)) :
    Returns Q (tryElse m onError onReturn) := by
  intro r b r' h
  rw [tryElse] at h
  split at h
  · next hout => exact hr _ (hm _ _ _ hout) _ _ _ h
  · exact he _ _ _ _ h

end Returns

/-! ## Conditions before and after -/

/-- From a state with `I`, what `m` returns satisfies `Q` together with the state it leaves. -/
def Triple (I : ρ → Prop) (m : Py ρ ε α) (Q : α → ρ → Prop) : Prop :=
  ∀ r a r', I r → m r = (.ok a, r') → Q a r'

section Triple

variable {Q : α → ρ → Prop} {Q' : β → ρ → Prop}

theorem triple_pure {a : α} (h : ∀ r, I r → Q a r) : Triple I (pure a : Py ρ ε α) Q := by
  intro r a' r' hr hrun
  cases hrun
  exact h r hr

theorem triple_of_keeps {m : Py ρ ε α} (hm : Keeps I m) : Triple I m fun _ => I := by
  intro r a r' hr hrun
  have hkept := hm r hr
  rwa [hrun] at hkept

theorem triple_bind {m : Py ρ ε α} {f : α → Py ρ ε β} (hm : Triple I m Q)
    (hf : ∀ a, Triple (Q a) (f a) Q') : Triple I (m >>= f) Q' := by
  intro r b r' hr hrun
  rw [bind_apply] at hrun
  split at hrun
  · next hout => exact hf _ _ _ _ (hm _ _ _ hr hout) hrun
  · cases hrun

/-- A step that keeps the condition can be passed over. -/
theorem triple_bind_right {m : Py ρ ε α} {f : α → Py ρ ε β} (hm : Keeps I m)
    (hf : ∀ a, Triple I (f a) Q') : Triple I (m >>= f) Q' :=
  triple_bind (triple_of_keeps hm) hf

end Triple

/-! ## Failing -/

/-- `m` raises from every state. -/
def Fails (m : Py ρ ε α) : Prop := ∀ r, ∃ e r', m r = (.error e, r')

theorem fails_raise (e : ε) : Fails (raise e : Py ρ ε α) := fun r => ⟨e, r, rfl⟩

theorem fails_bind_left {m : Py ρ ε α} (hm : Fails m) (f : α → Py ρ ε β) :
    Fails (m >>= f) := by
  intro r
  obtain ⟨e, r', h⟩ := hm r
  exact ⟨e, r', bind_of_error h⟩

theorem fails_bind_right (m : Py ρ ε α) {f : α → Py ρ ε β} (hf : ∀ a, Fails (f a)) :
    Fails (m >>= f) := by
  intro r
  cases h : m r with
  | mk out r' =>
      cases out with
      | ok a =>
          rw [bind_of_ok h]
          exact hf a r'
      | error e => exact ⟨e, r', bind_of_error h⟩

theorem fails_tryElse {m : Py ρ ε α} {onError : ε → Py ρ ε β} (hm : Fails m)
    (he : ∀ e, Fails (onError e)) (onReturn : α → Py ρ ε β) :
    Fails (tryElse m onError onReturn) := by
  intro r
  obtain ⟨e, r', h⟩ := hm r
  obtain ⟨e', r'', h'⟩ := he e r'
  exact ⟨e', r'', by simp only [tryElse, h, h']⟩

theorem triple_tryElse {Q : α → ρ → Prop} {Q' : β → ρ → Prop} {m : Py ρ ε α}
    {onError : ε → Py ρ ε β} {onReturn : α → Py ρ ε β} (hm : Triple I m Q)
    (he : ∀ e, Fails (onError e)) (hr : ∀ a, Triple (Q a) (onReturn a) Q') :
    Triple I (tryElse m onError onReturn) Q' := by
  intro r b r' hI hrun
  rw [tryElse] at hrun
  split at hrun
  · next hout => exact hr _ _ _ _ (hm _ _ _ hI hout) hrun
  · next e r₁ hout =>
      obtain ⟨e', r₂, hfails⟩ := he e r₁
      rw [hfails] at hrun
      cases hrun

/-! ## Changes of the state that a computation does not see -/

/-- It makes no difference whether the state is changed by `f` before `m` or after it. -/
def Commutes (f : ρ → ρ) (m : Py ρ ε α) : Prop := ∀ r, m (f r) = ((m r).1, f (m r).2)

variable {f : ρ → ρ}

theorem commutes_pure (a : α) : Commutes f (pure a : Py ρ ε α) := fun _ => rfl

theorem commutes_raise (e : ε) : Commutes f (raise e : Py ρ ε α) := fun _ => rfl

theorem commutes_lift (x : Except ε α) : Commutes f (lift x : Py ρ ε α) := fun _ => rfl

theorem commutes_modify {g : ρ → ρ} (h : ∀ r, g (f r) = f (g r)) :
    Commutes f (modify g : Py ρ ε Unit) := by
  intro r
  rw [modify_apply, modify_apply, h]

theorem commutes_bind {m : Py ρ ε α} {k : α → Py ρ ε β} (hm : Commutes f m)
    (hk : ∀ a, Commutes f (k a)) : Commutes f (m >>= k) := by
  intro r
  rw [bind_apply, bind_apply, hm r]
  rcases m r with ⟨e | a, r'⟩
  · rfl
  · exact hk a r'

/-- Reading a part of the state that `f` does not change. -/
theorem commutes_read {γ : Type} {g : ρ → γ} (h : ∀ r, g (f r) = g r)
    {k : γ → Py ρ ε α} (hk : ∀ c, Commutes f (k c)) :
    Commutes f (state >>= fun r => k (g r)) := by
  intro r
  rw [bind_apply, bind_apply, state_apply, state_apply]
  simp only [h]
  exact hk (g r) r

theorem commutes_tryElse {m : Py ρ ε α} {onError : ε → Py ρ ε β} {onReturn : α → Py ρ ε β}
    (hm : Commutes f m) (he : ∀ e, Commutes f (onError e)) (ha : ∀ a, Commutes f (onReturn a)) :
    Commutes f (tryElse m onError onReturn) := by
  intro r
  rw [tryElse, tryElse, hm r]
  rcases m r with ⟨e | a, r'⟩
  · exact he e r'
  · exact ha a r'

end Py

end Python
