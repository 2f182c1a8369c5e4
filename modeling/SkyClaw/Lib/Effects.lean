import Mathlib.Tactic.TypeStar

/-!
# Programs that raise and keep their state

A `Proc σ ε α` turns a state into a result, `Except ε α`, and a state; what was
changed before an exception was raised stays changed.  This is the meaning of a
straight-line Python coroutine: `handle` is `try … except`, `asyncWith` an
`async with` block whose exit runs on every way out of the body.

Each combinator comes with the lemmas that say what it does when its first part
returns and when it raises, so a run is followed step by step without unfolding
the monad.
-/

/-- A program over a state `σ` that may raise an `ε`. -/
def Proc (σ ε α : Type) : Type := σ → Except ε α × σ

namespace Proc

variable {σ τ ε α β : Type}

instance : Monad (Proc σ ε) where
  pure a := fun s => (.ok a, s)
  bind p f := fun s =>
    match p s with
    | (.ok a, t) => f a t
    | (.error e, t) => (.error e, t)

/-- `raise e`. -/
def raise (e : ε) : Proc σ ε α := fun s => (.error e, s)

/-- A call that ends in `r` and changes nothing. -/
def reply (r : Except ε α) : Proc σ ε α := fun s => (r, s)

def modify (f : σ → σ) : Proc σ ε Unit := fun s => (.ok (), f s)

def read (f : σ → α) : Proc σ ε α := fun s => (.ok (f s), s)

/-- `try: p` with an `except` clause for every exception; a clause that does not
match raises again. -/
def handle (p : Proc σ ε α) (clauses : ε → Proc σ ε α) : Proc σ ε α := fun s =>
  match p s with
  | (.ok a, t) => (.ok a, t)
  | (.error e, t) => clauses e t

/-- Run a program and hand its end to the rest, raised or not. -/
def attempt (p : Proc σ ε α) : Proc σ ε (Except ε α) := fun s => (.ok (p s).1, (p s).2)

/-- `async with`: `exit` runs on every way out of the body, and what it raises
replaces the body's own end. -/
def asyncWith (enter : Proc σ ε Unit) (exit : Option ε → Proc σ ε Unit) (body : Proc σ ε α) :
    Proc σ ε α := fun s =>
  match enter s with
  | (.error e, t) => (.error e, t)
  | (.ok (), t) =>
      match body t with
      | (.ok a, u) => (exit none >>= fun _ => pure a) u
      | (.error e, u) => (exit (some e) >>= fun _ => raise e) u

/-- Run a program on a part of the state. -/
def focus (get : τ → σ) (set : τ → σ → τ) (p : Proc σ ε α) : Proc τ ε α := fun t =>
  ((p (get t)).1, set t (p (get t)).2)

@[simp] theorem pure_apply (a : α) (s : σ) : (pure a : Proc σ ε α) s = (.ok a, s) := rfl

theorem bind_apply (p : Proc σ ε α) (f : α → Proc σ ε β) (s : σ) :
    (p >>= f) s = match p s with
      | (.ok a, t) => f a t
      | (.error e, t) => (.error e, t) := rfl

variable {p : Proc σ ε α} {f : α → Proc σ ε β} {s t : σ} {a : α}

theorem bind_of_ok
    (h : p s = (.ok a, t)) : (p >>= f) s = f a t := by
  rw [bind_apply, h]

variable {e : ε}

theorem bind_of_error
    (h : p s = (.error e, t)) : (p >>= f) s = (.error e, t) := by
  rw [bind_apply, h]

variable {u : σ}

theorem bind_eq_ok_iff {b : β} :
    (p >>= f) s = (.ok b, u) ↔ ∃ a t, p s = (.ok a, t) ∧ f a t = (.ok b, u) := by
  rcases hp : p s with ⟨e | a, t⟩
  · rw [bind_of_error hp]
    simp
  · rw [bind_of_ok hp]
    constructor
    · intro h
      exact ⟨a, t, rfl, h⟩
    · rintro ⟨a', t', heq, h⟩
      obtain ⟨hresult, rfl⟩ := Prod.mk.inj heq
      cases hresult
      exact h

theorem pure_bind (a : α) (f : α → Proc σ ε β) : (pure a >>= f) = f a := rfl

theorem bind_assoc {γ : Type} (p : Proc σ ε α) (f : α → Proc σ ε β) (g : β → Proc σ ε γ) :
    (p >>= f) >>= g = p >>= fun a => f a >>= g := by
  funext s
  rcases hp : p s with ⟨e | a, t⟩
  · rw [bind_of_error (bind_of_error hp), bind_of_error hp]
  · rw [bind_of_ok hp, bind_apply, bind_of_ok hp, bind_apply]

@[simp] theorem raise_apply (e : ε) (s : σ) : (raise e : Proc σ ε α) s = (.error e, s) := rfl

@[simp] theorem reply_apply (r : Except ε α) (s : σ) : reply r s = (r, s) := rfl

@[simp] theorem modify_apply (f : σ → σ) (s : σ) :
    (modify f : Proc σ ε Unit) s = (.ok (), f s) := rfl

@[simp] theorem read_apply (f : σ → α) (s : σ) : (read f : Proc σ ε α) s = (.ok (f s), s) := rfl

@[simp] theorem attempt_apply (p : Proc σ ε α) (s : σ) :
    attempt p s = (.ok (p s).1, (p s).2) := rfl

variable {clauses : ε → Proc σ ε α}

theorem handle_of_ok
    (h : p s = (.ok a, t)) : handle p clauses s = (.ok a, t) := by
  simp only [handle, h]

theorem handle_of_error
    (h : p s = (.error e, t)) : handle p clauses s = clauses e t := by
  simp only [handle, h]

variable {body : Proc σ ε α}

theorem asyncWith_of_enter_error {enter : Proc σ ε Unit} {exit : Option ε → Proc σ ε Unit} (h : enter s = (.error e, t)) :
    asyncWith enter exit body s = (.error e, t) := by
  simp only [asyncWith, h]

theorem asyncWith_of_ok {enter : Proc σ ε Unit} {exit : Option ε → Proc σ ε Unit} (henter : enter s = (.ok (), t))
    (hbody : body t = (.ok a, u)) :
    asyncWith enter exit body s = (exit none >>= fun _ => pure a) u := by
  simp only [asyncWith, henter, hbody]

theorem asyncWith_of_error {enter : Proc σ ε Unit} {exit : Option ε → Proc σ ε Unit} (henter : enter s = (.ok (), t))
    (hbody : body t = (.error e, u)) :
    asyncWith enter exit body s = (exit (some e) >>= fun _ => raise e) u := by
  simp only [asyncWith, henter, hbody]

@[simp] theorem focus_apply (get : τ → σ) (set : τ → σ → τ) (p : Proc σ ε α) (t : τ) :
    focus get set p t = ((p (get t)).1, set t (p (get t)).2) := rfl

/-! ## Invariants -/

/-- Whether a program returns or raises, it leaves the invariant as it found it. -/
def Keeps (I : σ → Prop) (p : Proc σ ε α) : Prop := ∀ s, I s → I (p s).2

theorem keeps_pure (I : σ → Prop) (a : α) : Keeps I (pure a : Proc σ ε α) := fun _ h => h

theorem keeps_raise (I : σ → Prop) (e : ε) : Keeps I (raise e : Proc σ ε α) := fun _ h => h

theorem keeps_reply (I : σ → Prop) (r : Except ε α) : Keeps I (reply r : Proc σ ε α) :=
  fun _ h => h

variable {I : σ → Prop}

theorem Keeps.bind (hp : Keeps I p)
    (hf : ∀ a s t, p s = (.ok a, t) → Keeps I (f a)) : Keeps I (p >>= f) := by
  intro s hs
  have hfirst := hp s hs
  rcases hrun : p s with ⟨e | a, t⟩
  · rw [bind_of_error hrun]
    rwa [hrun] at hfirst
  · rw [bind_of_ok hrun]
    rw [hrun] at hfirst
    exact hf a s t hrun t hfirst

theorem Keeps.attempt (hp : Keeps I p) : Keeps I (attempt p) :=
  hp

end Proc
