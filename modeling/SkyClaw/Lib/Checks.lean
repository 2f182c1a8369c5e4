import Mathlib.Tactic.TypeStar

/-!
# Checks that raise

A check is an `Except ε Unit`; a function that checks its argument is a chain of them.  These are
the lemmas that turn "the chain returned" into what each check has asked.
-/

namespace Checks

variable {ε ε' α β : Type}

/-- `if condition: raise e`. -/
def raiseIf (condition : Bool) (e : ε) : Except ε Unit :=
  if condition then .error e else .ok ()

/-- The value of a call that raises `e` when it has none. -/
def orRaise (value : Option α) (e : ε) : Except ε α :=
  match value with
  | some a => .ok a
  | none => .error e

variable {e : ε}

variable {condition : Bool}

theorem raiseIf_eq_ok_iff {a : Unit} :
    raiseIf condition e = .ok a ↔ condition = false := by
  cases condition <;> simp [raiseIf]

variable {a : α}

theorem orRaise_eq_ok_iff {value : Option α} :
    orRaise value e = .ok a ↔ value = some a := by
  cases value <;> simp [orRaise]

variable {x : Except ε α} {f : α → Except ε β} {b : β}

theorem bind_eq_ok_iff :
    (x >>= f) = .ok b ↔ ∃ a, x = .ok a ∧ f a = .ok b := by
  cases x <;> simp [bind, Except.bind]

theorem bind_eq_error_iff :
    (x >>= f) = .error e ↔ x = .error e ∨ ∃ a, x = .ok a ∧ f a = .error e := by
  cases x with
  | error raised =>
      constructor
      · intro h
        cases h
        exact .inl rfl
      · rintro (h | ⟨_, h, _⟩)
        · cases h
          rfl
        · cases h
  | ok a =>
      refine ⟨fun h => .inr ⟨a, rfl, h⟩, fun h => h.elim nofun ?_⟩
      rintro ⟨_, ha, h⟩
      cases ha
      exact h

theorem check_bind_eq_ok_iff {check : Except ε Unit} {rest : Except ε β} :
    (check >>= fun _ => rest) = .ok b ↔ check = .ok () ∧ rest = .ok b := by
  rw [bind_eq_ok_iff]
  exact ⟨fun ⟨_, hcheck, hrest⟩ => ⟨hcheck, hrest⟩, fun ⟨hcheck, hrest⟩ => ⟨(), hcheck, hrest⟩⟩

theorem mapError_eq_ok_iff {f : ε → ε'} {x : Except ε β} :
    x.mapError f = .ok b ↔ x = .ok b := by
  cases x with
  | ok a =>
      show (.ok a : Except ε' β) = .ok b ↔ (.ok a : Except ε β) = .ok b
      rw [Except.ok.injEq, Except.ok.injEq]
  | error e => exact iff_of_false nofun nofun

variable {check : α → Except ε Unit} {elements : List α}

theorem forM_eq_ok_iff :
    elements.forM check = .ok () ↔ ∀ a ∈ elements, check a = .ok () := by
  induction elements with
  | nil => exact iff_of_true rfl fun a ha => by cases ha
  | cons a rest ih =>
      show (check a >>= fun _ => rest.forM check) = .ok () ↔ _
      rw [check_bind_eq_ok_iff, ih, List.forall_mem_cons]

/-! ## What a chain raises -/

theorem raiseIf_eq_error {raised : ε} (h : raiseIf condition e = .error raised) :
    raised = e := by
  cases condition with
  | true => exact (Except.error.inj h).symm
  | false => cases h

theorem orRaise_eq_error {value : Option α} {raised : ε} (h : orRaise value e = .error raised) :
    raised = e := by
  cases value with
  | none => exact (Except.error.inj h).symm
  | some a => cases h

theorem mapError_eq_error {f : ε → ε'} {x : Except ε β} {raised : ε'}
    (h : x.mapError f = .error raised) : ∃ e, raised = f e := by
  cases x with
  | ok a => cases h
  | error e => exact ⟨e, (Except.error.inj h).symm⟩

variable {P : ε → Prop}

theorem bind_error
    (hx : ∀ e, x = .error e → P e) (hf : ∀ a e, f a = .error e → P e) :
    ∀ e, (x >>= f) = .error e → P e := by
  cases x with
  | error e => exact fun raised h => hx raised (congrArg Except.error (Except.error.inj h))
  | ok a => exact fun e h => hf a e h

theorem forM_error
    (h : ∀ a e, check a = .error e → P e) : ∀ e, elements.forM check = .error e → P e := by
  induction elements with
  | nil => exact fun e he => by cases he
  | cons a rest ih =>
      show ∀ e, (check a >>= fun _ => rest.forM check) = .error e → P e
      exact bind_error (h a) fun _ => ih

/-! ## Each item of a list -/

theorem mapM_eq_ok_iff {g : α → β} (l : List α) :
    l.mapM f = .ok (l.map g) ↔ ∀ a ∈ l, f a = .ok (g a) := by
  induction l with
  | nil => exact iff_of_true rfl fun a ha => absurd ha List.not_mem_nil
  | cons a l ih =>
      rw [List.mapM_cons, List.forall_mem_cons, ← ih]
      cases f a with
      | error e => exact iff_of_false nofun fun h => by cases h.1
      | ok b =>
          cases l.mapM f with
          | error e => exact iff_of_false nofun fun h => by cases h.2
          | ok bs =>
              constructor
              · intro h
                cases h
                exact ⟨rfl, rfl⟩
              · rintro ⟨hb, hbs⟩
                cases hb
                cases hbs
                rfl

variable {l : List α}

theorem exists_of_mapM_eq_ok {bs : List β}
    (h : l.mapM f = .ok bs) (hb : b ∈ bs) : ∃ a ∈ l, f a = .ok b := by
  induction l generalizing bs with
  | nil =>
      cases h
      cases hb
  | cons a l ih =>
      rw [List.mapM_cons] at h
      obtain ⟨first, hfirst, h⟩ := bind_eq_ok_iff.mp h
      obtain ⟨rest, hrest, h⟩ := bind_eq_ok_iff.mp h
      cases h
      rcases List.mem_cons.mp hb with rfl | hb
      · exact ⟨a, List.mem_cons_self, hfirst⟩
      · obtain ⟨a', ha', hb'⟩ := ih hrest hb
        exact ⟨a', List.mem_cons_of_mem a ha', hb'⟩

theorem exists_mapM_eq_ok_iff :
    (∃ bs, l.mapM f = .ok bs) ↔ ∀ a ∈ l, ∃ b, f a = .ok b := by
  induction l with
  | nil => exact iff_of_true ⟨[], rfl⟩ fun a ha => absurd ha List.not_mem_nil
  | cons a l ih =>
      rw [List.mapM_cons, List.forall_mem_cons, ← ih]
      cases f a with
      | error e => exact iff_of_false (fun ⟨_, h⟩ => by cases h) fun ⟨⟨_, h⟩, _⟩ => by cases h
      | ok b =>
          cases l.mapM f with
          | error e => exact iff_of_false (fun ⟨_, h⟩ => by cases h) fun ⟨_, ⟨_, h⟩⟩ => by cases h
          | ok bs => exact iff_of_true ⟨b :: bs, rfl⟩ ⟨⟨b, rfl⟩, ⟨bs, rfl⟩⟩

theorem first_unique {P : α → Prop} {front back front' back' : List α} {a' : α}
    (h : front ++ a :: back = front' ++ a' :: back') (hfront : ∀ b ∈ front, ¬P b) (ha : P a)
    (hfront' : ∀ b ∈ front', ¬P b) (ha' : P a') : a = a' := by
  rcases List.append_eq_append_iff.mp h with ⟨gap, rfl, hgap⟩ | ⟨gap, rfl, hgap⟩
  · cases gap with
    | nil => exact (List.cons.inj hgap).1
    | cons first gap =>
        cases hgap
        exact absurd ha (hfront' a (List.mem_append_right _ List.mem_cons_self))
  · cases gap with
    | nil => exact (List.cons.inj hgap).1.symm
    | cons first gap =>
        cases hgap
        exact absurd ha' (hfront a' (List.mem_append_right _ List.mem_cons_self))

/-- Something is raised at the first item that is not let through. -/
theorem mapM_eq_error_iff :
    l.mapM f = .error e ↔ ∃ front a back, l = front ++ a :: back ∧
      (∀ b ∈ front, ∃ c, f b = .ok c) ∧ f a = .error e := by
  induction l with
  | nil =>
      refine iff_of_false nofun ?_
      rintro ⟨front, a, back, heq, -⟩
      simp at heq
  | cons first l ih =>
      rw [List.mapM_cons]
      cases hfirst : f first with
      | error e' =>
          constructor
          · intro h
            cases h
            exact ⟨[], first, l, rfl, fun b hb => absurd hb List.not_mem_nil, hfirst⟩
          · rintro ⟨front, a, back, heq, hfront, ha⟩
            cases front with
            | nil =>
                cases heq
                cases hfirst.symm.trans ha
                rfl
            | cons b front =>
                cases heq
                obtain ⟨c, hc⟩ := hfront first List.mem_cons_self
                rw [hfirst] at hc
                cases hc
      | ok c =>
          have hrest : (do let bs ← l.mapM f; return c :: bs : Except ε (List β)) = .error e ↔
              l.mapM f = .error e := by
            cases l.mapM f with
            | error e' => exact Iff.rfl
            | ok bs => exact iff_of_false nofun nofun
          refine hrest.trans (ih.trans ⟨?_, ?_⟩)
          · rintro ⟨front, a, back, rfl, hfront, ha⟩
            refine ⟨first :: front, a, back, rfl, fun b hb => ?_, ha⟩
            rcases List.mem_cons.mp hb with rfl | hb
            · exact ⟨c, hfirst⟩
            · exact hfront b hb
          · rintro ⟨front, a, back, heq, hfront, ha⟩
            cases front with
            | nil =>
                cases heq
                rw [hfirst] at ha
                cases ha
            | cons b front =>
                cases heq
                exact ⟨front, a, back, rfl, fun b hb => hfront b (List.mem_cons_of_mem _ hb), ha⟩

end Checks
