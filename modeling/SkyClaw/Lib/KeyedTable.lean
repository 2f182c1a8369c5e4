import Mathlib.Data.List.Nodup

/-!
# Tables with a primary key

A `KeyedTable key` is a list of rows no two of which share their key; the
uniqueness proof is a field, so a table with a duplicate key cannot be built.
The operations are the ones an SQL script performs on such a table: a lookup by
key, a `DELETE … WHERE`, and an insert that replaces the row in the way.  Each operation comes with the
lemma that says what a later lookup sees, so that a development never unfolds
the row list.
-/

/-- Rows of type `ρ` with pairwise distinct values of `key`. -/
structure KeyedTable {κ ρ : Type*} (key : ρ → κ) where
  rows : List ρ
  nodup : (rows.map key).Nodup

namespace KeyedTable

variable {κ ρ : Type*} [DecidableEq κ] {key : ρ → κ}

/-- The table without rows. -/
def empty (key : ρ → κ) : KeyedTable key := ⟨[], List.nodup_nil⟩

section

variable (t : KeyedTable key)

/-- `SELECT … WHERE key = k`. -/
def lookup (k : κ) : Option ρ :=
  t.rows.find? fun r => decide (key r = k)

/-- `DELETE … WHERE p`. -/
def deleteWhere (p : ρ → Bool) : KeyedTable key :=
  ⟨t.rows.filter fun r => !p r,
    t.nodup.sublist ((List.filter_sublist).map key)⟩

/-- The number of rows a `WHERE p` selects. -/
def countWhere (p : ρ → Bool) : Nat := t.rows.countP p

/-- Insert `r`; a row with the same key is replaced. -/
def upsert (r : ρ) : KeyedTable key :=
  ⟨t.rows.filter (fun q => !decide (key q = key r)) ++ [r], by
    rw [List.map_append, List.nodup_append]
    refine ⟨t.nodup.sublist ((List.filter_sublist).map key), by simp, ?_⟩
    intro k hk k' hk' heq
    simp only [List.map_cons, List.map_nil, List.mem_singleton] at hk'
    obtain ⟨q, hq, rfl⟩ := List.mem_map.mp hk
    have hne : key q ≠ key r := by simpa using (List.mem_filter.mp hq).2
    exact hne (heq.trans hk')⟩

/-- `d[key] = r`: a row with the same key is replaced where it stands. -/
def setItem (r : ρ) : KeyedTable key :=
  if h : key r ∈ t.rows.map key then
    ⟨t.rows.map fun q => if key q = key r then r else q, by
      have hmap : (t.rows.map fun q => if key q = key r then r else q).map key = t.rows.map key := by
        rw [List.map_map]
        refine List.map_congr_left fun q _ => ?_
        by_cases hq : key q = key r <;> simp [hq]
      rw [hmap]
      exact t.nodup⟩
  else
    ⟨t.rows ++ [r], by
      rw [List.map_append, List.nodup_append]
      refine ⟨t.nodup, by simp, ?_⟩
      intro k hk k' hk' heq
      obtain rfl := List.mem_singleton.mp hk'
      exact h (heq ▸ hk)⟩

/-- `d.move_to_end(k)`, where it is there. -/
def moveToEnd (k : κ) : KeyedTable key :=
  match t.lookup k with
  | some r => t.upsert r
  | none => t

/-- `d.popitem(last=False)` -/
def popFirst : KeyedTable key :=
  ⟨t.rows.tail, by
    rw [List.map_tail]
    exact t.nodup.sublist (List.tail_sublist _)⟩

end

@[simp] theorem lookup_empty (k : κ) : (empty key).lookup k = none := rfl

variable {t : KeyedTable key} {k : κ} {r : ρ}

theorem lookup_eq_some_iff :
    t.lookup k = some r ↔ r ∈ t.rows ∧ key r = k := by
  obtain ⟨rows, hnodup⟩ := t
  simp only [lookup]
  induction rows with
  | nil => simp
  | cons q rows ih =>
      simp only [List.map_cons, List.nodup_cons] at hnodup
      rw [List.find?_cons]
      by_cases hq : key q = k
      · simp only [hq, decide_true, Option.some.injEq, List.mem_cons]
        constructor
        · rintro rfl
          exact ⟨.inl rfl, hq⟩
        · rintro ⟨rfl | hmem, hr⟩
          · rfl
          · exact absurd (List.mem_map.mpr ⟨r, hmem, hr.trans hq.symm⟩) hnodup.1
      · simp only [hq, decide_false, List.mem_cons]
        rw [ih hnodup.2]
        constructor
        · rintro ⟨hmem, hr⟩
          exact ⟨.inr hmem, hr⟩
        · rintro ⟨rfl | hmem, hr⟩
          · exact absurd hr hq
          · exact ⟨hmem, hr⟩

theorem filter_rows (t : KeyedTable key) (k : κ) :
    (t.rows.filter fun r => key r = k) = (t.lookup k).toList := by
  obtain ⟨rows, hnodup⟩ := t
  unfold lookup
  induction rows with
  | nil => rfl
  | cons r rows ih =>
      rw [List.map_cons, List.nodup_cons] at hnodup
      by_cases hr : key r = k
      · have hnone : (rows.filter fun r => key r = k) = [] := by
          rw [List.filter_eq_nil_iff]
          intro other hother hk
          exact hnodup.1 (hr.trans (of_decide_eq_true hk).symm ▸ List.mem_map_of_mem hother)
        simp [hr, hnone]
      · simpa [hr] using ih hnodup.2

theorem lookup_eq_none_iff :
    t.lookup k = none ↔ ∀ r ∈ t.rows, key r ≠ k := by
  simp [lookup, List.find?_eq_none]

theorem key_of_lookup
    (h : t.lookup k = some r) : key r = k := (lookup_eq_some_iff.mp h).2

theorem lookup_eq_of_mem_iff {o : Option ρ}
    (h : ∀ r, (r ∈ t.rows ∧ key r = k) ↔ o = some r) : t.lookup k = o := by
  cases ho : o with
  | some r => exact lookup_eq_some_iff.mpr ((h r).mpr ho)
  | none =>
      refine lookup_eq_none_iff.mpr fun r hr hk => ?_
      have hsome : o = some r := (h r).mp ⟨hr, hk⟩
      rw [ho] at hsome
      cases hsome

theorem lookup_deleteWhere (t : KeyedTable key) (p : ρ → Bool) (k : κ) :
    (t.deleteWhere p).lookup k = (t.lookup k).filter fun r => !p r := by
  refine lookup_eq_of_mem_iff fun r => ?_
  rw [Option.filter_eq_some_iff, lookup_eq_some_iff]
  simp only [deleteWhere, List.mem_filter]
  tauto

theorem lookup_upsert (t : KeyedTable key) (r : ρ) (k : κ) :
    (t.upsert r).lookup k = if key r = k then some r else t.lookup k := by
  refine lookup_eq_of_mem_iff fun q => ?_
  simp only [upsert, List.mem_append, List.mem_filter, List.mem_singleton, Bool.not_eq_true',
    decide_eq_false_iff_not]
  by_cases hk : key r = k
  · simp only [hk, if_true, Option.some.injEq]
    constructor
    · rintro ⟨⟨_, hne⟩ | rfl, hq⟩
      · exact absurd hq hne
      · rfl
    · rintro rfl
      exact ⟨.inr rfl, hk⟩
  · simp only [hk, if_false, lookup_eq_some_iff]
    constructor
    · rintro ⟨⟨hmem, _⟩ | rfl, hq⟩
      · exact ⟨hmem, hq⟩
      · exact absurd hq hk
    · rintro ⟨hmem, hq⟩
      exact ⟨.inl ⟨hmem, fun h => hk (h.symm.trans hq)⟩, hq⟩

theorem lookup_setItem (t : KeyedTable key) (r : ρ) (k : κ) :
    (t.setItem r).lookup k = if key r = k then some r else t.lookup k := by
  refine lookup_eq_of_mem_iff fun q => ?_
  unfold setItem
  split
  · next hmem =>
    obtain ⟨old, hold, hkey⟩ := List.mem_map.mp hmem
    simp only [List.mem_map]
    by_cases hk : key r = k
    · rw [if_pos hk, Option.some.injEq]
      constructor
      · rintro ⟨⟨p, hp, rfl⟩, hq⟩
        by_cases hpr : key p = key r
        · rw [if_pos hpr]
        · rw [if_neg hpr] at hq
          exact absurd (hq.trans hk.symm) hpr
      · rintro rfl
        exact ⟨⟨old, hold, if_pos hkey⟩, hk⟩
    · rw [if_neg hk, lookup_eq_some_iff]
      constructor
      · rintro ⟨⟨p, hp, rfl⟩, hq⟩
        by_cases hpr : key p = key r
        · rw [if_pos hpr] at hq
          exact absurd hq hk
        · rw [if_neg hpr] at hq ⊢
          exact ⟨hp, hq⟩
      · rintro ⟨hp, hq⟩
        refine ⟨⟨q, hp, if_neg fun heq => hk (heq.symm.trans hq)⟩, hq⟩
  · next hmem =>
    simp only [List.mem_append, List.mem_singleton]
    by_cases hk : key r = k
    · rw [if_pos hk, Option.some.injEq]
      constructor
      · rintro ⟨hq | rfl, hkey⟩
        · exact absurd (List.mem_map.mpr ⟨q, hq, hkey.trans hk.symm⟩) hmem
        · rfl
      · rintro rfl
        exact ⟨.inr rfl, hk⟩
    · rw [if_neg hk, lookup_eq_some_iff]
      constructor
      · rintro ⟨hq | rfl, hkey⟩
        · exact ⟨hq, hkey⟩
        · exact absurd hkey hk
      · rintro ⟨hq, hkey⟩
        exact ⟨.inl hq, hkey⟩

@[simp] theorem lookup_upsert_self (t : KeyedTable key) (r : ρ) :
    (t.upsert r).lookup (key r) = some r := by
  rw [lookup_upsert, if_pos rfl]

theorem lookup_upsert_of_ne (t : KeyedTable key) (h : key r ≠ k) :
    (t.upsert r).lookup k = t.lookup k := by
  rw [lookup_upsert, if_neg h]

variable {p : ρ → Bool}

omit [DecidableEq κ] in
theorem deleteWhere_eq_self_iff :
    t.deleteWhere p = t ↔ ∀ r ∈ t.rows, p r = false := by
  obtain ⟨rows, hnodup⟩ := t
  constructor
  · intro h r hr
    have hrows : rows.filter (fun q => !p q) = rows := congrArg KeyedTable.rows h
    have hkept : (!p r) = true := List.filter_eq_self.mp hrows r hr
    rwa [Bool.not_eq_true'] at hkept
  · intro h
    have hrows : rows.filter (fun q => !p q) = rows :=
      List.filter_eq_self.mpr fun r hr => by rw [h r hr]; rfl
    unfold deleteWhere
    congr

theorem lookup_deleteWhere_of_not
    (hr : t.lookup k = some r) (hp : p r = false) :
    (t.deleteWhere p).lookup k = some r := by
  rw [lookup_deleteWhere, hr]
  simp [hp]

/-! ## In order of insertion -/

theorem lookup_moveToEnd (t : KeyedTable key) (k k' : κ) :
    (t.moveToEnd k).lookup k' = t.lookup k' := by
  unfold moveToEnd
  split
  · next r hr =>
    rw [lookup_upsert]
    split_ifs with heq
    · rw [← heq, key_of_lookup hr, hr]
    · rfl
  · rfl

theorem perm_moveToEnd (t : KeyedTable key) (k : κ) : (t.moveToEnd k).rows.Perm t.rows := by
  have hnodup : ∀ t : KeyedTable key, t.rows.Nodup := fun t => t.nodup.of_map _
  refine (List.perm_ext_iff_of_nodup (hnodup _) (hnodup t)).mpr fun r => ?_
  have hlookup := lookup_moveToEnd t k (key r)
  have hiff : ∀ t : KeyedTable key, r ∈ t.rows ↔ t.lookup (key r) = some r := fun t => by
    rw [lookup_eq_some_iff, and_iff_left rfl]
  rw [hiff, hiff, hlookup]

theorem lookup_of_popFirst
    (h : t.popFirst.lookup k = some r) : t.lookup k = some r := by
  rw [lookup_eq_some_iff] at h ⊢
  exact ⟨List.mem_of_mem_tail h.1, h.2⟩

theorem rows_setItem (t : KeyedTable key) (r : ρ) :
    ((t.lookup (key r)).isSome = true ∧ (t.setItem r).rows.length = t.rows.length) ∨
      (t.lookup (key r) = none ∧ (t.setItem r).rows = t.rows ++ [r]) := by
  unfold setItem
  split
  · next hmem =>
    obtain ⟨old, hold, hkey⟩ := List.mem_map.mp hmem
    refine .inl ⟨?_, List.length_map _⟩
    rw [lookup_eq_some_iff.mpr ⟨hold, hkey⟩]
    rfl
  · next hmem =>
    refine .inr ⟨lookup_eq_none_iff.mpr fun q hq heq => hmem ?_, rfl⟩
    exact List.mem_map.mpr ⟨q, hq, heq⟩

/-! ## Rows before they are a table -/

/-- `d[key] = r`, on the rows. -/
def setRow (key : ρ → κ) (rows : List ρ) (r : ρ) : List ρ :=
  if key r ∈ rows.map key then rows.map fun q => if key q = key r then r else q else rows ++ [r]

theorem keys_setRow (rows : List ρ) (r : ρ) : (setRow key rows r).map key =
    if key r ∈ rows.map key then rows.map key else rows.map key ++ [key r] := by
  unfold setRow
  split_ifs with hmem
  · rw [List.map_map]
    refine List.map_congr_left fun q _ => ?_
    by_cases hq : key q = key r <;> simp [hq]
  · simp

variable {rows rs : List ρ}

theorem nodup_foldl_setRow (h : (rows.map key).Nodup) :
    ((rs.foldl (setRow key) rows).map key).Nodup := by
  induction rs generalizing rows with
  | nil => exact h
  | cons r rs ih =>
      refine ih ?_
      rw [keys_setRow]
      split_ifs with hmem
      · exact h
      · exact List.nodup_append.mpr ⟨h, List.nodup_singleton _, fun k hk k' hk' heq =>
          hmem (List.mem_singleton.mp hk' ▸ heq ▸ hk)⟩

theorem mem_foldl_setRow {r : ρ} (h : r ∈ rs.foldl (setRow key) rows) : r ∈ rows ∨ r ∈ rs := by
  induction rs generalizing rows with
  | nil => exact .inl h
  | cons r' rs ih =>
      rcases ih h with hset | hrest
      · unfold setRow at hset
        split_ifs at hset
        · obtain ⟨old, hold, rfl⟩ := List.mem_map.mp hset
          split_ifs
          · exact .inr List.mem_cons_self
          · exact .inl hold
        · rcases List.mem_append.mp hset with hold | hnew
          · exact .inl hold
          · exact .inr (List.mem_cons.mpr (.inl (List.mem_singleton.mp hnew)))
      · exact .inr (List.mem_cons_of_mem _ hrest)

/-- New keys are put at the end. -/
theorem foldl_setRow (h : ((rows ++ rs).map key).Nodup) : rs.foldl (setRow key) rows = rows ++ rs := by
  induction rs generalizing rows with
  | nil => exact (List.append_nil rows).symm
  | cons r rs ih =>
      have hrow : setRow key rows r = rows ++ [r] := by
        refine if_neg fun hmem => ?_
        simp only [List.map_append, List.map_cons, List.nodup_append] at h
        exact h.2.2 _ hmem _ List.mem_cons_self rfl
      rw [List.foldl_cons, hrow, ih (by simpa using h)]
      simp

theorem rows_setItem_eq (t : KeyedTable key) (r : ρ) : (t.setItem r).rows = setRow key t.rows r := by
  unfold setItem setRow
  split_ifs <;> rfl

theorem rows_foldl_setItem (t : KeyedTable key) (rs : List ρ) :
    (rs.foldl setItem t).rows = rs.foldl (setRow key) t.rows := by
  induction rs generalizing t with
  | nil => rfl
  | cons r rs ih => rw [List.foldl_cons, ih, rows_setItem_eq, List.foldl_cons]

end KeyedTable
