import Mathlib.Data.List.Sort

/-!
# The last entry wins

Entries are applied one after the other, and each may leave something at a place; what stays
there is what the last one left.  When the entries are first sorted by a priority, this is
what the last one of the highest priority left, as the sort keeps the order of equals.
-/

namespace LastWins

variable {ε κ ι : Type*} (gives : ε → Option κ)

/-- What stays at a place, for what each entry leaves there. -/
def leaves : List ε → Option κ
  | [] => none
  | e :: rest => (leaves rest).or (gives e)

variable {gives}

@[simp] theorem leaves_nil : leaves gives [] = none := rfl

@[simp] theorem leaves_cons (e : ε) (rest : List ε) :
    leaves gives (e :: rest) = (leaves gives rest).or (gives e) := rfl

@[simp] theorem leaves_append (entries more : List ε) :
    leaves gives (entries ++ more) = (leaves gives more).or (leaves gives entries) := by
  induction entries with
  | nil => simp
  | cons e rest ih => simp [ih, Option.or_assoc]

theorem leaves_eq_none_iff {entries : List ε} :
    leaves gives entries = none ↔ ∀ e ∈ entries, gives e = none := by
  induction entries with
  | nil => simp
  | cons e rest ih => simp [ih, and_comm]

theorem leaves_flatMap {part : Type*} (parts : ε → List part) (gives : part → Option κ)
    (entries : List ε) :
    leaves gives (entries.flatMap parts) = leaves (fun e => leaves gives (parts e)) entries := by
  induction entries with
  | nil => rfl
  | cons e rest ih => simp [ih]

@[simp] theorem leaves_map {ε' : Type*} (f : ε' → ε) (entries : List ε') :
    leaves gives (entries.map f) = leaves (fun e => gives (f e)) entries := by
  induction entries with
  | nil => rfl
  | cons e rest ih => simp [ih]

section Priority

variable [LinearOrder ι] (priority : ε → ι)

/-- An entry comes last of those that leave something: it is of the highest priority, and after
the others that have it. -/
structure ComesLast (gives : ε → Option κ) (pre : List ε) (e : ε) (post : List ε)
    (content : κ) : Prop where
  leaves : gives e = some content
  before : ∀ f ∈ pre, gives f ≠ none → priority f ≤ priority e
  after : ∀ f ∈ post, gives f ≠ none → priority f < priority e

/-- The entries by their priority, equals in their order. -/
abbrev byPriority (entries : List ε) : List ε :=
  entries.insertionSort fun e f => priority e ≤ priority f

variable {priority}

variable {pre post : List ε} {e : ε}

theorem ComesLast.le {content : κ}
    (h : ComesLast priority gives pre e post content) :
    ∀ f ∈ pre ++ e :: post, gives f ≠ none → priority f ≤ priority e := by
  intro f hf hgives
  rcases List.mem_append.mp hf with hpre | hf
  · exact h.before f hpre hgives
  · rcases List.mem_cons.mp hf with rfl | hpost
    · exact le_rfl
    · exact (h.after f hpost hgives).le

theorem ComesLast.leaves_filter_after {entries : List ε} {content : κ}
    (h : ComesLast priority gives pre e post content) (hsub : ∀ f ∈ entries, f ∈ post) :
    LastWins.leaves gives (entries.filter fun f => priority f = priority e) = none := by
  rw [leaves_eq_none_iff]
  intro f hf
  obtain ⟨hmem, hequal⟩ := List.mem_filter.mp hf
  by_contra hgives
  exact absurd (of_decide_eq_true hequal) (h.after f (hsub f hmem) hgives).ne

theorem leaves_orderedInsert_of_none (he : gives e = none) (entries : List ε) :
    leaves gives (entries.orderedInsert (fun e f => priority e ≤ priority f) e) =
      leaves gives entries := by
  induction entries with
  | nil => simp [he]
  | cons f rest ih =>
      rw [List.orderedInsert_cons]
      split
      · rw [leaves_cons, he, Option.or_none]
      · rw [leaves_cons, leaves_cons, ih]

theorem leaves_orderedInsert_of_le {f : ε} {entries : List ε}
    (hsorted : entries.Pairwise fun e f => priority e ≤ priority f)
    (hf : f ∈ entries) (hgives : gives f ≠ none) (hle : priority e ≤ priority f) :
    leaves gives (entries.orderedInsert (fun e f => priority e ≤ priority f) e) =
      leaves gives entries := by
  induction entries with
  | nil => cases hf
  | cons g rest ih =>
      rw [List.pairwise_cons] at hsorted
      rw [List.orderedInsert_cons]
      split
      · rw [leaves_cons]
        cases hleaves : leaves gives (g :: rest) with
        | some content => rfl
        | none => exact absurd (leaves_eq_none_iff.mp hleaves f hf) hgives
      · next hnot =>
          rcases List.mem_cons.mp hf with rfl | hf
          · exact absurd hle hnot
          · rw [leaves_cons, leaves_cons, ih hsorted.2 hf]

/-- An entry of a higher priority than the others overwrites them. -/
theorem leaves_orderedInsert_of_lt {content : κ} (he : gives e = some content)
    {entries : List ε} (hlt : ∀ f ∈ entries, gives f ≠ none → priority f < priority e)
    (hsorted : entries.Pairwise fun e f => priority e ≤ priority f) :
    leaves gives (entries.orderedInsert (fun e f => priority e ≤ priority f) e) =
      some content := by
  induction entries with
  | nil => simp [he]
  | cons g rest ih =>
      rw [List.pairwise_cons] at hsorted
      rw [List.forall_mem_cons] at hlt
      rw [List.orderedInsert_cons]
      split
      · next hle =>
          have hnone : leaves gives (g :: rest) = none := by
            rw [leaves_eq_none_iff, List.forall_mem_cons]
            constructor
            · by_contra hgives
              exact absurd (hlt.1 hgives) (not_lt.mpr hle)
            · intro f hf
              by_contra hgives
              exact absurd (hlt.2 f hf hgives) (not_lt.mpr (hle.trans (hsorted.1 f hf)))
          rw [leaves_cons, hnone, he, Option.none_or]
      · rw [leaves_cons, ih hlt.2 hsorted.2, Option.some_or]

/-- Only the entries of the highest priority matter, and they keep their order. -/
theorem leaves_byPriority_eq {top : ι} {entries : List ε}
    (hle : ∀ f ∈ entries, gives f ≠ none → priority f ≤ top)
    (htop : ∃ f ∈ entries, gives f ≠ none ∧ priority f = top) :
    leaves gives (byPriority priority entries) =
      leaves gives (entries.filter fun f => priority f = top) := by
  induction entries with
  | nil =>
      obtain ⟨_, hmem, _⟩ := htop
      cases hmem
  | cons e rest ih =>
      rw [List.forall_mem_cons] at hle
      have hsorted := List.pairwise_insertionSort (fun e f => priority e ≤ priority f) rest
      show leaves gives (List.orderedInsert _ e (byPriority priority rest)) = _
      by_cases hrest : ∃ f ∈ rest, gives f ≠ none ∧ priority f = top
      · -- the entry is overwritten, if it leaves anything
        have hinsert : leaves gives ((byPriority priority rest).orderedInsert
            (fun e f => priority e ≤ priority f) e) = leaves gives (byPriority priority rest) := by
          by_cases he : gives e = none
          · exact leaves_orderedInsert_of_none he _
          · obtain ⟨f, hf, hgives, hfirst⟩ := hrest
            exact leaves_orderedInsert_of_le hsorted ((List.mem_insertionSort _).mpr hf) hgives
              (hfirst ▸ hle.1 he)
        obtain ⟨content, hcontent⟩ :
            ∃ content, leaves gives (rest.filter fun f => priority f = top) = some content := by
          obtain ⟨f, hf, hgives, hfirst⟩ := hrest
          refine Option.ne_none_iff_exists'.mp fun hnone => hgives ?_
          exact leaves_eq_none_iff.mp hnone f (by simpa using ⟨hf, hfirst⟩)
        rw [hinsert, ih hle.2 hrest, List.filter_cons]
        split
        · rw [leaves_cons, hcontent, Option.some_or]
        · rfl
      · obtain ⟨hgives, hfirst⟩ : gives e ≠ none ∧ priority e = top := by
          obtain ⟨f, hf, hf'⟩ := htop
          rcases List.mem_cons.mp hf with rfl | hf
          · exact hf'
          · exact absurd ⟨f, hf, hf'⟩ hrest
        obtain ⟨content, hcontent⟩ := Option.ne_none_iff_exists'.mp hgives
        have hlt : ∀ f ∈ byPriority priority rest, gives f ≠ none → priority f < priority e := by
          intro f hf hf'
          have hmem := (List.mem_insertionSort _).mp hf
          refine hfirst ▸ lt_of_le_of_ne (hle.2 f hmem hf') fun heq => hrest ⟨f, hmem, hf', heq⟩
        have hnone : leaves gives (rest.filter fun f => priority f = top) = none := by
          rw [leaves_eq_none_iff]
          intro f hf
          by_contra hf'
          obtain ⟨hmem, heq⟩ := List.mem_filter.mp hf
          exact hrest ⟨f, hmem, hf', of_decide_eq_true heq⟩
        rw [leaves_orderedInsert_of_lt hcontent hlt hsorted, List.filter_cons,
          if_pos (decide_eq_true hfirst), leaves_cons, hnone, hcontent, Option.none_or]

end Priority

end LastWins
