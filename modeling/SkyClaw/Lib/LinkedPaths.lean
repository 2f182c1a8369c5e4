import SkyClaw.Lib.PurePath

/-!
# Paths through symbolic links

What `Path.resolve` makes of a path in a file system with links.  A link that is met again while it
is being followed is a loop: where there are `n` links, no more than `n` of them are followed inside
one another.  A location is `Resolved` if no link lies on the way to it; resolving a path leads to such
a location, and a resolved location is resolved to itself.
-/

open PurePath

/-- What `lstat` finds. -/
inductive Entry (fl : Flavour) where
  | file
  | directory
  | link (target : PurePath fl)

/-- Directories, files and finitely many links. -/
structure FileSystem (fl : Flavour) where
  entry : Location fl → Option (Entry fl)
  links : List (Location fl)
  mem_links : ∀ location target, entry location = some (.link target) → location ∈ links
  /-- The names in a directory; `none`: it cannot be read. -/
  listdir : Location fl → Option (List (FileName fl))
  /-- The current directory of each drive. -/
  cwd : List Char → Location fl

/-- Why a path is not resolved. -/
inductive ResolveError where
  /-- an `OSError` -/
  | notFound
  /-- a `RuntimeError` -/
  | loop
  /-- a `ValueError`: no name has a null character. -/
  | null
deriving DecidableEq

namespace Location

variable {fl : Flavour}

theorem ext_of_parts {a b : Location fl} (hdrive : a.drive = b.drive) (hparts : a.parts = b.parts) :
    a = b := by
  cases a
  cases b
  cases hdrive
  cases hparts
  rfl

/-- The root of the drive. -/
def top (location : Location fl) : Location fl :=
  ⟨location.drive, [], location.drive_eq_nil, parentName_not_mem_nil⟩

def parent (location : Location fl) : Location fl :=
  ⟨location.drive, location.parts.dropLast, location.drive_eq_nil, fun hmem =>
    location.resolved (List.dropLast_subset _ hmem)⟩

theorem not_mem_singleton {name : List Char} (h : name ≠ parentName) : parentName ∉ [name] :=
  fun hmem => h (List.mem_singleton.mp hmem).symm

def child (location : Location fl) (name : List Char) (h : name ≠ parentName) : Location fl :=
  location.append [name] (not_mem_singleton h)

/-- The first parts of the way to a location. -/
def take (location : Location fl) (n : Nat) : Location fl :=
  ⟨location.drive, location.parts.take n, location.drive_eq_nil, fun hmem =>
    location.resolved (List.take_subset _ _ hmem)⟩

@[simp] theorem child_parts (location : Location fl) (name : List Char) (h : name ≠ parentName) :
    (location.child name h).parts = location.parts ++ [name] := rfl

end Location

namespace FileSystem

variable {fl : Flavour}

/-! ## Following links -/

def nul : Char := Char.ofNat 0

/-- `..` takes away the name in front of it. -/
def squeeze (names : List (List Char)) (name : List Char) : List (List Char) :=
  if name = parentName ∧ names.getLast?.any (· ≠ parentName) then names.dropLast
  else names ++ [name]

/-- Windows takes `..` by the text alone, before any link is followed. -/
def lexical (fl : Flavour) (parts : List (List Char)) : List (List Char) :=
  match fl with
  | .posix => parts
  | .windows => parts.foldl squeeze []

theorem drive_iff {path : PurePath fl} (hdrive : path.drive ≠ []) :
    path.drive = [] ↔ fl = .posix :=
  iff_of_false hdrive fun hposix => hdrive (path.drive_posix hposix)

/-- From where a path is gone through that is met in a directory. -/
def origin (directory : Location fl) (path : PurePath fl) : Location fl :=
  if hdrive : path.drive = [] then if path.root = [] then directory else directory.top
  else ⟨path.drive, [], drive_iff hdrive, parentName_not_mem_nil⟩

variable (fs : FileSystem fl)

def IsLink (location : Location fl) : Prop := ∃ target, fs.entry location = some (.link target)

/-- One name on the way. -/
def follow (expand : Location fl → PurePath fl → Except ResolveError (Location fl)) (strict : Bool)
    (location : Location fl) (name : List Char) : Except ResolveError (Location fl) :=
  if h : name = parentName then .ok location.parent
  else if nul ∈ name then .error .null
  else match fs.entry (location.child name h) with
    | some (.link target) => expand location target
    | some _ => .ok (location.child name h)
    | none => if strict then .error .notFound else .ok (location.child name h)

/-- The names one after the other, with at most so many links inside one another. -/
def walk (strict : Bool) : Nat → Location fl → List (List Char) → Except ResolveError (Location fl)
  | 0, location, parts =>
      (lexical fl parts).foldlM (follow fs (fun _ _ => .error .loop) strict) location
  | depth + 1, location, parts =>
      (lexical fl parts).foldlM
        (follow fs (fun directory target =>
          walk strict depth (origin directory target) target.parts) strict) location

/-- `path.resolve(strict)` -/
def resolve (strict : Bool) (path : PurePath fl) : Except ResolveError (Location fl) :=
  if path.root = [] then
    fs.walk strict fs.links.length (fs.cwd path.drive).top
      ((fs.cwd path.drive).parts ++ path.parts)
  else fs.walk strict fs.links.length (origin (fs.cwd []).top path) path.parts

def isSymlink (path : PurePath fl) : Bool :=
  match path.parts.getLast? with
  | some name =>
      if h : name = parentName then false
      else if nul ∈ name then false
      else match fs.resolve true { path with parts := path.parts.dropLast } with
        | .ok directory => match fs.entry (directory.child name h) with
            | some (.link _) => true
            | _ => false
        | .error _ => false
  | none => false

/-! ## Resolved locations -/

/-- No link lies on the way to it. -/
structure Resolved (location : Location fl) : Prop where
  noNull : ∀ name ∈ location.parts, nul ∉ name
  noLink : ∀ n, n < location.parts.length → ¬fs.IsLink (location.take (n + 1))

variable {fs}

variable {location : Location fl}

theorem resolved_of_nil (h : location.parts = []) :
    fs.Resolved location where
  noNull name hname := by
    rw [h] at hname
    cases hname
  noLink n hn := by
    rw [h] at hn
    exact absurd hn (Nat.not_lt_zero n)

theorem Resolved.parent (h : fs.Resolved location) :
    fs.Resolved location.parent := by
  refine ⟨fun name hname => h.noNull name (List.dropLast_subset _ hname), fun n hn => ?_⟩
  have hlength : n < location.parts.length - 1 := by
    have hn : n < location.parts.dropLast.length := hn
    rwa [List.length_dropLast] at hn
  have htake : location.parent.take (n + 1) = location.take (n + 1) := by
    refine Location.ext_of_parts rfl ?_
    show location.parts.dropLast.take (n + 1) = location.parts.take (n + 1)
    rw [List.dropLast_eq_take, List.take_take, Nat.min_eq_left hlength]
  rw [htake]
  exact h.noLink n (by omega)

variable {name : List Char}

variable {hname : name ≠ parentName}

theorem Resolved.child (h : fs.Resolved location) (hnul : nul ∉ name)
    (hchild : ¬fs.IsLink (location.child name hname)) :
    fs.Resolved (location.child name hname) := by
  refine ⟨fun part hpart => ?_, fun n hn => ?_⟩
  · rcases List.mem_append.mp hpart with hpart | hpart
    · exact h.noNull part hpart
    · exact List.mem_singleton.mp hpart ▸ hnul
  rw [Location.child_parts, List.length_append, List.length_singleton] at hn
  rcases Nat.lt_succ_iff_lt_or_eq.mp hn with hn | rfl
  · have htake : (location.child name hname).take (n + 1) = location.take (n + 1) := by
      refine Location.ext_of_parts rfl ?_
      show (location.parts ++ [name]).take (n + 1) = location.parts.take (n + 1)
      exact List.take_append_of_le_length hn
    rw [htake]
    exact h.noLink n hn
  · have htake : (location.child name hname).take (location.parts.length + 1) =
        location.child name hname := by
      refine Location.ext_of_parts rfl ?_
      show (location.parts ++ [name]).take (location.parts.length + 1) = location.parts ++ [name]
      exact List.take_of_length_le (by simp)
    rw [htake]
    exact hchild

theorem foldlM_ok {α β ε : Type} {P : β → Prop} {f : β → α → Except ε β}
    (hstep : ∀ b a b', P b → f b a = .ok b' → P b') {l : List α} {b b' : β} (hb : P b)
    (h : l.foldlM f b = .ok b') : P b' := by
  induction l generalizing b with
  | nil =>
      cases h
      exact hb
  | cons a l ih =>
      rw [List.foldlM_cons] at h
      cases hfirst : f b a with
      | error e =>
          rw [hfirst] at h
          cases h
      | ok next =>
          rw [hfirst] at h
          exact ih (hstep b a next hb hfirst) h

theorem foldlM_ok_of_imp {α β ε : Type} {f g : β → α → Except ε β}
    (hstep : ∀ b a b', f b a = .ok b' → g b a = .ok b') {l : List α} {b b' : β}
    (h : l.foldlM f b = .ok b') : l.foldlM g b = .ok b' := by
  induction l generalizing b with
  | nil => exact h
  | cons a l ih =>
      rw [List.foldlM_cons] at h ⊢
      cases hfirst : f b a with
      | error e =>
          rw [hfirst] at h
          cases h
      | ok next =>
          rw [hfirst] at h
          rw [hstep b a next hfirst]
          exact ih h

variable {strict : Bool}

/-- What one name leads to is resolved, if links are followed to resolved locations. -/
theorem resolved_of_follow
    {expand : Location fl → PurePath fl → Except ResolveError (Location fl)}
    (hexpand : ∀ directory target found, fs.Resolved directory →
      expand directory target = .ok found → fs.Resolved found)
    {found : Location fl} (hlocation : fs.Resolved location)
    (h : fs.follow expand strict location name = .ok found) : fs.Resolved found := by
  unfold follow at h
  split at h
  · cases h
    exact hlocation.parent
  · next hname =>
    split at h
    · cases h
    · next hnul =>
      have hplain : ∀ {entry : Option (Entry fl)}, fs.entry (location.child name hname) = entry →
          (∀ target, entry ≠ some (.link target)) → fs.Resolved (location.child name hname) := by
        intro entry hentry hlink
        refine hlocation.child hnul ?_
        rintro ⟨target, htarget⟩
        exact hlink target (hentry.symm.trans htarget)
      split at h
      · exact hexpand location _ found hlocation h
      · next hlink hentry =>
        cases h
        exact hplain hentry fun target heq => hlink target (Option.some.inj heq)
      · next hentry =>
        cases strict with
        | true => cases h
        | false =>
            cases h
            exact hplain hentry fun _ heq => by cases heq

theorem resolved_origin {directory : Location fl} (h : fs.Resolved directory) (path : PurePath fl) :
    fs.Resolved (origin directory path) := by
  unfold origin
  split
  · split
    · exact h
    · exact resolved_of_nil rfl
  · exact resolved_of_nil rfl

variable {depth : Nat} {parts : List (List Char)}

/-- **Where a walk ends no link is left on the way.** -/
theorem resolved_of_walk {found : Location fl} (hlocation : fs.Resolved location)
    (h : fs.walk strict depth location parts = .ok found) : fs.Resolved found := by
  induction depth generalizing location found parts with
  | zero =>
      refine foldlM_ok (fun b a b' hb hfollow => ?_) hlocation h
      exact resolved_of_follow (fun _ _ _ _ hloop => by cases hloop) hb hfollow
  | succ depth ih =>
      refine foldlM_ok (fun b a b' hb hfollow => ?_) hlocation h
      refine resolved_of_follow (fun directory target found hdirectory hwalk => ?_) hb hfollow
      exact ih (resolved_origin hdirectory target) hwalk

theorem resolved_of_resolve {path : PurePath fl} {found : Location fl}
    (h : fs.resolve strict path = .ok found) : fs.Resolved found := by
  unfold resolve at h
  split at h
  · exact resolved_of_walk (resolved_of_nil rfl) h
  · exact resolved_of_walk (resolved_origin (resolved_of_nil rfl) path) h

/-! ## Resolving what is resolved -/

theorem lexical_of_clean (h : parentName ∉ parts) :
    lexical fl parts = parts := by
  have hsqueeze : ∀ names : List (List Char), parts.foldl squeeze names = names ++ parts := by
    induction parts with
    | nil => exact fun names => (List.append_nil names).symm
    | cons part rest ih =>
        intro names
        have hpart : part ≠ parentName := fun heq => h (heq ▸ List.mem_cons_self)
        rw [List.foldl_cons, ih fun hmem => h (List.mem_cons_of_mem part hmem), squeeze,
          if_neg fun hboth => hpart hboth.1, List.append_assoc]
        rfl
  cases fl with
  | posix => rfl
  | windows => exact hsqueeze []

theorem follow_of_not_link
    {expand : Location fl → PurePath fl → Except ResolveError (Location fl)} (hname : name ≠ parentName) (hnul : nul ∉ name)
    (h : ¬fs.IsLink (location.child name hname)) :
    fs.follow expand false location name = .ok (location.child name hname) := by
  unfold follow
  rw [dif_neg hname, if_neg hnul]
  split
  · next target htarget => exact absurd ⟨target, htarget⟩ h
  · rfl
  · rfl

/-- The names of a resolved location lead to it. -/
theorem foldlM_follow_of_resolved
    {expand : Location fl → PurePath fl → Except ResolveError (Location fl)} (h : fs.Resolved location) :
    location.parts.foldlM (fs.follow expand false) location.top = .ok location := by
  have hprefix : ∀ n, n ≤ location.parts.length →
      (location.parts.take n).foldlM (fs.follow expand false) location.top =
        .ok (location.take n) := by
    intro n
    induction n with
    | zero =>
        intro _
        rw [List.take_zero]
        rfl
    | succ n ih =>
        intro hn
        have hname : location.parts[n] ≠ parentName := fun heq =>
          location.resolved (heq ▸ List.getElem_mem hn)
        have hchild : (location.take n).child location.parts[n] hname = location.take (n + 1) :=
          Location.ext_of_parts rfl (List.take_append_getElem hn)
        rw [List.take_succ_eq_append_getElem hn, List.foldlM_append, ih (Nat.le_of_succ_le hn)]
        show (fs.follow expand false (location.take n) location.parts[n] >>= pure) = _
        rw [bind_pure, follow_of_not_link hname (h.noNull _ (List.getElem_mem hn))
          (by rw [hchild]; exact h.noLink n hn), hchild]
  have hall := hprefix location.parts.length (Nat.le_refl _)
  rw [List.take_length] at hall
  rw [hall]
  exact congrArg Except.ok (Location.ext_of_parts rfl (List.take_length ..))

theorem walk_of_resolved (h : fs.Resolved location) (depth : Nat) :
    fs.walk false depth location.top location.parts = .ok location := by
  cases depth with
  | zero | succ =>
      unfold walk
      rw [lexical_of_clean location.resolved]
      exact foldlM_follow_of_resolved h

/-- **A resolved location is resolved to itself.** -/
theorem resolve_toPath_of_resolved (h : fs.Resolved location) :
    fs.resolve false location.toPath = .ok location := by
  have hroot : location.toPath.root ≠ [] := List.cons_ne_nil fl.sep []
  have horigin : origin (fs.cwd []).top location.toPath = location.top := by
    unfold origin
    by_cases hdrive : location.drive = []
    · rw [dif_pos (show location.toPath.drive = [] from hdrive), if_neg hroot]
      refine Location.ext_of_parts ?_ rfl
      exact (((fs.cwd []).drive_eq_nil).mpr (location.drive_eq_nil.mp hdrive)).trans hdrive.symm
    · rw [dif_neg (show ¬location.toPath.drive = [] from hdrive)]
      rfl
  unfold resolve
  rw [if_neg hroot, horigin]
  exact walk_of_resolved h _

theorem follow_of_strict
    {expand expand' : Location fl → PurePath fl → Except ResolveError (Location fl)}
    (hexpand : ∀ directory target found, expand directory target = .ok found →
      expand' directory target = .ok found)
    {found : Location fl}
    (h : fs.follow expand true location name = .ok found) :
    fs.follow expand' false location name = .ok found := by
  unfold follow at h ⊢
  split at h
  · next hname =>
    rw [dif_pos hname]
    exact h
  · next hname =>
    rw [dif_neg hname]
    split at h
    · cases h
    · next hnul =>
      rw [if_neg hnul]
      split at h
      · next target _ => exact hexpand location target found h
      · exact h
      · cases h

theorem walk_of_strict {found : Location fl}
    (h : fs.walk true depth location parts = .ok found) :
    fs.walk false depth location parts = .ok found := by
  induction depth generalizing location found parts with
  | zero => exact foldlM_ok_of_imp (fun _ _ _ => follow_of_strict fun _ _ _ hloop => hloop) h
  | succ depth ih =>
      refine foldlM_ok_of_imp (fun _ _ _ => follow_of_strict fun directory target found hwalk => ?_) h
      exact ih hwalk

theorem resolve_of_strict {path : PurePath fl} {found : Location fl}
    (h : fs.resolve true path = .ok found) : fs.resolve false path = .ok found := by
  unfold resolve at h ⊢
  split at h
  · next hroot =>
    rw [if_pos hroot]
    exact walk_of_strict h
  · next hroot =>
    rw [if_neg hroot]
    exact walk_of_strict h

theorem eq_of_resolve_toPath {found : Location fl} (h : fs.Resolved location)
    (hfound : fs.resolve true location.toPath = .ok found) : found = location :=
  Except.ok.inj ((resolve_of_strict hfound).symm.trans (resolve_toPath_of_resolved h))

theorem isSymlink_toPath_of_resolved (h : fs.Resolved location) :
    fs.isSymlink location.toPath = false := by
  unfold isSymlink
  split
  · next name hlast =>
    split
    · rfl
    · next hname =>
      split
      · rfl
      split
      · next directory hdirectory =>
        obtain rfl : directory = location.parent := eq_of_resolve_toPath h.parent hdirectory
        have hlast : location.parts.getLast? = some name := hlast
        have hne : location.parts ≠ [] := fun hnil => by
          rw [hnil] at hlast
          cases hlast
        have hpositive : 0 < location.parts.length := List.length_pos_iff.mpr hne
        have hchild : location.parent.child name hname =
            location.take (location.parts.length - 1 + 1) := by
          refine Location.ext_of_parts rfl ?_
          rw [List.getLast?_eq_some_getLast hne] at hlast
          show location.parts.dropLast ++ [name] = location.parts.take (location.parts.length - 1 + 1)
          rw [← Option.some.inj hlast, List.dropLast_append_getLast, Nat.sub_add_cancel hpositive,
            List.take_length]
        have hnot := h.noLink (location.parts.length - 1) (Nat.sub_lt hpositive Nat.one_pos)
        split
        · next target htarget => exact absurd ⟨target, hchild ▸ htarget⟩ hnot
        · rfl
      · rfl
  · rfl

/-! ## Going down one name -/

theorem foldlM_of_append {α β ε : Type} {f : β → α → Except ε β} {xs ys : List α} {b b' : β}
    (h : (xs ++ ys).foldlM f b = .ok b') : ∃ mid, xs.foldlM f b = .ok mid := by
  rw [List.foldlM_append] at h
  cases hfirst : xs.foldlM f b with
  | error e =>
      rw [hfirst] at h
      cases h
  | ok mid => exact ⟨mid, rfl⟩

theorem walk_of_append {found : Location fl}
    {names : List (List Char)} (hclean : parentName ∉ parts ++ names)
    (h : fs.walk strict depth location (parts ++ names) = .ok found) :
    ∃ mid, fs.walk strict depth location parts = .ok mid := by
  have hparts : parentName ∉ parts := fun hmem => hclean (List.mem_append_left _ hmem)
  cases depth with
  | zero | succ =>
      unfold walk at h ⊢
      rw [lexical_of_clean hclean] at h
      rw [lexical_of_clean hparts]
      exact foldlM_of_append h

theorem resolve_of_child {found : Location fl} (hresolved : fs.Resolved location)
    (h : fs.resolve true (location.child name hname).toPath = .ok found) :
    fs.resolve true location.toPath = .ok location := by
  have hmid : ∃ mid, fs.resolve true location.toPath = .ok mid := by
    have hroot : location.toPath.root ≠ [] := List.cons_ne_nil fl.sep []
    have hroot' : (location.child name hname).toPath.root ≠ [] := List.cons_ne_nil fl.sep []
    unfold resolve at h ⊢
    rw [if_neg hroot'] at h
    rw [if_neg hroot]
    exact walk_of_append (location.child name hname).resolved h
  obtain ⟨mid, hmid⟩ := hmid
  rw [hmid, eq_of_resolve_toPath hresolved hmid]

theorem isSymlink_or_eq {found : Location fl} (hnul : nul ∉ name) (hresolved : fs.Resolved location)
    (h : fs.resolve true (location.child name hname).toPath = .ok found) :
    fs.isSymlink (location.child name hname).toPath = true ∨
      found = location.child name hname := by
  by_cases hlink : fs.IsLink (location.child name hname)
  · obtain ⟨target, htarget⟩ := hlink
    refine .inl ?_
    have hlast : (location.child name hname).toPath.parts.getLast? = some name :=
      List.getLast?_concat
    have hparent : { (location.child name hname).toPath with
        parts := (location.child name hname).toPath.parts.dropLast } = location.toPath := by
      show (⟨location.drive, [fl.sep], (location.parts ++ [name]).dropLast, _⟩ : PurePath fl) = _
      simp only [List.dropLast_concat]
      rfl
    unfold isSymlink
    rw [hlast]
    simp only [dif_neg hname, if_neg hnul, hparent, resolve_of_child hresolved h, htarget]
  · exact .inr (eq_of_resolve_toPath (hresolved.child hnul hlink) h)

end FileSystem
