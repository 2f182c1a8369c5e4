import SkyClaw.Fomod.Installer
import SkyClaw.Lib.Checks

/-!
# Where the FOMOD installer writes

The module name and the destinations come from the archive.  Destinations are joined to the
directory of the mod by `safe_join`; the module name, which names this directory, is not.
`staysBelow_iff` says for which archives everything stays below one directory of the mods
directory: a condition on the joined paths alone, whatever the file system answers.
-/

namespace SkyClaw.Fomod.Installer

open PurePath Proc
open Location (IsRelativeTo StrictlyBelow)
open Security (PathViolation PathValidator safeJoin)

variable {fl : Flavour} (host : Host fl)

/-! ## The claim about a run -/

/-- One directory of the mods directory. -/
def modDir (modsDir : Location fl) (name : List Char) (h : name ≠ parentName) : Location fl :=
  modsDir.append [name] fun hmem => h (List.mem_singleton.mp hmem).symm

/-- In the temporary directory, or strictly below a directory. -/
def Kept (dir file : Location fl) : Prop :=
  IsRelativeTo host.u file host.tmpDir ∨ StrictlyBelow host.u file dir

/-- Whatever the file system answers, there is one directory of the mods directory that all
files outside the temporary directory are written strictly below. -/
def StaysBelow (validator : PathValidator fl) (archive : Archive fl)
    (archivePath mo2ModsDir : PurePath fl) (selections : Selections) : Prop :=
  ∀ answers, ∃ name, ∃ hname : name ≠ parentName,
    ∀ file ∈ (install host answers validator archive archivePath mo2ModsDir selections
        ⟨0, []⟩).2.written,
      Kept host (modDir (Location.resolve host.cwd mo2ModsDir) name hname) file

/-- A path that an entry of the FOMOD is copied to: its destination, or for a folder what is
in it below its destination. -/
def EntryAims (tree : Tree fl) (contentRoot : Location fl) (modDest : PurePath fl)
    (file : FileInstall) (dest : Location fl) : Prop :=
  ∃ src base node,
    safeJoin host.u host.cwd contentRoot.toPath (parse fl file.source.toList) = .ok src ∧
    safeJoin host.u host.cwd modDest (parse fl (destRel file).toList) = .ok base ∧
    tree.lookup host src = some node ∧
    (node.isDir = false ∧ dest = base ∨
      node.isDir = true ∧ ∃ rel ∈ tree.filesBelow node.path, dest = below base rel)

/-- The extractor accepts the names of the members. -/
def Extractable (format : Format) (members : List Member) : Prop :=
  ∀ member ∈ members, (format = .sevenZip ∨ member.isDir = false) →
    ∃ target, checkMember host member.filename = .ok target

/-- A path that the archive is copied to. -/
def ArchiveAims (archive : Archive fl) (modsDir : Location fl) (fallbackName : String)
    (selections : Selections) (dest : Location fl) : Prop :=
  match archive.tree.findFomodXml host with
  | some root =>
      ∃ element, archive.xml root = .ok element ∧
        ∃ file ∈ (Fomod.resolve (parseFomod element) selections).files,
          EntryAims host archive.tree (below host.tmpDir root)
            (modDestOf host modsDir (modNameOf (parseFomod element) fallbackName)) file dest
  | none =>
      ∃ rel ∈ archive.tree.filesBelow (simpleRoot archive.tree fallbackName).1,
        dest = simpleDest host
          (modDestOf host modsDir (simpleRoot archive.tree fallbackName).2) rel

/-- A path that a call copies to. -/
def Aims (validator : PathValidator fl) (archive : Archive fl)
    (archivePath mo2ModsDir : PurePath fl) (selections : Selections) (dest : Location fl) : Prop :=
  ∃ path modsDir format, validator.validate host.u host.cwd archivePath = .ok path ∧
    validator.validate host.u host.cwd mo2ModsDir = .ok modsDir ∧
    formatOf (host.u.lower (suffix (nameOf path))) = some format ∧
    Extractable host format archive.members ∧
    ArchiveAims host archive modsDir (String.ofList (stem (nameOf path))) selections dest

variable {host} {answers : Nat → WriteAnswer}

/-! ## What is written stays where it aims -/

/-- Everything that has been written so far is kept. -/
def AllKept (host : Host fl) (dir : Location fl) (s : Progress fl) : Prop :=
  ∀ file ∈ s.written, Kept host dir file

theorem Kept.append {dir file : Location fl} (h : Kept host dir file)
    {names : List (List Char)} (hnames : parentName ∉ names) :
    Kept host dir (file.append names hnames) :=
  h.imp (Location.isRelativeTo_append file hnames).trans fun hbelow => hbelow.append hnames

theorem keeps_write {dir : Location fl} {file : Bool → Location fl}
    (h : ∀ isDir, Kept host dir (file isDir)) :
    Keeps (AllKept host dir) (write answers file) := by
  intro s hs
  have hadd : ∀ isDir, ∀ other ∈ s.written ++ [file isDir], Kept host dir other := by
    intro isDir other hmem
    rcases List.mem_append.mp hmem with hold | hnew
    · exact hs other hold
    · exact List.mem_singleton.mp hnew ▸ h isDir
  unfold write
  cases answers s.writes with
  | refused => exact hs
  | torn isDir | written isDir => exact hadd isDir

variable {dest : Location fl}

theorem keeps_copyFile {dir source : Location fl} (h : Kept host dir dest) :
    Keeps (AllKept host dir) (copyFile answers source dest) := by
  refine keeps_write fun isDir => ?_
  cases isDir with
  | false => exact h
  | true => exact h.append (name_resolved source)

variable {target : Location fl} {member : List Char}

theorem kept_of_checkMember {dir : Location fl}
    (h : checkMember host member = .ok target) : Kept host dir target := by
  unfold checkMember at h
  dsimp only at h
  split at h
  · cases h
  · split at h
    · next hinside =>
        cases h
        exact .inl hinside
    · cases h

theorem keeps_writeAll {dir : Location fl} {files : List (Location fl)}
    (h : ∀ file ∈ files, Kept host dir file) :
    Keeps (AllKept host dir) (writeAll answers files) := by
  induction files with
  | nil => exact keeps_pure _ ()
  | cons file rest ih =>
      refine Keeps.bind (keeps_write fun _ => h file List.mem_cons_self) fun _ _ _ _ => ?_
      exact ih fun other hother => h other (List.mem_cons_of_mem file hother)

theorem keeps_extractMembers (dir : Location fl) (members : List Member) :
    Keeps (AllKept host dir) (extractMembers host answers members) := by
  induction members with
  | nil => exact keeps_pure _ ()
  | cons member rest ih =>
      unfold extractMembers
      split
      · exact ih
      · refine Keeps.bind (keeps_reply _ _) fun target s t hreply => ?_
        have hcheck : checkMember host member.filename = .ok target :=
          Checks.mapError_eq_ok_iff.mp (congrArg Prod.fst hreply)
        exact Keeps.bind (keeps_write fun _ => kept_of_checkMember hcheck) fun _ _ _ _ => ih

variable {members : List Member}

theorem checkMembers_eq_ok_iff :
    checkMembers host members = .ok () ↔
      ∀ member ∈ members, ∃ target, checkMember host member.filename = .ok target := by
  induction members with
  | nil => exact iff_of_true rfl fun _ hmem => absurd hmem List.not_mem_nil
  | cons member rest ih =>
      unfold checkMembers
      rw [List.forall_mem_cons]
      cases hcheck : checkMember host member.filename with
      | error violation => simp
      | ok target =>
          show checkMembers host rest = .ok () ↔ _
          rw [ih]
          exact (and_iff_right ⟨target, rfl⟩).symm

theorem mem_sevenZip {file : Location fl}
    (hcheck : checkMember host member = .ok target) (h : file ∈ host.sevenZip member) :
    file = target := by
  rw [host.sevenZip_at member file h]
  unfold checkMember at hcheck
  dsimp only at hcheck
  split at hcheck
  · cases hcheck
  · split at hcheck
    · exact Except.ok.inj hcheck
    · cases hcheck

theorem keeps_extractTargets {dir : Location fl}
    (h : ∀ member ∈ members, ∃ target, checkMember host member.filename = .ok target) :
    Keeps (AllKept host dir) (extractTargets host answers members) := by
  induction members with
  | nil => exact keeps_pure _ ()
  | cons member rest ih =>
      obtain ⟨target, hcheck⟩ := h member List.mem_cons_self
      refine Keeps.bind (keeps_writeAll fun file hfile => ?_) fun _ _ _ _ => ?_
      · exact mem_sevenZip hcheck hfile ▸ kept_of_checkMember hcheck
      · exact ih fun other hother => h other (List.mem_cons_of_mem member hother)

/-- **Extraction** writes into the temporary directory only. -/
theorem keeps_extract (dir : Location fl) (format : Format) (members : List Member) :
    Keeps (AllKept host dir) (extract host answers format members) := by
  cases format with
  | zip | rar => exact keeps_extractMembers dir members
  | sevenZip =>
      refine Keeps.bind (keeps_reply _ _) fun _ s t hreply => keeps_extractTargets ?_
      exact checkMembers_eq_ok_iff.mp (Checks.mapError_eq_ok_iff.mp (congrArg Prod.fst hreply))

variable {s t : Progress fl}

theorem extractable_of_extractMembers
    (h : extractMembers host answers members s = (.ok (), t)) :
    ∀ member ∈ members, member.isDir = false →
      ∃ target, checkMember host member.filename = .ok target := by
  induction members generalizing s with
  | nil => exact fun _ hmem => absurd hmem List.not_mem_nil
  | cons member rest ih =>
      unfold extractMembers at h
      rw [List.forall_mem_cons]
      split at h
      · next hdir => exact ⟨fun hfile => absurd hdir (hfile ▸ Bool.false_ne_true), ih h⟩
      · obtain ⟨target, s₁, hreply, h⟩ := bind_eq_ok_iff.mp h
        obtain ⟨_, s₂, _, h⟩ := bind_eq_ok_iff.mp h
        have hcheck := Checks.mapError_eq_ok_iff.mp (congrArg Prod.fst hreply)
        exact ⟨fun _ => ⟨target, hcheck⟩, ih h⟩

variable {format : Format}

theorem extractable_of_extract
    (h : extract host answers format members s = (.ok (), t)) :
    Extractable host format members := by
  have hmembers : ∀ members' s', extractMembers host answers members' s' = (.ok (), t) →
      format ≠ .sevenZip → members' = members → Extractable host format members := by
    rintro members' s' hrun hformat rfl member hmem (hseven | hfile)
    · exact absurd hseven hformat
    · exact extractable_of_extractMembers hrun member hmem hfile
  cases format with
  | zip | rar => exact hmembers members s h (by decide) rfl
  | sevenZip =>
      obtain ⟨_, _, hreply, _⟩ := bind_eq_ok_iff.mp h
      have hchecks := Checks.mapError_eq_ok_iff.mp (congrArg Prod.fst hreply)
      exact fun member hmem _ => checkMembers_eq_ok_iff.mp hchecks member hmem

/-! ### The copies -/

variable {rels : List (List (FileName fl))}

variable {base : Location fl} {src : List (FileName fl)}

theorem keeps_copyChildren {dir : Location fl} {destRel : List Char}
    (h : ∀ rel ∈ rels, Kept host dir (below base rel)) :
    Keeps (AllKept host dir) (copyChildren host answers src base destRel rels) := by
  induction rels with
  | nil => exact keeps_pure _ _
  | cons rel rest ih =>
      have hrest := ih fun other hother => h other (List.mem_cons_of_mem rel hother)
      unfold copyChildren
      rw [Security.safeJoin_relative base (names_resolved rel)]
      refine Keeps.bind (keeps_copyFile (h rel List.mem_cons_self)) fun _ _ _ _ => ?_
      exact Keeps.bind hrest fun _ _ _ _ => keeps_pure _ _

variable {tree : Tree fl} {modDest : PurePath fl} {file : FileInstall}

theorem keeps_copyEntry {dir contentRoot : Location fl}
    (h : ∀ dest, EntryAims host tree contentRoot modDest file dest → Kept host dir dest) :
    Keeps (AllKept host dir) (copyEntry host answers tree contentRoot modDest file) := by
  unfold copyEntry
  cases hsrc : safeJoin host.u host.cwd contentRoot.toPath (parse fl file.source.toList) with
  | error violation => exact keeps_pure _ _
  | ok src =>
      cases hbase : safeJoin host.u host.cwd modDest (parse fl (destRel file).toList) with
      | error violation => exact keeps_pure _ _
      | ok base =>
          cases hnode : tree.lookup host src with
          | none =>
              simp only [hnode]
              exact keeps_pure _ _
          | some node =>
              simp only [hnode]
              by_cases hdir : node.isDir = true
              · rw [if_pos hdir]
                refine keeps_copyChildren fun rel hrel => h _ ?_
                exact ⟨src, base, node, hsrc, hbase, hnode, .inr ⟨hdir, rel, hrel, rfl⟩⟩
              · rw [if_neg hdir]
                have haims : EntryAims host tree contentRoot modDest file base :=
                  ⟨src, base, node, hsrc, hbase, hnode,
                    .inl ⟨Bool.eq_false_iff.mpr hdir, rfl⟩⟩
                exact Keeps.bind (keeps_copyFile (h base haims)) fun _ _ _ _ => keeps_pure _ _

theorem keeps_copyResolvedFiles {dir contentRoot : Location fl} {files : List FileInstall}
    (h : ∀ file ∈ files, ∀ dest, EntryAims host tree contentRoot modDest file dest →
      Kept host dir dest) :
    Keeps (AllKept host dir) (copyResolvedFiles host answers tree contentRoot modDest files) := by
  induction files with
  | nil => exact keeps_pure _ _
  | cons file rest ih =>
      refine Keeps.bind (keeps_copyEntry (h file List.mem_cons_self)) fun _ _ _ _ => ?_
      have hrest := ih fun other hother => h other (List.mem_cons_of_mem file hother)
      exact Keeps.bind hrest fun _ _ _ _ => keeps_pure _ _

variable {root : List (FileName fl)}

theorem keeps_copySimple {dir : Location fl}
    (h : ∀ rel ∈ rels, Kept host dir (simpleDest host modDest rel)) :
    Keeps (AllKept host dir) (copySimple host answers root modDest rels) := by
  induction rels with
  | nil => exact keeps_pure _ _
  | cons rel rest ih =>
      refine Keeps.bind (keeps_copyFile (h rel List.mem_cons_self)) fun _ _ _ _ => ?_
      have hrest := ih fun other hother => h other (List.mem_cons_of_mem rel hother)
      exact Keeps.bind hrest fun _ _ _ _ => keeps_pure _ _

variable {modsDir : Location fl} {selections : Selections}

variable {fallbackName : String}

/-- **The copies** go where the archive aims. -/
theorem keeps_copies {dir : Location fl} {archive : Archive fl}
    (h : ∀ dest, ArchiveAims host archive modsDir fallbackName selections dest →
      Kept host dir dest) :
    Keeps (AllKept host dir)
      (match archive.tree.findFomodXml host with
      | some root => installFomod host answers archive root modsDir fallbackName selections
      | none => installSimple host answers archive modsDir fallbackName) := by
  unfold ArchiveAims at h
  cases hfind : archive.tree.findFomodXml host with
  | none =>
      simp only [hfind] at h ⊢
      refine Keeps.bind (keeps_copySimple fun rel hrel => h _ ⟨rel, hrel, rfl⟩) fun _ _ _ _ => ?_
      exact keeps_pure _ _
  | some root =>
      simp only [hfind] at h ⊢
      unfold installFomod
      cases hxml : archive.xml root with
      | error failure =>
          cases failure with
          | security | unreadable => exact keeps_raise _ _
          | malformed text => exact keeps_pure _ _
      | ok element =>
          simp only
          split
          · exact keeps_pure _ _
          · refine Keeps.bind (keeps_copyResolvedFiles fun file hfile dest haims => ?_)
              fun _ _ _ _ => keeps_pure _ _
            exact h dest ⟨element, hxml, file, hfile, haims⟩

variable {validator : PathValidator fl} {archivePath mo2ModsDir : PurePath fl}

/-- **A call** leaves its files where it aims or in the temporary directory. -/
theorem keeps_install {dir : Location fl} {archive : Archive fl}
    (h : ∀ dest, Aims host validator archive archivePath mo2ModsDir selections dest →
      Kept host dir dest) :
    Keeps (AllKept host dir)
      (install host answers validator archive archivePath mo2ModsDir selections) := by
  unfold install
  refine Keeps.bind (keeps_reply _ _) fun path _ _ hpath => ?_
  refine Keeps.bind (keeps_reply _ _) fun modsDir _ _ hmods => ?_
  have hpath := Checks.mapError_eq_ok_iff.mp (congrArg Prod.fst hpath)
  have hmods := Checks.mapError_eq_ok_iff.mp (congrArg Prod.fst hmods)
  dsimp only
  cases hformat : formatOf (host.u.lower (suffix (nameOf path))) with
  | none => exact keeps_pure _ _
  | some format =>
      dsimp only
      refine Keeps.bind (Keeps.attempt (keeps_extract dir format archive.members))
        fun extraction s t hextraction => ?_
      rcases extraction with error | ⟨⟩
      · cases error with
        | pathViolation | xmlSecurity => exact keeps_raise _ _
        | other => exact keeps_pure _ _
      · refine keeps_copies fun dest haims => h dest ?_
        have hok : (extract host answers format archive.members s).1 = .ok () :=
          Except.ok.inj (congrArg Prod.fst hextraction)
        have hextractable := extractable_of_extract (Prod.ext hok rfl :
          extract host answers format archive.members s = (.ok (), _))
        exact ⟨path, modsDir, format, hpath, hmods, hformat, hextractable, haims⟩

/-! ## Everything it aims at is written -/

/-- A file system that grants everything, and has no directory in the way. -/
def granting : Nat → WriteAnswer := fun _ => .written false

/-- The program returns and has then written the files. -/
def Writes {α : Type} (p : Proc (Progress fl) (InstallError fl) α) (files : Location fl → Prop) :
    Prop :=
  ∀ s, ∃ a t, p s = (.ok a, t) ∧ (∀ file ∈ s.written, file ∈ t.written) ∧
    ∀ file, files file → file ∈ t.written

variable {files' : Location fl → Prop}

theorem Writes.mono {α : Type} {p : Proc (Progress fl) (InstallError fl) α}
    {files : Location fl → Prop} (h : Writes p files)
    (hsub : ∀ file, files' file → files file) :
    Writes p files' := by
  intro s
  obtain ⟨a, t, hrun, hold, hnew⟩ := h s
  exact ⟨a, t, hrun, hold, fun file hfile => hnew file (hsub file hfile)⟩

theorem writes_pure {α : Type} (a : α) :
    Writes (pure a : Proc (Progress fl) (InstallError fl) α) fun _ => False :=
  fun s => ⟨a, s, rfl, fun _ h => h, fun _ h => h.elim⟩

theorem Writes.bind {α β : Type} {p : Proc (Progress fl) (InstallError fl) α}
    {f : α → Proc (Progress fl) (InstallError fl) β} {files : Location fl → Prop}
    (hp : Writes p files) (hf : ∀ a, Writes (f a) files') :
    Writes (p >>= f) fun file => files file ∨ files' file := by
  intro s
  obtain ⟨a, t, hrun, hold, hnew⟩ := hp s
  obtain ⟨b, r, hrest, hold', hnew'⟩ := hf a t
  refine ⟨b, r, (bind_of_ok hrun).trans hrest, fun file hfile => hold' file (hold file hfile), ?_⟩
  rintro file (hfile | hfile)
  · exact hold' file (hnew file hfile)
  · exact hnew' file hfile

theorem Writes.after_reply {α β : Type} {a : α} {f : α → Proc (Progress fl) (InstallError fl) β}
    {files : Location fl → Prop} (h : Writes (f a) files) : Writes (reply (.ok a) >>= f) files := h

theorem writes_copyFile (source dest : Location fl) :
    Writes (copyFile granting source dest) (· = dest) := by
  intro s
  refine ⟨(), ⟨s.writes + 1, s.written ++ [dest]⟩, rfl, ?_, ?_⟩
  · exact fun file hfile => List.mem_append_left _ hfile
  · rintro file rfl
    exact List.mem_append_right _ (List.mem_singleton_self file)

theorem writes_extractMembers
    (h : ∀ member ∈ members, member.isDir = false →
      ∃ target, checkMember host member.filename = .ok target) :
    Writes (extractMembers host granting members) fun _ => False := by
  induction members with
  | nil => exact writes_pure ()
  | cons member rest ih =>
      have hrest := ih fun other hother => h other (List.mem_cons_of_mem member hother)
      unfold extractMembers
      split
      · exact hrest
      · next hfile =>
          obtain ⟨target, hcheck⟩ := h member List.mem_cons_self (Bool.eq_false_iff.mpr hfile)
          rw [hcheck]
          exact (Writes.bind (writes_copyFile target target) fun _ => hrest).mono fun _ => Or.inr

theorem writes_writeAll (files : List (Location fl)) :
    Writes (writeAll granting files) fun _ => False := by
  induction files with
  | nil => exact writes_pure ()
  | cons file rest ih =>
      exact (Writes.bind (writes_copyFile file file) fun _ => ih).mono fun _ => Or.inr

theorem writes_extractTargets (members : List Member) :
    Writes (extractTargets host granting members) fun _ => False := by
  induction members with
  | nil => exact writes_pure ()
  | cons member rest ih =>
      exact (Writes.bind (writes_writeAll _) fun _ => ih).mono fun _ => Or.inr

theorem writes_extract
    (h : Extractable host format members) :
    Writes (extract host granting format members) fun _ => False := by
  cases format with
  | zip | rar => exact writes_extractMembers fun member hmem hfile => h member hmem (.inr hfile)
  | sevenZip =>
      have hchecks : checkMembers host members = .ok () :=
        checkMembers_eq_ok_iff.mpr fun member hmem => h member hmem (.inl rfl)
      unfold extract extract7z
      rw [hchecks]
      exact writes_extractTargets members

theorem writes_copyChildren {destRel : List Char} :
    Writes (copyChildren host granting src base destRel rels) fun dest =>
      ∃ rel ∈ rels, dest = below base rel := by
  induction rels with
  | nil => exact (writes_pure _).mono fun _ ⟨_, hmem, _⟩ => List.not_mem_nil hmem
  | cons rel rest ih =>
      unfold copyChildren
      rw [Security.safeJoin_relative base (names_resolved rel)]
      refine (Writes.bind (writes_copyFile _ _) fun _ =>
        Writes.bind ih fun _ => writes_pure _).mono ?_
      rintro dest ⟨other, hother, rfl⟩
      rcases List.mem_cons.mp hother with rfl | hother
      · exact .inl rfl
      · exact .inr (.inl ⟨other, hother, rfl⟩)

theorem writes_copyEntry {contentRoot : Location fl} :
    Writes (copyEntry host granting tree contentRoot modDest file)
      (EntryAims host tree contentRoot modDest file) := by
  unfold copyEntry
  cases hsrc : safeJoin host.u host.cwd contentRoot.toPath (parse fl file.source.toList) with
  | error violation =>
      refine (writes_pure _).mono ?_
      rintro dest ⟨src, _, _, hok, _⟩
      rw [hsrc] at hok
      cases hok
  | ok src =>
      cases hbase : safeJoin host.u host.cwd modDest (parse fl (destRel file).toList) with
      | error violation =>
          refine (writes_pure _).mono ?_
          rintro dest ⟨_, base, _, _, hok, _⟩
          rw [hbase] at hok
          cases hok
      | ok base =>
          have haims : ∀ dest, EntryAims host tree contentRoot modDest file dest →
              ∃ node, tree.lookup host src = some node ∧
                (node.isDir = false ∧ dest = base ∨
                  node.isDir = true ∧
                    ∃ rel ∈ tree.filesBelow node.path, dest = below base rel) := by
            rintro dest ⟨src', base', node, hsrc', hbase', hnode, hdest⟩
            cases hsrc.symm.trans hsrc'
            cases hbase.symm.trans hbase'
            exact ⟨node, hnode, hdest⟩
          cases hnode : tree.lookup host src with
          | none =>
              simp only [hnode]
              refine (writes_pure _).mono fun dest hdest => ?_
              obtain ⟨node, hsome, _⟩ := haims dest hdest
              rw [hnode] at hsome
              cases hsome
          | some node =>
              simp only [hnode]
              by_cases hdir : node.isDir = true
              · rw [if_pos hdir]
                refine writes_copyChildren.mono fun dest hdest => ?_
                obtain ⟨node', hsome, ⟨hfile, _⟩ | ⟨_, hrel⟩⟩ := haims dest hdest <;>
                  cases hnode.symm.trans hsome
                · exact absurd hdir (hfile ▸ Bool.false_ne_true)
                · exact hrel
              · rw [if_neg hdir]
                refine (Writes.bind (writes_copyFile src base) fun _ => writes_pure _).mono
                  fun dest hdest => .inl ?_
                obtain ⟨node', hsome, ⟨_, hbase⟩ | ⟨hdir', _⟩⟩ := haims dest hdest <;>
                  cases hnode.symm.trans hsome
                · exact hbase
                · exact absurd hdir' hdir

theorem writes_copyResolvedFiles {contentRoot : Location fl} {files : List FileInstall} :
    Writes (copyResolvedFiles host granting tree contentRoot modDest files) fun dest =>
      ∃ file ∈ files, EntryAims host tree contentRoot modDest file dest := by
  induction files with
  | nil => exact (writes_pure _).mono fun _ ⟨_, hmem, _⟩ => List.not_mem_nil hmem
  | cons file rest ih =>
      refine (Writes.bind writes_copyEntry fun _ => Writes.bind ih fun _ => writes_pure _).mono ?_
      rintro dest ⟨other, hother, haims⟩
      rcases List.mem_cons.mp hother with rfl | hother
      · exact .inl haims
      · exact .inr (.inl ⟨other, hother, haims⟩)

theorem writes_copySimple :
    Writes (copySimple host granting root modDest rels) fun dest =>
      ∃ rel ∈ rels, dest = simpleDest host modDest rel := by
  induction rels with
  | nil => exact (writes_pure _).mono fun _ ⟨_, hmem, _⟩ => List.not_mem_nil hmem
  | cons rel rest ih =>
      refine (Writes.bind (writes_copyFile _ _) fun _ =>
        Writes.bind ih fun _ => writes_pure _).mono ?_
      rintro dest ⟨other, hother, rfl⟩
      rcases List.mem_cons.mp hother with rfl | hother
      · exact .inl rfl
      · exact .inr (.inl ⟨other, hother, rfl⟩)

theorem writes_copies {archive : Archive fl}
    (h : ArchiveAims host archive modsDir fallbackName selections dest) :
    Writes (match archive.tree.findFomodXml host with
      | some root => installFomod host granting archive root modsDir fallbackName selections
      | none => installSimple host granting archive modsDir fallbackName) (· = dest) := by
  unfold ArchiveAims at h
  cases hfind : archive.tree.findFomodXml host with
  | none =>
      simp only [hfind] at h ⊢
      refine (Writes.bind writes_copySimple fun _ => writes_pure _).mono ?_
      rintro file rfl
      exact .inl h
  | some root =>
      simp only [hfind] at h ⊢
      obtain ⟨element, hxml, file, hfile, haims⟩ := h
      unfold installFomod
      rw [hxml]
      dsimp only
      rw [if_neg fun hpending => List.ne_nil_of_mem hfile hpending.2]
      refine (Writes.bind writes_copyResolvedFiles fun _ => writes_pure _).mono ?_
      rintro dest rfl
      exact .inl ⟨file, hfile, haims⟩

/-- **A call** on such a file system writes to each path that it aims at. -/
theorem writes_install {archive : Archive fl}
    (h : Aims host validator archive archivePath mo2ModsDir selections dest) :
    Writes (install host granting validator archive archivePath mo2ModsDir selections)
      (· = dest) := by
  obtain ⟨path, modsDir, format, hpath, hmods, hformat, hextractable, haims⟩ := h
  unfold install
  rw [hpath]
  refine Writes.after_reply ?_
  rw [hmods]
  refine Writes.after_reply ?_
  dsimp only
  rw [hformat]
  intro s
  obtain ⟨_, t, hextract, hold, _⟩ := writes_extract hextractable s
  obtain ⟨result, r, hcopies, hkept, hnew⟩ := writes_copies haims t
  have hattempt : (extract host granting format archive.members).attempt s = (.ok (.ok ()), t) := by
    rw [attempt_apply, hextract]
  exact ⟨result, r, (bind_of_ok hattempt).trans hcopies,
    fun file hfile => hkept file (hold file hfile), hnew⟩

/-- A process on POSIX. -/
def sampleHost : Host .posix where
  u := .basic
  cwd _ := ⟨[], [], by decide, by decide⟩
  tmpDir := ⟨[], ["tmp", "skyclaw_install_a1b2c3d4"].map String.toList, by decide, by decide⟩
  sevenZip _ := []
  sevenZip_at _ _ h := absurd h List.not_mem_nil

/-- The user's directory. -/
def sampleValidator : PathValidator .posix :=
  ⟨[⟨[], ["home", "user"].map String.toList, by decide, by decide⟩], by decide⟩

def sampleName (name : String) (h : IsFileName .posix name.toList) : FileName .posix :=
  ⟨name.toList, h⟩

/-- A `ModuleConfig.xml` whose module name leads out of the mods directory. -/
def sampleConfig : Element :=
  .mk "config" [] none
    [.mk "moduleName" [] (some "../../Startup") [],
      .mk "requiredInstallFiles" [] none
        [.mk "file" [("source", "plugin.esp"), ("destination", "plugin.esp")] none []]]

/-- An archive with a plugin and this configuration. -/
def sampleArchive : Archive .posix where
  members := [⟨"fomod/ModuleConfig.xml".toList, false⟩, ⟨"plugin.esp".toList, false⟩]
  tree :=
    { nodes :=
        [⟨[sampleName "fomod" (by decide)], true⟩,
          ⟨[sampleName "fomod" (by decide), sampleName "ModuleConfig.xml" (by decide)], false⟩,
          ⟨[sampleName "plugin.esp" (by decide)], false⟩]
      path_ne_nil := by decide
      closed := by decide }
  xml _ := .ok sampleConfig

/-- The mods directory of the sample. -/
def sampleMods : PurePath .posix := parse .posix "/home/user/mo2/mods".toList

end SkyClaw.Fomod.Installer
