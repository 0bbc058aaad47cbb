import Wftpd.Posix.FileSystem

/-! What a call can leave behind.

Each law judges the file system after a call by a predicate on final states: it
has to hold of the file system as it was, for every way to fail, and of the one
change the call makes, together with what the kernel found out before it.
-/

set_option autoImplicit false

namespace Wftpd.Posix.FileSystem
open Wftpd.Library

variable {α β : Type} {os : Os} {fs : FileSystem}

/-- Past a call that changes nothing, with what it answered. -/
theorem ReadOnly.followed {first : Action FileSystem ErrorKind α} {next : α → Action FileSystem ErrorKind β}
    (kept : ReadOnly first) (final : FileSystem → Prop) (unchanged : final fs)
    (continued : ∀ value, first fs = (.ok value, fs) → final (next value fs).2) :
    final ((first >>= next) fs).2 := by
  apply Action.Still.followed kept fun result => final result.2
  · intro _
    exact unchanged
  · exact continued

/-- What follows a call and changes nothing leaves the file system as the call did. -/
theorem final_before {first : Action FileSystem ErrorKind α} {next : α → Action FileSystem ErrorKind β}
    (final : FileSystem → Prop) (kept : ∀ value, ReadOnly (next value)) (ended : final (first fs).2) :
    final ((first >>= next) fs).2 := by
  rw [Action.Still.before kept]
  exact ended

theorem attempt_ok {call : Syscall} {after : FileSystem} (ran : attempt os call fs = (.ok (), after)) :
    os.fault call = none := by
  cases faulty : os.fault call with
  | none => rfl
  | some why =>
      rw [attempt, faulty] at ran
      cases ran

section Entries

theorem requireAccess_ok {loc : Loc} {access : Access} {after : FileSystem}
    (ran : requireAccess os loc access fs = (.ok (), after)) : fs.allowed os loc access = true := by
  rw [requireAccess, Action.bind_run_ok (Action.read_run _ _)] at ran
  exact Action.check_ok ran

theorem createAt_final (final : FileSystem → Prop) (loc : Loc) (new : NewNode) (unchanged : final fs)
    (created : ∀ parent name, loc = parent ++ [name] → fs.tree.find loc = none →
      fs.allowed os parent .write = true →
      final ((fs.create parent name new os.created).touchDir parent os.now)) :
    final (createAt os loc new fs).2 := by
  apply (readOnly_read _).followed final unchanged
  intro free looked
  cases looked
  apply (readOnly_check _ _).followed final unchanged
  intro _ checked
  have absent : fs.tree.find loc = none := by simpa using Action.check_ok checked
  rcases List.eq_nil_or_concat loc with root | ⟨parent, name, shape⟩
  · subst loc
    exact unchanged
  · rw [List.concat_eq_append] at shape
    subst loc
    simp only [List.getLast?_append, List.getLast?_singleton, Option.some_or, List.dropLast_concat]
    apply (readOnly_requireAccess os _ _).followed final unchanged
    intro _ permitted
    exact created parent name rfl absent (requireAccess_ok permitted)

theorem createAt_ok_iff {loc : Loc} {new : NewNode} {after : FileSystem} :
    createAt os loc new fs = (.ok (), after) ↔
      ∃ parent name, loc = parent ++ [name] ∧ fs.tree.find loc = none ∧ fs.allowed os parent .write = true ∧
        after = (fs.create parent name new os.created).touchDir parent os.now := by
  constructor
  · intro made
    obtain ⟨free, looked, made⟩ := Action.Still.bind_ok (readOnly_read _) made
    cases looked
    obtain ⟨_, checked, made⟩ := Action.Still.bind_ok (readOnly_check _ _) made
    have absent : fs.tree.find loc = none := by simpa using Action.check_ok checked
    rcases List.eq_nil_or_concat loc with root | ⟨parent, name, shape⟩
    · subst loc
      cases made
    · rw [List.concat_eq_append] at shape
      subst loc
      simp only [List.getLast?_append, List.getLast?_singleton, Option.some_or, List.dropLast_concat] at made
      obtain ⟨_, permitted, made⟩ := Action.Still.bind_ok (readOnly_requireAccess os _ _) made
      cases made
      exact ⟨parent, name, rfl, absent, requireAccess_ok permitted, rfl⟩
  · rintro ⟨parent, name, rfl, absent, permitted, rfl⟩
    simp [createAt, Action.bind_run, Action.check_run, absent, requireAccess, permitted]

theorem createAt_cases (os : Os) (fs : FileSystem) (loc : Loc) (new : NewNode) :
    (∃ why, createAt os loc new fs = (.error why, fs)) ∨
      ∃ parent name, loc = parent ++ [name] ∧ fs.tree.find loc = none ∧ fs.allowed os parent .write = true := by
  by_cases makes : ∃ parent name, loc = parent ++ [name] ∧ fs.tree.find loc = none ∧ fs.allowed os parent .write = true
  · exact .inr makes
  · left
    let failed (result : Except ErrorKind Unit × FileSystem) := ∃ why, result = (.error why, fs)
    apply Action.Still.followed (readOnly_read _) failed fun why => ⟨why, rfl⟩
    intro free looked
    cases looked
    apply Action.Still.followed (readOnly_check _ _) failed fun why => ⟨why, rfl⟩
    intro _ checked
    have absent : fs.tree.find loc = none := by simpa using Action.check_ok checked
    rcases List.eq_nil_or_concat loc with root | ⟨parent, name, shape⟩
    · subst loc
      exact ⟨_, rfl⟩
    · rw [List.concat_eq_append] at shape
      subst loc
      simp only [List.getLast?_append, List.getLast?_singleton, Option.some_or, List.dropLast_concat]
      apply Action.Still.followed (readOnly_requireAccess os _ _) failed fun why => ⟨why, rfl⟩
      intro _ permitted
      exact absurd ⟨parent, name, rfl, absent, requireAccess_ok permitted⟩ makes

structure MakesDir (os : Os) (fs : FileSystem) (path : PathBuf) (parent : Loc) (name : Name) : Prop where
  attempted : os.fault .mkdir = none
  located : fs.locate os false path = .ok (parent ++ [name])
  absent : fs.tree.find (parent ++ [name]) = none
  permitted : fs.allowed os parent .write = true

theorem createDir_final (final : FileSystem → Prop) (path : PathBuf) (unchanged : final fs)
    (created : ∀ parent name, MakesDir os fs path parent name →
      final ((fs.create parent name .dir os.created).touchDir parent os.now)) :
    final (createDir os path fs).2 := by
  apply (readOnly_attempt os .mkdir).followed final unchanged
  intro _ attempted
  apply (readOnly_query _).followed final unchanged
  intro loc located
  apply createAt_final final loc .dir unchanged
  intro parent name shape absent permitted
  subst loc
  exact created parent name ⟨attempt_ok attempted, (Prod.mk.inj located).1, absent, permitted⟩

theorem readOnly_orIsDir (os : Os) (path : PathBuf) (why : ErrorKind) : ReadOnly (orIsDir os path why) :=
  (readOnly_read _).bind fun _ => readOnly_check _ _

/-- Making a directory with those above it is a sequence of attempts to make one of them. -/
theorem createDirAll_steps {keep : FileSystem → Prop} {path : PathBuf}
    (made : ∀ fs above, above ≠ [] → above <+: path → keep fs → keep (createDir os above fs).2) (kept : keep fs) :
    keep (createDirAll os path fs).2 := by
  let keeps (before after : FileSystem) := keep before → keep after
  have compose : ∀ a b c, keeps a b → keeps b c → keeps a c := fun a b c first second kept => second (first kept)
  have one : ∀ above, above ≠ [] → above <+: path →
      Action.Moves keeps ((createDir os above).outcome : Action FileSystem ErrorKind _) :=
    fun above nonempty isPrefix fs => made fs above nonempty isPrefix
  have settled : ∀ above why, Action.Moves keeps (orIsDir os above why) := by
    intro above why fs kept
    exact (congrArg keep (readOnly_orIsDir os above why fs)).mpr kept
  -- the recursion goes up the path, with one attempt before it and one after it
  have all : ∀ components : List Component, components.reverse <+: path →
      Action.Moves keeps (createDirAllRev os components) := by
    intro components isPrefix
    induction components with
    | nil => exact fun _ kept => kept
    | cons last above ih =>
        have higher : above.reverse <+: path := by
          rw [List.reverse_cons] at isPrefix
          exact (List.prefix_append _ _).trans isPrefix
        apply Action.Moves.bind compose (one _ (by simp) isPrefix)
        intro answer
        cases answer with
        | ok _ => exact fun _ kept => kept
        | error why =>
            cases why with
            | notFound =>
                simp only
                split
                · exact fun _ kept => kept
                · apply Action.Moves.bind compose (ih higher)
                  intro _
                  apply Action.Moves.bind compose (one _ (by simp) isPrefix)
                  intro answer
                  cases answer with
                  | ok _ => exact fun _ kept => kept
                  | error why => exact settled _ why
            | _ => exact settled _ _
  exact all path.reverse (by simp) fs kept

theorem createDirAll_keeps {keep : FileSystem → Prop} {path : PathBuf}
    (made : ∀ fs above, above <+: path → keep fs → keep (createDir os above fs).2) (kept : keep fs) :
    keep (createDirAll os path fs).2 :=
  createDirAll_steps (fun fs above _ => made fs above) kept

theorem createDirAll_none {path : PathBuf}
    (none : ∀ above parent name, above <+: path → ¬ MakesDir os fs above parent name) :
    (createDirAll os path fs).2 = fs := by
  let keep (after : FileSystem) := after = fs
  have made : ∀ fs' above, above <+: path → keep fs' → keep (createDir os above fs').2 := by
    intro fs' above isPrefix same
    subst fs'
    apply createDir_final keep above rfl
    intro parent name makes
    exact absurd makes (none above parent name isPrefix)
  have start : keep fs := rfl
  exact createDirAll_keeps made start

structure MakesLink (os : Os) (fs : FileSystem) (target : Text) (path : PathBuf) (parent : Loc) (name : Name) : Prop where
  attempted : os.fault .symlink = none
  target : target ≠ [] ∧ '\x00' ∉ target
  located : fs.locate os false path = .ok (parent ++ [name])
  absent : fs.tree.find (parent ++ [name]) = none
  permitted : fs.allowed os parent .write = true

theorem symlink_final (final : FileSystem → Prop) (target : Text) (path : PathBuf) (unchanged : final fs)
    (created : ∀ parent name, MakesLink os fs target path parent name →
      final ((fs.create parent name (.link target) os.created).touchDir parent os.now)) :
    final (FileSystem.symlink os target path fs).2 := by
  apply (readOnly_attempt os .symlink).followed final unchanged
  intro _ attempted
  apply (readOnly_check _ _).followed final unchanged
  intro _ nonempty
  apply (readOnly_check _ _).followed final unchanged
  intro _ plain
  apply (readOnly_query _).followed final unchanged
  intro loc located
  apply createAt_final final loc (.link target) unchanged
  intro parent name shape absent permitted
  subst loc
  have fits : target ≠ [] ∧ '\x00' ∉ target :=
    ⟨of_decide_eq_true (Action.check_ok nonempty), by simpa using Action.check_ok plain⟩
  exact created parent name ⟨attempt_ok attempted, fits, (Prod.mk.inj located).1, absent, permitted⟩

theorem symlink_ok {target : Text} {path : PathBuf} {after : FileSystem}
    (linked : symlink os target path fs = (.ok (), after)) :
    ∃ parent name, fs.locate os false path = .ok (parent ++ [name]) ∧ fs.tree.find (parent ++ [name]) = none ∧
      after = (fs.create parent name (.link target) os.created).touchDir parent os.now := by
  obtain ⟨_, -, linked⟩ := Action.Still.bind_ok (readOnly_attempt os .symlink) linked
  obtain ⟨_, -, linked⟩ := Action.Still.bind_ok (readOnly_check _ _) linked
  obtain ⟨_, -, linked⟩ := Action.Still.bind_ok (readOnly_check _ _) linked
  obtain ⟨loc, located, made⟩ := Action.Still.bind_ok (readOnly_query _) linked
  obtain ⟨parent, name, rfl, absent, -, same⟩ := createAt_ok_iff.mp made
  exact ⟨parent, name, (Prod.mk.inj located).1, absent, same⟩

/-- A rename that has something to move. -/
structure Renames (os : Os) (fs : FileSystem) (src dst : PathBuf) (source target : Loc) : Prop where
  attempted : os.fault .rename = none
  named : (endsInName src && endsInName dst) = true
  locatedSource : fs.locate os false src = .ok source
  locatedTarget : fs.locate os false dst = .ok target
  verdict : fs.renameVerdict source target = .ok true
  leave : fs.allowed os source.dropLast .write = true
  enter : fs.allowed os target.dropLast .write = true

theorem rename_final (final : FileSystem → Prop) (src dst : PathBuf) (unchanged : final fs)
    (moved : ∀ source target, Renames os fs src dst source target →
      final (((fs.moveEntry source target).touchDir source.dropLast os.now).touchDir target.dropLast os.now)) :
    final (rename os src dst fs).2 := by
  apply (readOnly_attempt os .rename).followed final unchanged
  intro _ attempted
  apply (readOnly_check _ _).followed final unchanged
  intro _ named
  apply (readOnly_query _).followed final unchanged
  intro source locatedSource
  apply (readOnly_query _).followed final unchanged
  intro target locatedTarget
  apply (readOnly_query _).followed final unchanged
  intro moves verdict
  cases moves with
  | false => exact unchanged
  | true =>
      simp only [if_true]
      apply (readOnly_requireAccess os _ _).followed final unchanged
      intro _ leave
      apply (readOnly_requireAccess os _ _).followed final unchanged
      intro _ enter
      exact moved source target ⟨attempt_ok attempted, Action.check_ok named, (Prod.mk.inj locatedSource).1,
        (Prod.mk.inj locatedTarget).1, (Prod.mk.inj verdict).1, requireAccess_ok leave, requireAccess_ok enter⟩

end Entries

section Files

theorem requireMode_ok {asked : Bool} {ino : Nat} {access : Access} {after : FileSystem}
    (ran : requireMode os asked ino access fs = (.ok (), after)) (wanted : asked = true) :
    os.may (fs.inode ino) access = true := by
  have holds : (!asked || os.may (fs.inode ino) access) = true := Action.check_ok ran
  simpa [wanted] using holds

/-- What an open without `create` found: a directory it will not write, or a regular file. -/
structure Opens (os : Os) (fs : FileSystem) (options : OpenOptions) (path : PathBuf) (file : OpenFile) : Prop where
  attempted : os.fault .openat = none
  place : ∃ loc, fs.locate os true path = .ok loc ∧
    (file.isDir = true ∧ options.writes = false ∨
      fs.tree.find loc = some (.file file.ino) ∧
        (options.read = true → os.may (fs.inode file.ino) .read = true))

/-- What is opened and not made: a directory, to be read, or a file that may be accessed as asked for. -/
theorem openFile_existing {options : OpenOptions} {path : PathBuf} {after : FileSystem} {file : OpenFile}
    (keeps : options.create = false) (opened : openFile os options path fs = (.ok file, after)) :
    os.fault .openat = none ∧ ∃ loc, fs.locate os true path = .ok loc ∧
      (file.isDir = true ∧ options.writes = false ∨
        fs.tree.find loc = some (.file file.ino) ∧ (options.read = true → os.may (fs.inode file.ino) .read = true) ∧
          (options.writes = true → os.may (fs.inode file.ino) .write = true)) := by
  unfold openFile at opened
  obtain ⟨_, -, opened⟩ := Action.Still.bind_ok (readOnly_check _ _) opened
  obtain ⟨_, attempted, opened⟩ := Action.Still.bind_ok (readOnly_attempt _ _) opened
  obtain ⟨loc, located, opened⟩ := Action.Still.bind_ok (readOnly_query _) opened
  refine ⟨attempt_ok attempted, loc, (Prod.mk.inj located).1, ?_⟩
  obtain ⟨found, looked, opened⟩ := Action.Still.bind_ok (readOnly_read _) opened
  have there : fs.tree.find loc = found := Except.ok.inj (Prod.mk.inj looked).1
  cases found with
  | none =>
      obtain ⟨_, _, creates, _⟩ := Action.bind_ok opened
      simp [keeps, Action.check_run] at creates
  | some node =>
      cases node with
      | link ino target => cases opened
      | dir ino =>
          obtain ⟨_, _, reads, opened⟩ := Action.bind_ok opened
          obtain ⟨_, _, _, opened⟩ := Action.bind_ok opened
          cases opened
          have only := Action.check_ok reads
          simp only [keeps, Bool.or_false, Bool.not_eq_true'] at only
          exact .inl ⟨rfl, only⟩
      | file ino =>
          obtain ⟨_, readable, opened⟩ := Action.Still.bind_ok (readOnly_requireMode os _ _ _) opened
          obtain ⟨_, writable, opened⟩ := Action.Still.bind_ok (readOnly_requireMode os _ _ _) opened
          obtain ⟨_, _, _, opened⟩ := Action.bind_ok opened
          cases opened
          exact .inr ⟨there, requireMode_ok readable, requireMode_ok writable⟩

theorem openFile_ok {options : OpenOptions} {path : PathBuf} {after : FileSystem} {file : OpenFile}
    (keeps : options.create = false) (opened : openFile os options path fs = (.ok file, after)) :
    Opens os fs options path file := by
  obtain ⟨attempted, loc, located, dir | ⟨there, readable, -⟩⟩ := openFile_existing keeps opened
  · exact ⟨attempted, loc, located, .inl dir⟩
  · exact ⟨attempted, loc, located, .inr ⟨there, readable⟩⟩

theorem openFile_mode {options : OpenOptions} {path : PathBuf} {after : FileSystem}
    {file : OpenFile} (opened : openFile os options path fs = (.ok file, after)) :
    file = options.file file.ino file.isDir := by
  unfold openFile at opened
  obtain ⟨_, _, _, opened⟩ := Action.bind_ok opened
  obtain ⟨_, _, _, opened⟩ := Action.bind_ok opened
  obtain ⟨loc, _, _, opened⟩ := Action.bind_ok opened
  obtain ⟨found, _, _, opened⟩ := Action.bind_ok opened
  cases found with
  | none =>
      obtain ⟨_, _, _, opened⟩ := Action.bind_ok opened
      obtain ⟨_, _, _, opened⟩ := Action.bind_ok opened
      obtain ⟨_, _, _, opened⟩ := Action.bind_ok opened
      cases opened
      rfl
  | some node =>
      cases node with
      | dir ino =>
          obtain ⟨_, _, _, opened⟩ := Action.bind_ok opened
          obtain ⟨_, _, _, opened⟩ := Action.bind_ok opened
          cases opened
          rfl
      | file ino =>
          obtain ⟨_, _, _, opened⟩ := Action.bind_ok opened
          obtain ⟨_, _, _, opened⟩ := Action.bind_ok opened
          obtain ⟨_, _, _, opened⟩ := Action.bind_ok opened
          cases opened
          rfl
      | link ino target => cases opened

theorem openFile_final (final : FileSystem → Prop) (options : OpenOptions) (path : PathBuf) (unchanged : final fs)
    (created : ∀ parent name, options.create = true → fs.tree.find (parent ++ [name]) = none →
      final ((fs.create parent name .file os.created).touchDir parent os.now))
    (truncated : ∀ ino, options.valid = true → options.truncate = true →
      final ((fs.setData ino []).touch ino os.now)) :
    final (openFile os options path fs).2 := by
  apply (readOnly_check _ _).followed final unchanged
  intro _ valid
  apply (readOnly_attempt os .openat).followed final unchanged
  intro _ _
  apply (readOnly_query _).followed final unchanged
  intro loc _
  apply (readOnly_read _).followed final unchanged
  intro found _
  cases found with
  | none =>
      apply (readOnly_check _ _).followed final unchanged
      intro _ creates
      apply (readOnly_read _).followed final unchanged
      intro ino _
      apply final_before final fun _ => readOnly_pure _
      apply createAt_final final loc .file unchanged
      intro parent name shape absent _
      subst loc
      exact created parent name (Action.check_ok creates) absent
  | some node =>
      cases node with
      | dir ino =>
          apply (readOnly_check _ _).followed final unchanged
          intro _ _
          apply (readOnly_requireAccess os _ _).followed final unchanged
          intro _ _
          exact unchanged
      | link ino target => exact unchanged
      | file ino =>
          apply (readOnly_requireMode os _ _ _).followed final unchanged
          intro _ _
          apply (readOnly_requireMode os _ _ _).followed final unchanged
          intro _ _
          cases wanted : options.truncate with
          | false => exact unchanged
          | true => exact truncated ino (Action.check_ok valid) wanted

/-- What an open that succeeds may have changed: a file that was not there is made, or one that
was there is truncated. -/
inductive OpenChanges (os : Os) (fs : FileSystem) (options : OpenOptions) (path : PathBuf) : FileSystem → Prop where
  | created {parent : Loc} {name : Name} (valid : options.valid = true) (attempted : os.fault .openat = none)
      (creates : options.create = true) (located : fs.locate os true path = .ok (parent ++ [name]))
      (absent : fs.tree.find (parent ++ [name]) = none) (permitted : fs.allowed os parent .write = true) :
      OpenChanges os fs options path ((fs.create parent name .file os.created).touchDir parent os.now)
  | truncated {loc : Loc} {ino : Nat} (valid : options.valid = true) (attempted : os.fault .openat = none)
      (truncates : options.truncate = true) (located : fs.locate os true path = .ok loc)
      (found : fs.tree.find loc = some (.file ino)) (readable : options.read = true → os.may (fs.inode ino) .read = true)
      (writable : options.writes = true → os.may (fs.inode ino) .write = true) :
      OpenChanges os fs options path ((fs.setData ino []).touch ino os.now)

theorem openFile_changes {options : OpenOptions} {path : PathBuf} {after : FileSystem} {file : OpenFile}
    (opened : openFile os options path fs = (.ok file, after)) : after = fs ∨ OpenChanges os fs options path after := by
  unfold openFile at opened
  obtain ⟨_, valid, opened⟩ := Action.Still.bind_ok (readOnly_check _ _) opened
  obtain ⟨_, attempted, opened⟩ := Action.Still.bind_ok (readOnly_attempt _ _) opened
  obtain ⟨loc, located, opened⟩ := Action.Still.bind_ok (readOnly_query _) opened
  obtain ⟨found, looked, opened⟩ := Action.Still.bind_ok (readOnly_read _) opened
  have valid : options.valid = true := Action.check_ok valid
  have attempted := attempt_ok attempted
  have located : fs.locate os true path = .ok loc := (Prod.mk.inj located).1
  have there : fs.tree.find loc = found := Except.ok.inj (Prod.mk.inj looked).1
  cases found with
  | none =>
      obtain ⟨_, creates, opened⟩ := Action.Still.bind_ok (readOnly_check _ _) opened
      obtain ⟨ino, _, opened⟩ := Action.Still.bind_ok (readOnly_read _) opened
      obtain ⟨_, _, made, opened⟩ := Action.bind_ok opened
      cases opened
      obtain ⟨parent, name, rfl, absent, permitted, rfl⟩ := createAt_ok_iff.mp made
      exact .inr (.created valid attempted (Action.check_ok creates) located absent permitted)
  | some node =>
      cases node with
      | link ino target => cases opened
      | dir ino =>
          obtain ⟨_, _, opened⟩ := Action.Still.bind_ok (readOnly_check _ _) opened
          obtain ⟨_, _, opened⟩ := Action.Still.bind_ok (readOnly_requireAccess os _ _) opened
          cases opened
          exact .inl rfl
      | file ino =>
          obtain ⟨_, readable, opened⟩ := Action.Still.bind_ok (readOnly_requireMode os _ _ _) opened
          obtain ⟨_, writable, opened⟩ := Action.Still.bind_ok (readOnly_requireMode os _ _ _) opened
          obtain ⟨_, _, cut, opened⟩ := Action.bind_ok opened
          cases opened
          cases truncates : options.truncate with
          | false =>
              rw [truncates] at cut
              cases cut
              exact .inl rfl
          | true =>
              rw [truncates] at cut
              cases cut
              exact .inr (.truncated valid attempted truncates located there (requireMode_ok readable)
                (requireMode_ok writable))

/-- An open that would change something succeeds and does. -/
theorem OpenChanges.openFile {options : OpenOptions} {path : PathBuf} {after : FileSystem}
    (changes : OpenChanges os fs options path after) : ∃ file, openFile os options path fs = (.ok file, after) := by
  cases changes with
  | created valid attempted creates located absent permitted =>
      refine ⟨options.file fs.next false, ?_⟩
      have made : createAt os (_ ++ [_]) .file fs = (.ok (), _) :=
        createAt_ok_iff.mpr ⟨_, _, rfl, absent, permitted, rfl⟩
      simp [FileSystem.openFile, Action.bind_run, Action.check_run, valid, attempt, attempted, locateFor, located, absent, creates, made]
  | @truncated loc ino valid attempted truncates located found readable writable =>
      refine ⟨options.file ino false, ?_⟩
      have reads : (!options.read || os.may (fs.inode ino) .read) = true := by
        cases asked : options.read <;> simp [readable, asked]
      have writes : (!options.writes || os.may (fs.inode ino) .write) = true := by
        cases asked : options.writes <;> simp [writable, asked]
      simp [FileSystem.openFile, Action.bind_run, Action.check_run, valid, attempt, attempted, locateFor, located, found,
        requireMode, reads, writes, truncateIf, truncates]

/-- What a path leads to can be opened: a regular file with the access asked for, or a new one in
a directory that may be changed. -/
structure GrantsOpen (os : Os) (fs : FileSystem) (options : OpenOptions) (path : PathBuf) (loc : Loc) : Prop where
  valid : options.valid = true
  attempted : os.fault .openat = none
  located : fs.locate os true path = .ok loc
  place : (∃ ino, fs.tree.find loc = some (.file ino) ∧ (options.read = true → os.may (fs.inode ino) .read = true) ∧
      (options.writes = true → os.may (fs.inode ino) .write = true)) ∨
    fs.tree.find loc = none ∧ options.create = true ∧
      ∃ parent name, loc = parent ++ [name] ∧ fs.allowed os parent .write = true

theorem GrantsOpen.existing {options : OpenOptions} {path : PathBuf} {loc : Loc} {ino : Nat}
    (grants : GrantsOpen os fs options path loc) (found : fs.tree.find loc = some (.file ino)) :
    openFile os options path fs =
      (.ok (options.file ino false), if options.truncate then (fs.setData ino []).touch ino os.now else fs) := by
  rcases grants.place with ⟨other, there, readable, writable⟩ | ⟨absent, -⟩
  · rw [found] at there
    cases there
    have reads : (!options.read || os.may (fs.inode ino) .read) = true := by
      cases asked : options.read <;> simp [readable, asked]
    have writes : (!options.writes || os.may (fs.inode ino) .write) = true := by
      cases asked : options.writes <;> simp [writable, asked]
    cases cut : options.truncate <;>
      simp [openFile, Action.bind_run, Action.check_run, grants.valid, attempt, grants.attempted, locateFor,
        grants.located, found, requireMode, reads, writes, truncateIf, cut]
  · rw [found] at absent
    cases absent

theorem GrantsOpen.created {options : OpenOptions} {path : PathBuf} {loc : Loc}
    (grants : GrantsOpen os fs options path loc) (absent : fs.tree.find loc = none) :
    options.create = true ∧ ∃ parent name, loc = parent ++ [name] ∧ openFile os options path fs =
      (.ok (options.file fs.next false), (fs.create parent name .file os.created).touchDir parent os.now) := by
  rcases grants.place with ⟨ino, found, -⟩ | ⟨-, creates, parent, name, rfl, permitted⟩
  · rw [absent] at found
    cases found
  · have made : createAt os (parent ++ [name]) .file fs =
        (.ok (), (fs.create parent name .file os.created).touchDir parent os.now) :=
      createAt_ok_iff.mpr ⟨parent, name, rfl, absent, permitted, rfl⟩
    refine ⟨creates, parent, name, rfl, ?_⟩
    simp [openFile, Action.bind_run, Action.check_run, grants.valid, attempt, grants.attempted, locateFor,
      grants.located, absent, creates, made]

theorem GrantsOpen.opens {options : OpenOptions} {path : PathBuf} {loc : Loc}
    (grants : GrantsOpen os fs options path loc) : ∃ file after, openFile os options path fs = (.ok file, after) := by
  rcases grants.place with ⟨ino, found, -⟩ | ⟨absent, -⟩
  · exact ⟨_, _, grants.existing found⟩
  · obtain ⟨-, _, _, -, made⟩ := grants.created absent
    exact ⟨_, _, made⟩

/-- An open is refused and changes nothing, finds a directory it only reads, or is granted. -/
theorem openFile_kinds (os : Os) (fs : FileSystem) (options : OpenOptions) (path : PathBuf) :
    (∃ why, openFile os options path fs = (.error why, fs)) ∨
      (∃ file, openFile os options path fs = (.ok file, fs) ∧ file.isDir = true ∧ options.writes = false ∧
        options.create = false) ∨
      ∃ loc, GrantsOpen os fs options path loc := by
  by_cases grants : ∃ loc, GrantsOpen os fs options path loc
  · exact .inr (.inr grants)
  · rw [or_iff_left grants]
    let refused (result : Except ErrorKind OpenFile × FileSystem) :=
      (∃ why, result = (.error why, fs)) ∨
        ∃ file, result = (.ok file, fs) ∧ file.isDir = true ∧ options.writes = false ∧ options.create = false
    apply Action.Still.followed (readOnly_check _ _) refused fun why => .inl ⟨why, rfl⟩
    intro _ valid
    apply Action.Still.followed (readOnly_attempt os .openat) refused fun why => .inl ⟨why, rfl⟩
    intro _ attempted
    apply Action.Still.followed (readOnly_query _) refused fun why => .inl ⟨why, rfl⟩
    intro loc located
    apply Action.Still.followed (readOnly_read _) refused fun why => .inl ⟨why, rfl⟩
    intro found looked
    have there : fs.tree.find loc = found := Except.ok.inj (Prod.mk.inj looked).1
    have located : fs.locate os true path = .ok loc := (Prod.mk.inj located).1
    have granted := GrantsOpen.mk (Action.check_ok valid) (attempt_ok attempted) located
    cases found with
    | none =>
        apply Action.Still.followed (readOnly_check _ _) refused fun why => .inl ⟨why, rfl⟩
        intro _ creates
        rw [Action.bind_run_ok (Action.read_run _ _)]
        rcases createAt_cases os fs loc .file with ⟨why, failed⟩ | ⟨parent, name, shape, -, permitted⟩
        · rw [Action.bind_run_error failed]
          exact .inl ⟨why, rfl⟩
        · exact absurd ⟨loc, granted (.inr ⟨there, Action.check_ok creates, parent, name, shape, permitted⟩)⟩ grants
    | some node =>
        cases node with
        | link ino target => exact .inl ⟨_, rfl⟩
        | dir ino =>
            apply Action.Still.followed (readOnly_check _ _) refused fun why => .inl ⟨why, rfl⟩
            intro _ reads
            apply Action.Still.followed (readOnly_requireAccess os _ _) refused fun why => .inl ⟨why, rfl⟩
            intro _ _
            have only := Action.check_ok reads
            simp only [Bool.not_eq_true', Bool.or_eq_false_iff] at only
            exact .inr ⟨_, rfl, rfl, only⟩
        | file ino =>
            apply Action.Still.followed (readOnly_requireMode os _ _ _) refused fun why => .inl ⟨why, rfl⟩
            intro _ readable
            apply Action.Still.followed (readOnly_requireMode os _ _ _) refused fun why => .inl ⟨why, rfl⟩
            intro _ writable
            exact absurd ⟨loc, granted (.inl ⟨ino, there, requireMode_ok readable, requireMode_ok writable⟩)⟩ grants

theorem openFile_cases (os : Os) (fs : FileSystem) (options : OpenOptions) (path : PathBuf) :
    (∃ why, openFile os options path fs = (.error why, fs)) ∨
      (∃ file, openFile os options path fs = (.ok file, fs) ∧ options.create = false) ∨
      ∃ loc, GrantsOpen os fs options path loc := by
  rcases openFile_kinds os fs options path with failed | ⟨file, opened, -, -, keeps⟩ | grants
  · exact .inl failed
  · exact .inr (.inl ⟨file, opened, keeps⟩)
  · exact .inr (.inr grants)

def OpenFile.start (file : OpenFile) (fs : FileSystem) (offset : Nat) : Nat :=
  if file.append then (fs.data file.ino).length else offset

theorem store_final (final : FileSystem → Prop) (ino start : Nat) (part : List UInt8) (unchanged : final fs)
    (stored : part ≠ [] → final ((fs.setData ino (overwrite (fs.data ino) start part)).touch ino os.now)) :
    final (store os ino start part fs).2 := by
  unfold store
  split
  · exact unchanged
  · next nonempty => exact stored nonempty

/-- A write stores the bytes it is given, or some of the first of them when it fails. -/
theorem writeAll_parts (final : FileSystem → Prop) (file : OpenFile) (offset : Nat) (bytes : List UInt8)
    (unchanged : final fs)
    (stored : ∀ part, file.write = true → part ≠ [] → part <+: bytes →
      final ((fs.setData file.ino (overwrite (fs.data file.ino) (file.start fs offset) part)).touch file.ino os.now)) :
    final (writeAll os file offset bytes fs).2 := by
  unfold writeAll
  split
  · exact unchanged
  · apply (readOnly_check _ _).followed final unchanged
    intro _ writes
    have writes : file.write = true := Action.check_ok writes
    apply (readOnly_read _).followed final unchanged
    intro size looked
    cases looked
    simp only
    generalize (if (if file.append then (fs.data file.ino).length else offset) + bytes.length < maxOffset
      then os.fault .write else some .fileTooLarge) = verdict
    cases verdict with
    | some why =>
        apply final_before final fun _ => readOnly_fail why
        apply store_final final _ _ _ unchanged
        exact fun nonempty => stored _ writes nonempty (List.take_prefix _ _)
    | none =>
        apply store_final final _ _ _ unchanged
        exact fun nonempty => stored bytes writes nonempty List.prefix_rfl

theorem writeAll_final (final : FileSystem → Prop) (file : OpenFile) (offset : Nat) (bytes : List UInt8)
    (unchanged : final fs)
    (stored : ∀ part, file.write = true → part.length ≤ bytes.length →
      final ((fs.setData file.ino (overwrite (fs.data file.ino) (file.start fs offset) part)).touch file.ino os.now)) :
    final (writeAll os file offset bytes fs).2 :=
  writeAll_parts final file offset bytes unchanged fun part writes _ isPrefix => stored part writes isPrefix.length_le

structure Stores (os : Os) (fs : FileSystem) (file : OpenFile) (offset : Nat) (bytes : List UInt8) : Prop where
  nonempty : bytes ≠ []
  writes : file.write = true
  fits : file.start fs offset + bytes.length < maxOffset
  completed : os.fault .write = none

theorem writeAll_ok {file : OpenFile} {offset : Nat} {bytes : List UInt8} {after : FileSystem}
    (written : writeAll os file offset bytes fs = (.ok (), after)) :
    bytes = [] ∧ after = fs ∨ Stores os fs file offset bytes ∧
      after = (fs.setData file.ino (overwrite (fs.data file.ino) (file.start fs offset) bytes)).touch file.ino os.now := by
  unfold writeAll at written
  split at written
  · next empty =>
      cases written
      exact .inl ⟨empty, rfl⟩
  · next nonempty =>
      right
      obtain ⟨_, writes, written⟩ := Action.Still.bind_ok (readOnly_check _ _) written
      obtain ⟨size, looked, written⟩ := Action.Still.bind_ok (readOnly_read _) written
      cases looked
      simp only at written
      generalize verdict : (if (if file.append then (fs.data file.ino).length else offset) + bytes.length < maxOffset
        then os.fault .write else some .fileTooLarge) = failure at written
      cases failure with
      | some why =>
          obtain ⟨_, _, _, failed⟩ := Action.bind_ok written
          cases failed
      | none =>
          simp only [store, if_neg nonempty] at written
          cases written
          change (if file.start fs offset + bytes.length < maxOffset then os.fault .write else some .fileTooLarge) = none
            at verdict
          split at verdict
          · next fits => exact ⟨⟨nonempty, Action.check_ok writes, fits, verdict⟩, rfl⟩
          · cases verdict

theorem Stores.writeAll {file : OpenFile} {offset : Nat} {bytes : List UInt8} (stores : Stores os fs file offset bytes) :
    writeAll os file offset bytes fs = (.ok (),
      (fs.setData file.ino (overwrite (fs.data file.ino) (file.start fs offset) bytes)).touch file.ino os.now) := by
  have fits := stores.fits
  simp only [OpenFile.start] at fits
  simp [FileSystem.writeAll, Action.bind_run, Action.check_run, stores.nonempty, stores.writes, fits, stores.completed,
    store, OpenFile.start]

theorem setPermissions_final (final : FileSystem → Prop) (path : PathBuf) (mode : Nat) (unchanged : final fs)
    (changed : ∀ inode, final { fs with inode := inode }) : final (setPermissions os path mode fs).2 := by
  apply (readOnly_attempt os .chmod).followed final unchanged
  intro _ _
  apply (readOnly_query _).followed final unchanged
  intro loc _
  apply (readOnly_read _).followed final unchanged
  intro found _
  cases found with
  | none => exact unchanged
  | some node =>
      apply (readOnly_requireAccess os _ _).followed final unchanged
      intro _ _
      exact changed _

def withMode (fs : FileSystem) (ino mode : Nat) : FileSystem :=
  { fs with inode := Function.update fs.inode ino { fs.inode ino with mode := mode } }

structure Chmods (os : Os) (fs : FileSystem) (path : PathBuf) (loc : Loc) (node : Node) : Prop where
  attempted : os.fault .chmod = none
  located : fs.locate os true path = .ok loc
  found : fs.tree.find loc = some node
  owned : fs.allowed os loc .own = true

theorem Chmods.setPermissions {path : PathBuf} {loc : Loc} {node : Node} (chmods : Chmods os fs path loc node)
    (mode : Nat) : setPermissions os path mode fs = (.ok (), fs.withMode node.ino mode) := by
  simp [FileSystem.setPermissions, Action.bind_run, attempt, chmods.attempted, locateFor, chmods.located, chmods.found,
    requireAccess, Action.check_run, chmods.owned, withMode]

theorem setPermissions_cases (os : Os) (fs : FileSystem) (path : PathBuf) (mode : Nat) :
    (∃ why, setPermissions os path mode fs = (.error why, fs)) ∨ ∃ loc node, Chmods os fs path loc node := by
  by_cases chmods : ∃ loc node, Chmods os fs path loc node
  · exact .inr chmods
  · left
    let failed (result : Except ErrorKind Unit × FileSystem) := ∃ why, result = (.error why, fs)
    apply Action.Still.followed (readOnly_attempt os .chmod) failed fun why => ⟨why, rfl⟩
    intro _ attempted
    apply Action.Still.followed (readOnly_query _) failed fun why => ⟨why, rfl⟩
    intro loc located
    apply Action.Still.followed (readOnly_read _) failed fun why => ⟨why, rfl⟩
    intro found looked
    have there : fs.tree.find loc = found := Except.ok.inj (Prod.mk.inj looked).1
    cases found with
    | none => exact ⟨_, rfl⟩
    | some node =>
        apply Action.Still.followed (readOnly_requireAccess os _ _) failed fun why => ⟨why, rfl⟩
        intro _ permitted
        exact absurd ⟨loc, node, attempt_ok attempted, (Prod.mk.inj located).1, there, requireAccess_ok permitted⟩ chmods

theorem setPermissions_ok {path : PathBuf} {mode : Nat} {after : FileSystem}
    (ran : setPermissions os path mode fs = (.ok (), after)) :
    ∃ loc node, Chmods os fs path loc node ∧ after = fs.withMode node.ino mode := by
  rcases setPermissions_cases os fs path mode with ⟨why, failed⟩ | ⟨loc, node, chmods⟩
  · rw [failed] at ran
    cases ran
  · rw [chmods.setPermissions] at ran
    exact ⟨loc, node, chmods, (Prod.mk.inj ran).2.symm⟩

/-- A file that is opened for writing and not made for it. -/
theorem openFile_writable {options : OpenOptions} {path : PathBuf} {after : FileSystem} {file : OpenFile}
    (keeps : options.create = false) (writes : options.writes = true)
    (opened : openFile os options path fs = (.ok file, after)) :
    os.fault .openat = none ∧ (∃ loc, fs.locate os true path = .ok loc ∧ fs.tree.find loc = some (.file file.ino)) ∧
      os.may (fs.inode file.ino) .write = true := by
  obtain ⟨attempted, loc, located, ⟨-, reads⟩ | ⟨there, -, writable⟩⟩ := openFile_existing keeps opened
  · rw [writes] at reads
    cases reads
  · exact ⟨attempted, ⟨loc, located, there⟩, writable writes⟩

/-- A regular file that can be opened for writing and given this length. -/
structure Resizes (os : Os) (fs : FileSystem) (path : PathBuf) (size ino : Nat) : Prop where
  attempted : os.fault .openat = none
  place : ∃ loc, fs.locate os true path = .ok loc ∧ fs.tree.find loc = some (.file ino)
  writable : os.may (fs.inode ino) .write = true
  fits : size < maxOffset
  completed : os.fault .ftruncate = none

def resizeAt (os : Os) (path : PathBuf) (size : Nat) : Action FileSystem ErrorKind Unit := do
  let file ← openFile os { write := true } path
  setLen os file size

theorem Resizes.resizeAt {path : PathBuf} {size ino : Nat} (resizes : Resizes os fs path size ino) :
    (resizeAt os path size fs).1 = .ok () := by
  obtain ⟨loc, located, found⟩ := resizes.place
  simp [FileSystem.resizeAt, openFile, setLen, Action.bind_run, Action.check_run, OpenOptions.valid, OpenOptions.writes,
    OpenOptions.file, attempt, resizes.attempted, locateFor, located, found, requireMode, resizes.writable, truncateIf,
    resizes.fits, resizes.completed]

theorem resizeAt_cases (os : Os) (fs : FileSystem) (path : PathBuf) (size : Nat) :
    (∃ why, resizeAt os path size fs = (.error why, fs)) ∨ ∃ ino, Resizes os fs path size ino := by
  by_cases resizes : ∃ ino, Resizes os fs path size ino
  · exact .inr resizes
  · left
    let failed (result : Except ErrorKind Unit × FileSystem) := ∃ why, result = (.error why, fs)
    apply Action.Still.followed (readOnly_openFile os rfl rfl path) failed fun why => ⟨why, rfl⟩
    intro file opened
    obtain ⟨attempted, place, writable⟩ := openFile_writable rfl rfl opened
    apply Action.Still.followed (readOnly_check _ _) failed fun why => ⟨why, rfl⟩
    intro _ fits
    apply Action.Still.followed (readOnly_attempt os .ftruncate) failed fun why => ⟨why, rfl⟩
    intro _ completed
    have small : size < maxOffset := of_decide_eq_true (Action.check_ok fits)
    exact absurd ⟨file.ino, attempted, place, writable, small, attempt_ok completed⟩ resizes

/-- A read that goes well gives bytes of the file, and none of one that may not be read. -/
theorem readAt_ok {file : OpenFile} {count offset len : Nat} {after : FileSystem} {data : List UInt8}
    (ran : readAt os file count offset len fs = (.ok data, after)) :
    data = ((fs.data file.ino).drop offset).take (min len (os.chunk count + 1)) ∧ (data ≠ [] → file.read = true) := by
  unfold readAt at ran
  split at ran
  · next empty =>
      cases ran
      rw [empty, Nat.zero_min, List.take_zero]
      exact ⟨rfl, fun some => absurd rfl some⟩
  · obtain ⟨_, -, rest⟩ := Action.Still.bind_ok (readOnly_attempt _ _) ran
    obtain ⟨_, readable, rest⟩ := Action.Still.bind_ok (readOnly_check _ _) rest
    obtain ⟨_, -, rest⟩ := Action.Still.bind_ok (readOnly_check _ _) rest
    exact ⟨(Except.ok.inj (Prod.mk.inj rest).1).symm, fun _ => Action.check_ok readable⟩

end Files

section Removals

theorem removeFile_final (final : FileSystem → Prop) (path : PathBuf) (unchanged : final fs)
    (swept : ∀ loc, fs.locate os false path = .ok loc → fs.tree.isDir loc = false →
      final ((fs.sweep fun part => part = loc).touchDir loc.dropLast os.now)) :
    final (removeFile os path fs).2 := by
  apply (readOnly_attempt os .unlink).followed final unchanged
  intro _ _
  apply (readOnly_query _).followed final unchanged
  intro loc located
  apply (readOnly_read _).followed final unchanged
  intro found looked
  have there : fs.tree.find loc = found := Except.ok.inj (Prod.mk.inj looked).1
  have located : fs.locate os false path = .ok loc := (Prod.mk.inj located).1
  cases found with
  | none => exact unchanged
  | some node =>
      have unlinked : fs.tree.isDir loc = false → final ((do
          requireAccess os loc.dropLast .write
          Action.modify fun fs => (fs.sweep fun part => part = loc).touchDir loc.dropLast os.now :
            Action FileSystem ErrorKind Unit) fs).2 := by
        intro notDir
        apply (readOnly_requireAccess os _ _).followed final unchanged
        intro _ _
        exact swept loc located notDir
      cases node with
      | dir ino => exact unchanged
      | file ino => exact unlinked (by simp [Tree.isDir, there])
      | link ino target => exact unlinked (by simp [Tree.isDir, there])

structure RemovesAll (os : Os) (fs : FileSystem) (path : PathBuf) (loc : Loc) : Prop where
  located : fs.locate os false path = .ok loc
  dir : fs.tree.isDir loc = true
  attempted : os.fault .removeDirAll = none
  removable : fs.removable os loc = true
  /-- The path does not lead through what it removes. -/
  again : ∃ loc', (emptied os fs loc).locate os false path = .ok loc'
  permitted : (endsInName path && fs.allowed os loc.dropLast .write) = true

theorem emptied_final (final : FileSystem → Prop) (unchanged : final fs) (loc : Loc)
    (swept : final ((fs.sweep fun part => loc <+: part && part ≠ loc).touchDir loc os.now)) :
    final (emptied os fs loc) := by
  unfold emptied
  split
  · exact unchanged
  · exact swept

theorem removeDirAll_final (final : FileSystem → Prop) (path : PathBuf) (unchanged : final fs)
    (unlinked : ∀ loc, fs.locate os false path = .ok loc → fs.tree.isDir loc = false →
      final ((fs.sweep fun part => part = loc).touchDir loc.dropLast os.now))
    (partly : ∀ loc, fs.locate os false path = .ok loc →
      final (fs.sweep fun part => loc <+: part && part ≠ loc && os.removed part))
    (inside : ∀ loc, fs.locate os false path = .ok loc →
      final ((fs.sweep fun part => loc <+: part && part ≠ loc).touchDir loc os.now))
    (swept : ∀ loc, RemovesAll os fs path loc →
      final ((fs.sweep fun part => part = loc).touchDir loc.dropLast os.now)) :
    final (removeDirAll os path fs).2 := by
  apply (readOnly_query _).followed final unchanged
  intro loc located
  apply (readOnly_read _).followed final unchanged
  intro found looked
  have there : fs.tree.find loc = found := Except.ok.inj (Prod.mk.inj looked).1
  have located : fs.locate os false path = .ok loc := (Prod.mk.inj located).1
  cases found with
  | none => exact unchanged
  | some node =>
      cases node with
      | file ino => exact unchanged
      | link ino target =>
          apply (readOnly_requireAccess os _ _).followed final unchanged
          intro _ _
          exact unlinked loc located (by simp [Tree.isDir, there])
      | dir ino =>
          simp only
          cases faulty : os.fault .removeDirAll with
          | some why => exact partly loc located
          | none =>
              have dir : fs.tree.isDir loc = true := Tree.isDir_iff.mpr ⟨ino, there⟩
              have empty : final (emptied os fs loc) := emptied_final final unchanged loc (inside loc located)
              apply (readOnly_read _).followed final unchanged
              intro removable asked
              cases removable with
              | false => exact partly loc located
              | true =>
                  apply (readOnly_read _).followed final unchanged
                  intro walked again
                  have again : (emptied os fs loc).locate os false path = walked := Except.ok.inj (Prod.mk.inj again).1
                  cases walked with
                  | error why => cases why <;> exact empty
                  | ok found =>
                      apply (readOnly_read _).followed final unchanged
                      intro permitted granted
                      cases permitted with
                      | true =>
                          exact swept loc ⟨located, dir, faulty, Except.ok.inj (Prod.mk.inj asked).1, ⟨found, again⟩,
                            Except.ok.inj (Prod.mk.inj granted).1⟩
                      | false => exact empty

end Removals

section Trees

@[simp] theorem touchDir_tree (fs : FileSystem) (loc : Loc) (now : Int) : (fs.touchDir loc now).tree = fs.tree := by
  unfold touchDir
  cases fs.tree.find loc <;> rfl

theorem Renames.found {src dst : PathBuf} {source target : Loc} (renames : Renames os fs src dst source target) :
    fs.tree.find source ≠ none ∧ ¬ source <+: target ∧ ¬ target <+: source := by
  have verdict := renames.verdict
  unfold renameVerdict at verdict
  cases found : fs.tree.find source with
  | none => simp [found] at verdict
  | some moved =>
      simp only [found] at verdict
      by_cases same : source = target
      · simp [same] at verdict
      rw [if_neg same] at verdict
      by_cases inside : source <+: target
      · simp [inside] at verdict
      rw [if_neg inside] at verdict
      by_cases above : target <+: source
      · simp [above] at verdict
      exact ⟨by simp, inside, above⟩

/-- The entries after a move: those not replaced, and they are moved if anything is. -/
theorem entries_moveEntry (fs : FileSystem) (source target : Loc) :
    (fs.moveEntry source target).tree.entries = fs.tree.entries ∨
      (fs.moveEntry source target).tree.entries = (fs.tree.prune target).entries ∨
      (fs.moveEntry source target).tree.entries =
        (fs.tree.prune target).entries.map fun entry => (Tree.relocate source target entry.1, entry.2) := by
  unfold moveEntry
  rcases List.eq_nil_or_concat target with empty | ⟨parent, name, shape⟩
  · subst target
    exact .inl rfl
  rw [List.concat_eq_append] at shape
  subst target
  simp only [List.getLast?_append, List.getLast?_singleton, Option.some_or, List.dropLast_concat]
  by_cases can : Tree.CanMove (fs.tree.prune (parent ++ [name])) source parent name
  · exact .inr (.inr (Tree.entries_move can))
  · rw [Tree.move, dif_neg can]
    exact .inr (.inl rfl)

/-- What is found after a move was found before it, there or at the source. -/
theorem find_of_moveEntry {source target loc : Loc} {node : Node}
    (found : (fs.moveEntry source target).tree.find loc = some node) :
    fs.tree.find loc = some node ∨ ∃ rest, loc = target ++ rest ∧ fs.tree.find (source ++ rest) = some node := by
  have member := Tree.mem_iff_find.mpr found
  rcases entries_moveEntry fs source target with same | kept | moved
  · rw [same] at member
    exact .inl (Tree.mem_iff_find.mp member)
  · rw [kept] at member
    exact .inl (Tree.find_of_sweep (Tree.mem_iff_find.mp member))
  · rw [moved] at member
    obtain ⟨⟨old, oldNode⟩, there, shape⟩ := List.mem_map.mp member
    obtain ⟨lands, rfl⟩ := Prod.mk.inj shape
    have before : fs.tree.find old = some oldNode := Tree.find_of_sweep (Tree.mem_iff_find.mp there)
    rcases Tree.relocate_cases source target old with stays | ⟨rest, inside, goes⟩
    · exact .inl (by rwa [← lands, stays])
    · subst inside
      exact .inr ⟨rest, lands.symm.trans goes, before⟩

/-- A move keeps what is not below its target, where it was or where it is relocated to. -/
theorem find_moveEntry (source : Loc) {target loc : Loc} {node : Node} (kept : ¬ target <+: loc)
    (found : fs.tree.find loc = some node) :
    (fs.moveEntry source target).tree.find loc = some node ∨
      (fs.moveEntry source target).tree.find (Tree.relocate source target loc) = some node := by
  have nonempty : target ≠ [] := by
    rintro rfl
    exact kept List.nil_prefix
  have pruned : (fs.tree.prune target).find loc = some node := by
    rw [Tree.find_prune nonempty, if_neg kept]
    exact found
  simp only [← Tree.mem_iff_find] at found pruned ⊢
  rcases entries_moveEntry fs source target with same | swept | moved
  · rw [same]
    exact .inl found
  · rw [swept]
    exact .inl pruned
  · rw [moved]
    exact .inr (List.mem_map.mpr ⟨(loc, node), pruned, rfl⟩)

/-- A move keeps what is neither below its source nor below its target. -/
theorem find_moveEntry_other {source target loc : Loc} {node : Node} (apart : ¬ source <+: loc)
    (kept : ¬ target <+: loc) (found : fs.tree.find loc = some node) :
    (fs.moveEntry source target).tree.find loc = some node := by
  rcases find_moveEntry source kept found with stays | goes
  · exact stays
  · rwa [Tree.relocate_other apart] at goes

end Trees

end Wftpd.Posix.FileSystem
