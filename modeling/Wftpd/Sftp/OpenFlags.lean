import Wftpd.Sftp.Changes

/-! What the flags of an OPEN do to the path.

The exclusive flag is not among those that the handler translates.
-/

set_option autoImplicit false

namespace Wftpd.Sftp
open Wftpd.Posix Wftpd.Common Wftpd.Library

variable {env : RequestEnv} {session : Session}

/-- What an OPEN may do by its flags: make a file where there was none if it asks to create,
empty one if it asks to truncate and is not exclusive, and nothing if it asks to create
exclusively and something is at the path, be it a link. -/
structure Honours (env : RequestEnv) (session : Session) (filename : Text) (pflags : OpenFlags)
    (answer : Except StatusCode Reply) (after : Session) : Prop where
  creates : ∀ loc, session.fs.tree.find loc = none → after.fs.tree.find loc ≠ none → pflags.create = true
  keeps : ∀ loc node, session.fs.tree.find loc = some node → after.fs.tree.find loc = some node
  empties : ∀ loc ino, session.fs.tree.find loc = some (.file ino) → session.fs.data ino ≠ [] → after.fs.data ino = [] →
    pflags.truncate = true ∧ pflags.exclude = false
  excludes : pflags.create = true → pflags.exclude = true → ∀ resolved place,
    resolve session.homeDir filename = .ok resolved → session.fs.locate env.os false resolved = .ok place →
      session.fs.tree.find place ≠ none → (∃ why, answer = .error why) ∧ after.fs = session.fs

/-- An exclusive OPEN that is let through to what is there. -/
structure Disregards (env : RequestEnv) (session : Session) (filename : Text) (pflags : OpenFlags)
    (resolved : PathBuf) (loc : Loc) : Prop where
  exclusive : pflags.exclude = true
  granted : pflags.granted (session.permissions env) = true
  accepted : resolve session.homeDir filename = .ok resolved
  grants : FileSystem.GrantsOpen env.os session.fs pflags.options resolved loc
  present : (pflags.create = true ∧ ∃ place, session.fs.locate env.os false resolved = .ok place ∧
      session.fs.tree.find place ≠ none) ∨
    pflags.truncate = true ∧ ∃ ino, session.fs.tree.find loc = some (.file ino) ∧ session.fs.data ino ≠ []

theorem open_error {id : UInt32} {filename : Text} {pflags : OpenFlags} {why : StatusCode} {after : Session}
    (failed : «open» env id filename pflags session = (.error why, after)) : after.fs = session.fs := by
  rcases gate_failed (gate_requireAudited _ _ _) failed with same | ⟨_, -, failed⟩
  · exact same
  rcases gate_failed (gate_query _) failed with same | ⟨_, -, failed⟩
  · exact same
  rcases gate_failed (gate_query _) failed with same | ⟨path, -, failed⟩
  · exact same
  rcases Action.bind_failed failed with failed | ⟨file, middle, opened, inserted⟩
  · rcases FileSystem.openFile_cases env.os session.fs pflags.options path with ⟨_, refused⟩ | ⟨file, read, -⟩ | ⟨loc, grants⟩
    · simp only [sys, Action.zoom, refused] at failed
      cases failed
      rfl
    · simp only [sys, Action.zoom, read] at failed
      cases failed
    · obtain ⟨file, middle, opened⟩ := grants.opens
      simp only [sys, Action.zoom, opened] at failed
      cases failed
  · cases inserted

theorem honours_existing {filename : Text} {pflags : OpenFlags} {resolved : PathBuf} {loc : Loc} {ino : Nat}
    {reply : Reply} {after : Session}
    (obeyed : ¬ ∃ resolved loc, Disregards env session filename pflags resolved loc)
    (granted : pflags.granted (session.permissions env) = true) (accepted : resolve session.homeDir filename = .ok resolved)
    (grants : FileSystem.GrantsOpen env.os session.fs pflags.options resolved loc)
    (found : session.fs.tree.find loc = some (.file ino))
    (changed : after.fs = if pflags.truncate then (session.fs.setData ino []).touch ino env.os.now else session.fs) :
    Honours env session filename pflags (.ok reply) after := by
  have tree : after.fs.tree = session.fs.tree := by
    rw [changed]
    split <;> rfl
  refine ⟨?_, ?_, ?_, ?_⟩
  · intro place absent made
    rw [tree] at made
    exact absurd absent made
  · intro place node there
    rw [tree]
    exact there
  · intro place other there nonempty emptied
    cases cut : pflags.truncate with
    | false =>
        rw [changed, cut] at emptied
        exact absurd emptied nonempty
    | true =>
        rw [changed, cut] at emptied
        by_cases same : other = ino
        · -- the file that was cut: an exclusive request would have been let through to it
          subst other
          refine ⟨rfl, ?_⟩
          by_contra exclusive
          exact obeyed ⟨resolved, loc, by simpa using exclusive, granted, accepted, grants, .inr ⟨cut, ino, found, nonempty⟩⟩
        · refine absurd ?_ nonempty
          simpa [FileSystem.touch, FileSystem.setData, Function.update_of_ne same] using emptied
  · intro creates exclusive other place same located there
    rw [accepted] at same
    cases same
    exact absurd ⟨resolved, loc, exclusive, granted, accepted, grants, .inl ⟨creates, place, located, there⟩⟩ obeyed

theorem honours_created {filename : Text} {pflags : OpenFlags} {resolved : PathBuf} {parent : Loc} {name : Name}
    {reply : Reply} {after : Session}
    (obeyed : ¬ ∃ resolved loc, Disregards env session filename pflags resolved loc)
    (granted : pflags.granted (session.permissions env) = true) (accepted : resolve session.homeDir filename = .ok resolved)
    (grants : FileSystem.GrantsOpen env.os session.fs pflags.options resolved (parent ++ [name]))
    (creates : pflags.create = true)
    (changed : after.fs = (session.fs.create parent name .file env.os.created).touchDir parent env.os.now) :
    Honours env session filename pflags (.ok reply) after := by
  have tree : after.fs.tree = session.fs.tree.insert parent name (.file session.fs.next) := by
    rw [changed, FileSystem.touchDir_tree]
    rfl
  have data : after.fs.data = Function.update session.fs.data session.fs.next [] := by
    rw [changed, FileSystem.touchDir]
    cases (session.fs.create parent name .file env.os.created).tree.find parent <;> rfl
  refine ⟨fun _ _ _ => creates, ?_, ?_, ?_⟩
  · intro place node there
    rw [tree]
    exact Tree.find_insert_some there
  · intro place ino there nonempty emptied
    -- what was there has an older inode than what is made
    have older : ino ≠ session.fs.next := Nat.ne_of_lt (session.fs.fresh _ (Tree.mem_iff_find.mpr there))
    rw [data, Function.update_of_ne older] at emptied
    exact absurd emptied nonempty
  · intro _ exclusive other place same located there
    rw [accepted] at same
    cases same
    exact absurd ⟨resolved, _, exclusive, granted, accepted, grants, .inl ⟨creates, place, located, there⟩⟩ obeyed

theorem honours_unchanged {filename : Text} {pflags : OpenFlags} {answer : Except StatusCode Reply} {after : Session}
    (same : after.fs = session.fs) (refused : pflags.create = true → pflags.exclude = true → ∀ resolved place,
      resolve session.homeDir filename = .ok resolved → session.fs.locate env.os false resolved = .ok place →
        session.fs.tree.find place ≠ none → ∃ why, answer = .error why) :
    Honours env session filename pflags answer after := by
  refine ⟨?_, ?_, ?_, ?_⟩
  · intro loc absent made
    rw [same] at made
    exact absurd absent made
  · intro loc node there
    rw [same]
    exact there
  · intro loc ino _ nonempty emptied
    rw [same] at emptied
    exact absurd emptied nonempty
  · intro creates exclusive resolved place accepted located there
    exact ⟨refused creates exclusive resolved place accepted located there, same⟩

theorem Disregards.not_honours {id : UInt32} {filename : Text} {pflags : OpenFlags} {resolved : PathBuf} {loc : Loc}
    (disregards : Disregards env session filename pflags resolved loc) :
    ¬ Honours env session filename pflags («open» env id filename pflags session).1
      («open» env id filename pflags session).2 := by
  intro honours
  rcases disregards.present with ⟨creates, place, located, there⟩ | ⟨cut, ino, found, nonempty⟩
  · obtain ⟨file, fs, opened⟩ := disregards.grants.opens
    obtain ⟨reply, after, ran, -⟩ := open_run disregards.granted disregards.accepted opened
    obtain ⟨⟨why, failed⟩, -⟩ :=
      honours.excludes creates disregards.exclusive resolved place disregards.accepted located there
    rw [ran] at failed
    cases failed
  · obtain ⟨reply, after, ran, changed⟩ :=
      open_run disregards.granted disregards.accepted (disregards.grants.existing found)
    have cuts : pflags.options.truncate = true := cut
    have emptied := honours.empties loc ino found nonempty
    rw [ran, changed, if_pos cuts] at emptied
    have kept := (emptied (by simp [FileSystem.touch, FileSystem.setData])).2
    rw [disregards.exclusive] at kept
    cases kept

/-- An OPEN honours its flags except where it is exclusive and still let through to what is there. -/
theorem open_honours_iff (env : RequestEnv) (session : Session) (id : UInt32) (filename : Text) (pflags : OpenFlags) :
    Honours env session filename pflags («open» env id filename pflags session).1
        («open» env id filename pflags session).2 ↔
      ¬ ∃ resolved loc, Disregards env session filename pflags resolved loc := by
  constructor
  · rintro honours ⟨resolved, loc, disregards⟩
    exact disregards.not_honours honours
  · intro obeyed
    cases ran : «open» env id filename pflags session with
    | mk answer after =>
        cases answer with
        | error why => exact honours_unchanged (open_error ran) fun _ _ _ _ _ _ _ => ⟨why, rfl⟩
        | ok reply =>
            obtain ⟨granted, resolved, file, accepted, opened⟩ := open_ok ran
            rcases FileSystem.openFile_cases env.os session.fs pflags.options resolved with
              ⟨why, refused⟩ | ⟨dir, read, keeps⟩ | ⟨loc, grants⟩
            · rw [opened] at refused
              cases refused
            · rw [opened] at read
              refine honours_unchanged (Prod.mk.inj read).2 fun creates => ?_
              have asked : pflags.create = false := keeps
              rw [asked] at creates
              cases creates
            · rcases grants.place with ⟨ino, found, -⟩ | ⟨absent, -⟩
              · rw [grants.existing found] at opened
                exact honours_existing obeyed granted accepted grants found (Prod.mk.inj opened).2.symm
              · obtain ⟨creates, parent, name, rfl, made⟩ := grants.created absent
                rw [made] at opened
                exact honours_created obeyed granted accepted grants creates (Prod.mk.inj opened).2.symm

/-- A file of one byte that an exclusive OPEN is to create. -/
theorem open_overwrites : ¬ ∀ (env : RequestEnv) (session : Session) (id : UInt32) (filename : Text) (pflags : OpenFlags),
    Honours env session filename pflags («open» env id filename pflags session).1
      («open» env id filename pflags session).2 := by
  intro honours
  let pflags : OpenFlags := { write := true, create := true, truncate := true, exclude := true }
  have excluded := (honours (permissiveEnv .full) (sessionAt (FileSystem.empty.addFile "f".toList [97])) 1 "/f".toList
    pflags).excludes rfl rfl (components "/f".toList) ["f".toList] (by decide) rfl (by decide)
  obtain ⟨⟨why, refused⟩, -⟩ := excluded
  have answered : («open» (permissiveEnv .full) 1 "/f".toList pflags
      (sessionAt (FileSystem.empty.addFile "f".toList [97]))).1.isOk = true := rfl
  rw [refused] at answered
  cases answered

end Wftpd.Sftp
