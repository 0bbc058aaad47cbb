import Wftpd.Posix.Confined
import Wftpd.Sftp.Changes
import Wftpd.Sftp.ReadProtection

/-! Every request of a session stays inside its home.

Two kinds of requests are left out: those that climb after naming the real home, and
symbolic links that lead out of their directory.
-/

set_option autoImplicit false

namespace Wftpd.Sftp
open Wftpd.Posix Wftpd.Posix.FileSystem Wftpd.Library

def Request.places : Request → List Text
  | .open _ filename _ => [filename]
  | .setstat _ path _ => [path]
  | .remove _ filename => [filename]
  | .mkdir _ path => [path]
  | .rmdir _ path => [path]
  | .rename _ oldpath newpath => [oldpath, newpath]
  | .symlink _ _ targetpath => [targetpath]
  | _ => []

/-- The request names its places without climbing, and links downwards only. -/
structure StaysBelow (session : Session) (request : Request) : Prop where
  steady : ∀ path ∈ request.places, ¬ ClimbsFromHome session.homeDir path
  level : ∀ id linkpath targetpath, request = .symlink id linkpath targetpath →
    Level linkpath ∧ resolve session.homeDir targetpath ≠ .ok session.home

structure HomedAt (home : Loc) (session : Session) : Prop where
  isHome : IsHome session.homeDir
  atHome : session.home = .ofNames home

theorem not_climbs_relative {homeDir path : Text} (relative : startsWith '/' (trim path) = false) :
    ¬ ClimbsFromHome homeDir path := by
  rintro ⟨within, ⟨absolute, -⟩, -⟩
  rw [relative] at absolute
  cases absolute

/-- What a session may write to has no name outside its home. -/
def OwnsHandles (home : Loc) (session : Session) : Prop :=
  ∀ handle f, session.handles.lookup handle = some (.file f) → f.file.write = true → Owns home session.fs f.file.ino

section Requests
variable {env : RequestEnv} {session : Session} {home : Loc}

theorem HomedAt.resolve_names (homed : HomedAt home session) {path : Text} {p : PathBuf}
    (steady : ¬ ClimbsFromHome session.homeDir path) (accepted : resolve session.homeDir path = .ok p) :
    ∃ below : List Name, p = .ofNames (home ++ below) := by
  obtain ⟨isHome, atHome⟩ := homed
  unfold Session.home at atHome
  by_cases plain : ∀ within, ¬ CarriesHome session.homeDir path within
  · rw [resolve_below isHome.components_ne_nil plain] at accepted
    split at accepted
    · next below _ => exact ⟨below, by rw [← Except.ok.inj accepted, atHome]; simp [PathBuf.ofNames]⟩
    · cases accepted
  · push Not at plain
    obtain ⟨within, carries⟩ := plain
    rw [resolve_carriesHome carries, carries.join isHome] at accepted
    obtain ⟨below, rfl⟩ := names_of_no_parent (carries.cases isHome) fun climbs => steady ⟨within, carries, climbs⟩
    exact ⟨below, by rw [← Except.ok.inj accepted, atHome]; simp [PathBuf.ofNames]⟩

variable (fenced : Fenced home session.fs) (homed : HomedAt home session)
include fenced homed

theorem resolved_inside {os : Os} {follow : Bool} {path : Text} {p : PathBuf} {loc : Loc}
    (steady : ¬ ClimbsFromHome session.homeDir path) (accepted : resolve session.homeDir path = .ok p)
    (located : session.fs.locate os follow p = .ok loc) : home <+: loc := by
  obtain ⟨below, rfl⟩ := homed.resolve_names steady accepted
  exact fenced.located located

theorem within_setstat {path : Text} (steady : ¬ ClimbsFromHome session.homeDir path) (id : UInt32)
    (attrs : FileAttributes) : Within home session.fs (setstat env id path attrs session).2.fs := by
  have unchanged := Within.refl home session.fs
  apply (gate_query _).followed (Within home session.fs) unchanged
  intro _ _
  apply (gate_query _).followed (Within home session.fs) unchanged
  intro p accepted
  obtain ⟨below, rfl⟩ := homed.resolve_names steady (resolvePath_ok accepted)
  have moded : Within home session.fs (setMode env (.ofNames (home ++ below)) attrs.permissions session).2.fs := by
    cases attrs.permissions with
    | none => exact unchanged
    | some mode => exact within_setPermissions fenced (fun _ located => fenced.located located) _
  apply Action.bind_cases fun result : Except StatusCode Reply × Session => Within home session.fs result.2.fs
  · intro why after ran
    rwa [ran] at moded
  · intro _ after ran
    rw [ran] at moded
    have fenced' := moded.self fenced
    rw [fs_before fun _ => leaves_audited id _ _ _ _]
    apply setSize_final (Within home session.fs) moded
    intro length loc ino _ located found _
    exact moded.trans (within_resized fenced' (fenced'.located located) found _ _)

theorem within_symlinked {id : UInt32} {linkpath targetpath : Text}
    (stays : StaysBelow session (.symlink id linkpath targetpath)) :
    Within home session.fs (symlink env id linkpath targetpath session).2.fs := by
  obtain ⟨level, proper⟩ := stays.level id linkpath targetpath rfl
  apply symlink_final (Within home session.fs) id (.refl home session.fs)
  intro _ link accepted _ _
  apply within_symlink level
  intro loc located
  refine ⟨resolved_inside fenced homed (stays.steady _ (by simp [Request.places])) accepted located, ?_⟩
  obtain ⟨below, rfl⟩ := homed.resolve_names (stays.steady _ (by simp [Request.places])) accepted
  rcases fenced.reached located with ⟨rfl, -⟩ | dir
  · rw [accepted, homed.atHome, List.append_nil] at proper
    exact absurd rfl proper
  · exact dir

variable (env) in
theorem within_request (digests : Digests) {request : Request} (owns : OwnsHandles home session)
    (stays : StaysBelow session request) :
    Within home session.fs (handleRequest digests env request session).2.fs := by
  have unchanged := Within.refl home session.fs
  have inside : ∀ {follow : Bool} {path : Text} {p : PathBuf}, path ∈ request.places →
      resolve session.homeDir path = .ok p → ∀ loc, session.fs.locate env.os follow p = .ok loc → home <+: loc :=
    fun member accepted _ located => resolved_inside fenced homed (stays.steady _ member) accepted located
  cases mutates : request.mutates with
  | false =>
      rw [handleRequest_leaves_fs digests env mutates session]
      exact unchanged
  | true =>
      cases request with
      | «open» id filename pflags =>
          exact open_final (Within home session.fs) id unchanged filename pflags fun _ _ accepted =>
            within_openFile fenced (inside (by simp [Request.places]) accepted)
      | write id handle offset data =>
          exact write_final (Within home session.fs) id unchanged handle offset data fun _ f found =>
            within_stored (owns handle f found) _ _
      | setstat id path attrs => exact within_setstat fenced homed (stays.steady _ (by simp [Request.places])) id attrs
      | remove id filename =>
          exact remove_final (Within home session.fs) id unchanged filename fun _ _ accepted =>
            within_removeFile (inside (by simp [Request.places]) accepted)
      | mkdir id path =>
          exact mkdir_final (Within home session.fs) id unchanged path fun _ accepted =>
            within_createDir (inside (by simp [Request.places]) accepted)
      | rmdir id path =>
          exact rmdir_final (Within home session.fs) id unchanged path fun _ _ accepted =>
            within_removeDirAll (inside (by simp [Request.places]) accepted)
      | rename id oldpath newpath =>
          exact rename_final (Within home session.fs) id unchanged oldpath newpath fun _ _ _ accepted accepted' _ =>
            within_rename (inside (by simp [Request.places]) accepted) (inside (by simp [Request.places]) accepted')
      | symlink id linkpath targetpath => exact within_symlinked fenced homed stays
      | _ => cases mutates

end Requests

section Handles
variable {env : RequestEnv} {session : Session} {home : Loc}

theorem open_tableHolds (id : UInt32) (filename : Text) (pflags : OpenFlags) :
    TableGrows (fun f => ∃ p, resolve session.homeDir filename = .ok p ∧
        openFile env.os pflags.options p session.fs = (.ok f.file, («open» env id filename pflags session).2.fs))
      session («open» env id filename pflags session).2 := by
  let opens (after : Session) := TableGrows (fun f => ∃ p, resolve session.homeDir filename = .ok p ∧
    openFile env.os pflags.options p session.fs = (.ok f.file, after.fs)) session after
  have log : IgnoresLog Session.handles := fun _ _ => rfl
  have kept : ∀ after : Session, after.handles = session.handles → opens after := fun after same => .of_same same
  refine (leaves_requireAudited log pflags.granted _ _).cases opens kept fun _ guarded ran _ => ?_
  obtain ⟨-, rfl⟩ := requireAudited_ok ran
  refine (show Leaves Session.handles _ from leaves_query _).cases opens kept fun _ checked ran _ => ?_
  obtain rfl : checked = guarded := (gate_query _).passes _ _ _ ran
  refine (show Leaves Session.handles _ from leaves_query _).cases opens kept fun p resolved ran _ => ?_
  have accepted := resolvePath_ok ran
  obtain rfl : resolved = checked := (gate_query _).passes _ _ _ ran
  refine (leaves_sys (fun _ _ => rfl) _).cases opens kept fun file opened ran same => ?_
  obtain ⟨handle, inserted⟩ := insertHandle_handles (.file ⟨file, pflags.wantsWrite⟩) (Reply.handle id) opened
  refine .insert handle _ (fun f added => ?_) (inserted.trans (by rw [same]))
  cases added
  exact ⟨p, accepted, (sys_ok ran).1⟩

variable (fenced : Fenced home session.fs) (homed : HomedAt home session)
include fenced homed

variable (env) in
theorem ownsHandles_request (digests : Digests) {request : Request} (owns : OwnsHandles home session)
    (stays : StaysBelow session request) : OwnsHandles home (handleRequest digests env request session).2 := by
  have within := within_request env fenced homed digests owns stays
  intro handle f found writes
  rcases handleRequest_tableGrows digests env request session handle f found with
    old | ⟨id, filename, pflags, rfl, -⟩
  · exact within.owns (.inl rfl) (owns handle f old writes)
  · rcases open_tableHolds id filename pflags handle f found with old | ⟨p, accepted, opened⟩
    · exact within.owns (.inl rfl) (owns handle f old writes)
    · exact openFile_owns fenced (fun _ located =>
        resolved_inside fenced homed (stays.steady _ (by simp [Request.places])) accepted located) opened writes

end Handles

end Wftpd.Sftp
