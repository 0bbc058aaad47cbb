import Wftpd.Ftp.Confined
import Wftpd.Posix.Agreement

/-! What an upload leaves in its file, also when it breaks off. -/

set_option autoImplicit false

namespace Wftpd.Ftp
open Wftpd.Posix Wftpd.Posix.FileSystem Wftpd.Library

variable {env : CallEnv} {user : WftpdUser} {state : WftpdFilesystem} {home : Loc} {content : List UInt8}

section Copy
variable {file : OpenFile}

theorem sys_ok {α : Type} {call : Action FileSystem ErrorKind α} {value : α} {after : WftpdFilesystem}
    (ran : sys call state = (.ok value, after)) : call state.fs = (.ok value, after.fs) := by
  obtain ⟨answered, rfl⟩ := Prod.mk.inj ran
  cases called : (call state.fs).1 with
  | error why =>
      rw [called] at answered
      cases answered
  | ok found =>
      rw [called] at answered
      cases answered
      exact Prod.ext called rfl

/-- The bytes that come before the upload ends or breaks off. -/
def sent : Upload → List UInt8
  | [] => []
  | .error _ :: _ => []
  | .ok buffer :: rest => if buffer = [] then [] else buffer ++ sent rest

/-- A file that holds the start of the content does so afterwards, and has grown to `reached`
when the action succeeds. -/
structure Extended (content : List UInt8) (ino reached : Nat) (before : FileSystem)
    (result : Except StorageError Nat × WftpdFilesystem) : Prop where
  started : result.2.fs.data ino <+: content
  tree : result.2.fs.tree = before.tree
  reaches : ∀ count, result.1 = .ok count → reached ≤ (result.2.fs.data ino).length

variable (env) in
theorem copyFrom_extends (inPlace : file.append = false) (input : Upload) (position written : Nat)
    (started : state.fs.data file.ino <+: content) (noGap : position ≤ (state.fs.data file.ino).length)
    (isBlock : IsBlock content position (sent input)) :
    Extended content file.ino (position + (sent input).length) state.fs
      (copyFrom env file position written input state) := by
  induction input generalizing position written state with
  | nil => exact ⟨started, rfl, fun _ _ => noGap⟩
  | cons piece rest ih =>
      cases piece with
      | error why => exact ⟨started, rfl, fun _ same => by cases same⟩
      | ok buffer =>
          by_cases empty : buffer = []
          · subst empty
            exact ⟨started, rfl, fun _ _ => noGap⟩
          · have parts : sent (.ok buffer :: rest) = buffer ++ sent rest := by simp [sent, empty]
            rw [parts] at isBlock ⊢
            obtain ⟨now, later⟩ := isBlock_append.mp isBlock
            obtain ⟨started', sameTree, reached⟩ := writeAll_extends env.os inPlace started noGap now
            let final := Extended content file.ino (position + (buffer ++ sent rest).length) state.fs
            show final (copyFrom env file position written (.ok buffer :: rest) state)
            rw [copyFrom]
            have taken : (Action.lift (Except.mapError ioErr (.ok buffer)) : Served (List UInt8)) state =
                (.ok buffer, state) := rfl
            rw [Action.bind_run_ok taken, if_neg empty]
            apply Action.bind_cases final
            · intro why after ran
              have same : (writeAll env.os file position buffer state.fs).2 = after.fs := congrArg (·.2.fs) ran
              rw [same] at started' sameTree
              exact ⟨started', sameTree, fun _ same => by cases same⟩
            · intro _ after ran
              have called := sys_ok ran
              rw [called] at started' sameTree
              have rest := ih (position + buffer.length) (written + buffer.length) started' (reached _ called) later
              refine ⟨rest.started, rest.tree.trans sameTree, fun count done => ?_⟩
              rw [List.length_append, ← Nat.add_assoc]
              exact rest.reaches count done

variable (env user) in
theorem finishPut_extends (inPlace : file.append = false) (input : Upload) (p : PathBuf) (startPos : UInt64)
    (started : state.fs.data file.ino <+: content) (noGap : startPos.toNat ≤ (state.fs.data file.ino).length)
    (isBlock : IsBlock content startPos.toNat (sent input)) :
    Extended content file.ino (startPos.toNat + (sent input).length) state.fs
      (finishPut env user input p startPos file state) := by
  let final := Extended content file.ino (startPos.toNat + (sent input).length) state.fs
  apply (still_seekTo startPos).followed final fun _ => ⟨started, rfl, fun _ same => by cases same⟩
  intro _ _
  have copied := copyFrom_extends env inPlace input startPos.toNat 0 started noGap isBlock
  apply Action.bind_cases final
  · intro why after ran
    rw [ran] at copied
    exact ⟨copied.started, copied.tree, fun _ same => by cases same⟩
  intro written after ran
  rw [ran] at copied
  have reached := copied.reaches written rfl
  -- the rest leaves the file system
  have rest : Action.Leaves WftpdFilesystem.fs (do
      sys (FileSystem.attempt env.os .flush)
      let _ ← currentRoot
      audit env user "UPLOAD".toList p written true "文件上传成功".toList
      return written : Served Nat) :=
    (still_sys (FileSystem.readOnly_attempt _ _)).leaves.bind fun _ => still_currentRoot.leaves.bind fun _ =>
      (leaves_audit_fs _ _ _ _ _).bind fun _ => (Action.still_pure _).leaves
  exact ⟨by rw [rest after]; exact copied.started, by rw [rest after]; exact copied.tree,
    fun _ _ => by rw [rest after]; exact reached⟩

end Copy

section Put

theorem openOr_failed {op message : Text} {options : OpenOptions} {p : PathBuf} {why : StorageError}
    {after : WftpdFilesystem} (refused : openOr env user op message options p state = (.error why, after)) :
    after.fs = state.fs := by
  have same : (openFile env.os options p state.fs).2 = after.fs := by rw [← openOr_fs, refused]
  cases called : openFile env.os options p state.fs with
  | mk result fs =>
      rw [called] at same
      cases result with
      | error why => exact same.symm.trans (openFile_failed called)
      | ok file =>
          obtain never | ⟨answer, _, opened, rest⟩ := Action.bind_failed refused
          · cases never
          · simp only [Action.outcome, Action.zoom, called, Prod.mk.injEq, Except.ok.injEq] at opened
            rw [← opened.1] at rest
            cases rest

variable (env user state) in
/-- A PUT ends before its file is open, or opens it among the directories it has made. -/
theorem put_cases (input : Upload) (path : Text) (startPos : UInt64) :
    (∃ why after, put env user input path startPos state = (.error why, after) ∧
      (after.fs = state.fs ∨ ∃ p, after.fs = (createParent env p state).2.fs)) ∨
      ∃ p made file after, resolve state.root (components path) = .ok p ∧ createParent env p state = (.ok (), made) ∧
        openFile env.os { write := true, create := true, truncate := startPos = 0 } p made.fs = (.ok file, after.fs) ∧
        put env user input path startPos state = finishPut env user input p startPos file after := by
  let final (result : Except StorageError Nat × WftpdFilesystem) :=
    (∃ why after, result = (.error why, after) ∧
      (after.fs = state.fs ∨ ∃ p, after.fs = (createParent env p state).2.fs)) ∨
      ∃ p made file after, resolve state.root (components path) = .ok p ∧ createParent env p state = (.ok (), made) ∧
        openFile env.os { write := true, create := true, truncate := startPos = 0 } p made.fs = (.ok file, after.fs) ∧
        result = finishPut env user input p startPos file after
  have failed : ∀ why, final (.error why, state) := fun why => .inl ⟨why, state, rfl, .inl rfl⟩
  apply (still_require _).followed final failed
  intro _ _
  apply (still_resolvePath path).followed final failed
  intro p accepted
  apply (still_checkQuota p).followed final failed
  intro _ _
  apply Action.bind_cases final
  · intro why after ran
    exact .inl ⟨why, after, rfl, .inr ⟨p, by rw [ran]⟩⟩
  intro _ made ran
  apply Action.bind_cases final
  · intro why after refused
    refine .inl ⟨why, after, rfl, .inr ⟨p, ?_⟩⟩
    rw [ran, openOr_failed refused]
  intro file after opened
  exact .inr ⟨p, made, file, after, resolvePath_ok accepted, ran, (openOr_ok opened).1, rfl⟩

section Parents
variable (env state)

theorem grown_createParent (home : Loc) (p : PathBuf) : Grown home state.fs (createParent env p state).2.fs := by
  unfold createParent
  cases p.parent with
  | none => exact .refl home state.fs
  | some parent => exact grown_createDirAll

theorem keepsBytes_createParent (ino : Nat) (p : PathBuf) : KeepsBytes ino state.fs (createParent env p state).2.fs := by
  unfold createParent
  cases p.parent with
  | none => exact .refl ino state.fs
  | some parent => exact keepsBytes_createDirAll

end Parents

variable (rooted : state.root = some (.ofNames home))
include rooted

variable (env user) in
/-- A PUT to a file that holds the start of the content, from a place it has reached. -/
theorem put_continues {path : Text} {startPos : UInt64} {input : Upload} {p : PathBuf} {loc : Loc} {ino : Nat}
    (accepted : resolve state.root (components path) = .ok p) (leads : Leads home state.fs p loc)
    (found : state.fs.tree.find loc = some (.file ino)) (started : state.fs.data ino <+: content)
    (noGap : startPos.toNat ≤ (state.fs.data ino).length) (isBlock : IsBlock content startPos.toNat (sent input)) :
    Grown home state.fs (put env user input path startPos state).2.fs ∧
      (put env user input path startPos state).2.fs.data ino <+: content ∧
      ∀ count, (put env user input path startPos state).1 = .ok count →
        startPos.toNat + (sent input).length ≤ ((put env user input path startPos state).2.fs.data ino).length := by
  have used := find_lt_next found
  rcases put_cases env user state input path startPos with
    ⟨why, after, ran, ended⟩ | ⟨p', made, file, after, accepted', ranMade, opened, ran⟩
  · rw [ran]
    have kept : Grown home state.fs after.fs ∧ after.fs.data ino = state.fs.data ino := by
      rcases ended with same | ⟨p', same⟩
      · rw [same]
        exact ⟨.refl home state.fs, rfl⟩
      · rw [same]
        exact ⟨grown_createParent env state home p', (keepsBytes_createParent env state ino p' used).2⟩
    exact ⟨kept.1, by rw [kept.2]; exact started, fun _ same => by cases same⟩
  · cases accepted.symm.trans accepted'
    have grown : Grown home state.fs made.fs := by
      simpa [ranMade] using grown_createParent env state home p
    have bytes : made.fs.data ino = state.fs.data ino := by
      simpa [ranMade] using (keepsBytes_createParent env state ino p used).2
    rw [rooted] at accepted
    obtain ⟨below, rfl⟩ := resolve_names accepted
    have leads' := leads.grown grown
    obtain ⟨rest, rfl⟩ := leads.inside
    have there := grown.kept rest _ found
    -- the open finds the same file
    obtain ⟨loc', located⟩ := openFile_located opened
    obtain rfl := leads'.arrives located
    obtain ⟨rfl, emptied⟩ := openFile_found located there opened
    have tree : after.fs.tree = made.fs.tree := by
      rw [emptied]
      split <;> rfl
    have ready : after.fs.data ino <+: content ∧ startPos.toNat ≤ (after.fs.data ino).length := by
      by_cases fromStart : startPos = 0
      · subst fromStart
        have empty : after.fs.data ino = [] := by
          rw [emptied]
          exact Function.update_self _ _ _
        rw [empty]
        exact ⟨List.nil_prefix, Nat.zero_le _⟩
      · have same : after.fs = made.fs := by simpa [fromStart] using emptied
        rw [same, bytes]
        exact ⟨started, noGap⟩
    rw [ran]
    have inPlace : (OpenOptions.file { write := true, create := true, truncate := startPos = 0 } ino false).append = false :=
      rfl
    have extended := finishPut_extends env user inPlace input (.ofNames (home ++ below)) startPos ready.1 ready.2 isBlock
    exact ⟨grown.trans (grown_of_tree (extended.tree.trans tree)), extended.started, extended.reaches⟩

/-- A PUT from the start that is answered leaves its bytes at the end of its path. -/
theorem put_stores (fenced : Fenced home state.fs) (dir : state.fs.tree.isDir home = true) {path : Text} {input : Upload}
    {count : Nat} {after : WftpdFilesystem} (stored : put env user input path 0 state = (.ok count, after)) :
    ∃ p loc ino, resolve state.root (components path) = .ok p ∧ Grown home state.fs after.fs ∧
      Leads home after.fs p loc ∧ after.fs.tree.find loc = some (.file ino) ∧ after.fs.data ino = sent input := by
  rcases put_cases env user state input path 0 with
    ⟨why, _, ran, -⟩ | ⟨p, made, file, opens, accepted, ranMade, opened, ran⟩
  · rw [ran] at stored
    cases stored
  · have resolved := accepted
    rw [rooted] at resolved
    obtain ⟨below, rfl⟩ := resolve_names resolved
    have within := within_createParent env fenced below
    have grown : Grown home state.fs made.fs := by
      simpa [ranMade] using grown_createParent env state home (.ofNames (home ++ below))
    rw [ranMade] at within
    obtain ⟨⟨loc, located, found⟩, empty, -, inPlace⟩ := openFile_emptied rfl rfl opened
    have grown' : Grown home made.fs opens.fs := by
      have grows : Grown home made.fs (openFile env.os { write := true, create := true, truncate := (0 : UInt64) = 0 }
        (.ofNames (home ++ below)) made.fs).2 := grown_openFile
      rwa [opened] at grows
    have isBlock : IsBlock (sent input) 0 (sent input) := List.prefix_refl _
    have extended := finishPut_extends env user inPlace input (.ofNames (home ++ below)) 0 (by rw [empty]; exact List.nil_prefix)
      (Nat.zero_le _) isBlock
    rw [← ran, stored] at extended
    have leads : Leads home made.fs (.ofNames (home ++ below)) loc :=
      ⟨made.fs, env.os, (within.self fenced).settled, grown.isDir_home dir, .refl home made.fs, located⟩
    have final : Grown home opens.fs after.fs := grown_of_tree extended.tree
    have reached := extended.reaches count rfl
    rw [show (0 : UInt64).toNat = 0 from rfl, Nat.zero_add] at reached
    refine ⟨_, loc, file.ino, accepted, (grown.trans grown').trans final, (leads.grown grown').grown final, ?_,
      extended.started.eq_of_length_le reached⟩
    rw [extended.tree]
    exact found

end Put

end Wftpd.Ftp
