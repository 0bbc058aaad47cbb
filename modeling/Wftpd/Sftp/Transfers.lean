import Wftpd.Posix.Blocks
import Wftpd.Sftp.Audit
import Wftpd.Sftp.HandleTable
import Wftpd.Sftp.Targets

/-! Whole files over one session: what an upload leaves on the disk, and what a download returns.

A client sends the blocks of a file in any order and asks for them in pieces, with other
requests in between. Only what would write to the same file, empty it or resize it is
left out.
-/

set_option autoImplicit false

namespace Wftpd.Sftp
open Wftpd.Posix Wftpd.Posix.FileSystem Wftpd.Common Wftpd.Library

section Spares

/-- The request neither writes to the file, nor empties it, nor resizes it. -/
def Spares (ino : Nat) (session : Session) (input : Input) : Prop :=
  match input.2 with
  | .open _ filename pflags => pflags.truncate = true → ∀ resolved, resolve session.homeDir filename = .ok resolved →
      Elsewhere input.1.os session.fs resolved ino
  | .setstat _ path attrs => attrs.size ≠ none → ∀ resolved, resolve session.homeDir path = .ok resolved →
      Elsewhere input.1.os session.fs resolved ino
  | .write _ handle _ _ => ∀ f, session.handles.lookup handle = some (.file f) → f.file.ino ≠ ino
  | _ => True

variable {ino : Nat} {session : Session} {input : Input}

theorem keepsBytes_setstat {env : RequestEnv} {id : UInt32} {path : Text} {attrs : FileAttributes}
    (spares : Spares ino session (env, .setstat id path attrs)) :
    KeepsBytes ino session.fs (setstat env id path attrs session).2.fs := by
  apply setstat_final (KeepsBytes ino session.fs) id (.refl ino session.fs)
  · exact fun _ used => ⟨used, rfl⟩
  · intro _ inode size resolved loc other sized accepted located found _ _
    have moded : KeepsBytes ino session.fs { session.fs with inode := inode } := fun used => ⟨used, rfl⟩
    apply moded.trans
    apply keepsBytes_stored
    rintro rfl
    exact spares (by simp [sized]) resolved accepted loc located found

theorem keepsBytes_request (digests : Digests) (spares : Spares ino session input) :
    KeepsBytes ino session.fs (sessionStep digests session input).2.fs := by
  obtain ⟨env, request⟩ := input
  have unchanged := KeepsBytes.refl ino session.fs
  cases mutates : request.mutates with
  | false =>
      rw [sessionStep, handleRequest_leaves_fs digests env mutates session]
      exact unchanged
  | true =>
      cases request with
      | «open» id filename pflags =>
          exact open_final (KeepsBytes ino session.fs) id unchanged filename pflags fun _ resolved accepted =>
            keepsBytes_openFile fun truncates => spares truncates resolved accepted
      | write id handle offset data =>
          exact write_final (KeepsBytes ino session.fs) id unchanged handle offset data fun _ f found =>
            keepsBytes_writeAll (spares f found) _ _
      | setstat id path attrs => exact keepsBytes_setstat spares
      | remove id filename =>
          exact remove_final (KeepsBytes ino session.fs) id unchanged filename fun _ _ _ => keepsBytes_removeFile
      | mkdir id path =>
          exact mkdir_final (KeepsBytes ino session.fs) id unchanged path fun _ _ => keepsBytes_createDir
      | rmdir id path =>
          exact rmdir_final (KeepsBytes ino session.fs) id unchanged path fun _ _ _ => keepsBytes_removeDirAll
      | rename id oldpath newpath =>
          exact rename_final (KeepsBytes ino session.fs) id unchanged oldpath newpath fun _ _ _ _ _ _ => keepsBytes_rename
      | symlink id linkpath targetpath =>
          exact symlink_final (KeepsBytes ino session.fs) id unchanged linkpath targetpath
            fun _ _ _ _ _ => keepsBytes_symlink
      | _ => cases mutates

end Spares

section Upload

/-- A block of the content for the handle, or something that leaves its file alone. -/
def SendsBlocks (handle : Text) (ino : Nat) (content : List UInt8) (session : Session) (input : Input) : Prop :=
  (∃ id offset block, input.2 = .write id handle offset block ∧ IsBlock content offset.toNat block) ∨
    Spares ino session input

variable (digests : Digests) (handle : Text)

/-- One of the blocks that were answered OK stands over this place. -/
def Acked (start : Session) (inputs : List Input) (index : Nat) : Prop :=
  ∃ earlier env id offset block later reply, inputs = earlier ++ (env, .write id handle offset block) :: later ∧
    (sessionStep digests (run (sessionStep digests) start earlier).2 (env, .write id handle offset block)).1 = .ok reply ∧
    offset.toNat ≤ index ∧ index < offset.toNat + block.length

def AckedBy (session : Session) (input : Input) (index : Nat) : Prop :=
  ∃ env id offset block reply, input = (env, .write id handle offset block) ∧
    (sessionStep digests session input).1 = .ok reply ∧ offset.toNat ≤ index ∧ index < offset.toNat + block.length

variable {digests handle}

theorem Acked.cases {start : Session} {input : Input} {rest : List Input} {index : Nat}
    (acked : Acked digests handle start (input :: rest) index) :
    AckedBy digests handle start input index ∨ Acked digests handle (sessionStep digests start input).2 rest index := by
  obtain ⟨earlier, env, id, offset, block, later, reply, shape, answered, place⟩ := acked
  cases earlier with
  | nil =>
      obtain ⟨rfl, rfl⟩ := List.cons.inj shape
      exact .inl ⟨env, id, offset, block, reply, rfl, answered, place⟩
  | cons first earlier =>
      obtain ⟨rfl, rfl⟩ := List.cons.inj shape
      exact .inr ⟨earlier, env, id, offset, block, later, reply, rfl, answered, place⟩

variable {session : Session} {f : FileHandle} {content : List UInt8} {covered : Nat → Prop}

/-- What the file holds, as far as the upload has come. -/
def HoldsPart (content : List UInt8) (covered : Nat → Prop) (ino : Nat) (fs : FileSystem) : Prop :=
  ino < fs.next ∧ Assembled content covered (fs.data ino)

theorem holdsPart_write (env : RequestEnv) (id : UInt32) {offset : UInt64} {block : List UInt8}
    (found : session.handles.lookup handle = some (.file f)) (inPlace : f.file.append = false)
    (isBlock : IsBlock content offset.toNat block) (holds : HoldsPart content covered f.file.ino session.fs) :
    HoldsPart content covered f.file.ino (write env id handle offset block session).2.fs := by
  apply write_final (HoldsPart content covered f.file.ino) id holds
  intro _ other found'
  cases found.symm.trans found'
  apply writeAll_parts (HoldsPart content covered f.file.ino) f.file offset.toNat block holds
  intro part _ nonempty isPrefix
  have start : f.file.start session.fs offset.toNat = offset.toNat := by simp [OpenFile.start, inPlace]
  have stored := holds.2.store (isBlock.of_prefix isPrefix) nonempty
  refine ⟨holds.1, ?_⟩
  rw [start]
  show Assembled content covered (Function.update session.fs.data f.file.ino _ f.file.ino)
  rw [Function.update_self]
  exact stored.imp fun _ placed => .inl placed

theorem holdsPart_acked {env : RequestEnv} {id : UInt32} {offset : UInt64} {block : List UInt8} {reply : Reply}
    (found : session.handles.lookup handle = some (.file f)) (inPlace : f.file.append = false)
    (isBlock : IsBlock content offset.toNat block) (holds : HoldsPart content covered f.file.ino session.fs)
    (answered : (write env id handle offset block session).1 = .ok reply) :
    HoldsPart content (fun index => covered index ∨ offset.toNat ≤ index ∧ index < offset.toNat + block.length) f.file.ino
      (write env id handle offset block session).2.fs := by
  obtain ⟨-, -, -, -, other, found', written⟩ := Audit.write_ok (Prod.ext answered rfl)
  cases found.symm.trans found'
  rcases writeAll_ok written with ⟨rfl, same⟩ | ⟨stores, same⟩
  · rw [same]
    exact ⟨holds.1, holds.2.imp fun index placed => placed.resolve_right fun between => by simp at between; omega⟩
  · have start : f.file.start session.fs offset.toNat = offset.toNat := by simp [OpenFile.start, inPlace]
    rw [same, start]
    refine ⟨holds.1, ?_⟩
    show Assembled content _ (Function.update session.fs.data f.file.ino _ f.file.ino)
    rw [Function.update_self]
    exact holds.2.store isBlock stores.nonempty

variable (digests) in
theorem holdsPart_step {input : Input} (found : session.handles.lookup handle = some (.file f))
    (inPlace : f.file.append = false) (sends : SendsBlocks handle f.file.ino content session input)
    (holds : HoldsPart content covered f.file.ino session.fs) :
    HoldsPart content (fun index => covered index ∨ AckedBy digests handle session input index) f.file.ino
      (sessionStep digests session input).2.fs := by
  rcases sends with ⟨id, offset, block, isWrite, isBlock⟩ | spares
  · obtain ⟨env, request⟩ := input
    obtain rfl : request = .write id handle offset block := isWrite
    cases answered : (write env id handle offset block session).1 with
    | error why =>
        have kept := holdsPart_write env id found inPlace isBlock holds
        refine ⟨kept.1, kept.2.imp fun index placed => placed.resolve_right ?_⟩
        rintro ⟨_, _, _, _, reply, same, ok, -⟩
        cases same
        exact absurd (answered.symm.trans ok) (by simp)
    | ok reply =>
        have stored := holdsPart_acked found inPlace isBlock holds answered
        refine ⟨stored.1, stored.2.imp fun index placed => placed.imp_right ?_⟩
        rintro ⟨_, _, _, _, _, same, -, place⟩
        cases same
        exact place
  · obtain ⟨used, same⟩ := keepsBytes_request digests spares holds.1
    refine ⟨used, ?_⟩
    rw [same]
    refine holds.2.imp fun index placed => placed.resolve_right ?_
    rintro ⟨_, _, _, _, _, rfl, -⟩
    exact spares f found rfl

theorem file_remains {input : Input} {before closed : List Text} (tracked : Tracked before closed session)
    (found : session.handles.lookup handle = some (.file f))
    (notEnded : handle ∉ (endedHandle input.2 (sessionStep digests session input).1).toList) :
    (sessionStep digests session input).2.handles.lookup handle = some (.file f) := by
  obtain ⟨entry, there, remains⟩ := (sessionStep_table digests input tracked.free).remains tracked.free found
    fun closes => notEnded (by simp [closes])
  cases entry with
  | file other => rw [there, show other = f from remains]
  | dir dir => cases remains

theorem holdsPart_run {inputs : List Input} {before closed : List Text} (tracked : Tracked before closed session)
    (few : (before ++ given digests session inputs).length < 2 ^ 64 - 1)
    (found : session.handles.lookup handle = some (.file f)) (notEnded : handle ∉ ended digests session inputs)
    (inPlace : f.file.append = false)
    (sends : Along (sessionStep digests) (SendsBlocks handle f.file.ino content) session inputs)
    (holds : HoldsPart content covered f.file.ino session.fs) :
    HoldsPart content (fun index => covered index ∨ Acked digests handle session inputs index) f.file.ino
      (run (sessionStep digests) session inputs).2.fs := by
  induction inputs generalizing session before closed covered with
  | nil =>
      refine ⟨holds.1, holds.2.imp fun index placed => placed.resolve_right ?_⟩
      rintro ⟨earlier, _, _, _, _, _, _, shape, -⟩
      cases earlier <;> cases shape
  | cons input rest ih =>
      obtain ⟨first, onward⟩ := sends
      have step := holdsPart_step digests found inPlace first holds
      rw [given_cons, ← List.append_assoc] at few
      rw [ended_cons, List.mem_append, not_or] at notEnded
      have final := ih (tracked.handled few) few (file_remains tracked found notEnded.1) notEnded.2 onward step
      refine ⟨final.1, final.2.imp fun index placed => ?_⟩
      rcases placed with placed | acked
      · exact .inl (.inl placed)
      · rcases acked.cases with now | later
        · exact .inl (.inr now)
        · exact .inr later

end Upload

section Opening
variable {digests : Digests} {session : Session}

def GaveFile (session after : Session) (env : RequestEnv) (filename handle : Text) (f : FileHandle) : Prop :=
  after.handles.lookup handle = some (.file f) ∧ ∃ path loc, resolve session.homeDir filename = .ok path ∧
    session.fs.locate env.os true path = .ok loc ∧ after.fs.tree.find loc = some (.file f.file.ino)

/-- The handle that an OPEN has given is the latest. -/
theorem Tracked.opened {before closed later : List Text} (tracked : Tracked before closed session) {env : RequestEnv}
    {id : UInt32} {filename handle : Text} {pflags : OpenFlags} {start : Session}
    (opened : sessionStep digests session (env, .open id filename pflags) = (.ok (.handle id handle), start))
    (few : (before ++ handle :: later).length < 2 ^ 64 - 1) : Tracked (before ++ [handle]) (closed ++ []) start := by
  have table := sessionStep_table digests (env, .open id filename pflags) tracked.free
  rw [opened] at table
  apply tracked.step table
  show (before ++ [handle]).length < 2 ^ 64 - 1
  simp only [List.length_append, List.length_cons, List.length_nil] at few ⊢
  omega

theorem open_emptied {before closed : List Text} (tracked : Tracked before closed session) (home : IsHome session.homeDir)
    {env : RequestEnv} {id : UInt32} {filename handle : Text} {pflags : OpenFlags} {start : Session}
    (truncates : pflags.truncate = true)
    (opened : sessionStep digests session (env, .open id filename pflags) = (.ok (.handle id handle), start)) :
    ∃ f, GaveFile session start env filename handle f ∧ f.file.append = false ∧
      start.fs.data f.file.ino = [] ∧ f.file.ino < start.fs.next := by
  obtain ⟨-, path, file, accepted, called⟩ := open_ok opened
  have table := sessionStep_table digests (env, .open id filename pflags) tracked.free
  rw [opened] at table
  obtain ⟨-, entry, ⟨path', file', fs', accepted', called', rfl⟩, there⟩ := table.given rfl
  cases accepted.symm.trans accepted'
  cases called.symm.trans called'
  obtain ⟨⟨loc, located, found⟩, empty, used, inPlace⟩ :=
    openFile_emptied (link_absolute home accepted) truncates called
  exact ⟨⟨file, pflags.wantsWrite⟩, ⟨there, path, loc, accepted, located, found⟩, inPlace, empty, used⟩

/-- Once the blocks that were answered OK cover the content, in whatever order and however
often they came, the file opened for them holds exactly the content. -/
theorem upload_exact (digests : Digests) (session start : Session) (before closed : List Text)
    (tracked : Tracked before closed session) (home : IsHome session.homeDir) (env : RequestEnv) (id : UInt32)
    (filename handle : Text) (pflags : OpenFlags) (truncates : pflags.truncate = true)
    (opened : sessionStep digests session (env, .open id filename pflags) = (.ok (.handle id handle), start)) :
    ∃ f, GaveFile session start env filename handle f ∧ ∀ (content : List UInt8) (inputs : List Input),
      (before ++ handle :: given digests start inputs).length < 2 ^ 64 - 1 → handle ∉ ended digests start inputs →
      Along (sessionStep digests) (SendsBlocks handle f.file.ino content) start inputs →
      (∀ index < content.length, Acked digests handle start inputs index) →
      (run (sessionStep digests) start inputs).2.fs.data f.file.ino = content := by
  obtain ⟨f, gave, inPlace, empty, used⟩ := open_emptied tracked home truncates opened
  refine ⟨f, gave, fun content inputs few notEnded sends all => ?_⟩
  have holds : HoldsPart content (fun _ => False) f.file.ino start.fs := by
    refine ⟨used, ?_⟩
    rw [empty]
    exact ⟨Nat.zero_le _, fun _ _ never => never.elim⟩
  have tracked' := tracked.opened opened few
  have final := holdsPart_run tracked' (by simpa using few) gave.1 notEnded inPlace sends holds
  exact final.2.whole fun index inside => .inr (all index inside)

def opensNew : Input := (permissiveEnv .full, .open 1 "f".toList { write := true, create := true, truncate := true })

def sendsBackwards : List Input :=
  [(permissiveEnv .full, .write 2 "h1".toList 1 [2, 3]), (permissiveEnv .full, .write 3 "h1".toList 0 [1])]

theorem upload_exact_backwards :
    let start := (sessionStep noDigests (sessionAt .empty) opensNew).2
    ∃ f, GaveFile (sessionAt .empty) start (permissiveEnv .full) "f".toList "h1".toList f ∧
      (run (sessionStep noDigests) start sendsBackwards).2.fs.data f.file.ino = [1, 2, 3] := by
  intro start
  obtain ⟨f, gave, final⟩ := upload_exact noDigests (sessionAt .empty) start [] []
    (tracked_new _ _ _ _ _ _ _) ⟨rfl, by decide⟩ (permissiveEnv .full) 1 "f".toList "h1".toList
    { write := true, create := true, truncate := true } rfl rfl
  refine ⟨f, gave, final [1, 2, 3] sendsBackwards (by decide) (by decide) ⟨?_, ?_, trivial⟩ ?_⟩
  · exact .inl ⟨2, 1, [2, 3], rfl, List.prefix_refl _⟩
  · exact .inl ⟨3, 0, [1], rfl, List.prefix_append _ [2, 3]⟩
  · intro index inside
    rcases Nat.eq_zero_or_pos index with rfl | later
    · exact ⟨[_], _, 3, 0, [1], [], .status 3 .ok, rfl, rfl, by decide, by decide⟩
    · exact ⟨[], _, 2, 1, [2, 3], [_], .status 2 .ok, rfl, rfl, later, inside⟩

end Opening

section Download

/-- What a client that reads on where it has got to receives. A read that fails is asked again. -/
inductive Fetched : Nat → List (Nat × UInt32 × Except StatusCode Reply) → List UInt8 → Prop where
  | ended {offset : Nat} {len : UInt32} {rest : List (Nat × UInt32 × Except StatusCode Reply)} (asked : 0 < len) :
      Fetched offset ((offset, len, .error .eof) :: rest) []
  | piece {offset : Nat} {len id : UInt32} {data : List UInt8} {rest : List (Nat × UInt32 × Except StatusCode Reply)}
      {more : List UInt8} (onward : Fetched (offset + data.length) rest more) :
      Fetched offset ((offset, len, .ok (.data id data)) :: rest) (data ++ more)
  | failed {offset : Nat} {len : UInt32} {why : StatusCode} {rest : List (Nat × UInt32 × Except StatusCode Reply)}
      {more : List UInt8} (other : why ≠ .eof) (again : Fetched offset rest more) :
      Fetched offset ((offset, len, .error why) :: rest) more

/-- The READ of this handle, with the place it asks for, and its answer. -/
def readOf (handle : Text) (exchange : Input × Except StatusCode Reply) :
    Option (Nat × UInt32 × Except StatusCode Reply) :=
  match exchange.1.2 with
  | .read _ other offset len => if other = handle then some (offset.toNat, len, exchange.2) else none
  | _ => none

def readings (digests : Digests) (handle : Text) (start : Session) (inputs : List Input) :
    List (Nat × UInt32 × Except StatusCode Reply) :=
  (exchanges digests start inputs).filterMap (readOf handle)

variable {digests : Digests} {session : Session} {env : RequestEnv} {handle : Text} {f : FileHandle}

theorem readings_cons (start : Session) (input : Input) (rest : List Input) :
    readings digests handle start (input :: rest) =
      (readOf handle (input, (sessionStep digests start input).1)).toList ++
        readings digests handle (sessionStep digests start input).2 rest := filterMap_cons_toList _ _ _

def piece (env : RequestEnv) (session : Session) (ino offset : Nat) (len : UInt32) : List UInt8 :=
  ((session.fs.data ino).drop offset).take (min (min len maxReadLen).toNat (env.os.chunk 0 + 1))

theorem ioStatus_ne_eof (why : ErrorKind) : ioStatus why ≠ .eof := by cases why <;> simp [ioStatus]

/-- A call that changes nothing either fails, not with EOF, or goes on from the same session. -/
theorem sys_followed {α β : Type} {call : Action FileSystem ErrorKind α} (kept : ReadOnly call) {next : α → Handled β}
    (final : Except StatusCode β × Session → Prop) (failed : ∀ why after, why ≠ .eof → final (.error why, after))
    (continued : ∀ value, call session.fs = (.ok value, session.fs) → final (next value session)) :
    final ((sys call >>= next) session) := by
  cases called : call session.fs with
  | mk result fs =>
      have same : fs = session.fs := by
        have unchanged := kept session.fs
        rwa [called] at unchanged
      subst same
      cases result with
      | error why =>
          have ran : sys call session = (.error (ioStatus why), session) := by
            simp only [sys, Action.zoom, called]
            rfl
          rw [Action.bind_run_error ran]
          exact failed _ _ (ioStatus_ne_eof why)
      | ok value =>
          have ran : sys call session = (.ok value, session) := sys_run called
          rw [Action.bind_run_ok ran]
          exact continued value called

variable (env) in
theorem read_cases (found : session.handles.lookup handle = some (.file f)) (id : UInt32) (offset : UInt64) (len : UInt32) :
    (∃ why, why ≠ .eof ∧ (read env id handle offset len session).1 = .error why) ∨
      (piece env session f.file.ino offset.toNat len = [] ∧ (read env id handle offset len session).1 = .error .eof) ∨
      (read env id handle offset len session).1 = .ok (.data id (piece env session f.file.ino offset.toNat len)) := by
  let final (result : Except StatusCode Reply × Session) := (∃ why, why ≠ .eof ∧ result.1 = .error why) ∨
    (piece env session f.file.ino offset.toNat len = [] ∧ result.1 = .error .eof) ∨
    result.1 = .ok (.data id (piece env session f.file.ino offset.toNat len))
  have failed : ∀ why after, why ≠ .eof → final (.error why, after) := fun why after other => .inl ⟨why, other, rfl⟩
  have handled : fileHandle handle session = (.ok f, session) := by
    rw [fileHandle, Action.query_run, found]
  show final (read env id handle offset len session)
  rw [read, Action.bind_run_ok handled]
  apply sys_followed (readOnly_seek _ _) final failed
  intro _ _
  apply sys_followed (readOnly_readAt _ _ _ _ _) final failed
  intro buf readBuf
  obtain rfl : piece env session f.file.ino offset.toNat len = buf := (readAt_ok readBuf).1.symm
  by_cases empty : piece env session f.file.ino offset.toNat len = []
  · refine .inr (.inl ⟨empty, ?_⟩)
    rw [empty]
    rfl
  · right; right
    have passed : (Action.check (decide (piece env session f.file.ino offset.toNat len ≠ [])) StatusCode.eof : Handled Unit)
        session = (.ok (), session) := by simp [Action.check_run, empty]
    rw [Action.bind_run_ok passed]
    rfl

theorem piece_onward (ino offset : Nat) (len : UInt32) :
    piece env session ino offset len ++
      (session.fs.data ino).drop (offset + (piece env session ino offset len).length) =
        (session.fs.data ino).drop offset := by
  rw [← List.drop_drop]
  exact List.prefix_iff_eq_append.mp (List.take_prefix _ _)

theorem piece_exhausted {ino offset : Nat} {len : UInt32} (asked : 0 < len)
    (empty : piece env session ino offset len = []) : (session.fs.data ino).drop offset = [] := by
  have room : 0 < (min len maxReadLen).toNat := by
    show 0 < (if len ≤ maxReadLen then len else maxReadLen).toNat
    split
    · exact UInt32.lt_iff_toNat_lt.mp asked
    · decide
  rcases List.take_eq_nil_iff.mp empty with none | done
  · omega
  · exact done

theorem readOf_some {input : Input} {result : Except StatusCode Reply}
    {asked : Nat × UInt32 × Except StatusCode Reply} (isRead : readOf handle (input, result) = some asked) :
    ∃ env id offset len, input = (env, .read id handle offset len) ∧ asked = (offset.toNat, len, result) := by
  obtain ⟨env, request⟩ := input
  cases request with
  | read id other offset len =>
      simp only [readOf] at isRead
      split at isRead
      · rename_i same
        exact ⟨env, id, offset, len, by rw [same], (Option.some.inj isRead).symm⟩
      · cases isRead
  | _ => cases isRead

/-- One READ on the way: either way its client has what is left from here on. -/
theorem fetched_read (found : session.handles.lookup handle = some (.file f)) {id : UInt32} {place : UInt64} {len : UInt32}
    {data bytes : List UInt8} {rest : List (Nat × UInt32 × Except StatusCode Reply)}
    (same : session.fs.data f.file.ino = data)
    (later : ∀ offset bytes, Fetched offset rest bytes → bytes = data.drop offset) {offset : Nat}
    (fetched : Fetched offset ((place.toNat, len, (read env id handle place len session).1) :: rest) bytes) :
    bytes = data.drop offset := by
  subst same
  rcases read_cases env found id place len with ⟨why, other, answer⟩ | ⟨empty, answer⟩ | answer
  all_goals rw [answer] at fetched
  · cases fetched with
    | ended _ => exact absurd rfl other
    | failed _ again => exact later _ _ again
  · cases fetched with
    | ended asked => exact (piece_exhausted asked empty).symm
    | failed other _ => exact absurd rfl other
  · cases fetched with
    | piece onward => rw [later _ _ onward, piece_onward]

theorem fetched_run {inputs : List Input} {before closed : List Text} (tracked : Tracked before closed session)
    (few : (before ++ given digests session inputs).length < 2 ^ 64 - 1)
    (found : session.handles.lookup handle = some (.file f)) (notEnded : handle ∉ ended digests session inputs)
    (used : f.file.ino < session.fs.next) (spares : Along (sessionStep digests) (Spares f.file.ino) session inputs)
    {offset : Nat} {bytes : List UInt8} (fetched : Fetched offset (readings digests handle session inputs) bytes) :
    bytes = (session.fs.data f.file.ino).drop offset := by
  induction inputs generalizing session before closed offset bytes with
  | nil => cases fetched
  | cons input rest ih =>
      obtain ⟨first, onward⟩ := spares
      obtain ⟨used', same⟩ := keepsBytes_request digests first used
      rw [given_cons, ← List.append_assoc] at few
      rw [ended_cons, List.mem_append, not_or] at notEnded
      have later : ∀ offset bytes, Fetched offset (readings digests handle (sessionStep digests session input).2 rest) bytes →
          bytes = (session.fs.data f.file.ino).drop offset := by
        intro offset bytes fetched
        rw [← same]
        exact ih (tracked.handled few) few (file_remains tracked found notEnded.1) notEnded.2 used' onward fetched
      rw [readings_cons] at fetched
      cases isRead : readOf handle (input, (sessionStep digests session input).1) with
      | none =>
          rw [isRead] at fetched
          exact later _ _ fetched
      | some asked =>
          rw [isRead] at fetched
          obtain ⟨env, id, place, len, rfl, rfl⟩ := readOf_some isRead
          exact fetched_read found rfl later fetched

/-- An OPEN that does not truncate returns a handle for the file its path leads to. -/
theorem open_finds {before closed : List Text} (tracked : Tracked before closed session) {id : UInt32}
    {filename : Text} {pflags : OpenFlags} (keeps : pflags.truncate = false) {path : PathBuf} {loc : Loc} {ino : Nat}
    (accepted : resolve session.homeDir filename = .ok path)
    (leads : ∀ loc', session.fs.locate env.os true path = .ok loc' → loc' = loc)
    (found : session.fs.tree.find loc = some (.file ino)) {start : Session}
    (opened : sessionStep digests session (env, .open id filename pflags) = (.ok (.handle id handle), start)) :
    ∃ f, start.handles.lookup handle = some (.file f) ∧ f.file.ino = ino ∧ start.fs = session.fs := by
  obtain ⟨-, path', file, accepted', called⟩ := open_ok opened
  have table := sessionStep_table digests (env, .open id filename pflags) tracked.free
  rw [opened] at table
  obtain ⟨-, entry, ⟨path'', file', fs', accepted'', called', rfl⟩, there⟩ := table.given rfl
  cases accepted.symm.trans accepted'
  cases accepted.symm.trans accepted''
  cases called.symm.trans called'
  obtain ⟨loc', located⟩ := openFile_located called
  obtain rfl := leads loc' located
  obtain ⟨same, rfl⟩ := openFile_kept keeps located found called
  exact ⟨⟨file, pflags.wantsWrite⟩, there, rfl, same⟩

/-- A client that reads a file on to its end gets the bytes it had when it was opened, however
the pieces fall and whatever else happens on the session in between. -/
theorem download_exact (digests : Digests) (session start : Session) (before closed : List Text)
    (tracked : Tracked before closed session) (env : RequestEnv) (id : UInt32) (filename handle : Text)
    (pflags : OpenFlags) (keeps : pflags.truncate = false) (path : PathBuf) (loc : Loc) (ino : Nat)
    (accepted : resolve session.homeDir filename = .ok path) (located : session.fs.locate env.os true path = .ok loc)
    (found : session.fs.tree.find loc = some (.file ino))
    (opened : sessionStep digests session (env, .open id filename pflags) = (.ok (.handle id handle), start))
    (inputs : List Input) (few : (before ++ handle :: given digests start inputs).length < 2 ^ 64 - 1)
    (notEnded : handle ∉ ended digests start inputs) (spares : Along (sessionStep digests) (Spares ino) start inputs)
    (bytes : List UInt8) (fetched : Fetched 0 (readings digests handle start inputs) bytes) :
    bytes = session.fs.data ino := by
  have leads : ∀ loc', session.fs.locate env.os true path = .ok loc' → loc' = loc :=
    fun _ located' => (Except.ok.inj (located.symm.trans located')).symm
  obtain ⟨f, there, rfl, same⟩ := open_finds tracked keeps accepted leads found opened
  have tracked' := tracked.opened opened few
  have used : f.file.ino < start.fs.next := by
    rw [same]
    exact find_lt_next found
  rw [fetched_run tracked' (by simpa using few) there notEnded used spares fetched, List.drop_zero, same]

def threeBytesStored : Session := sessionAt (FileSystem.empty.addFile "f".toList [1, 2, 3])

def readsOn : List Input :=
  [(permissiveEnv .full, .read 2 "h1".toList 0 2), (permissiveEnv .full, .mkdir 3 "d".toList),
    (permissiveEnv .full, .read 4 "h1".toList 2 2), (permissiveEnv .full, .read 5 "h1".toList 3 2)]

theorem download_exact_pieces :
    Fetched 0 (readings noDigests "h1".toList
      (sessionStep noDigests threeBytesStored (permissiveEnv .full, .open 1 "f".toList { read := true })).2 readsOn) [1, 2, 3] ∧
    [1, 2, 3] = threeBytesStored.fs.data 1 := by
  have fetched : Fetched 0 (readings noDigests "h1".toList
      (sessionStep noDigests threeBytesStored (permissiveEnv .full, .open 1 "f".toList { read := true })).2 readsOn) [1, 2, 3] :=
    Fetched.piece (.piece (.ended (by decide)))
  refine ⟨fetched, ?_⟩
  exact download_exact noDigests threeBytesStored _ [] [] (tracked_new _ _ _ _ _ _ _) (permissiveEnv .full) 1 "f".toList
    "h1".toList { read := true } rfl (.ofNames ["f".toList]) ["f".toList] 1 (by decide) (by decide) (by decide) rfl readsOn
    (by decide) (by decide) ⟨trivial, trivial, trivial, trivial, trivial⟩ _ fetched

end Download

end Wftpd.Sftp
